import OxDeAI.Core.CanonicalJson

/-! What canonical JSON accepts and the value its text stands for. Equal texts
stand for equal normal forms. -/

namespace OxDeAI

open Js

/-- Members in the order the canonical text lists them. -/
def sortMembers {β : Type*} (es : List (JsString × β)) : List (JsString × β) :=
  (sortUtf8Lex (es.map Prod.fst)).filterMap (fun k => (ownEntry k es).map (fun v => (k, v)))

section

variable (nfc : JsString → JsString)

mutual

/-- The JSON value that canonicalization writes down. -/
def normalForm : JsValue → JsValue
  | .str s => .str (nfc s)
  | .bigint z => .str (decimal z)
  | .arr xs => .arr (normalElements xs)
  | .obj es => .obj (sortMembers (normalMembers es))
  | .instance es => .obj (sortMembers (normalMembers es))
  | .null => .null
  | .bool b => .bool b
  | .num n => .num n
  | .undefined => .undefined
  | .function => .function
  | .symbol => .symbol

def normalElements : List JsValue → List JsValue
  | [] => []
  | x :: xs => normalForm x :: normalElements xs

def normalMembers : List (JsString × JsValue) → List (JsString × JsValue)
  | [] => []
  | (k, v) :: es => (nfc k, normalForm v) :: normalMembers es

end

/-- Members that canonicalization lets through. -/
structure CanonicalMembers (es : List (JsString × JsValue)) : Prop where
  nodup : (es.map (fun e => nfc e.1)).Nodup
  timestamp : ∀ e ∈ es, nfc e.1 = tsKey → isTimestamp e.2 = true

/-- The canonical data model. -/
inductive Canonical : JsValue → Prop
  | null : Canonical .null
  | bool (b : Bool) : Canonical (.bool b)
  | str (s : JsString) : Canonical (.str s)
  | int {z : ℤ} (h : z.natAbs ≤ JsNumber.maxSafeInteger) : Canonical (.num (.int z))
  | bigint (z : ℤ) : Canonical (.bigint z)
  | arr {xs : List JsValue} (h : ∀ x ∈ xs, Canonical x) : Canonical (.arr xs)
  | obj {es : List (JsString × JsValue)} (hm : CanonicalMembers nfc es)
      (h : ∀ e ∈ es, Canonical e.2) : Canonical (.obj es)
  | inst {es : List (JsString × JsValue)} (hm : CanonicalMembers nfc es)
      (h : ∀ e ∈ es, Canonical e.2) : Canonical (.instance es)

theorem normalElements_eq_map (xs : List JsValue) :
    normalElements nfc xs = xs.map (normalForm nfc) := by
  induction xs with
  | nil => rfl
  | cons x xs ih => rw [normalElements, ih, List.map_cons]

theorem normalMembers_eq_map (es : List (JsString × JsValue)) :
    normalMembers nfc es = es.map (fun e => (nfc e.1, normalForm nfc e.2)) := by
  induction es with
  | nil => rfl
  | cons e es ih => rw [normalMembers, ih, List.map_cons]

end

theorem mem_sortUtf8Lex {k : JsString} {keys : List JsString} : k ∈ sortUtf8Lex keys ↔ k ∈ keys :=
  List.mem_insertionSort _

theorem nodup_sortUtf8Lex {keys : List JsString} : (sortUtf8Lex keys).Nodup ↔ keys.Nodup :=
  (List.perm_insertionSort _ keys).nodup_iff

theorem keys_sortMembers {β : Type*} (es : List (JsString × β)) :
    (sortMembers es).map Prod.fst = sortUtf8Lex (es.map Prod.fst) := by
  have hgen : ∀ ks : List JsString, (∀ k ∈ ks, k ∈ es.map Prod.fst) →
      (ks.filterMap (fun k => (ownEntry k es).map (fun v => (k, v)))).map Prod.fst = ks := by
    intro ks hks
    induction ks with
    | nil => rfl
    | cons k ks ih =>
      obtain ⟨v, hv⟩ := Option.isSome_iff_exists.mp (ownEntry_isSome.mpr (hks k (by simp)))
      simp [hv, ih (fun x hx => hks x (by simp [hx]))]
  exact hgen _ (fun k hk => mem_sortUtf8Lex.mp hk)

theorem mem_of_mem_sortMembers {β : Type*} {es : List (JsString × β)} {e : JsString × β}
    (h : e ∈ sortMembers es) : e ∈ es := by
  obtain ⟨k, -, hk⟩ := List.mem_filterMap.mp h
  obtain ⟨v, hv, rfl⟩ := Option.map_eq_some_iff.mp hk
  exact ownEntry_mem hv

theorem mem_sortMembers {β : Type*} {es : List (JsString × β)} (hnd : (es.map Prod.fst).Nodup)
    {e : JsString × β} : e ∈ sortMembers es ↔ e ∈ es := by
  refine ⟨mem_of_mem_sortMembers, fun h => ?_⟩
  refine List.mem_filterMap.mpr ⟨e.1, mem_sortUtf8Lex.mpr (List.mem_map.mpr ⟨e, h, rfl⟩), ?_⟩
  rw [ownEntry_of_mem hnd h, Option.map_some]

/-- Induction over a runtime value by its elements and members. -/
theorem jsValue_induction {motive : JsValue → Prop} (null : motive .null)
    (bool : ∀ b, motive (.bool b)) (str : ∀ s, motive (.str s)) (num : ∀ n, motive (.num n))
    (bigint : ∀ z, motive (.bigint z)) (undefined : motive .undefined)
    (function : motive .function) (symbol : motive .symbol)
    (arr : ∀ xs, (∀ x ∈ xs, motive x) → motive (.arr xs))
    (obj : ∀ es, (∀ e ∈ es, motive e.2) → motive (.obj es))
    (inst : ∀ es, (∀ e ∈ es, motive e.2) → motive (.instance es)) (v : JsValue) : motive v :=
  JsValue.rec (motive_1 := motive) (motive_2 := fun xs => ∀ x ∈ xs, motive x)
    (motive_3 := fun es => ∀ e ∈ es, motive e.2) (motive_4 := fun e => motive e.2)
    null bool str num bigint undefined function symbol arr obj inst
    (by simp) (fun _ _ hx hxs => List.forall_mem_cons.mpr ⟨hx, hxs⟩)
    (by simp) (fun _ _ he hes => List.forall_mem_cons.mpr ⟨he, hes⟩) (fun _ _ h => h) v

theorem find?_map_entries {β : Type*} (f : JsString × JsValue → β) (k : JsString)
    (es : List (JsString × JsValue)) (g : JsString → JsString) :
    (es.map (fun e => (g e.1, f e))).find? (fun e => e.1 = k) =
      (es.find? (fun e => g e.1 = k)).map (fun e => (g e.1, f e)) := by
  rw [List.find?_map]
  rfl

section

variable {nfc : JsString → JsString}

theorem ownEntry_normalMembers {es : List (JsString × JsValue)}
    (hnd : (es.map (fun e => nfc e.1)).Nodup) {e : JsString × JsValue} (he : e ∈ es) :
    ownEntry (nfc e.1) (normalMembers nfc es) = some (normalForm nfc e.2) := by
  apply ownEntry_of_mem
  · rw [normalMembers_eq_map, List.map_map]
    exact hnd
  · rw [normalMembers_eq_map]
    exact List.mem_map.mpr ⟨e, he, rfl⟩

theorem canonicalMember_ok {es : List (JsString × JsValue)}
    (hnd : (es.map (fun e => nfc e.1)).Nodup) {e : JsString × JsValue} (he : e ∈ es)
    (ih : ∀ t, canonicalizeToJson nfc e.2 = .ok t ↔
      Canonical nfc e.2 ∧ t = jsonText (normalForm nfc e.2)) (t : JsString) :
    canonicalMember (normalizedEntries nfc es) (nfc e.1) = .ok t ↔
      ((nfc e.1 = tsKey → isTimestamp e.2 = true) ∧ Canonical nfc e.2) ∧
        t = memberText (nfc e.1, normalForm nfc e.2) := by
  have hfind : es.find? (fun e' => nfc e'.1 = nfc e.1) = some e := by
    obtain ⟨e', he'⟩ := Option.isSome_iff_exists.mp
      (List.find?_isSome.mpr ⟨e, he, by simp⟩ :
        (es.find? (fun e' => nfc e'.1 = nfc e.1)).isSome = true)
    have hk : nfc e'.1 = nfc e.1 := by simpa using List.find?_some he'
    rw [he', List.inj_on_of_nodup_map hnd (List.mem_of_find?_eq_some he') he hk]
  rw [canonicalMember, normalizedEntries_eq_map,
    find?_map_entries (fun e => (e.2, canonicalizeToJson nfc e.2)) (nfc e.1) es nfc, hfind]
  simp only [Option.map_some]
  by_cases hts : nfc e.1 = tsKey ∧ isTimestamp e.2 = false
  · rw [if_pos hts]
    simp [hts.1, hts.2]
  · rw [if_neg hts]
    have hts' : nfc e.1 = tsKey → isTimestamp e.2 = true := by
      intro hk
      by_contra hb
      exact hts ⟨hk, by simpa using hb⟩
    cases hc : canonicalizeToJson nfc e.2 with
    | error err =>
      have hno : ¬ Canonical nfc e.2 := fun hcan => by
        have := (ih (jsonText (normalForm nfc e.2))).mpr ⟨hcan, rfl⟩
        rw [hc] at this
        cases this
      exact ⟨fun h => (by cases h), fun h => absurd h.1.2 hno⟩
    | ok s =>
      obtain ⟨hcan, rfl⟩ := (ih s).mp hc
      simp only [Except.map, Except.ok.injEq]
      exact ⟨fun h => ⟨⟨hts', hcan⟩, h.symm⟩, fun h => h.2.symm⟩

theorem canonicalObject_ok {es : List (JsString × JsValue)}
    (ih : ∀ e ∈ es, ∀ t, canonicalizeToJson nfc e.2 = .ok t ↔
      Canonical nfc e.2 ∧ t = jsonText (normalForm nfc e.2)) (t : JsString) :
    canonicalObject (normalizedEntries nfc es) = .ok t ↔
      (CanonicalMembers nfc es ∧ ∀ e ∈ es, Canonical nfc e.2) ∧
        t = jsonText (.obj (sortMembers (normalMembers nfc es))) := by
  have hkeys : (normalizedEntries nfc es).map Prod.fst = es.map (fun e => nfc e.1) := by
    rw [normalizedEntries_eq_map, List.map_map]
    rfl
  have hkeys' : (normalMembers nfc es).map Prod.fst = es.map (fun e => nfc e.1) := by
    rw [normalMembers_eq_map, List.map_map]
    rfl
  rw [canonicalObject, hkeys]
  by_cases hnd : (es.map (fun e => nfc e.1)).Nodup
  · rw [if_pos hnd, map_eq_ok]
    -- Every sorted key is the normalized key of one entry, whose member text it yields.
    have hstep : ∀ k ∈ sortUtf8Lex (es.map (fun e => nfc e.1)), ∀ y,
        canonicalMember (normalizedEntries nfc es) k = .ok y ↔
          (∀ e ∈ es, nfc e.1 = k →
            (k = tsKey → isTimestamp e.2 = true) ∧ Canonical nfc e.2) ∧
          y = (((ownEntry k (normalMembers nfc es)).map (fun v => memberText (k, v))).getD []) := by
      intro k hk y
      obtain ⟨e, he, rfl⟩ := List.mem_map.mp (mem_sortUtf8Lex.mp hk)
      rw [canonicalMember_ok hnd he (ih e he), ownEntry_normalMembers hnd he]
      simp only [Option.map_some, Option.getD_some]
      refine and_congr_left fun _ => ⟨?_, fun h => h e he rfl⟩
      rintro hh e' he' hk'
      rw [List.inj_on_of_nodup_map hnd he' he hk']
      exact hh
    have hparts : (sortUtf8Lex (es.map (fun e => nfc e.1))).map
        (fun k => (((ownEntry k (normalMembers nfc es)).map (fun v => memberText (k, v))).getD [])) =
          (sortMembers (normalMembers nfc es)).map memberText := by
      rw [sortMembers, hkeys', List.map_filterMap]
      have hall : ∀ k ∈ sortUtf8Lex (es.map (fun e => nfc e.1)),
          ∃ v, ownEntry k (normalMembers nfc es) = some v := by
        intro k hk
        obtain ⟨e, he, rfl⟩ := List.mem_map.mp (mem_sortUtf8Lex.mp hk)
        exact ⟨_, ownEntry_normalMembers hnd he⟩
      generalize sortUtf8Lex (es.map (fun e => nfc e.1)) = ks at hall
      induction ks with
      | nil => rfl
      | cons k ks ihk =>
        obtain ⟨v, hv⟩ := hall k (by simp)
        simp [hv, ihk (fun x hx => hall x (by simp [hx]))]
    have hcond : (∀ k ∈ sortUtf8Lex (es.map (fun e => nfc e.1)), ∀ e ∈ es, nfc e.1 = k →
        (k = tsKey → isTimestamp e.2 = true) ∧ Canonical nfc e.2) ↔
          CanonicalMembers nfc es ∧ ∀ e ∈ es, Canonical nfc e.2 := by
      constructor
      · intro h
        have hh : ∀ e ∈ es, (nfc e.1 = tsKey → isTimestamp e.2 = true) ∧ Canonical nfc e.2 :=
          fun e he => h _ (mem_sortUtf8Lex.mpr (List.mem_map.mpr ⟨e, he, rfl⟩)) e he rfl
        exact ⟨⟨hnd, fun e he => (hh e he).1⟩, fun e he => (hh e he).2⟩
      · rintro ⟨hm, hc⟩ k - e he rfl
        exact ⟨hm.timestamp e he, hc e he⟩
    have hm := fun parts => @mapM_ok_iff _ _ _ _ _ _ _ parts hstep
    simp only [hm, hparts, hcond]
    constructor
    · rintro ⟨parts, ⟨hc, rfl⟩, rfl⟩
      exact ⟨hc, by rw [jsonText, jsonMembers_eq_map]⟩
    · rintro ⟨hc, rfl⟩
      exact ⟨_, ⟨hc, rfl⟩, by rw [jsonText, jsonMembers_eq_map]⟩
  · rw [if_neg hnd]
    simp only [reduceCtorEq, false_iff, not_and]
    exact fun h => absurd h.1.nodup hnd

/-- Canonicalization accepts exactly the canonical data model and writes the
text of the normal form. -/
theorem canonicalizeToJson_ok (v : JsValue) (t : JsString) :
    canonicalizeToJson nfc v = .ok t ↔ Canonical nfc v ∧ t = jsonText (normalForm nfc v) := by
  induction v using jsValue_induction generalizing t with
  | null => simp [canonicalizeToJson, normalForm, jsonText, Canonical.null, eq_comm]
  | bool b => simp [canonicalizeToJson, normalForm, jsonText, Canonical.bool, eq_comm]
  | str s => simp [canonicalizeToJson, normalForm, jsonText, Canonical.str, eq_comm]
  | num n =>
    cases n with
    | int z =>
      by_cases hz : z.natAbs ≤ JsNumber.maxSafeInteger
      · simp [canonicalizeToJson, normalForm, jsonText, Canonical.int hz, hz, eq_comm]
      · have : ¬ Canonical nfc (.num (.int z)) := fun h => by cases h; contradiction
        simp [canonicalizeToJson, hz, this]
    | frac q h =>
      have : ¬ Canonical nfc (.num (.frac q h)) := fun h => by cases h
      simp [canonicalizeToJson, this]
    | nan =>
      have : ¬ Canonical nfc (.num .nan) := fun h => by cases h
      simp [canonicalizeToJson, this]
    | posInf =>
      have : ¬ Canonical nfc (.num .posInf) := fun h => by cases h
      simp [canonicalizeToJson, this]
    | negInf =>
      have : ¬ Canonical nfc (.num .negInf) := fun h => by cases h
      simp [canonicalizeToJson, this]
  | bigint z => simp [canonicalizeToJson, normalForm, jsonText, Canonical.bigint, eq_comm]
  | undefined =>
    have : ¬ Canonical nfc .undefined := fun h => by cases h
    simp [canonicalizeToJson, this]
  | function =>
    have : ¬ Canonical nfc .function := fun h => by cases h
    simp [canonicalizeToJson, this]
  | symbol =>
    have : ¬ Canonical nfc .symbol := fun h => by cases h
    simp [canonicalizeToJson, this]
  | arr xs ih =>
    have hc : Canonical nfc (.arr xs) ↔ ∀ x ∈ xs, Canonical nfc x :=
      ⟨fun h => by cases h; assumption, .arr⟩
    rw [canonicalizeToJson, canonicalElements_eq_mapM, map_eq_ok, hc]
    have hm := fun parts => @mapM_ok_iff _ _ _ _ _ _ _ parts ih
    simp only [hm, normalForm, normalElements_eq_map, jsonText, jsonTexts_eq_map, List.map_map]
    constructor
    · rintro ⟨parts, ⟨hc, rfl⟩, rfl⟩
      exact ⟨hc, rfl⟩
    · rintro ⟨hc, rfl⟩
      exact ⟨_, ⟨hc, rfl⟩, rfl⟩
  | obj es ih =>
    have hc : Canonical nfc (.obj es) ↔ CanonicalMembers nfc es ∧ ∀ e ∈ es, Canonical nfc e.2 :=
      ⟨fun h => by cases h; exact ⟨‹_›, ‹_›⟩, fun h => .obj h.1 h.2⟩
    rw [canonicalizeToJson, canonicalObject_ok ih, hc, normalForm]
  | inst es ih =>
    have hc : Canonical nfc (.instance es) ↔ CanonicalMembers nfc es ∧ ∀ e ∈ es, Canonical nfc e.2 :=
      ⟨fun h => by cases h; exact ⟨‹_›, ‹_›⟩, fun h => .inst h.1 h.2⟩
    rw [canonicalizeToJson, canonicalObject_ok ih, hc, normalForm]

theorem isJson_members {es : List (JsString × JsValue)} (hm : CanonicalMembers nfc es)
    (ih : ∀ e ∈ es, IsJson (normalForm nfc e.2)) :
    IsJson (.obj (sortMembers (normalMembers nfc es))) := by
  refine .obj ?_ ?_
  · rw [keys_sortMembers, nodup_sortUtf8Lex, normalMembers_eq_map, List.map_map]
    exact hm.nodup
  · intro e he
    have := mem_of_mem_sortMembers he
    rw [normalMembers_eq_map] at this
    obtain ⟨e', he', rfl⟩ := List.mem_map.mp this
    exact ih e' he'

theorem isJson_normalForm {v : JsValue} (h : Canonical nfc v) : IsJson (normalForm nfc v) := by
  induction h with
  | null => exact .null
  | bool b => exact .bool b
  | str s => exact .str _
  | int hz => exact .int hz
  | bigint z => exact .str _
  | arr _ ih =>
    rw [normalForm, normalElements_eq_map]
    refine .arr fun y hy => ?_
    obtain ⟨x, hx, rfl⟩ := List.mem_map.mp hy
    exact ih x hx
  | obj hm _ ih =>
    rw [normalForm]
    exact isJson_members hm ih
  | inst hm _ ih =>
    rw [normalForm]
    exact isJson_members hm ih

theorem normalForm_eq_of_canonicalJson_eq {v w : JsValue} {t : JsString}
    (hv : canonicalJson nfc v = .ok t) (hw : canonicalJson nfc w = .ok t) :
    normalForm nfc v = normalForm nfc w := by
  obtain ⟨hcv, ht⟩ := (canonicalizeToJson_ok v t).mp hv
  obtain ⟨hcw, ht'⟩ := (canonicalizeToJson_ok w t).mp hw
  exact jsonText_inj (isJson_normalForm hcv) (isJson_normalForm hcw) (ht.symm.trans ht')

end

end OxDeAI
