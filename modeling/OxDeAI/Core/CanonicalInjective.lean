import OxDeAI.Core.CanonicalFields
import Mathlib.Data.List.Perm.Basic

/-! When two values have the same canonical text. Member order is only fixed by the
UTF-8 encodings of the keys, which ill-formed strings may share. -/

namespace OxDeAI

open Js

/-- Values of the data model. The keys of an object are distinct. -/
inductive DataModel : JsValue → Prop
  | null : DataModel .null
  | bool (b : Bool) : DataModel (.bool b)
  | str (s : JsString) : DataModel (.str s)
  | int {z : ℤ} (h : z.natAbs ≤ JsNumber.maxSafeInteger) : DataModel (.num (.int z))
  | bigint (z : ℤ) : DataModel (.bigint z)
  | arr {xs : List JsValue} (h : ∀ x ∈ xs, DataModel x) : DataModel (.arr xs)
  | obj {es : List (JsString × JsValue)} (hnd : (es.map Prod.fst).Nodup) (h : ∀ e ∈ es, DataModel e.2) :
    DataModel (.obj es)

section

variable (nfc : JsString → JsString)

/-- The normal form of a string, and the decimal string of a bigint. -/
def textOf : JsValue → Option JsString
  | .str s => some (nfc s)
  | .bigint z => some (decimal z)
  | _ => none

/-- Equality up to the order of keys, the normal form of strings and keys, and
bigints that are their decimal strings. -/
inductive SameData : JsValue → JsValue → Prop
  | null : SameData .null .null
  | bool (b : Bool) : SameData (.bool b) (.bool b)
  | int (z : ℤ) : SameData (.num (.int z)) (.num (.int z))
  | text {v w : JsValue} {s : JsString} (hv : textOf nfc v = some s) (hw : textOf nfc w = some s) : SameData v w
  | arr {xs ys : List JsValue} (hlen : xs.length = ys.length) (h : ∀ p ∈ xs.zip ys, SameData p.1 p.2) :
    SameData (.arr xs) (.arr ys)
  | obj {es fs gs : List (JsString × JsValue)} (hlen : es.length = gs.length)
      (hkey : ∀ p ∈ es.zip gs, nfc p.1.1 = nfc p.2.1) (hvalue : ∀ p ∈ es.zip gs, SameData p.1.2 p.2.2)
      (perm : gs.Perm fs) : SameData (.obj es) (.obj fs)

/-- The keys of each object have distinct UTF-8 encodings. -/
inductive DistinctEncodings : JsValue → Prop
  | leaf {v : JsValue} (harr : ∀ xs, v ≠ .arr xs) (hobj : ∀ es, v ≠ .obj es) : DistinctEncodings v
  | arr {xs : List JsValue} (h : ∀ x ∈ xs, DistinctEncodings x) : DistinctEncodings (.arr xs)
  | obj {es : List (JsString × JsValue)} (hnd : (es.map (fun e => utf8Encode (nfc e.1))).Nodup)
      (h : ∀ e ∈ es, DistinctEncodings e.2) : DistinctEncodings (.obj es)

end

abbrev Utf8Le (a b : JsString) : Prop := utf8Encode a ≤ utf8Encode b

theorem pairwise_sortUtf8Lex (keys : List JsString) : (sortUtf8Lex keys).Pairwise Utf8Le := by
  have htotal : Std.Total Utf8Le := ⟨fun a b => le_total (utf8Encode a) (utf8Encode b)⟩
  have htrans : IsTrans JsString Utf8Le := ⟨fun _ _ _ => le_trans⟩
  exact List.pairwise_insertionSort Utf8Le keys

theorem sortUtf8Lex_eq_self {keys : List JsString} (h : keys.Pairwise Utf8Le) : sortUtf8Lex keys = keys :=
  List.Pairwise.insertionSort_eq h

/-- Keys with distinct encodings have one order. -/
theorem sortUtf8Lex_perm {keys keys' : List JsString} (h : keys.Perm keys') (hnd : (keys.map utf8Encode).Nodup) :
    sortUtf8Lex keys = sortUtf8Lex keys' := by
  have hperm : (sortUtf8Lex keys).Perm (sortUtf8Lex keys') :=
    ((List.perm_insertionSort _ keys).trans h).trans (List.perm_insertionSort _ keys').symm
  refine hperm.eq_of_pairwise ?_ (pairwise_sortUtf8Lex keys) (pairwise_sortUtf8Lex keys')
  intro a b ha hb hab hba
  have ha' := mem_sortUtf8Lex.mp ha
  have hb' := h.mem_iff.mpr (mem_sortUtf8Lex.mp hb)
  exact List.inj_on_of_nodup_map hnd ha' hb' (le_antisymm hab hba)

theorem sortMembers_perm {β : Type*} {es fs : List (JsString × β)} (h : es.Perm fs)
    (hnd : ((es.map Prod.fst).map utf8Encode).Nodup) : sortMembers es = sortMembers fs := by
  have hkeys := List.Nodup.of_map utf8Encode hnd
  rw [sortMembers, sortMembers, sortUtf8Lex_perm (h.map Prod.fst) hnd]
  apply List.filterMap_congr
  intro k _
  rw [ownEntry_perm h hkeys]

/-- Members that are in order stay as they are. -/
theorem sortMembers_eq_self {β : Type*} {es : List (JsString × β)} (hnd : (es.map Prod.fst).Nodup)
    (h : (es.map Prod.fst).Pairwise Utf8Le) : sortMembers es = es := by
  rw [sortMembers, sortUtf8Lex_eq_self h, List.filterMap_map]
  have hall : ∀ e ∈ es, ((fun k => (ownEntry k es).map (fun v => (k, v))) ∘ Prod.fst) e = some e := by
    intro e he
    simp only [Function.comp_apply, ownEntry_of_mem hnd he, Option.map_some]
  rw [List.filterMap_congr hall, List.filterMap_some]

theorem perm_sortMembers {β : Type*} {es : List (JsString × β)} (hnd : (es.map Prod.fst).Nodup) :
    (sortMembers es).Perm es := by
  have hnd' : ((sortMembers es).map Prod.fst).Nodup := by
    rw [keys_sortMembers]
    exact nodup_sortUtf8Lex.mpr hnd
  apply (List.perm_ext_iff_of_nodup hnd'.of_map hnd.of_map).mpr
  intro e
  exact mem_sortMembers hnd

section

variable {nfc : JsString → JsString}

theorem normalMembers_keys (es : List (JsString × JsValue)) :
    (normalMembers nfc es).map Prod.fst = es.map (fun e => nfc e.1) := by
  rw [normalMembers_eq_map, List.map_map]
  rfl

theorem normalForm_textOf {v : JsValue} {s : JsString} (h : textOf nfc v = some s) :
    normalForm nfc v = .str s := by
  cases v <;> simp_all [textOf, normalForm]

theorem textOf_normalForm {v : JsValue} {s : JsString} (h : normalForm nfc v = .str s) : textOf nfc v = some s := by
  cases v <;> simp_all [textOf, normalForm]

theorem map_eq_zip {α β γ : Type*} {f : α → γ} {g : β → γ} {xs : List α} {ys : List β} (h : xs.map f = ys.map g) :
    xs.length = ys.length ∧ ∀ p ∈ xs.zip ys, f p.1 = g p.2 := by
  have hlen : xs.length = ys.length := by
    have := congrArg List.length h
    simpa using this
  refine ⟨hlen, ?_⟩
  have hforall : List.Forall₂ (fun x y => f x = g y) xs ys := by
    rw [← List.forall₂_map_right_iff, ← List.forall₂_map_left_iff, ← h]
    exact List.forall₂_refl _
  intro p hp
  exact (List.forall₂_iff_zip.mp hforall).2 hp

theorem zip_map_eq {α β γ : Type*} {f : α → γ} {g : β → γ} {xs : List α} {ys : List β} (hlen : xs.length = ys.length)
    (h : ∀ p ∈ xs.zip ys, f p.1 = g p.2) : xs.map f = ys.map g := by
  have hforall : List.Forall₂ (fun x y => f x = g y) xs ys :=
    List.forall₂_iff_zip.mpr ⟨hlen, fun hp => h _ hp⟩
  rw [← List.forall₂_eq_eq_eq, List.forall₂_map_left_iff, List.forall₂_map_right_iff]
  exact hforall

/-- Values with the same normal form are the same data. -/
theorem sameData_of_normalForm_eq {v w : JsValue} (hv : DataModel v) (hw : DataModel w) (hcv : Canonical nfc v)
    (hcw : Canonical nfc w) (h : normalForm nfc v = normalForm nfc w) : SameData nfc v w := by
  induction hv generalizing w with
  | null =>
    cases hw with
    | null => exact .null
    | _ => simp [normalForm] at h
  | bool b =>
    cases hw with
    | bool b' =>
      simp only [normalForm, JsValue.bool.injEq] at h
      subst h
      exact .bool b
    | _ => simp [normalForm] at h
  | str s => exact .text (s := nfc s) rfl (textOf_normalForm h.symm)
  | int hz =>
    cases hw with
    | int hz' =>
      simp only [normalForm, JsValue.num.injEq, JsNumber.int.injEq] at h
      subst h
      exact .int _
    | _ => simp [normalForm] at h
  | bigint z => exact .text (s := decimal z) rfl (textOf_normalForm h.symm)
  | @arr xs hxs ih =>
    cases hw with
    | @arr ys hys =>
      cases hcv with
      | arr hcx =>
        cases hcw with
        | arr hcy =>
          simp only [normalForm, normalElements_eq_map, JsValue.arr.injEq] at h
          obtain ⟨hlen, hzip⟩ := map_eq_zip h
          refine .arr hlen fun p hp => ?_
          obtain ⟨hx, hy⟩ := List.of_mem_zip hp
          exact ih p.1 hx (hys p.2 hy) (hcx p.1 hx) (hcy p.2 hy) (hzip p hp)
    | _ => simp [normalForm] at h
  | @obj es hnd hes ih =>
    cases hw with
    | @obj fs hnd' hfs =>
      cases hcv with
      | obj hm hce =>
        cases hcw with
        | obj hm' hcf =>
          simp only [normalForm, JsValue.obj.injEq] at h
          -- both member lists are rearrangements of the same sorted one
          have hperm : (normalMembers nfc es).Perm (normalMembers nfc fs) := by
            have he : (sortMembers (normalMembers nfc es)).Perm (normalMembers nfc es) :=
              perm_sortMembers (by rw [normalMembers_keys]; exact hm.nodup)
            have hf : (sortMembers (normalMembers nfc fs)).Perm (normalMembers nfc fs) :=
              perm_sortMembers (by rw [normalMembers_keys]; exact hm'.nodup)
            rw [h] at he
            exact he.symm.trans hf
          rw [normalMembers_eq_map, normalMembers_eq_map] at hperm
          have hcomp := congrFun (congrFun (List.eq_map_comp_perm
            (fun e : JsString × JsValue => (nfc e.1, normalForm nfc e.2))) (es.map fun e => (nfc e.1, normalForm nfc e.2))) fs
          rw [← hcomp] at hperm
          obtain ⟨gs, hgs, hgf⟩ := hperm
          obtain ⟨hlen, hzip⟩ := map_eq_zip hgs
          refine .obj hlen (fun p hp => ?_) (fun p hp => ?_) hgf
          · exact congrArg Prod.fst (hzip p hp)
          · obtain ⟨he, hg⟩ := List.of_mem_zip hp
            have hf := hgf.mem_iff.mp hg
            exact ih p.1 he (hfs p.2 hf) (hce p.1 he) (hcf p.2 hf) (congrArg Prod.snd (hzip p hp))
    | _ => simp [normalForm] at h

theorem isTimestamp_same {v w : JsValue} (h : SameData nfc v w) (hv : isTimestamp v = true) : isTimestamp w = true := by
  cases h with
  | int z => exact hv
  | text htv htw => cases v <;> simp_all [textOf, isTimestamp]
  | _ => cases hv

/-- Canonicalization accepts the same data. -/
theorem Canonical.of_same {v w : JsValue} (h : SameData nfc v w) (hv : Canonical nfc v) : Canonical nfc w := by
  induction h with
  | null => exact hv
  | bool b => exact hv
  | int z => exact hv
  | @text v w s htv htw =>
    cases w with
    | str s => exact .str s
    | bigint z => exact .bigint z
    | _ => cases htw
  | @arr xs ys hlen _ ih =>
    cases hv with
    | arr hxs =>
      refine .arr fun y hy => ?_
      obtain ⟨i, hi, rfl⟩ := List.mem_iff_getElem.mp hy
      have hi' : i < xs.length := by omega
      have hp : (xs[i], ys[i]) ∈ xs.zip ys := by
        rw [List.mem_iff_getElem]
        exact ⟨i, by rw [List.length_zip]; omega, List.getElem_zip⟩
      exact ih _ hp (hxs _ (List.getElem_mem _))
  | @obj es fs gs hlen hkey hvalue perm ih =>
    cases hv with
    | obj hm hes =>
      have hkeys : es.map (fun e => nfc e.1) = gs.map (fun e => nfc e.1) := zip_map_eq hlen hkey
      have hpair : ∀ g ∈ fs, ∃ e ∈ es, (e, g) ∈ es.zip gs := by
        intro g hg
        obtain ⟨i, hi, rfl⟩ := List.mem_iff_getElem.mp (perm.mem_iff.mpr hg)
        have hi' : i < es.length := by omega
        refine ⟨es[i], List.getElem_mem _, ?_⟩
        rw [List.mem_iff_getElem]
        exact ⟨i, by rw [List.length_zip]; omega, List.getElem_zip⟩
      refine .obj ⟨?_, ?_⟩ ?_
      · rw [← (perm.map fun e => nfc e.1).nodup_iff, ← hkeys]
        exact hm.nodup
      · intro g hg hts
        obtain ⟨e, he, hp⟩ := hpair g hg
        apply isTimestamp_same (hvalue _ hp)
        apply hm.timestamp e he
        rw [← hts]
        exact hkey _ hp
      · intro g hg
        obtain ⟨e, he, hp⟩ := hpair g hg
        exact ih _ hp (hes e he)

/-- The same data has one normal form, when encodings tell its keys apart. -/
theorem normalForm_eq_of_sameData {v w : JsValue} (h : SameData nfc v w) (hd : DistinctEncodings nfc v) :
    normalForm nfc v = normalForm nfc w := by
  induction h with
  | null => rfl
  | bool b => rfl
  | int z => rfl
  | text htv htw => rw [normalForm_textOf htv, normalForm_textOf htw]
  | @arr xs ys hlen _ ih =>
    cases hd with
    | leaf harr hobj => exact absurd rfl (harr xs)
    | arr hdx =>
      rw [normalForm, normalForm, normalElements_eq_map, normalElements_eq_map]
      congr 1
      apply zip_map_eq hlen
      intro p hp
      exact ih p hp (hdx p.1 (List.of_mem_zip hp).1)
  | @obj es fs gs hlen hkey hvalue perm ih =>
    cases hd with
    | leaf harr hobj => exact absurd rfl (hobj es)
    | obj hnd hde =>
      have heq : normalMembers nfc es = normalMembers nfc gs := by
        rw [normalMembers_eq_map, normalMembers_eq_map]
        apply zip_map_eq hlen
        intro p hp
        rw [hkey p hp, ih p hp (hde p.1 (List.of_mem_zip hp).1)]
      have hperm : (normalMembers nfc es).Perm (normalMembers nfc fs) := by
        rw [heq, normalMembers_eq_map, normalMembers_eq_map]
        exact perm.map _
      rw [normalForm, normalForm, sortMembers_perm hperm]
      rw [normalMembers_keys, List.map_map]
      exact hnd

theorem isTimestamp_normalForm {v : JsValue} (h : isTimestamp v = true) : isTimestamp (normalForm nfc v) = true := by
  cases v with
  | num n => exact h
  | _ => cases h

theorem normalMembers_fixed (hn : NfcLaws nfc) {es : List (JsString × JsValue)} (hm : CanonicalMembers nfc es)
    (ih : ∀ e ∈ es, Canonical nfc (normalForm nfc e.2) ∧ normalForm nfc (normalForm nfc e.2) = normalForm nfc e.2) :
    Canonical nfc (.obj (sortMembers (normalMembers nfc es))) ∧
      normalForm nfc (.obj (sortMembers (normalMembers nfc es))) = .obj (sortMembers (normalMembers nfc es)) := by
  have hsource : ∀ m ∈ sortMembers (normalMembers nfc es), ∃ e ∈ es, m = (nfc e.1, normalForm nfc e.2) := by
    intro m hmem
    have := mem_of_mem_sortMembers hmem
    rw [normalMembers_eq_map] at this
    obtain ⟨e, he, rfl⟩ := List.mem_map.mp this
    exact ⟨e, he, rfl⟩
  have hkeys : (sortMembers (normalMembers nfc es)).map Prod.fst = sortUtf8Lex (es.map fun e => nfc e.1) := by
    rw [keys_sortMembers, normalMembers_keys]
  have hnd : ((sortMembers (normalMembers nfc es)).map Prod.fst).Nodup := by
    rw [hkeys]
    exact nodup_sortUtf8Lex.mpr hm.nodup
  have hfixed : normalMembers nfc (sortMembers (normalMembers nfc es)) = sortMembers (normalMembers nfc es) := by
    conv_rhs => rw [← List.map_id (sortMembers (normalMembers nfc es))]
    rw [normalMembers_eq_map]
    apply List.map_congr_left
    intro m hmem
    obtain ⟨e, he, rfl⟩ := hsource m hmem
    simp only [hn.idem, (ih e he).2, id_eq]
  constructor
  · refine .obj ⟨?_, ?_⟩ ?_
    · rw [← normalMembers_keys, hfixed]
      exact hnd
    · intro m hmem hts
      obtain ⟨e, he, rfl⟩ := hsource m hmem
      rw [hn.idem] at hts
      exact isTimestamp_normalForm (hm.timestamp e he hts)
    · intro m hmem
      obtain ⟨e, he, rfl⟩ := hsource m hmem
      exact (ih e he).1
  · rw [normalForm, hfixed, sortMembers_eq_self hnd]
    rw [hkeys]
    exact pairwise_sortUtf8Lex _

theorem isAscii_natDecimal (n : ℕ) : isAscii (natDecimal n) = true := by
  obtain ⟨-, hdigits, -⟩ := natDecimal_spec n
  rw [isAscii, List.all_eq_true]
  intro u hu
  have hdigit := hdigits u hu
  simp only [isDigit, Bool.and_eq_true, decide_eq_true_eq] at hdigit ⊢
  omega

theorem isAscii_decimal (z : ℤ) : isAscii (decimal z) = true := by
  rw [decimal]
  split
  · rw [isAscii, List.all_cons, ← isAscii, isAscii_natDecimal]
    rfl
  · exact isAscii_natDecimal _

/-- A normal form is canonical and its own normal form. -/
theorem normalForm_fixed (hn : NfcLaws nfc) {v : JsValue} (h : Canonical nfc v) :
    Canonical nfc (normalForm nfc v) ∧ normalForm nfc (normalForm nfc v) = normalForm nfc v := by
  induction h with
  | null => exact ⟨.null, rfl⟩
  | bool b => exact ⟨.bool b, rfl⟩
  | int hz => exact ⟨.int hz, rfl⟩
  | str s => exact ⟨.str _, by rw [normalForm, normalForm, hn.idem]⟩
  | bigint z => exact ⟨.str _, by rw [normalForm, normalForm, hn.ascii _ (isAscii_decimal z)]⟩
  | arr _ ih =>
    rw [normalForm, normalElements_eq_map]
    constructor
    · refine .arr fun y hy => ?_
      obtain ⟨x, hx, rfl⟩ := List.mem_map.mp hy
      exact (ih x hx).1
    · rw [normalForm, normalElements_eq_map, List.map_map]
      congr 1
      apply List.map_congr_left
      intro x hx
      exact (ih x hx).2
  | obj hm _ ih => exact normalMembers_fixed hn hm ih
  | inst hm _ ih => exact normalMembers_fixed hn hm ih

/-- Canonicalization succeeds exactly on canonical values. Equal texts mean the same
data, and the same data has equal texts when encodings tell its keys apart. Reading
a text back and canonicalizing again gives the same bytes. -/
theorem canonicalJson_injective (hn : NfcLaws nfc) {v w : JsValue} (hv : DataModel v) (hw : DataModel w) :
    ((∃ t, canonicalJson nfc v = .ok t) ↔ Canonical nfc v) ∧
    ((∃ t, canonicalJson nfc v = .ok t ∧ canonicalJson nfc w = .ok t) → Canonical nfc v ∧ SameData nfc v w) ∧
    (DistinctEncodings nfc v → Canonical nfc v ∧ SameData nfc v w →
      ∃ t, canonicalJson nfc v = .ok t ∧ canonicalJson nfc w = .ok t) ∧
    ∀ t, canonicalJson nfc v = .ok t →
      ∃ u, parseJson (textDecode (utf8Encode t)) = some u ∧ canonicalJson nfc u = .ok t := by
  refine ⟨?_, ?_, ?_, ?_⟩
  · constructor
    · intro h
      obtain ⟨t, ht⟩ := h
      exact ((canonicalizeToJson_ok v t).mp ht).1
    · intro h
      exact ⟨_, (canonicalizeToJson_ok v _).mpr ⟨h, rfl⟩⟩
  · intro h
    obtain ⟨t, htv, htw⟩ := h
    have hcv := ((canonicalizeToJson_ok v t).mp htv).1
    have hcw := ((canonicalizeToJson_ok w t).mp htw).1
    exact ⟨hcv, sameData_of_normalForm_eq hv hw hcv hcw (normalForm_eq_of_canonicalJson_eq htv htw)⟩
  · intro hd h
    obtain ⟨hcv, hsame⟩ := h
    refine ⟨jsonText (normalForm nfc v), (canonicalizeToJson_ok v _).mpr ⟨hcv, rfl⟩, ?_⟩
    rw [normalForm_eq_of_sameData hsame hd]
    exact (canonicalizeToJson_ok w _).mpr ⟨hcv.of_same hsame, rfl⟩
  · intro t ht
    obtain ⟨hcv, rfl⟩ := (canonicalizeToJson_ok v t).mp ht
    obtain ⟨hcanonical, hfixed⟩ := normalForm_fixed hn hcv
    have hjson := isJson_normalForm hcv
    refine ⟨normalForm nfc v, ?_, ?_⟩
    · rw [textDecode_jsonText hjson, parseJson_jsonText hjson]
    · exact (canonicalizeToJson_ok _ _).mpr ⟨hcanonical, by rw [hfixed]⟩

/-- Well-formed keys meet the condition on encodings. -/
theorem nodup_utf8Encode {keys : List JsString} (hnd : keys.Nodup) (hwf : ∀ k ∈ keys, WellFormed k) :
    (keys.map utf8Encode).Nodup := by
  apply hnd.map_on
  intro a ha b hb hab
  exact utf8Encode_inj (hwf a ha) (hwf b hb) hab

/-- Two orders of the same two members, one of them a bigint, have one text. -/
theorem canonicalJson_injective_sample :
    ∃ t, canonicalJson id (.obj [(js "a", .num (.int 1)), (js "b", .bigint 2)]) = .ok t ∧
      canonicalJson id (.obj [(js "b", .str (js "2")), (js "a", .num (.int 1))]) = .ok t := by
  have hn : NfcLaws id := ⟨fun _ _ => rfl, fun _ => rfl⟩
  have hv : DataModel (.obj [(js "a", .num (.int 1)), (js "b", .bigint 2)]) := by
    refine .obj (by decide) ?_
    rw [List.forall_mem_cons, List.forall_mem_singleton]
    exact ⟨.int (by decide), .bigint 2⟩
  have hw : DataModel (.obj [(js "b", .str (js "2")), (js "a", .num (.int 1))]) := by
    refine .obj (by decide) ?_
    rw [List.forall_mem_cons, List.forall_mem_singleton]
    exact ⟨.str _, .int (by decide)⟩
  have hcanonical : Canonical id (.obj [(js "a", .num (.int 1)), (js "b", .bigint 2)]) := by
    refine .obj ⟨by decide, ?_⟩ ?_
    · rw [List.forall_mem_cons, List.forall_mem_singleton]
      exact ⟨fun h => absurd h (by decide), fun h => absurd h (by decide)⟩
    · rw [List.forall_mem_cons, List.forall_mem_singleton]
      exact ⟨.int (by decide), .bigint 2⟩
  have hdistinct : DistinctEncodings id (.obj [(js "a", .num (.int 1)), (js "b", .bigint 2)]) := by
    refine .obj ?_ ?_
    · have hwf : ∀ k ∈ [js "a", js "b"], WellFormed k := by
        rw [List.forall_mem_cons, List.forall_mem_singleton]
        exact ⟨wellFormed_of_basic (by decide), wellFormed_of_basic (by decide)⟩
      exact nodup_utf8Encode (by decide) hwf
    · rw [List.forall_mem_cons, List.forall_mem_singleton]
      exact ⟨.leaf (fun _ h => by cases h) (fun _ h => by cases h),
        .leaf (fun _ h => by cases h) (fun _ h => by cases h)⟩
  have hsame : SameData id (.obj [(js "a", .num (.int 1)), (js "b", .bigint 2)])
      (.obj [(js "b", .str (js "2")), (js "a", .num (.int 1))]) := by
    refine @SameData.obj id _ _ [(js "a", .num (.int 1)), (js "b", .str (js "2"))] rfl ?_ ?_ (.swap _ _ _)
    · simp
    · rw [List.zip_cons_cons, List.zip_cons_cons, List.zip_nil_right, List.forall_mem_cons,
        List.forall_mem_singleton]
      exact ⟨.int 1, .text (s := js "2") rfl rfl⟩
  exact (canonicalJson_injective hn hv hw).2.2.1 hdistinct ⟨hcanonical, hsame⟩

/-- A string under `ts` is data that canonicalization refuses. -/
theorem canonicalJson_refuses_timestamp : ¬ ∀ (nfc : JsString → JsString), NfcLaws nfc →
    ∀ v w, DataModel v → DataModel w →
      ((∃ t, canonicalJson nfc v = .ok t ∧ canonicalJson nfc w = .ok t) ↔ SameData nfc v w) := by
  intro hall
  have hv : DataModel (.obj [(tsKey, .str [])]) := by
    refine .obj (by decide) ?_
    rw [List.forall_mem_singleton]
    exact .str []
  have hsame : SameData id (.obj [(tsKey, .str [])]) (.obj [(tsKey, .str [])]) := by
    refine @SameData.obj id _ _ [(tsKey, .str [])] rfl ?_ ?_ (.refl _)
    · simp
    · rw [List.zip_cons_cons, List.zip_nil_right, List.forall_mem_singleton]
      exact .text (s := []) rfl rfl
  obtain ⟨t, ht, -⟩ := (hall id ⟨fun _ _ => rfl, fun _ => rfl⟩ _ _ hv hv).mpr hsame
  cases ((canonicalizeToJson_ok _ t).mp ht).1 with
  | obj hm _ =>
    have hts := hm.timestamp (tsKey, .str []) (List.mem_singleton.mpr rfl) rfl
    cases hts

/-- Lone surrogates share one encoding, so their members stay in the order they came. -/
example : canonicalJson id (.obj [([unit 0xD800], .null), ([unit 0xD801], .null)]) ≠
    canonicalJson id (.obj [([unit 0xD801], .null), ([unit 0xD800], .null)]) := by decide

end

end OxDeAI
