import OxDeAI.Core.CanonicalForm

/-! Objects with fixed ASCII keys, some of them absent: canonical JSON accepts
them by their values, and equal normal forms are equal field by field. -/

namespace OxDeAI

open Js

def isAscii (s : JsString) : Bool := s.all (fun u => u.val < 128)

/-- Normalization leaves ASCII text alone and is idempotent. -/
structure NfcLaws (nfc : JsString → JsString) : Prop where
  ascii : ∀ s, isAscii s = true → nfc s = s
  idem : ∀ s, nfc (nfc s) = nfc s

section

variable {nfc : JsString → JsString}

def isPlainKey (k : JsString) : Bool := isAscii k && k ≠ tsKey

theorem canonicalMembers_plain (hn : NfcLaws nfc) {es : List (JsString × JsValue)}
    (hk : (es.map Prod.fst).all isPlainKey = true) (hnd : (es.map Prod.fst).Nodup) :
    CanonicalMembers nfc es := by
  rw [List.all_eq_true] at hk
  have hid : ∀ e ∈ es, nfc e.1 = e.1 ∧ e.1 ≠ tsKey := by
    intro e he
    have := hk e.1 (List.mem_map.mpr ⟨e, he, rfl⟩)
    simp only [isPlainKey, Bool.and_eq_true, decide_eq_true_eq] at this
    exact ⟨hn.ascii _ this.1, this.2⟩
  constructor
  · rw [List.map_congr_left (g := Prod.fst) (fun e he => (hid e he).1)]
    exact hnd
  · intro e he hts
    rw [(hid e he).1] at hts
    exact absurd hts (hid e he).2

theorem canonical_plain (hn : NfcLaws nfc) {es : List (JsString × JsValue)}
    (hk : (es.map Prod.fst).all isPlainKey = true) (hnd : (es.map Prod.fst).Nodup) :
    Canonical nfc (.obj es) ↔ ∀ e ∈ es, Canonical nfc e.2 := by
  constructor
  · intro h
    cases h
    assumption
  · exact .obj (canonicalMembers_plain hn hk hnd)

/-- Equal normal forms agree on the values under one normalized key. -/
theorem normalForm_member {es es' : List (JsString × JsValue)} (hm : CanonicalMembers nfc es)
    (hm' : CanonicalMembers nfc es') (h : normalForm nfc (.obj es) = normalForm nfc (.obj es'))
    {e e' : JsString × JsValue} (he : e ∈ es) (he' : e' ∈ es') (hk : nfc e.1 = nfc e'.1) :
    normalForm nfc e.2 = normalForm nfc e'.2 := by
  simp only [normalForm, JsValue.obj.injEq] at h
  have hnd : ∀ {es : List (JsString × JsValue)}, CanonicalMembers nfc es →
      ((normalMembers nfc es).map Prod.fst).Nodup := by
    intro es hm
    rw [normalMembers_eq_map, List.map_map]
    exact hm.nodup
  have hmem : ∀ {es : List (JsString × JsValue)} {e : JsString × JsValue}, CanonicalMembers nfc es →
      e ∈ es → (nfc e.1, normalForm nfc e.2) ∈ sortMembers (normalMembers nfc es) := by
    intro es e hm he
    rw [mem_sortMembers (hnd hm), normalMembers_eq_map]
    exact List.mem_map.mpr ⟨e, he, rfl⟩
  have h1 := (mem_sortMembers (hnd hm')).mp (h ▸ hmem hm he)
  have h2 := (mem_sortMembers (hnd hm')).mp (hmem hm' he')
  have o1 := ownEntry_of_mem (hnd hm') h1
  have o2 := ownEntry_of_mem (hnd hm') h2
  rw [hk] at o1
  exact Option.some.inj (o1.symm.trans o2)

/-- The fields that have a value. -/
def present (fields : List (JsString × Option JsValue)) : List (JsString × JsValue) :=
  fields.filterMap (fun f => f.2.map (fun v => (f.1, v)))

theorem ownEntry_sortMembers {β : Type*} {es : List (JsString × β)} (hnd : (es.map Prod.fst).Nodup)
    (k : JsString) : ownEntry k (sortMembers es) = ownEntry k es := by
  have hnd' : ((sortMembers es).map Prod.fst).Nodup := by
    rw [keys_sortMembers]
    exact nodup_sortUtf8Lex.mpr hnd
  apply Option.ext
  intro v
  constructor
  · intro h
    exact ownEntry_of_mem hnd ((mem_sortMembers hnd).mp (ownEntry_mem h))
  · intro h
    exact ownEntry_of_mem hnd' ((mem_sortMembers hnd).mpr (ownEntry_mem h))

theorem keys_present (fields : List (JsString × Option JsValue)) :
    ((present fields).map Prod.fst).Sublist (fields.map Prod.fst) := by
  induction fields with
  | nil => exact .slnil
  | cons f fields ih =>
    obtain ⟨k, v⟩ := f
    cases v with
    | none => exact ih.cons k
    | some v => exact ih.cons_cons k

theorem canonicalMembers_present (hn : NfcLaws nfc) {fields : List (JsString × Option JsValue)}
    (hk : (fields.map Prod.fst).all isPlainKey = true) (hnd : (fields.map Prod.fst).Nodup) :
    CanonicalMembers nfc (present fields) := by
  have hsub := keys_present fields
  rw [List.all_eq_true] at hk
  exact canonicalMembers_plain hn (List.all_eq_true.mpr fun k h => hk k (hsub.subset h)) (hsub.nodup hnd)

theorem ownEntry_normalMembers_present (hn : NfcLaws nfc) {fields : List (JsString × Option JsValue)}
    (hk : (fields.map Prod.fst).all isPlainKey = true) (hnd : (fields.map Prod.fst).Nodup)
    {f : JsString × Option JsValue} (hf : f ∈ fields) :
    ownEntry f.1 (normalMembers nfc (present fields)) = f.2.map (normalForm nfc) := by
  induction fields with
  | nil => cases hf
  | cons g fields ih =>
    obtain ⟨k, v⟩ := g
    rw [List.map_cons, List.all_cons, Bool.and_eq_true] at hk
    rw [List.map_cons, List.nodup_cons] at hnd
    have hid : nfc k = k := by
      have hplain := hk.1
      rw [isPlainKey, Bool.and_eq_true] at hplain
      exact hn.ascii _ hplain.1
    rcases List.mem_cons.mp hf with rfl | hf
    · cases v with
      | some v => simp [present, normalMembers_eq_map, ownEntry, hid]
      | none =>
        have hnot : k ∉ ((present fields).map Prod.fst) := fun h => hnd.1 ((keys_present fields).subset h)
        have hids : ((normalMembers nfc (present fields)).map Prod.fst) =
            (present fields).map Prod.fst := by
          rw [normalMembers_eq_map, List.map_map]
          refine List.map_congr_left fun e he => ?_
          have hplain := List.all_eq_true.mp hk.2 e.1
            ((keys_present fields).subset (List.mem_map.mpr ⟨e, he, rfl⟩))
          rw [isPlainKey, Bool.and_eq_true] at hplain
          exact hn.ascii _ hplain.1
        have hpres : present ((k, none) :: fields) = present fields := rfl
        rw [hpres, Option.map_none, ownEntry_eq_none, hids]
        exact hnot
    · have hne : k ≠ f.1 := fun h => hnd.1 (List.mem_map.mpr ⟨f, hf, h.symm⟩)
      have hih := ih hk.2 hnd.2 hf
      cases v with
      | none => exact hih
      | some v =>
        have hpres : present ((k, some v) :: fields) = (k, v) :: present fields := rfl
        rw [hpres, normalMembers, ownEntry, hid, if_neg hne]
        exact hih

/-- Equal normal forms agree on the member under every key. -/
theorem ownEntry_present_eq (hn : NfcLaws nfc) {fields fields' : List (JsString × Option JsValue)}
    (hk : (fields.map Prod.fst).all isPlainKey = true) (hnd : (fields.map Prod.fst).Nodup)
    (hk' : (fields'.map Prod.fst).all isPlainKey = true) (hnd' : (fields'.map Prod.fst).Nodup)
    (h : normalForm nfc (.obj (present fields)) = normalForm nfc (.obj (present fields'))) (k : JsString) :
    ownEntry k (normalMembers nfc (present fields)) = ownEntry k (normalMembers nfc (present fields')) := by
  simp only [normalForm, JsValue.obj.injEq] at h
  have hnodup : ∀ {fs : List (JsString × Option JsValue)}, CanonicalMembers nfc (present fs) →
      ((normalMembers nfc (present fs)).map Prod.fst).Nodup := by
    intro fs hm
    rw [normalMembers_eq_map, List.map_map]
    exact hm.nodup
  have hm := canonicalMembers_present hn hk hnd
  have hm' := canonicalMembers_present hn hk' hnd'
  rw [← ownEntry_sortMembers (hnodup hm), h, ownEntry_sortMembers (hnodup hm')]

/-- A field that both objects may carry. -/
theorem present_field_eq (hn : NfcLaws nfc) {fields fields' : List (JsString × Option JsValue)}
    (hk : (fields.map Prod.fst).all isPlainKey = true) (hnd : (fields.map Prod.fst).Nodup)
    (hk' : (fields'.map Prod.fst).all isPlainKey = true) (hnd' : (fields'.map Prod.fst).Nodup)
    (h : normalForm nfc (.obj (present fields)) = normalForm nfc (.obj (present fields')))
    {k : JsString} {v w : Option JsValue} (hf : (k, v) ∈ fields) (hg : (k, w) ∈ fields') :
    v.map (normalForm nfc) = w.map (normalForm nfc) := by
  have hv := ownEntry_normalMembers_present hn hk hnd hf
  have hw := ownEntry_normalMembers_present hn hk' hnd' hg
  rw [← hv, ← hw]
  exact ownEntry_present_eq hn hk hnd hk' hnd' h k

/-- A field that only one object may carry is absent there. -/
theorem present_field_none (hn : NfcLaws nfc) {fields fields' : List (JsString × Option JsValue)}
    (hk : (fields.map Prod.fst).all isPlainKey = true) (hnd : (fields.map Prod.fst).Nodup)
    (hk' : (fields'.map Prod.fst).all isPlainKey = true) (hnd' : (fields'.map Prod.fst).Nodup)
    (h : normalForm nfc (.obj (present fields)) = normalForm nfc (.obj (present fields')))
    {k : JsString} {v : Option JsValue} (hf : (k, v) ∈ fields) (hg : k ∉ fields'.map Prod.fst) :
    v = none := by
  have hv := ownEntry_normalMembers_present hn hk hnd hf
  rw [ownEntry_present_eq hn hk hnd hk' hnd' h k] at hv
  have habsent : ownEntry k (normalMembers nfc (present fields')) = none := by
    have hm' := canonicalMembers_present hn hk' hnd'
    rw [ownEntry_eq_none, normalMembers_eq_map, List.map_map]
    intro hmem
    obtain ⟨e, he, hke⟩ := List.mem_map.mp hmem
    have hkey := (keys_present fields').subset (List.mem_map.mpr ⟨e, he, rfl⟩)
    have hplain := List.all_eq_true.mp hk' e.1 hkey
    rw [isPlainKey, Bool.and_eq_true] at hplain
    have hid : nfc e.1 = e.1 := hn.ascii _ hplain.1
    rw [Function.comp_apply, hid] at hke
    exact hg (hke ▸ hkey)
  rw [habsent] at hv
  cases v with
  | none => rfl
  | some v => cases hv

/-- Objects with the same fixed fields have one normal form exactly when every
field has. -/
theorem normalForm_present_eq_iff (hn : NfcLaws nfc) {fields fields' : List (JsString × Option JsValue)}
    (hk : (fields.map Prod.fst).all isPlainKey = true) (hnd : (fields.map Prod.fst).Nodup)
    (hkeys : fields.map Prod.fst = fields'.map Prod.fst) :
    normalForm nfc (.obj (present fields)) = normalForm nfc (.obj (present fields')) ↔
      fields.map (fun f => f.2.map (normalForm nfc)) = fields'.map (fun f => f.2.map (normalForm nfc)) := by
  constructor
  · intro h
    have hlookup := ownEntry_present_eq hn hk hnd (hkeys ▸ hk) (hkeys ▸ hnd) h
    have hlen : fields.length = fields'.length := by simpa using congrArg List.length hkeys
    apply List.ext_getElem (by simpa using hlen)
    intro i hi hi'
    simp only [List.length_map] at hi hi'
    simp only [List.getElem_map]
    have hkey : (fields[i]).1 = (fields'[i]).1 := by
      have hget := List.getElem_of_eq hkeys (i := i) (by simpa using hi)
      simpa using hget
    have h1 := ownEntry_normalMembers_present hn hk hnd (List.getElem_mem hi)
    have h2 := ownEntry_normalMembers_present hn (hkeys ▸ hk) (hkeys ▸ hnd) (List.getElem_mem hi')
    rw [← h1, ← h2, hkey, hlookup]
  · intro h
    have hmembers : normalMembers nfc (present fields) = normalMembers nfc (present fields') := by
      clear hk hnd
      induction fields generalizing fields' with
      | nil =>
        cases fields' with
        | nil => rfl
        | cons f' fields' => simp at hkeys
      | cons f fields ih =>
        cases fields' with
        | nil => simp at hkeys
        | cons f' fields' =>
          rw [List.map_cons, List.map_cons, List.cons.injEq] at h hkeys
          have hrest := ih hkeys.2 h.2
          obtain ⟨k, v⟩ := f
          obtain ⟨k', v'⟩ := f'
          obtain ⟨rfl, -⟩ := hkeys
          have hval := h.1
          cases v with
          | none =>
            cases v' with
            | none => exact hrest
            | some v' => cases hval
          | some v =>
            cases v' with
            | none => cases hval
            | some v' =>
              have hp : ∀ (w : JsValue) fs, present ((k, some w) :: fs) = (k, w) :: present fs :=
                fun _ _ => rfl
              rw [hp, hp, normalMembers, normalMembers, hrest, Option.some.inj hval]
    simp only [normalForm, hmembers]

end

end OxDeAI
