import OxDeAI.Sift.StringCodes

/-! The order in which Sift writes the properties of an object, beside that of
`sort_keys`: array indices go first, and UTF-16 is not code point order. -/

namespace OxDeAI

open Js

/-- `sorted(dct.items())`, for distinct keys. -/
def sortedByPoints {β : Type} (es : List (JsString × β)) : List (JsString × β) :=
  es.insertionSort (fun a b => codePoints a.1 ≤ codePoints b.1)

/-- Sift's order of the properties: sorted, and then enumerated. -/
def siftOrder {β : Type} (es : List (JsString × β)) : List (JsString × β) := propertyOrder (sortedByUnits es)

section

variable {β γ : Type}

/-- Sorting by the keys does not look at the values. -/
theorem insertionSort_keys (r : JsString → JsString → Prop) [DecidableRel r] (f : β → γ) (es : List (JsString × β)) :
    (es.map (fun e => (e.1, f e.2))).insertionSort (fun a b => r a.1 b.1) =
      (es.insertionSort (fun a b => r a.1 b.1)).map (fun e => (e.1, f e.2)) :=
  (List.map_insertionSort (fun a b : JsString × β => r a.1 b.1) (fun a b : JsString × γ => r a.1 b.1)
    (fun e => (e.1, f e.2)) es fun _ _ _ _ => Iff.rfl).symm

theorem siftOrder_map (f : β → γ) (es : List (JsString × β)) :
    siftOrder (es.map (fun e => (e.1, f e.2))) = (siftOrder es).map (fun e => (e.1, f e.2)) := by
  have hunits : sortedByUnits (es.map (fun e => (e.1, f e.2))) = (sortedByUnits es).map (fun e => (e.1, f e.2)) :=
    insertionSort_keys (· ≤ ·) f es
  have hindex := fun l : List (JsString × β) =>
    insertionSort_keys (fun a b => (arrayIndex? a).getD 0 ≤ (arrayIndex? b).getD 0) f l
  rw [siftOrder, siftOrder, hunits, propertyOrder, propertyOrder, List.map_append, ← hindex, List.filter_map,
    List.filter_map]
  rfl

theorem sortedByPoints_map (f : β → γ) (es : List (JsString × β)) :
    sortedByPoints (es.map (fun e => (e.1, f e.2))) = (sortedByPoints es).map (fun e => (e.1, f e.2)) :=
  insertionSort_keys (fun a b => codePoints a ≤ codePoints b) f es

theorem perm_siftOrder (es : List (JsString × β)) : (siftOrder es).Perm es := by
  have hunits : (sortedByUnits es).Perm es := List.perm_insertionSort _ es
  refine List.Perm.trans ?_ hunits
  have hsplit := List.filter_append_perm (fun e : JsString × β => (arrayIndex? e.1).isSome) (sortedByUnits es)
  refine ((List.perm_insertionSort _ _).append_right _).trans (List.Perm.trans ?_ hsplit)
  simp

theorem perm_sortedByPoints (es : List (JsString × β)) : (sortedByPoints es).Perm es := List.perm_insertionSort _ es

end

/-- `a` comes no later than `b` among the properties Sift writes: array indices by
their number, before all other keys, which go by their units. -/
def siftBefore (a b : JsString) : Prop :=
  match arrayIndex? a, arrayIndex? b with
  | some i, some j => i ≤ j
  | some _, none => True
  | none, some _ => False
  | none, none => a ≤ b

instance (a b : JsString) : Decidable (siftBefore a b) :=
  match ha : arrayIndex? a, hb : arrayIndex? b with
  | some i, some j => decidable_of_iff (i ≤ j) (by rw [siftBefore, ha, hb])
  | some _, none => .isTrue (by rw [siftBefore, ha, hb]; trivial)
  | none, some _ => .isFalse (by rw [siftBefore, ha, hb]; exact id)
  | none, none => decidable_of_iff (a ≤ b) (by rw [siftBefore, ha, hb])

theorem arrayIndex?_inj {a b : JsString} {i : ℕ} (ha : arrayIndex? a = some i) (hb : arrayIndex? b = some i) : a = b := by
  have hkey : ∀ k : JsString, arrayIndex? k = some i → natDecimal i = k := by
    intro k hk
    unfold arrayIndex? at hk
    split at hk
    · rename_i h
      rw [← Option.some.inj hk]
      exact h.1
    · cases hk
  rw [← hkey a ha, hkey b hb]

theorem siftBefore_antisymm {a b : JsString} (hab : siftBefore a b) (hba : siftBefore b a) : a = b := by
  unfold siftBefore at hab hba
  cases ha : arrayIndex? a with
  | some i =>
    cases hb : arrayIndex? b with
    | some j =>
      rw [ha, hb] at hab hba
      have hij : i = j := le_antisymm hab hba
      exact arrayIndex?_inj ha (hij ▸ hb)
    | none =>
      rw [ha, hb] at hba
      exact hba.elim
  | none =>
    cases hb : arrayIndex? b with
    | some j =>
      rw [ha, hb] at hab
      exact hab.elim
    | none =>
      rw [ha, hb] at hab hba
      exact le_antisymm hab hba

theorem siftBefore_refl (a : JsString) : siftBefore a a := by
  unfold siftBefore
  cases arrayIndex? a with
  | some i => exact le_refl i
  | none => exact le_refl a

theorem pairwise_siftOrder {β : Type} (es : List (JsString × β)) :
    (siftOrder es).Pairwise (fun a b => siftBefore a.1 b.1) := by
  rw [siftOrder, propertyOrder, List.pairwise_append]
  have hindexed : ∀ e : JsString × β, e ∈ ((sortedByUnits es).filter (fun e => (arrayIndex? e.1).isSome)).insertionSort
      (fun a b => (arrayIndex? a.1).getD 0 ≤ (arrayIndex? b.1).getD 0) → ∃ i, arrayIndex? e.1 = some i := by
    intro e he
    have hmem := List.mem_filter.mp ((List.mem_insertionSort _).mp he)
    exact Option.isSome_iff_exists.mp (by simpa using hmem.2)
  have hother : ∀ e ∈ (sortedByUnits es).filter (fun e => (arrayIndex? e.1).isNone), arrayIndex? e.1 = none :=
    fun e he => by simpa using (List.mem_filter.mp he).2
  refine ⟨?_, ?_, ?_⟩
  · have hsorted := List.pairwise_insertionSort
      (fun a b : JsString × β => (arrayIndex? a.1).getD 0 ≤ (arrayIndex? b.1).getD 0)
      ((sortedByUnits es).filter (fun e => (arrayIndex? e.1).isSome))
    refine hsorted.imp_of_mem fun {a b} ha hb hle => ?_
    obtain ⟨i, hi⟩ := hindexed a ha
    obtain ⟨j, hj⟩ := hindexed b hb
    rw [hi, hj] at hle
    simpa [siftBefore, hi, hj] using hle
  · have hsorted := List.pairwise_insertionSort (fun a b : JsString × β => a.1 ≤ b.1) es
    refine (hsorted.filter _).imp_of_mem fun {a b} ha hb hle => ?_
    simpa [siftBefore, hother a ha, hother b hb] using hle
  · intro a ha b hb
    obtain ⟨i, hi⟩ := hindexed a ha
    simp [siftBefore, hi, hother b hb]

theorem codePoints_injective : Function.Injective codePoints := by
  have hunits : ∀ s : JsString, (codePoints s).flatMap (fun cp => if cp < 0x10000 then [unit cp]
      else [unit (0xd800 + (cp - 0x10000) / 0x400), unit (0xdc00 + (cp - 0x10000) % 0x400)]) = s := by
    intro s
    induction s using codePoints.induct with
    | case1 => rfl
    | case2 u => simp [codePoints, u.isLt, unit_self]
    | case3 u v rest h ih =>
      have hboth := h
      simp only [isHighSurrogate, isLowSurrogate, Bool.and_eq_true, decide_eq_true_eq] at hboth
      obtain ⟨cp, hcp⟩ : ∃ cp, cp = pairScalar u v := ⟨_, rfl⟩
      have hp : cp = 0x10000 + (u.val - 0xD800) * 0x400 + (v.val - 0xDC00) := hcp
      have h1 : 0xd800 + (cp - 0x10000) / 0x400 = u.val := by omega
      have h2 : 0xdc00 + (cp - 0x10000) % 0x400 = v.val := by omega
      rw [codePoints, if_pos h, List.flatMap_cons, ih, ← hcp, if_neg (by omega), h1, h2, unit_self, unit_self]
      rfl
    | case4 u v rest h ih =>
      rw [codePoints, if_neg h, List.flatMap_cons, ih, if_pos u.isLt, unit_self]
      rfl
  intro s t h
  rw [← hunits s, h, hunits t]

theorem either_of_pairwise {α : Type*} {R : α → α → Prop} {l : List α} (h : l.Pairwise R) {x y : α} (hx : x ∈ l)
    (hy : y ∈ l) (hne : x ≠ y) : R x y ∨ R y x := by
  have hsymm : Std.Symm (fun a b => R a b ∨ R b a) := ⟨fun _ _ h => h.symm⟩
  have heither : l.Pairwise (fun a b => R a b ∨ R b a) := h.imp Or.inl
  exact heither.forall hx hy hne

/-- Every two keys are in the same order for Sift and for Python. -/
def KeysAgree (keys : List JsString) : Prop :=
  ∀ a ∈ keys, ∀ b ∈ keys, siftBefore a b ↔ codePoints a ≤ codePoints b

instance (keys : List JsString) : Decidable (KeysAgree keys) :=
  inferInstanceAs (Decidable (∀ a ∈ keys, ∀ b ∈ keys, (siftBefore a b ↔ codePoints a ≤ codePoints b)))

theorem orders_eq_iff {β : Type} {es : List (JsString × β)} (hnodup : (es.map Prod.fst).Nodup) :
    siftOrder es = sortedByPoints es ↔ KeysAgree (es.map Prod.fst) := by
  have hsift := pairwise_siftOrder es
  have hpoints : (sortedByPoints es).Pairwise (fun a b => codePoints a.1 ≤ codePoints b.1) :=
    List.pairwise_insertionSort _ es
  constructor
  · intro heq a ha b hb
    obtain ⟨e, he, rfl⟩ := List.mem_map.mp ha
    obtain ⟨f, hf, rfl⟩ := List.mem_map.mp hb
    by_cases hef : e = f
    · subst hef
      exact iff_of_true (siftBefore_refl _) le_rfl
    -- the earlier of the two in the common order comes first in both
    have hboth : (siftOrder es).Pairwise (fun x y : JsString × β =>
        siftBefore x.1 y.1 ∧ codePoints x.1 ≤ codePoints y.1) := by
      rw [← heq] at hpoints
      exact hsift.and hpoints
    have hne : e.1 ≠ f.1 := fun h => hef (List.inj_on_of_nodup_map hnodup he hf h)
    rcases either_of_pairwise hboth ((perm_siftOrder es).mem_iff.mpr he) ((perm_siftOrder es).mem_iff.mpr hf) hef
      with ⟨h, h'⟩ | ⟨h, h'⟩
    · exact iff_of_true h h'
    · refine iff_of_false (fun hab => hne (siftBefore_antisymm hab h)) fun hle => ?_
      exact hne (codePoints_injective (le_antisymm hle h'))
  · intro hagree
    have hkeys : ∀ e ∈ siftOrder es, e.1 ∈ es.map Prod.fst := fun e he =>
      List.mem_map_of_mem ((perm_siftOrder es).mem_iff.mp he)
    have hsame : (siftOrder es).Pairwise (fun a b => codePoints a.1 ≤ codePoints b.1) :=
      hsift.imp_of_mem fun {a b} ha hb h => (hagree a.1 (hkeys a ha) b.1 (hkeys b hb)).mp h
    refine List.Perm.eq_of_pairwise (fun a b ha hb hab hba => ?_) hsame hpoints
      ((perm_siftOrder es).trans (perm_sortedByPoints es).symm)
    exact List.inj_on_of_nodup_map hnodup ((perm_siftOrder es).mem_iff.mp ha) ((perm_sortedByPoints es).mem_iff.mp hb)
      (codePoints_injective (le_antisymm hab hba))

end OxDeAI
