import Mathlib.Data.List.Sort

/-! Sorting by a preorder that leaves ties. Equal elements keep their order, so two
arrangements of the same elements sort to the same list exactly when their ties do. -/

namespace StableSort

variable {α : Type*} {r : α → α → Prop} {l l' : List α}

/-- The relation is a total preorder of the elements of the list. -/
structure OrdersOn (r : α → α → Prop) (l : List α) : Prop where
  total : ∀ a ∈ l, ∀ b ∈ l, r a b ∨ r b a
  trans : ∀ a ∈ l, ∀ b ∈ l, ∀ c ∈ l, r a b → r b c → r a c

theorem OrdersOn.mono (h : OrdersOn r l) (hsub : ∀ a ∈ l', a ∈ l) : OrdersOn r l' where
  total a ha b hb := h.total a (hsub a ha) b (hsub b hb)
  trans a ha b hb c hc := h.trans a (hsub a ha) b (hsub b hb) c (hsub c hc)

variable [DecidableRel r]

/-- Elements that the relation does not tell apart. -/
def tied (r : α → α → Prop) [DecidableRel r] (a b : α) : Bool := decide (r a b) && decide (r b a)

theorem tied_iff {a b : α} : tied r a b = true ↔ r a b ∧ r b a := by simp [tied]

theorem pairwise_orderedInsert {a : α} (h : OrdersOn r (a :: l)) (hl : l.Pairwise r) :
    (l.orderedInsert r a).Pairwise r := by
  induction l with
  | nil => exact List.pairwise_singleton r a
  | cons b l ih =>
    rw [List.pairwise_cons] at hl
    by_cases hab : r a b
    · rw [List.orderedInsert_cons_of_le _ _ hab, List.pairwise_cons, List.pairwise_cons]
      refine ⟨?_, hl⟩
      intro c hc
      rcases List.mem_cons.mp hc with rfl | hc
      · exact hab
      · exact h.trans a (by simp) b (by simp) c (by simp [hc]) hab (hl.1 c hc)
    · have hba : r b a := (h.total a (by simp) b (by simp)).resolve_left hab
      rw [List.orderedInsert_of_not_le _ _ hab, List.pairwise_cons]
      refine ⟨?_, ih (h.mono (by simp; tauto)) hl.2⟩
      intro c hc
      rcases (List.mem_orderedInsert r).mp hc with rfl | hc
      · exact hba
      · exact hl.1 c hc

theorem pairwise_insertionSort (h : OrdersOn r l) : (l.insertionSort r).Pairwise r := by
  induction l with
  | nil => exact .nil
  | cons a l ih =>
    refine pairwise_orderedInsert (l := l.insertionSort r) (h.mono ?_) (ih (h.mono fun b hb => List.mem_cons_of_mem a hb))
    intro b hb
    rw [List.mem_cons, List.mem_insertionSort] at hb
    exact List.mem_cons.mpr hb

theorem filter_orderedInsert {p : α → Bool} {a : α} (h : p a = true → ∀ b ∈ l, p b = true → r a b) :
    (l.orderedInsert r a).filter p = (a :: l).filter p := by
  induction l with
  | nil => rfl
  | cons b l ih =>
    by_cases hab : r a b
    · rw [List.orderedInsert_cons_of_le _ _ hab]
    · rw [List.orderedInsert_of_not_le _ _ hab, List.filter_cons, ih fun ha c hc => h ha c (by simp [hc])]
      cases ha : p a with
      | false => simp [List.filter_cons, ha]
      | true =>
        have hb : p b = false := by
          by_contra hb
          exact hab (h ha b (by simp) (by simpa using hb))
        simp [ha, hb]

/-- Elements that are all tied keep their order. -/
theorem filter_insertionSort {p : α → Bool} (h : ∀ a ∈ l, ∀ b ∈ l, p a = true → p b = true → r a b) :
    (l.insertionSort r).filter p = l.filter p := by
  induction l with
  | nil => rfl
  | cons a l ih =>
    have hrest := ih fun b hb c hc => h b (by simp [hb]) c (by simp [hc])
    rw [List.insertionSort_cons, filter_orderedInsert, List.filter_cons, List.filter_cons, hrest]
    intro ha b hb hpb
    rw [List.mem_insertionSort] at hb
    exact h a (by simp) b (by simp [hb]) ha hpb

/-- Sorted lists of the same elements are equal when their ties are. -/
theorem eq_of_sorted (hr : OrdersOn r l) (hp : l.Perm l') (hl : l.Pairwise r) (hl' : l'.Pairwise r)
    (hties : ∀ a ∈ l, l.filter (tied r a) = l'.filter (tied r a)) : l = l' := by
  induction l generalizing l' with
  | nil => exact hp.nil_eq
  | cons a l ih =>
    cases l' with
    | nil => exact absurd hp (by simp)
    | cons b l' =>
      have hrefl : ∀ c ∈ a :: l, r c c := fun c hc => (hr.total c hc c hc).elim id id
      have hb : b ∈ a :: l := hp.mem_iff.mpr (by simp)
      have ha : a ∈ b :: l' := hp.mem_iff.mp (by simp)
      rw [List.pairwise_cons] at hl hl'
      have hab : r a b := by
        rcases List.mem_cons.mp hb with rfl | hb
        · exact hrefl b (by simp)
        · exact hl.1 b hb
      have hba : r b a := by
        rcases List.mem_cons.mp ha with rfl | ha
        · exact hrefl a (by simp)
        · exact hl'.1 a ha
      have haa : tied r a a = true := tied_iff.mpr ⟨hrefl a (by simp), hrefl a (by simp)⟩
      -- the first element of each list is the first among the ties of either
      obtain rfl : a = b := by
        have hfirst := hties a (by simp)
        rw [List.filter_cons_of_pos haa, List.filter_cons_of_pos (tied_iff.mpr ⟨hab, hba⟩)] at hfirst
        exact (List.cons.inj hfirst).1
      congr 1
      refine ih (hr.mono (by simp; tauto)) hp.cons_inv hl.2 hl'.2 ?_
      intro c hc
      have hall := hties c (by simp [hc])
      rw [List.filter_cons, List.filter_cons] at hall
      split at hall
      · exact (List.cons.inj hall).2
      · exact hall

/-- Two arrangements sort alike exactly when their ties come in the same order. -/
theorem insertionSort_eq_iff (hr : OrdersOn r l) (hp : l.Perm l') :
    l.insertionSort r = l'.insertionSort r ↔ ∀ a ∈ l, l.filter (tied r a) = l'.filter (tied r a) := by
  have hr' : OrdersOn r l' := hr.mono fun a ha => hp.mem_iff.mpr ha
  have hties : ∀ {k : List α}, OrdersOn r k → ∀ a ∈ k, (k.insertionSort r).filter (tied r a) = k.filter (tied r a) := by
    intro k hk a ha
    refine filter_insertionSort fun b hb c hc hab hac => ?_
    exact hk.trans b hb a ha c hc (tied_iff.mp hab).2 (tied_iff.mp hac).1
  constructor
  · intro h a ha
    rw [← hties hr a ha, h, hties hr' a (hp.mem_iff.mp ha)]
  · intro h
    have hsorted : (l.insertionSort r).Perm (l'.insertionSort r) :=
      (List.perm_insertionSort r l).trans (hp.trans (List.perm_insertionSort r l').symm)
    refine eq_of_sorted (hr.mono fun a ha => (List.mem_insertionSort r).mp ha) hsorted (pairwise_insertionSort hr)
      (pairwise_insertionSort hr') ?_
    intro a ha
    have ha := (List.mem_insertionSort r).mp ha
    rw [hties hr a ha, hties hr' a (hp.mem_iff.mp ha), h a ha]

/-- Without ties the arrangement is lost. -/
theorem insertionSort_eq_of_perm (hr : OrdersOn r l) (hp : l.Perm l')
    (hanti : ∀ a ∈ l, ∀ b ∈ l, r a b → r b a → a = b) : l.insertionSort r = l'.insertionSort r := by
  refine (insertionSort_eq_iff hr hp).mpr fun a ha => ?_
  have hconst : ∀ k : List α, (∀ b ∈ k, b ∈ l) → ∀ b ∈ k.filter (tied r a), b = a := by
    intro k hk b hb
    obtain ⟨hb, htied⟩ := List.mem_filter.mp hb
    obtain ⟨hab, hba⟩ := tied_iff.mp htied
    exact (hanti a ha b (hk b hb) hab hba).symm
  rw [List.eq_replicate_of_mem (hconst l fun _ hb => hb),
    List.eq_replicate_of_mem (hconst l' fun b hb => hp.mem_iff.mpr hb), (hp.filter _).length_eq]

end StableSort
