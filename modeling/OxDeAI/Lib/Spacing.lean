import Mathlib.Tactic

/-! Marks in a list that grows at its end: how many elements follow the last mark,
and lists in which every stretch without a mark is short. -/

namespace Spacing

section

variable {α : Type*} (mark : α → Bool)

/-- The number of elements after the last mark. -/
def sinceLast (xs : List α) : ℕ := (xs.reverse.takeWhile (fun x => !mark x)).length

/-- Consecutive elements without a mark are fewer than the limit. -/
def Spaced (limit : ℕ) (xs : List α) : Prop :=
  ∀ ys, ys <:+: xs → (∀ y ∈ ys, mark y = false) → ys.length < limit

end

section

variable {α : Type*} {mark : α → Bool} {limit : ℕ} {xs ys : List α} {x : α}

@[simp] theorem sinceLast_nil : sinceLast mark [] = 0 := rfl

theorem sinceLast_snoc_marked (hx : mark x = true) : sinceLast mark (xs ++ [x]) = 0 := by
  rw [sinceLast, List.reverse_concat, List.takeWhile_cons_of_neg (by simp [hx]), List.length_nil]

theorem sinceLast_snoc (hx : mark x = false) : sinceLast mark (xs ++ [x]) = sinceLast mark xs + 1 := by
  rw [sinceLast, List.reverse_concat, List.takeWhile_cons_of_pos (by simp [hx]), List.length_cons, sinceLast]

theorem sinceLast_append (hys : ∀ y ∈ ys, mark y = false) :
    sinceLast mark (xs ++ ys) = sinceLast mark xs + ys.length := by
  induction ys using List.reverseRecOn with
  | nil => simp
  | append_singleton ys y ih =>
    have hy : mark y = false := hys y (by simp)
    rw [← List.append_assoc, sinceLast_snoc hy, ih fun z hz => hys z (by simp [hz]), List.length_append,
      List.length_singleton, Nat.add_assoc]

theorem length_le_sinceLast (h : ys <:+ xs) (hys : ∀ y ∈ ys, mark y = false) : ys.length ≤ sinceLast mark xs := by
  obtain ⟨pre, rfl⟩ := h
  rw [sinceLast_append hys]
  exact Nat.le_add_left _ _

theorem spaced_nil (h : 0 < limit) : Spaced mark limit [] := by
  intro ys hys _
  rw [List.infix_nil.mp hys]
  exact h

theorem Spaced.snoc_marked (h : Spaced mark limit xs) (hx : mark x = true) : Spaced mark limit (xs ++ [x]) := by
  intro ys hys hun
  rcases List.infix_concat_iff.mp hys with hsuffix | hinfix
  · rcases List.suffix_concat_iff.mp hsuffix with rfl | ⟨zs, rfl, -⟩
    · exact h [] (List.nil_infix) (by simp)
    · have hlast := hun x (by simp)
      rw [hx] at hlast
      cases hlast
  · exact h ys hinfix hun

theorem Spaced.snoc (h : Spaced mark limit xs) (hlt : sinceLast mark xs + 1 < limit) :
    Spaced mark limit (xs ++ [x]) := by
  cases hx : mark x with
  | true => exact h.snoc_marked hx
  | false =>
    intro ys hys hun
    rcases List.infix_concat_iff.mp hys with hsuffix | hinfix
    · have hle := length_le_sinceLast hsuffix hun
      rw [sinceLast_snoc hx] at hle
      exact hle.trans_lt hlt
    · exact h ys hinfix hun

theorem Spaced.append (h : Spaced mark limit xs) (hys : ∀ y ∈ ys, mark y = false)
    (hlt : sinceLast mark xs + ys.length < limit) : Spaced mark limit (xs ++ ys) := by
  induction ys using List.reverseRecOn with
  | nil => simpa using h
  | append_singleton ys y ih =>
    have hys' : ∀ z ∈ ys, mark z = false := fun z hz => hys z (by simp [hz])
    rw [List.length_append, List.length_singleton] at hlt
    rw [← List.append_assoc]
    apply (ih hys' (by omega)).snoc
    rw [sinceLast_append hys']
    omega

/-- A list that is long enough holds a mark. -/
theorem Spaced.exists_mark (h : Spaced mark limit xs) (hlen : limit ≤ xs.length) : ∃ x ∈ xs, mark x = true := by
  by_contra hnone
  push Not at hnone
  have hlt := h xs (List.infix_refl xs) fun x hx => by simpa using hnone x hx
  omega

/-- A list kept up by a mark at least every `every` elements, give or take the length of
one batch. -/
structure Paced (mark : α → Bool) (every batch : ℕ) (xs : List α) : Prop where
  spaced : Spaced mark (every + batch) xs
  recent : sinceLast mark xs < every

variable {every batch : ℕ}

theorem paced_nil (h : 0 < every) : Paced mark every batch [] :=
  ⟨spaced_nil (by omega), h⟩

/-- A batch without a mark that stays below the limit. -/
theorem Paced.append (h : Paced mark every batch xs) (hys : ∀ y ∈ ys, mark y = false)
    (hlt : sinceLast mark xs + ys.length < every) : Paced mark every batch (xs ++ ys) :=
  ⟨h.spaced.append hys (by omega), by rwa [sinceLast_append hys]⟩

/-- A batch with a mark at its end. -/
theorem Paced.append_marked (h : Paced mark every batch xs) (hys : ∀ y ∈ ys, mark y = false)
    (hlen : ys.length ≤ batch) (hx : mark x = true) : Paced mark every batch (xs ++ (ys ++ [x])) := by
  have hrecent := h.recent
  rw [← List.append_assoc]
  exact ⟨(h.spaced.append hys (by omega)).snoc_marked hx, by rw [sinceLast_snoc_marked hx]; omega⟩

end

end Spacing
