import Mathlib.Tactic

/-! First-match lookups, and what they can return once the list is reordered. -/

namespace FirstMatch

section

variable {α : Type*} {p : α → Bool} {l l' : List α} {r : Option α}

/-- A result some order of the list gives. -/
def Possible (p : α → Bool) (l : List α) : Option α → Prop
  | none => ∀ x ∈ l, p x = false
  | some x => x ∈ l ∧ p x = true

theorem possible_find? (p : α → Bool) (l : List α) : Possible p l (l.find? p) := by
  cases h : l.find? p with
  | none =>
    intro x hx
    simpa using List.find?_eq_none.mp h x hx
  | some x => exact ⟨List.mem_of_find?_eq_some h, List.find?_some h⟩

theorem Possible.perm (h : Possible p l r) (hp : l.Perm l') : Possible p l' r := by
  cases r with
  | none =>
    intro x hx
    exact h x (hp.mem_iff.mpr hx)
  | some x => exact ⟨hp.mem_iff.mp h.1, h.2⟩

theorem exists_perm_find? (h : Possible p l r) : ∃ l', l.Perm l' ∧ l'.find? p = r := by
  cases r with
  | none =>
    refine ⟨l, List.Perm.refl l, List.find?_eq_none.mpr ?_⟩
    intro x hx
    simp [h x hx]
  | some x =>
    obtain ⟨hmem, hpx⟩ := h
    obtain ⟨s, t, rfl⟩ := List.append_of_mem hmem
    exact ⟨x :: (s ++ t), List.perm_middle, List.find?_cons_of_pos hpx⟩

end

end FirstMatch
