import Mathlib.Tactic

/-! Keys that lapse: a key is set when it is absent or lapsed, and then held for the
time to live it is given. -/

namespace Expiring

/-- When each key that was set lapses. -/
abbrev Keys (κ : Type*) := κ → Option ℤ

section

variable {κ : Type*} {keys : Keys κ} {now lapse : ℤ} {k : κ}

def live (keys : Keys κ) (now : ℤ) (k : κ) : Bool := (keys k).any (fun lapse => now < lapse)

/-- The key lapses at this time or later. -/
def HeldUntil (keys : Keys κ) (k : κ) (lapse : ℤ) : Prop := ∃ l, keys k = some l ∧ lapse ≤ l

theorem HeldUntil.live (h : HeldUntil keys k lapse) (hnow : now < lapse) : live keys now k = true := by
  obtain ⟨l, hl, hle⟩ := h
  rw [Expiring.live, hl]
  show decide (now < l) = true
  rw [decide_eq_true_eq]
  omega

end

section

variable {κ : Type*} [DecidableEq κ] {keys : Keys κ} {now lapse : ℤ} {k k' : κ} {ttl : ℕ}

/-- Set a key that is not live; whether it was set, and the keys after. -/
def setNx (keys : Keys κ) (now : ℤ) (k : κ) (ttl : ℕ) : Bool × Keys κ :=
  if live keys now k then (false, keys) else (true, Function.update keys k (some (now + ttl)))

theorem setNx_of_live (h : live keys now k = true) : setNx keys now k ttl = (false, keys) := by
  rw [setNx, if_pos h]

theorem setNx_of_not_live (h : live keys now k = false) :
    setNx keys now k ttl = (true, Function.update keys k (some (now + ttl))) := by
  rw [setNx, if_neg (by simp [h])]

/-- A key that is held is not set again. -/
theorem HeldUntil.refuses (h : HeldUntil keys k lapse) (hnow : now < lapse) :
    (setNx keys now k ttl).1 = false := by
  rw [setNx_of_live (h.live hnow)]

theorem heldUntil_of_setNx (h : (setNx keys now k ttl).1 = true) :
    HeldUntil (setNx keys now k ttl).2 k (now + ttl) := by
  cases hlive : Expiring.live keys now k with
  | true =>
    rw [setNx_of_live hlive] at h
    cases h
  | false =>
    rw [setNx_of_not_live hlive]
    exact ⟨now + ttl, Function.update_self .., le_refl _⟩

/-- Whatever is set later, the key is held as long. -/
theorem HeldUntil.setNx (h : HeldUntil keys k lapse) : HeldUntil (setNx keys now k' ttl).2 k lapse := by
  cases hlive : Expiring.live keys now k' with
  | true =>
    rw [setNx_of_live hlive]
    exact h
  | false =>
    rw [setNx_of_not_live hlive]
    by_cases hk : k = k'
    · subst hk
      obtain ⟨l, hl, hle⟩ := h
      have hpassed : l ≤ now := by
        rw [Expiring.live, hl] at hlive
        have hnot : ¬ now < l := by simpa using hlive
        omega
      exact ⟨now + ttl, Function.update_self .., by omega⟩
    · obtain ⟨l, hl, hle⟩ := h
      exact ⟨l, (Function.update_of_ne hk _ _).trans hl, hle⟩

end

end Expiring
