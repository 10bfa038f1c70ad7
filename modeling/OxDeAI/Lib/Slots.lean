import Mathlib.Data.List.TakeWhile
import Mathlib.Tactic

/-! Slots written one after the other, each with a value that may fail to compute.
The first failure ends the sequence and undoes nothing. -/

namespace Slots

variable {ι ε : Type*} {β : ι → Type*}

def isOk {α : Type*} : Except ε α → Bool
  | .ok _ => true
  | .error _ => false

/-- The slots before the first whose value fails. -/
def written (value : ∀ i, Except ε (β i)) (is : List ι) : List ι := is.takeWhile (fun i => isOk (value i))

variable {value : ∀ i, Except ε (β i)} {is : List ι} {slots : ∀ i, β i} {i : ι}

theorem isOk_iff {α : Type*} {x : Except ε α} : isOk x = true ↔ ∃ v, x = .ok v := by
  cases x with
  | ok v => exact ⟨fun _ => ⟨v, rfl⟩, fun _ => rfl⟩
  | error e =>
    constructor
    · intro h
      cases h
    · intro h
      obtain ⟨v, hv⟩ := h
      cases hv

theorem written_cons_ok {v : β i} (h : value i = .ok v) : written value (i :: is) = i :: written value is :=
  List.takeWhile_cons_of_pos (by rw [h]; rfl)

theorem written_cons_error {e : ε} (h : value i = .error e) : written value (i :: is) = [] :=
  List.takeWhile_cons_of_neg (by rw [h]; exact Bool.false_ne_true)

theorem written_of_ok (h : ∀ i ∈ is, ∃ v, value i = .ok v) : written value is = is := by
  apply List.takeWhile_eq_self_iff.mpr
  intro i hi
  exact isOk_iff.mpr (h i hi)

variable [DecidableEq ι]

def writeEach (value : ∀ i, Except ε (β i)) : List ι → (∀ i, β i) → Except ε Unit × (∀ i, β i)
  | [], slots => (.ok (), slots)
  | i :: is, slots =>
    match value i with
    | .error e => (.error e, slots)
    | .ok v => writeEach value is (Function.update slots i v)

theorem writeEach_cons_ok {v : β i} (h : value i = .ok v) :
    writeEach value (i :: is) slots = writeEach value is (Function.update slots i v) := by
  rw [writeEach, h]

theorem writeEach_cons_error {e : ε} (h : value i = .error e) :
    writeEach value (i :: is) slots = (.error e, slots) := by
  rw [writeEach, h]

theorem writeEach_ok_iff : (writeEach value is slots).1 = .ok () ↔ ∀ i ∈ is, ∃ v, value i = .ok v := by
  induction is generalizing slots with
  | nil => simp [writeEach]
  | cons i is ih =>
    cases hv : value i with
    | ok v => rw [writeEach_cons_ok hv, ih, List.forall_mem_cons, hv]; simp
    | error e => rw [writeEach_cons_error hv, List.forall_mem_cons, hv]; simp

/-- A slot that is not reached keeps its value. -/
theorem writeEach_of_notMem (h : i ∉ written value is) : (writeEach value is slots).2 i = slots i := by
  induction is generalizing slots with
  | nil => rfl
  | cons j is ih =>
    cases hv : value j with
    | error e => rw [writeEach_cons_error hv]
    | ok v =>
      rw [written_cons_ok hv, List.mem_cons, not_or] at h
      rw [writeEach_cons_ok hv, ih h.2, Function.update_of_ne h.1]

/-- A slot that is reached holds its value, however often it is written. -/
theorem writeEach_of_mem (h : i ∈ written value is) : value i = .ok ((writeEach value is slots).2 i) := by
  induction is generalizing slots with
  | nil => cases h
  | cons j is ih =>
    cases hv : value j with
    | error e =>
      rw [written_cons_error hv] at h
      cases h
    | ok v =>
      rw [written_cons_ok hv] at h
      rw [writeEach_cons_ok hv]
      by_cases hlater : i ∈ written value is
      · exact ih hlater
      · have hij : i = j := by
          rcases List.mem_cons.mp h with rfl | hmem
          · rfl
          · exact absurd hmem hlater
        subst hij
        rw [writeEach_of_notMem hlater, Function.update_self, hv]

/-- Nothing has changed exactly when each slot that was reached had its value before. -/
theorem writeEach_eq_self_iff :
    (writeEach value is slots).2 = slots ↔ ∀ i ∈ written value is, value i = .ok (slots i) := by
  constructor
  · intro h i hi
    have hval : value i = .ok ((writeEach value is slots).2 i) := writeEach_of_mem hi
    rw [h] at hval
    exact hval
  · intro h
    funext i
    by_cases hi : i ∈ written value is
    · have hval : value i = .ok ((writeEach value is slots).2 i) := writeEach_of_mem hi
      rw [h i hi] at hval
      exact (Except.ok.inj hval).symm
    · exact writeEach_of_notMem hi

end Slots
