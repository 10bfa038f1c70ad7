import Mathlib.Tactic

/-! Machines that answer one call at a time. A machine that simulates another answers
every run of allowed calls as the other does. -/

namespace Machine

variable {σ τ ι ο : Type*}

/-- The answers to a run of calls. -/
def answers (step : σ → ι → ο × σ) : σ → List ι → List ο
  | _, [] => []
  | s, i :: is => (step s i).1 :: answers step (step s i).2 is

/-- The state after a run of calls. -/
def after (step : σ → ι → ο × σ) : σ → List ι → σ
  | s, [] => s
  | s, i :: is => after step (step s i).2 is

/-- From related states an allowed call has one answer, and leads to related states. -/
def Simulates (step : σ → ι → ο × σ) (step' : τ → ι → ο × τ) (R : σ → τ → Prop) (allowed : ι → Prop) : Prop :=
  ∀ s t i, R s t → allowed i → (step s i).1 = (step' t i).1 ∧ R (step s i).2 (step' t i).2

section

variable {step : σ → ι → ο × σ} {step' : τ → ι → ο × τ} {R : σ → τ → Prop} {allowed : ι → Prop} {s : σ} {t : τ}
  {calls : List ι}

theorem after_append (step : σ → ι → ο × σ) (s : σ) (pre post : List ι) :
    after step s (pre ++ post) = after step (after step s pre) post := by
  induction pre generalizing s with
  | nil => rfl
  | cons i is ih => exact ih _

theorem Simulates.answers_eq (h : Simulates step step' R allowed) (hR : R s t) (hcalls : ∀ i ∈ calls, allowed i) :
    answers step s calls = answers step' t calls := by
  induction calls generalizing s t with
  | nil => rfl
  | cons i is ih =>
    obtain ⟨hanswer, hnext⟩ := h s t i hR (hcalls i List.mem_cons_self)
    rw [answers, answers, hanswer, ih hnext fun j hj => hcalls j (List.mem_cons_of_mem _ hj)]

theorem Simulates.after (h : Simulates step step' R allowed) (hR : R s t) (hcalls : ∀ i ∈ calls, allowed i) :
    R (Machine.after step s calls) (Machine.after step' t calls) := by
  induction calls generalizing s t with
  | nil => exact hR
  | cons i is ih =>
    obtain ⟨-, hnext⟩ := h s t i hR (hcalls i List.mem_cons_self)
    exact ih hnext fun j hj => hcalls j (List.mem_cons_of_mem _ hj)

/-- What every call preserves, or raises, a run does too. -/
theorem rises_along {P : σ → σ → Prop} (hrefl : ∀ s, P s s) (htrans : ∀ s s' s'', P s s' → P s' s'' → P s s'')
    (hstep : ∀ s i, P s (step s i).2) (s : σ) (calls : List ι) : P s (Machine.after step s calls) := by
  induction calls generalizing s with
  | nil => exact hrefl s
  | cons i is ih => exact htrans _ _ _ (hstep s i) (ih _)

/-- No answer of a machine that never gives a bad one. -/
theorem forall_answers {good : ο → Prop} (hgood : ∀ s i, good (step s i).1) (s : σ) (calls : List ι) :
    ∀ a ∈ answers step s calls, good a := by
  induction calls generalizing s with
  | nil => simp [answers]
  | cons i is ih => exact List.forall_mem_cons.mpr ⟨hgood s i, ih _⟩

end

end Machine
