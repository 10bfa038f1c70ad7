import OxDeAI.Lib.Run

/-! Numbered calls that run at once over a shared state. Each is known by the answers
it got so far. -/

namespace Async

universe u

/-- The shared state, and the answers of each call in their order. -/
structure Calls (τ : Type u) {ι : Type u} (ρ : ι → Type u) where
  shared : τ
  history : ℕ → List (Sigma ρ)

section

variable {τ ι : Type u} {ρ : ι → Type u}

def Calls.start (s : τ) : Calls τ ρ := ⟨s, fun _ => []⟩

def Calls.record (c : Calls τ ρ) (n : ℕ) (ev : Sigma ρ) (t : τ) : Calls τ ρ :=
  ⟨t, Function.update c.history n (c.history n ++ [ev])⟩

theorem Calls.mem_record {c : Calls τ ρ} {n m : ℕ} {ev e : Sigma ρ} {t : τ} :
    e ∈ (c.record n ev t).history m ↔ e ∈ c.history m ∨ m = n ∧ e = ev := by
  by_cases hm : m = n
  · subst hm
    simp [Calls.record]
  · simp [Calls.record, hm]

/-- A call gets an answer to what it asks after its answers so far. -/
inductive CallStep (asks : ℕ → List (Sigma ρ) → ι → Prop) (serve : τ → (i : ι) → ρ i → τ → Prop) :
    Calls τ ρ → ℕ × Sigma ρ → Calls τ ρ → Prop
  | answer {c : Calls τ ρ} {n : ℕ} {i : ι} (hasks : asks n (c.history n) i) (a : ρ i) {t : τ}
    (ht : serve c.shared i a t) : CallStep asks serve c (n, ⟨i, a⟩) (c.record n ⟨i, a⟩ t)

variable {asks : ℕ → List (Sigma ρ) → ι → Prop} {serve : τ → (i : ι) → ρ i → τ → Prop}
  {C : Calls τ ρ → ℕ × Sigma ρ → Prop} {c : Calls τ ρ} {s : τ} {es : List (ℕ × Sigma ρ)}

/-- One call goes on alone, answered as the shared state answers it. -/
theorem run_next {n : ℕ} {t : τ} {evs : List (Sigma ρ)} (c : Calls τ ρ)
    (hserve : Run.Trace (fun s e t => serve s e.1 e.2 t) c.shared evs t)
    (hasks : ∀ before e after, evs = before ++ e :: after → asks n (c.history n ++ before) e.1) :
    ∃ es, Run.Trace (CallStep asks serve) c es ⟨t, Function.update c.history n (c.history n ++ evs)⟩ := by
  induction hserve with
  | nil =>
    refine ⟨[], ?_⟩
    rw [List.append_nil, Function.update_eq_self]
    exact .nil
  | @snoc evs t e t' _ hlast ih =>
    obtain ⟨es, hrun⟩ := ih fun before d after heq => hasks before d (after ++ [e]) (by simp [heq])
    have hstep : CallStep asks serve ⟨t, Function.update c.history n (c.history n ++ evs)⟩ (n, ⟨e.1, e.2⟩) _ :=
      .answer (by simpa using hasks evs e [] rfl) e.2 hlast
    have hrecord : (⟨t, Function.update c.history n (c.history n ++ evs)⟩ : Calls τ ρ).record n ⟨e.1, e.2⟩ t' =
        ⟨t', Function.update c.history n (c.history n ++ (evs ++ [e]))⟩ := by
      simp [Calls.record]
    rw [hrecord] at hstep
    exact ⟨_, hrun.snoc hstep⟩

theorem run_alone {n : ℕ} {t : τ} {evs : List (Sigma ρ)}
    (hserve : Run.Trace (fun s e t => serve s e.1 e.2 t) s evs t)
    (hasks : ∀ before e after, evs = before ++ e :: after → asks n before e.1) :
    ∃ es, Run.Trace (CallStep asks serve) (.start s) es ⟨t, Function.update (fun _ => []) n evs⟩ :=
  run_next (.start s) hserve hasks

end

end Async
