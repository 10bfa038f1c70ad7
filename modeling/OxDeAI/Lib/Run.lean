import Mathlib.Tactic

/-! Runs of a labelled transition system: what every step preserves, every run
preserves, also about the history of its labels. -/

namespace Run

/-- A run from a state, with its labels in order. -/
inductive Trace {σ ε : Type*} (step : σ → ε → σ → Prop) (s : σ) : List ε → σ → Prop
  | nil : Trace step s [] s
  | snoc {es : List ε} {s' : σ} {ev : ε} {s'' : σ} (run : Trace step s es s')
      (last : step s' ev s'') : Trace step s (es ++ [ev]) s''

section

variable {σ ε : Type*} {step : σ → ε → σ → Prop} {s s' : σ} {es : List ε}

theorem Trace.append {es' : List ε} {s'' : σ} (h : Trace step s es s') (h' : Trace step s' es' s'') :
    Trace step s (es ++ es') s'' := by
  induction h' with
  | nil => simpa using h
  | snoc _ last ih =>
    rw [← List.append_assoc]
    exact ih.snoc last

theorem Trace.imp {step' : σ → ε → σ → Prop} (h : Trace step s es s')
    (himp : ∀ a ev b, step a ev b → step' a ev b) : Trace step' s es s' := by
  induction h with
  | nil => exact .nil
  | snoc _ last ih => exact ih.snoc (himp _ _ _ last)

theorem Trace.invariant {I : σ → Prop} (h : Trace step s es s')
    (hstep : ∀ a ev b, I a → step a ev b → I b) (h0 : I s) : I s' := by
  induction h with
  | nil => exact h0
  | snoc _ last ih => exact hstep _ _ _ ih last

/-- Each label satisfies what a step from an invariant state guarantees. -/
theorem Trace.forall_label {I : σ → Prop} {Q : ε → Prop} (h : Trace step s es s')
    (hstep : ∀ a ev b, I a → step a ev b → I b) (hlabel : ∀ a ev b, I a → step a ev b → Q ev)
    (h0 : I s) : ∀ ev ∈ es, Q ev := by
  induction h with
  | nil => simp
  | snoc run last ih =>
    intro ev hev
    rcases List.mem_append.mp hev with hev | hev
    · exact ih ev hev
    · obtain rfl := List.mem_singleton.mp hev
      exact hlabel _ _ _ (run.invariant hstep h0) last

/-- A quantity that each step raises by an amount read off its label. -/
theorem Trace.sum_eq {M : Type*} [AddCommMonoid M] {f : σ → M} {g : ε → M} (h : Trace step s es s')
    (hstep : ∀ a ev b, step a ev b → f b = f a + g ev) : f s' = f s + (es.map g).sum := by
  induction h with
  | nil => simp
  | snoc _ last ih =>
    rw [hstep _ _ _ last, ih, List.map_append, List.sum_append]
    simp [add_assoc]

/-- A relation between the history of labels and the state reached. -/
theorem Trace.history {H : List ε → σ → Prop} (h : Trace step s es s') (h0 : H [] s)
    (hstep : ∀ es a ev b, Trace step s es a → H es a → step a ev b → H (es ++ [ev]) b) :
    H es s' := by
  induction h with
  | nil => exact h0
  | snoc run last ih => exact hstep _ _ _ _ run ih last

/-- The same for runs whose labels pairwise satisfy a relation, which then also
holds between every earlier label and the one of each step. -/
theorem Trace.history_pairwise {R : ε → ε → Prop} {H : List ε → σ → Prop} (h : Trace step s es s')
    (hR : es.Pairwise R) (h0 : H [] s)
    (hstep : ∀ es a ev b, H es a → (∀ prev ∈ es, R prev ev) → step a ev b → H (es ++ [ev]) b) :
    H es s' := by
  induction h with
  | nil => exact h0
  | snoc _ last ih =>
    rw [List.pairwise_append] at hR
    exact hstep _ _ _ _ (ih hR.1) (fun prev hprev => hR.2.2 prev hprev _ (by simp)) last

/-- A pairwise relation between labels that each step establishes against the
whole history before it. -/
theorem Trace.pairwise {R Q : ε → ε → Prop} {H : List ε → σ → Prop} (h : Trace step s es s')
    (hR : es.Pairwise R) (h0 : H [] s)
    (hstep : ∀ es a ev b, H es a → (∀ prev ∈ es, R prev ev) → step a ev b →
      H (es ++ [ev]) b ∧ ∀ prev ∈ es, Q prev ev) : es.Pairwise Q := by
  suffices hh : H es s' ∧ es.Pairwise Q from hh.2
  refine h.history_pairwise (H := fun es a => H es a ∧ es.Pairwise Q) hR ⟨h0, .nil⟩ ?_
  intro es a ev b hH hprev last
  obtain ⟨hb, hq⟩ := hstep es a ev b hH.1 hprev last
  refine ⟨hb, List.pairwise_append.mpr ⟨hH.2, List.pairwise_singleton _ _, ?_⟩⟩
  intro prev hp ev' hev'
  obtain rfl := List.mem_singleton.mp hev'
  exact hq prev hp

/-- Where the last step can be told from the state it leads to, and none leads back to
the start, a run can be told from the state it ends in. -/
theorem Trace.determined (good : σ → Prop) {same : ε → ε → Prop} {fs : List ε} (h : Trace step s es s')
    (h' : Trace step s fs s') (h0 : good s) (hgood : ∀ a ev b, good a → step a ev b → good b)
    (hstart : ∀ a ev, good a → ¬ step a ev s)
    (hlast : ∀ a a' ev ev' b, good a → good a' → step a ev b → step a' ev' b → a = a' ∧ same ev ev') :
    List.Forall₂ same es fs := by
  induction h generalizing fs with
  | nil =>
    cases h' with
    | nil => exact .nil
    | snoc run last => exact absurd last (hstart _ _ (run.invariant hgood h0))
  | snoc run last ih =>
    have hgood₁ := run.invariant hgood h0
    cases h' with
    | nil => exact absurd last (hstart _ _ hgood₁)
    | snoc run' last' =>
      obtain ⟨rfl, hsame⟩ := hlast _ _ _ _ _ hgood₁ (run'.invariant hgood h0) last last'
      exact List.rel_append (ih run') (.cons hsame .nil)

/-- A run seen through a view of its states: what the view shows of the labels is
a run of the view. -/
theorem Trace.project {τ δ : Type*} {step' : τ → δ → τ → Prop} {shown : ε → Option δ}
    (h : Trace step s es s') (view : σ → τ) {I : σ → Prop} (hI : ∀ a ev b, I a → step a ev b → I b) (h0 : I s)
    (hhidden : ∀ a ev b, I a → step a ev b → shown ev = none → view b = view a)
    (hshown : ∀ a ev b d, I a → step a ev b → shown ev = some d → step' (view a) d (view b)) :
    Trace step' (view s) (es.filterMap shown) (view s') := by
  induction h with
  | nil => exact .nil
  | @snoc es s' ev s'' run last ih =>
    have hs' := run.invariant hI h0
    rw [List.filterMap_append]
    cases hd : shown ev with
    | none =>
      rw [hhidden _ _ _ hs' last hd]
      simpa [hd] using ih
    | some d =>
      have hlast := hshown _ _ _ d hs' last hd
      simpa [hd] using Trace.snoc ih hlast

end

end Run
