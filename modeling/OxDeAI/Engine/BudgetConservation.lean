import OxDeAI.Engine.Runs

/-! What runs do to budgets. Only allowed executions are charged, each once and
to its own agent. -/

namespace OxDeAI

open Js Run

/-- What one evaluation adds to the amount an agent has spent. -/
def Evaluation.charge (agent : JsString) (ev : Evaluation) : ℤ :=
  if ev.executes agent then ev.intent.amount else 0

section

variable {P : Platform} {e : PolicyEngine} {s s' : State × AuditLog} {ev : Evaluation}

/-- The entry of an agent moves only when an execution of that agent is allowed. -/
theorem EngineStep.spent_unchanged (h : EngineStep P e s ev s') {agent : JsString}
    (hno : ev.executes agent = false) :
    ev.after.budget.spentInPeriod.own? agent = ev.before.budget.spentInPeriod.own? agent := by
  cases hcur : ev.isAllowed with
  | false => rw [ev.after_of_not_allowed hcur]
  | true =>
    obtain ⟨c, parts, ha⟩ := h.allowed hcur
    rw [ha.after, nextStateFor_budget]
    cases hk : ev.intent.kind with
    | release => rfl
    | execute =>
      have hne : agent ≠ ev.intent.agentId := by
        rintro rfl
        simp [Evaluation.executes, hcur, hk] at hno
      simp [chargeBudget, hne]

/-- An allowed execution charges its amount and stays within the cap and the budget. -/
structure ChargedExecution (agent : JsString) (ev : Evaluation) : Prop where
  nonneg : 0 ≤ ev.intent.amount
  cap : ∃ cap, ev.before.maxAmountPerAction.own? agent = some (some cap) ∧ ev.intent.amount ≤ cap
  spent : spentBy ev.after agent = spentBy ev.before agent + ev.intent.amount
  limit : ∃ limit, ev.after.budget.budgetLimit.own? agent = some limit ∧ spentBy ev.after agent ≤ limit

theorem EngineStep.charged (h : EngineStep P e s ev s') {agent : JsString}
    (hx : ev.executes agent = true) : ChargedExecution agent ev := by
  obtain ⟨hcur, hk, rfl⟩ := executes_iff.mp hx
  obtain ⟨c, parts, ha⟩ := h.allowed hcur
  have hadm := ha.permitted.admitted.execute hk
  obtain ⟨cap, hcap⟩ := ha.permitted.leaves.maxAmountPerAction
  obtain ⟨limit, hlimit⟩ := ha.permitted.leaves.budgetLimit
  have hbudget : ev.after.budget = chargeBudget ev.intent ev.before := by
    rw [ha.after, nextStateFor_budget, hk]
  have hspent : spentBy ev.after ev.intent.agentId =
      spentBy ev.before ev.intent.agentId + ev.intent.amount := by
    simp [spentBy, hbudget, chargeBudget]
  refine ⟨hadm.nonneg, ⟨cap, hcap, hadm.cap cap hcap⟩, hspent, limit, ?_, ?_⟩
  · rw [hbudget]
    exact hlimit
  · rw [hspent]
    exact hadm.limit limit hlimit

theorem EngineStep.spentBy_eq (h : EngineStep P e s ev s') (agent : JsString) :
    spentBy s'.1 agent = spentBy s.1 agent + ev.charge agent := by
  rw [h.after, ← h.before, Evaluation.charge]
  cases hx : ev.executes agent with
  | false => simp [spentBy, h.spent_unchanged hx]
  | true => simp [(h.charged hx).spent]

/-- The limits of an agent. -/
theorem EngineStep.limits (h : EngineStep P e s ev s') :
    s'.1.budget.budgetLimit = s.1.budget.budgetLimit ∧
      s'.1.maxAmountPerAction = s.1.maxAmountPerAction := by
  rw [h.after, ← h.before]
  cases hcur : ev.isAllowed with
  | false => rw [ev.after_of_not_allowed hcur]; exact ⟨rfl, rfl⟩
  | true =>
    obtain ⟨c, parts, ha⟩ := h.allowed hcur
    rw [ha.after, nextStateFor_budget, nextStateFor_maxAmountPerAction]
    cases ev.intent.kind <;> exact ⟨rfl, rfl⟩

/-- Over a run an agent's spent amount grows by exactly what its allowed
executions cost, each of them within its cap and its budget, and nothing else
touches it. -/
theorem budget_conservation {evs : List Evaluation} (hrun : EngineRun P e s evs s') (agent : JsString) :
    spentBy s'.1 agent = spentBy s.1 agent +
        ((evs.filter (fun ev => ev.executes agent)).map (fun ev => ev.intent.amount)).sum ∧
      (∀ ev ∈ evs, ev.executes agent = true → ChargedExecution agent ev) ∧
      (∀ ev ∈ evs, ev.executes agent = false →
        ev.after.budget.spentInPeriod.own? agent = ev.before.budget.spentInPeriod.own? agent) ∧
      s'.1.budget.budgetLimit = s.1.budget.budgetLimit ∧
      s'.1.maxAmountPerAction = s.1.maxAmountPerAction := by
  have hsum : (evs.map (Evaluation.charge agent)).sum =
      ((evs.filter (fun ev => ev.executes agent)).map (fun ev => ev.intent.amount)).sum := by
    clear hrun
    induction evs with
    | nil => rfl
    | cons ev evs ih =>
      cases hx : ev.executes agent <;> simp [Evaluation.charge, hx, ih]
  refine ⟨?_, ?_, ?_, ?_⟩
  · rw [← hsum]
    exact hrun.sum_eq (f := fun s => spentBy s.1 agent) (fun a ev b h => h.spentBy_eq agent)
  · exact hrun.forall_label (I := fun _ => True) (fun _ _ _ _ _ => trivial)
      (fun a ev b _ h hx => h.charged hx) trivial
  · exact hrun.forall_label (I := fun _ => True) (fun _ _ _ _ _ => trivial)
      (fun a ev b _ h hx => h.spent_unchanged hx) trivial
  · exact hrun.invariant (I := fun t => t.1.budget.budgetLimit = s.1.budget.budgetLimit ∧
      t.1.maxAmountPerAction = s.1.maxAmountPerAction)
      (fun a ev b hI h => ⟨h.limits.1.trans hI.1, h.limits.2.trans hI.2⟩) ⟨rfl, rfl⟩

/-- The sample execution of ten raises the spent amount from nothing to ten. -/
theorem budget_conservation_sample :
    spentBy (evaluation samplePlatform sampleEngine (AuditLog.initial samplePlatform)
      (sampleIntent (js "a")) (sampleState (js "a")) (.int 1000) .failFast).after (js "a") = 10 := by
  obtain ⟨parts, hp⟩ := permitted_sample
  have hallowed : (evaluation samplePlatform sampleEngine (AuditLog.initial samplePlatform)
      (sampleIntent (js "a")) (sampleState (js "a")) (.int 1000) .failFast).isAllowed = true :=
    (evaluation_allowedStep samplePlatform_laws.nfc rfl hp _ _).isAllowed
  have hstep := evaluation_step samplePlatform sampleEngine (AuditLog.initial samplePlatform)
    (sampleIntent (js "a")) (sampleState (js "a")) (.int 1000) .failFast
  have hintent : (evaluation samplePlatform sampleEngine (AuditLog.initial samplePlatform)
    (sampleIntent (js "a")) (sampleState (js "a")) (.int 1000) .failFast).intent =
      sampleIntent (js "a") := rfl
  generalize evaluation samplePlatform sampleEngine (AuditLog.initial samplePlatform)
    (sampleIntent (js "a")) (sampleState (js "a")) (.int 1000) .failFast = first at *
  have hx : first.executes (js "a") = true :=
    executes_iff.mpr ⟨hallowed, by rw [hintent]; rfl, by rw [hintent]; rfl⟩
  have hsum := (budget_conservation (.snoc .nil hstep) (js "a")).1
  rw [List.nil_append, List.filter_cons_of_pos (by exact hx)] at hsum
  rw [hsum, List.filter_nil, List.map_cons, List.map_nil, List.sum_singleton, hintent]
  rfl

end

end OxDeAI
