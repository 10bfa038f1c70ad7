import OxDeAI.Policy.Gates

/-! The counters an action is charged to: money spent in the period, and actions
in the fixed velocity window. -/

namespace OxDeAI

open Js

/-- The leaf checks have ruled out a read that lands on the prototype, so only
own amounts count here. -/
def budgetModule : PolicyModule := fun intent state _ =>
  if intent.amount < 0 then .ok (.deny [.intentAmountInvalid])
  else
    let limit := state.budget.budgetLimit.own? intent.agentId
    let spent := (state.budget.spentInPeriod.own? intent.agentId).getD 0
    match limit, (state.maxAmountPerAction.own? intent.agentId).join with
    | none, _ => .ok (.deny [.stateInvalid])
    | some _, none => .ok (.deny [.stateInvalid])
    | some limit, some cap =>
      if intent.amount > cap then .ok (.deny [.perActionCapExceeded])
      else if spent + intent.amount > limit then .ok (.deny [.budgetExceeded])
      else .ok (.allow (some { budget := some { state.budget with
        spentInPeriod := state.budget.spentInPeriod.set intent.agentId (spent + intent.amount) } }))

/-- Amounts already charged to an agent; none means zero. -/
def spentBy (state : State) (agent : JsString) : ℤ :=
  (state.budget.spentInPeriod.own? agent).getD 0

def chargeBudget (intent : Intent) (state : State) : BudgetState :=
  { state.budget with
    spentInPeriod := state.budget.spentInPeriod.set intent.agentId
      (spentBy state intent.agentId + intent.amount) }

theorem budgetModule_allow {intent : Intent} {state : State} {context : PolicyEvaluationContext}
    {delta : Option StateDelta} {limit cap : ℤ}
    (hlimit : state.budget.budgetLimit.own? intent.agentId = some limit)
    (hcap : state.maxAmountPerAction.own? intent.agentId = some (some cap)) :
    budgetModule intent state context = .ok (.allow delta) ↔
      0 ≤ intent.amount ∧ intent.amount ≤ cap ∧
        spentBy state intent.agentId + intent.amount ≤ limit ∧
        delta = some { budget := some (chargeBudget intent state) } := by
  simp only [budgetModule, hlimit, hcap, Option.join_some]
  constructor
  · intro h
    split at h
    · cases h
    · split at h
      · cases h
      · split at h
        · cases h
        · cases h
          exact ⟨by omega, by omega, by simp only [spentBy]; omega, rfl⟩
  · rintro ⟨h0, h1, h2, rfl⟩
    simp only [spentBy] at h2
    rw [if_neg (by omega), if_neg (by omega), if_neg (by omega)]
    rfl

def validVelocityConfig (cfg : VelocityConfig) : Bool :=
  cfg.windowSeconds.isSafeInteger && !cfg.windowSeconds.le (.int 0) &&
  cfg.maxActions.isSafeInteger && !cfg.maxActions.lt (.int 0)

def validCounter (now : JsNumber) (c : VelocityCounter) : Bool :=
  c.windowStart.isSafeInteger && !c.windowStart.lt (.int 0) &&
  c.count.isSafeInteger && !c.count.lt (.int 0) && !now.lt c.windowStart

/-- The agent's counter, when it has none or a valid one. -/
def readCounter (state : State) (agent : JsString) (now : JsNumber) :
    Option (Option VelocityCounter) :=
  match state.velocity.counters.get agent with
  | .own (some c) => if validCounter now c then some (some c) else none
  | .own none => some none
  | .absent => some none
  | .inherited _ => none

/-- The counter after one more action, unless the limit forbids it. -/
def nextCounter (cfg : VelocityConfig) (now : JsNumber) : Option VelocityCounter → Option VelocityCounter
  | none => if cfg.maxActions.lt (.int 1) then none else some ⟨now, .int 1⟩
  | some c =>
    if (now.sub c.windowStart).ge cfg.windowSeconds then
      if cfg.maxActions.lt (.int 1) then none else some ⟨now, .int 1⟩
    else if c.count.ge cfg.maxActions then none
    else some ⟨c.windowStart, c.count.add (.int 1)⟩

def velocityModule : PolicyModule := fun intent state context =>
  let cfg := state.velocity.config
  let now := context.evaluationTime
  if !validVelocityConfig cfg then .ok (.deny [.stateInvalid])
  else match readCounter state intent.agentId now with
    | none => .ok (.deny [.stateInvalid])
    | some c => match nextCounter cfg now c with
      | none => .ok (.deny [.velocityExceeded])
      | some next => .ok (.allow (some { velocity := some { state.velocity with
          counters := state.velocity.counters.set intent.agentId (some next) } }))

theorem velocityModule_allow {intent : Intent} {state : State} {context : PolicyEvaluationContext}
    {delta : Option StateDelta} :
    velocityModule intent state context = .ok (.allow delta) ↔
      validVelocityConfig state.velocity.config = true ∧
      ∃ c next, readCounter state intent.agentId context.evaluationTime = some c ∧
        nextCounter state.velocity.config context.evaluationTime c = some next ∧
        delta = some { velocity := some { state.velocity with
          counters := state.velocity.counters.set intent.agentId (some next) } } := by
  simp only [velocityModule]
  constructor
  · intro h
    split at h
    · cases h
    · rename_i hc
      split at h
      · cases h
      · rename_i c hr
        split at h
        · cases h
        · rename_i next hn
          cases h
          exact ⟨by simpa using hc, c, next, hr, hn, rfl⟩
  · rintro ⟨hc, c, next, hr, hn, rfl⟩
    simp only [hc, Bool.not_true, Bool.false_eq_true, if_false, hr, hn]

theorem not_inherited_of_readCounter {state : State} {agent : JsString} {now : JsNumber}
    {c : Option VelocityCounter} (h : readCounter state agent now = some c) :
    (state.velocity.counters.get agent).isInherited = false := by
  simp only [readCounter] at h
  split at h
  · rename_i hg
    rw [hg]
    rfl
  · rename_i hg
    rw [hg]
    rfl
  · rename_i hg
    rw [hg]
    rfl
  · cases h

end OxDeAI
