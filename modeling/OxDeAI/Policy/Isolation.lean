import OxDeAI.Policy.Decision
import OxDeAI.Js.SameRecord

/-! No module reads the entries of other agents, so the decision phase does not. -/

namespace OxDeAI

open Js

/-- The two states agree on what they share and on the entries of this agent. -/
structure SameFor (agent : JsString) (s s' : State) : Prop where
  policyVersion : s.policyVersion = s'.policyVersion
  periodId : s.periodId = s'.periodId
  globalSwitch : s.killSwitch.globalSwitch = s'.killSwitch.globalSwitch
  killSwitch : s.killSwitch.agents.own? agent = s'.killSwitch.agents.own? agent
  allowlists : s.allowlists = s'.allowlists
  budgetLimit : s.budget.budgetLimit.own? agent = s'.budget.budgetLimit.own? agent
  spentInPeriod : s.budget.spentInPeriod.own? agent = s'.budget.spentInPeriod.own? agent
  maxAmountPerAction : s.maxAmountPerAction.own? agent = s'.maxAmountPerAction.own? agent
  velocityConfig : s.velocity.config = s'.velocity.config
  counters : s.velocity.counters.own? agent = s'.velocity.counters.own? agent
  replayWindow : s.replay.windowSeconds = s'.replay.windowSeconds
  maxNoncesPerAgent : s.replay.maxNoncesPerAgent = s'.replay.maxNoncesPerAgent
  nonces : s.replay.nonces.own? agent = s'.replay.nonces.own? agent
  maxConcurrent : s.concurrency.maxConcurrent.own? agent = s'.concurrency.maxConcurrent.own? agent
  active : s.concurrency.active.own? agent = s'.concurrency.active.own? agent
  activeAuths : s.concurrency.activeAuths.own? agent = s'.concurrency.activeAuths.own? agent
  maxDepth : s.recursion.maxDepth.own? agent = s'.recursion.maxDepth.own? agent
  toolWindow : s.toolLimits.windowSeconds = s'.toolLimits.windowSeconds
  maxCalls : s.toolLimits.maxCalls.own? agent = s'.toolLimits.maxCalls.own? agent
  maxCallsByTool : Option.Rel (fun r r' => r.own? agent = r'.own? agent) s.toolLimits.maxCallsByTool
    s'.toolLimits.maxCallsByTool
  calls : s.toolLimits.calls.own? agent = s'.toolLimits.calls.own? agent

theorem SameFor.symm {agent : JsString} {s s' : State} (h : SameFor agent s s') : SameFor agent s' s where
  policyVersion := h.policyVersion.symm
  periodId := h.periodId.symm
  globalSwitch := h.globalSwitch.symm
  killSwitch := h.killSwitch.symm
  allowlists := h.allowlists.symm
  budgetLimit := h.budgetLimit.symm
  spentInPeriod := h.spentInPeriod.symm
  maxAmountPerAction := h.maxAmountPerAction.symm
  velocityConfig := h.velocityConfig.symm
  counters := h.counters.symm
  replayWindow := h.replayWindow.symm
  maxNoncesPerAgent := h.maxNoncesPerAgent.symm
  nonces := h.nonces.symm
  maxConcurrent := h.maxConcurrent.symm
  active := h.active.symm
  activeAuths := h.activeAuths.symm
  maxDepth := h.maxDepth.symm
  toolWindow := h.toolWindow.symm
  maxCalls := h.maxCalls.symm
  maxCallsByTool := rel_symm (fun _ _ => Eq.symm) h.maxCallsByTool
  calls := h.calls.symm

/-- The same refusal, or two permissions. -/
inductive SameAnswer : PolicyResult → PolicyResult → Prop
  | deny (reasons : List ReasonCode) : SameAnswer (.deny reasons) (.deny reasons)
  | allow (d d' : Option StateDelta) : SameAnswer (.allow d) (.allow d')

inductive SameVerdict : DecisionResult → DecisionResult → Prop
  | deny (reasons : List ReasonCode) : SameVerdict (.deny reasons) (.deny reasons)
  | allow (next next' : State) : SameVerdict (.allow next) (.allow next')

/-- A module that answers alike on states that agree for the acting agent. -/
def Isolated (m : PolicyModule) : Prop :=
  ∀ intent context state state', SameFor intent.agentId state state' →
    ExceptRel SameAnswer (m intent state context) (m intent state' context)

theorem SameAnswer.refl (r : PolicyResult) : SameAnswer r r := by
  cases r with
  | deny reasons => exact .deny reasons
  | allow d => exact .allow d d

theorem sameAnswer_refl (r : Except JsError PolicyResult) : ExceptRel SameAnswer r r := by
  cases r with
  | error err => exact .error err
  | ok r => exact .ok (.refl r)

theorem killSwitchModule_isolated : Isolated killSwitchModule := by
  intro intent context state state' h
  have heq : killSwitchModule intent state context = killSwitchModule intent state' context := by
    rw [killSwitchModule, killSwitchModule, h.globalSwitch, Record.get_congr h.killSwitch]
  rw [heq]
  exact sameAnswer_refl _

theorem allowlistModule_isolated : Isolated allowlistModule := by
  intro intent context state state' h
  have heq : allowlistModule intent state context = allowlistModule intent state' context := by
    rw [allowlistModule, allowlistModule, h.allowlists]
  rw [heq]
  exact sameAnswer_refl _

theorem recursionDepthModule_isolated : Isolated recursionDepthModule := by
  intro intent context state state' h
  have heq : recursionDepthModule intent state context = recursionDepthModule intent state' context := by
    rw [recursionDepthModule, recursionDepthModule, Record.get_congr h.maxDepth]
  rw [heq]
  exact sameAnswer_refl _

theorem nonceList_own {agent : JsString} {state state' : State} (h : SameFor agent state state') :
    nonceList state agent = nonceList state' agent := by
  rw [nonceList, nonceList, Record.get_congr h.nonces]

theorem replayModule_isolated : Isolated replayModule := by
  intro intent context state state' h
  have hconfig : validReplayConfig state.replay = validReplayConfig state'.replay := by
    rw [validReplayConfig, validReplayConfig, h.replayWindow, h.maxNoncesPerAgent]
  have hstart : windowStart state.replay context = windowStart state'.replay context := by
    rw [windowStart, windowStart, retention, retention, h.replayWindow]
  rw [replayModule, replayModule]
  simp only [hconfig, hstart, nonceList_own h, h.maxNoncesPerAgent]
  split
  · exact .ok (.deny _)
  · cases nonceList state' intent.agentId with
    | error err => exact .error err
    | ok list =>
      refine .ok ?_
      dsimp only
      split
      · exact .deny _
      · split
        · exact .deny _
        · exact .allow _ _

theorem residentLeases_own {agent : JsString} {state state' : State} (h : SameFor agent state state') :
    residentLeases state agent = residentLeases state' agent := by
  rw [residentLeases, residentLeases, Record.get_congr h.activeAuths]

theorem activeCount_own {agent : JsString} {state state' : State} (h : SameFor agent state state') :
    activeCount state agent = activeCount state' agent := by
  rw [activeCount, activeCount, Record.get_congr h.active]

theorem computeConcurrencyLeases_own {intent : Intent} {state state' : State} (h : SameFor intent.agentId state state')
    (t : JsNumber) : computeConcurrencyLeases intent state t = computeConcurrencyLeases intent state' t := by
  rw [computeConcurrencyLeases, computeConcurrencyLeases, residentLeases_own h, activeCount_own h]

theorem concurrencyModule_isolated : Isolated concurrencyModule := by
  intro intent context state state' h
  rw [concurrencyModule, concurrencyModule]
  simp only [computeConcurrencyLeases_own h, activeCount_own h, Record.get_congr h.maxConcurrent]
  split
  · exact .ok (.deny _)
  · split
    · exact .ok (.deny _)
    · split
      · split
        · exact .ok (.deny _)
        · exact .ok (.allow _ _)
      · split
        · exact .ok (.deny _)
        · exact .ok (.allow _ _)

theorem configuredToolLimits_own {agent : JsString} {state state' : State} (h : SameFor agent state state') :
    configuredToolLimits state.toolLimits agent = configuredToolLimits state'.toolLimits agent := by
  have hby := h.maxCallsByTool
  rw [configuredToolLimits, configuredToolLimits]
  generalize state.toolLimits.maxCallsByTool = o at hby
  generalize state'.toolLimits.maxCallsByTool = o' at hby
  cases hby with
  | none => rfl
  | some hr => exact Record.get_congr hr

theorem aggregateLimit_own {agent : JsString} {state state' : State} (h : SameFor agent state state') :
    aggregateLimit state.toolLimits agent = aggregateLimit state'.toolLimits agent := by
  rw [aggregateLimit, aggregateLimit, h.toolWindow, Record.get_congr h.maxCalls, configuredToolLimits_own h]

theorem isRateLimitedToolCall_own {intent : Intent} {state state' : State} (h : SameFor intent.agentId state state') :
    isRateLimitedToolCall intent state = isRateLimitedToolCall intent state' := by
  rw [isRateLimitedToolCall, isRateLimitedToolCall, Record.get_congr h.maxCalls, configuredToolLimits_own h]

theorem limitToolCall_own {intent : Intent} {state state' : State} (h : SameFor intent.agentId state state')
    (now : JsNumber) (tool : JsString) :
    SameAnswer (limitToolCall intent state now tool) (limitToolCall intent state' now tool) := by
  have hcurrent : currentCalls state.toolLimits intent.agentId = currentCalls state'.toolLimits intent.agentId := by
    rw [currentCalls, currentCalls, Record.get_congr h.calls]
  have hprune : ∀ calls, pruneCalls state.toolLimits now calls = pruneCalls state'.toolLimits now calls := by
    intro calls
    rw [pruneCalls, pruneCalls, h.toolWindow]
  rw [limitToolCall, limitToolCall]
  simp only [aggregateLimit_own h, isRateLimitedToolCall_own h, hcurrent, hprune, configuredToolLimits_own h]
  split
  · exact .deny _
  · split
    · exact .allow _ _
    · split
      · exact .deny _
      · split
        · exact .deny _
        · split
          · exact .deny _
          · exact .allow _ _

theorem toolAmplificationModule_isolated : Isolated toolAmplificationModule := by
  intro intent context state state' h
  rw [toolAmplificationModule, toolAmplificationModule]
  split
  · refine .ok ?_
    split
    · exact .allow _ _
    · exact limitToolCall_own h _ _
  · exact .ok (.allow _ _)

theorem budgetModule_isolated : Isolated budgetModule := by
  intro intent context state state' h
  rw [budgetModule, budgetModule]
  simp only [h.budgetLimit, h.spentInPeriod, h.maxAmountPerAction]
  split
  · exact .ok (.deny _)
  · split
    · exact .ok (.deny _)
    · exact .ok (.deny _)
    · split
      · exact .ok (.deny _)
      · split
        · exact .ok (.deny _)
        · exact .ok (.allow _ _)

theorem velocityModule_isolated : Isolated velocityModule := by
  intro intent context state state' h
  have hread : readCounter state intent.agentId = readCounter state' intent.agentId := by
    funext now
    rw [readCounter, readCounter, Record.get_congr h.counters]
  rw [velocityModule, velocityModule]
  simp only [hread, h.velocityConfig]
  split
  · exact .ok (.deny _)
  · split
    · exact .ok (.deny _)
    · split
      · exact .ok (.deny _)
      · exact .ok (.allow _ _)

theorem modulesFor_isolated {intent : Intent} {m : PolicyModule} (h : m ∈ modulesFor intent) : Isolated m := by
  simp only [modulesFor] at h
  split at h
  · simp only [releaseModules, List.mem_cons, List.not_mem_nil, or_false] at h
    rcases h with rfl | rfl | rfl
    · exact killSwitchModule_isolated
    · exact replayModule_isolated
    · exact concurrencyModule_isolated
  · simp only [executeModules, List.mem_cons, List.not_mem_nil, or_false] at h
    rcases h with rfl | rfl | rfl | rfl | rfl | rfl | rfl | rfl
    · exact killSwitchModule_isolated
    · exact allowlistModule_isolated
    · exact replayModule_isolated
    · exact recursionDepthModule_isolated
    · exact concurrencyModule_isolated
    · exact toolAmplificationModule_isolated
    · exact budgetModule_isolated
    · exact velocityModule_isolated

/-- The merged deltas play no part in the verdict. -/
theorem collectResults_verdict (mode : EvalMode) (working working' : State) (denied : List ReasonCode)
    {results results' : List PolicyResult} (hr : List.Forall₂ SameAnswer results results') :
    SameVerdict (collectResults mode working denied results) (collectResults mode working' denied results') := by
  induction hr generalizing working working' denied with
  | nil =>
    simp only [collectResults]
    split
    · exact .allow _ _
    · exact .deny _
  | cons hone _ ih =>
    cases hone with
    | allow d d' => cases d <;> cases d' <;> exact ih _ _ denied
    | deny reasons =>
      cases mode with
      | collectAll => exact ih _ _ _
      | failFast =>
        simp only [collectResults]
        split
        · exact .allow _ _
        · exact .deny _

/-- The decision phase gives one verdict on states that agree for the acting agent. -/
theorem runDecisionModules_isolated {intent : Intent} {state state' : State} (h : SameFor intent.agentId state state')
    (context : PolicyEvaluationContext) (mode : EvalMode) :
    ExceptRel SameVerdict (runDecisionModules intent state context mode (modulesFor intent))
      (runDecisionModules intent state' context mode (modulesFor intent)) := by
  have hresults := ExceptRel.mapM fun m (hm : m ∈ modulesFor intent) =>
    modulesFor_isolated hm intent context state state' h
  exact hresults.map fun results results' hr => collectResults_verdict mode state state' [] hr

end OxDeAI
