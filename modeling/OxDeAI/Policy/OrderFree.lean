import OxDeAI.Core.SameState
import OxDeAI.Policy.Decision

/-! No module reads the order things were written in, so the decision phase does not. -/

namespace OxDeAI

open Js

/-- The same refusal, or permissions that propose the same. -/
inductive SameResult : PolicyResult → PolicyResult → Prop
  | deny (reasons : List ReasonCode) : SameResult (.deny reasons) (.deny reasons)
  | allow {d d' : Option StateDelta} (h : Option.Rel SameDelta d d') : SameResult (.allow d) (.allow d')

inductive SameDecision : DecisionResult → DecisionResult → Prop
  | deny (reasons : List ReasonCode) : SameDecision (.deny reasons) (.deny reasons)
  | allow {next next' : State} (h : SameState next next') : SameDecision (.allow next) (.allow next')

/-- A module that answers alike on states that differ in order only. -/
def OrderFree (m : PolicyModule) : Prop :=
  ∀ intent context state state', SameState state state' →
    ExceptRel SameResult (m intent state context) (m intent state' context)

theorem SameResult.permit : SameResult (.allow none) (.allow none) := .allow .none

theorem killSwitchModule_orderFree : OrderFree killSwitchModule := by
  intro intent context state state' h
  rw [killSwitchModule, killSwitchModule, h.killSwitch.globalSwitch, h.killSwitch.agents.get_eq]
  split
  · exact .ok (.deny _)
  · split
    · exact .ok (.deny _)
    · exact .ok .permit

theorem refuses_congr {α : Type} [DecidableEq α] {l l' : Option (List α)} (h : Option.Rel List.Perm l l') (v : α) :
    refuses l v = refuses l' v := by
  cases h with
  | none => rfl
  | some hp =>
    have hmem := hp.contains_eq (a := v)
    simp only [refuses, hp.isEmpty_eq, hmem]

theorem allowlistModule_orderFree : OrderFree allowlistModule := by
  intro intent context state state' h
  have hactions := refuses_congr h.allowlists.actionTypes intent.actionType
  have hassets := fun asset => refuses_congr h.allowlists.assets asset
  have htargets := refuses_congr h.allowlists.targets intent.target
  have hany : ∀ reasons : List ReasonCode, SameResult (if reasons.isEmpty then .allow none else .deny reasons)
      (if reasons.isEmpty then .allow none else .deny reasons) := by
    intro reasons
    split
    · exact .permit
    · exact .deny _
  rw [allowlistModule, allowlistModule]
  simp only [hactions, hassets, htargets]
  exact .ok (hany _)

theorem recursionDepthModule_orderFree : OrderFree recursionDepthModule := by
  intro intent context state state' h
  rw [recursionDepthModule, recursionDepthModule, h.recursion.get_eq]
  split
  · exact .ok (.deny _)
  · exact .ok .permit
  · split
    · exact .ok (.deny _)
    · exact .ok .permit

theorem nonceList_congr {state state' : State} (h : SameReplay state.replay state'.replay) (agent : JsString) :
    ExceptRel List.Perm (nonceList state agent) (nonceList state' agent) := by
  have hread := h.nonces.get agent
  rw [nonceList, nonceList]
  generalize state.replay.nonces.get agent = r at hread
  generalize state'.replay.nonces.get agent = r' at hread
  cases hread with
  | own hp => exact .ok hp
  | inherited i => exact .error _
  | absent => exact .ok (.refl _)

theorem replayModule_orderFree : OrderFree replayModule := by
  intro intent context state state' h
  have hconfig : validReplayConfig state.replay = validReplayConfig state'.replay := by
    rw [validReplayConfig, validReplayConfig, h.replay.windowSeconds, h.replay.maxNoncesPerAgent]
  have hstart : windowStart state.replay context = windowStart state'.replay context := by
    rw [windowStart, windowStart, retention, retention, h.replay.windowSeconds]
  rw [replayModule, replayModule]
  simp only [hconfig, hstart]
  split
  · exact .ok (.deny _)
  · refine (nonceList_congr h.replay intent.agentId).map fun list list' hlist => ?_
    have hpruned : (pruneNonces (windowStart state'.replay context) list).Perm
        (pruneNonces (windowStart state'.replay context) list') := hlist.filter _
    have hcapacity : ∀ n : JsNumber, n.ge state.replay.maxNoncesPerAgent = n.ge state'.replay.maxNoncesPerAgent := by
      rw [h.replay.maxNoncesPerAgent]
      exact fun _ => rfl
    rw [hpruned.any_eq, hpruned.length_eq, hcapacity]
    split
    · exact .deny _
    · split
      · exact .deny _
      · have hnonces := h.replay.nonces.set intent.agentId (hpruned.append_right
          [⟨nonceKey intent, context.evaluationTime⟩])
        exact .allow (.some ⟨.none, .none, .some ⟨h.replay.windowSeconds, h.replay.maxNoncesPerAgent, hnonces⟩,
          .none, .none⟩)

theorem residentLeases_congr {state state' : State} (h : SameConcurrency state.concurrency state'.concurrency)
    (agent : JsString) : SameRecord (· = ·) (residentLeases state agent) (residentLeases state' agent) := by
  have hread := h.activeAuths.get agent
  rw [residentLeases, residentLeases]
  generalize state.concurrency.activeAuths.get agent = r at hread
  generalize state'.concurrency.activeAuths.get agent = r' at hread
  cases hread with
  | own hr => exact hr
  | inherited i => exact .refl (fun _ => rfl) _
  | absent => exact .refl (fun _ => rfl) _

theorem activeCount_congr {state state' : State} (h : SameConcurrency state.concurrency state'.concurrency)
    (agent : JsString) : activeCount state agent = activeCount state' agent := by
  rw [activeCount, activeCount, h.active.get_eq]

/-- The same transition, its leases in another order. -/
structure SameTransition (l l' : ConcurrencyLeaseTransition) : Prop where
  auths : SameRecord (· = ·) l.auths l'.auths
  removed : l.removed = l'.removed
  releaseInvalid : l.releaseInvalid = l'.releaseInvalid

theorem leaseTransition_congr (intent : Intent) {own own' : Record Lease} (h : SameRecord (· = ·) own own')
    (proto : Option Lease) (n : ℕ) :
    SameTransition (leaseTransition intent ⟨own, proto⟩ n) (leaseTransition intent ⟨own', proto⟩ n) := by
  have htruthy : ∀ authId, LeaseMap.truthy ⟨own, proto⟩ authId = LeaseMap.truthy ⟨own', proto⟩ authId := by
    intro authId
    rw [LeaseMap.truthy, LeaseMap.truthy, h.own?_eq]
  unfold leaseTransition
  split
  · exact ⟨h, rfl, rfl⟩
  · exact ⟨h, rfl, rfl⟩
  · rename_i authId _ _
    rw [htruthy]
    split
    · exact ⟨h, rfl, rfl⟩
    · exact ⟨h.without authId, rfl, rfl⟩

theorem computeConcurrencyLeases_congr (intent : Intent) {state state' : State} (t : JsNumber)
    (h : SameConcurrency state.concurrency state'.concurrency) :
    Option.Rel SameTransition (computeConcurrencyLeases intent state t) (computeConcurrencyLeases intent state' t) := by
  have hres := residentLeases_congr h intent.agentId
  have hwf : wellFormedLeases (residentLeases state intent.agentId) =
      wellFormedLeases (residentLeases state' intent.agentId) := hres.entries_perm.all_eq
  have hexpired : expiredCount t (residentLeases state intent.agentId) =
      expiredCount t (residentLeases state' intent.agentId) := hres.entries_perm.countP_eq _
  have hproto : protoLease t (residentLeases state intent.agentId) =
      protoLease t (residentLeases state' intent.agentId) := by rw [protoLease, protoLease, hres.own?_eq]
  rw [computeConcurrencyLeases, computeConcurrencyLeases, activeCount_congr h, hres.size_eq]
  simp only [scanLeases_eq, hwf, hexpired, hproto]
  split
  · exact .none
  · split
    · exact .some (leaseTransition_congr intent (hres.filter _) _ _)
    · exact .none

theorem sameConcurrency_set {c c' : ConcurrencyState} (h : SameConcurrency c c') (agent : JsString) (active : JsNumber)
    {auths auths' : Record Lease} (hauths : SameRecord (· = ·) auths auths') :
    SameConcurrency (setLeases c agent active auths) (setLeases c' agent active auths') :=
  ⟨h.maxConcurrent, h.active.set agent rfl, h.activeAuths.set agent hauths⟩

theorem concurrencyModule_orderFree : OrderFree concurrencyModule := by
  intro intent context state state' h
  have hleases := computeConcurrencyLeases_congr intent context.evaluationTime h.concurrency
  have hset : ∀ (active : JsNumber) {auths auths' : Record Lease}, SameRecord (· = ·) auths auths' →
      SameConcurrency (setLeases state.concurrency intent.agentId active auths)
        (setLeases state'.concurrency intent.agentId active auths') :=
    fun active _ _ hauths => sameConcurrency_set h.concurrency intent.agentId active hauths
  rw [concurrencyModule, concurrencyModule]
  simp only [h.concurrency.maxConcurrent.get_eq, activeCount_congr h.concurrency]
  split
  · exact .ok (.deny _)
  · generalize computeConcurrencyLeases intent state context.evaluationTime = leases at hleases
    generalize computeConcurrencyLeases intent state' context.evaluationTime = leases' at hleases
    cases hleases with
    | none => exact .ok (.deny _)
    | some hl =>
      simp only [hl.removed, hl.releaseInvalid]
      split
      · split
        · exact .ok (.deny _)
        · exact .ok (.allow (.some ⟨.none, .none, .none, .some (hset _ hl.auths), .none⟩))
      · split
        · exact .ok (.deny _)
        · exact .ok (.allow (.some ⟨.none, .none, .none, .some (hset _ hl.auths), .none⟩))

/-- Limits per tool that differ in order only. -/
abbrev SameCaps : ToolCaps → ToolCaps → Prop := SameRead (Option.Rel (SameRecord (· = ·)))

theorem configuredToolLimits_congr {tl tl' : ToolLimitsState} (h : SameToolState tl tl') (agent : JsString) :
    SameCaps (configuredToolLimits tl agent) (configuredToolLimits tl' agent) := by
  have hby := h.maxCallsByTool
  rw [configuredToolLimits, configuredToolLimits]
  generalize tl.maxCallsByTool = o at hby
  generalize tl'.maxCallsByTool = o' at hby
  cases hby with
  | none => exact .absent
  | some hr => exact hr.get agent

section

variable {caps caps' : ToolCaps} {tl tl' : ToolLimitsState}

theorem SameCaps.entries_perm (h : SameCaps caps caps') : (ToolCaps.entries caps).Perm (ToolCaps.entries caps') := by
  cases h with
  | inherited i => exact .refl _
  | absent => exact .refl _
  | own hv =>
    cases hv with
    | none => exact .refl _
    | some hr => exact hr.entries_perm

theorem SameCaps.cap_eq (h : SameCaps caps caps') (tool : JsString) : ToolCaps.cap caps tool = ToolCaps.cap caps' tool := by
  cases h with
  | inherited i => rfl
  | absent => rfl
  | own hv =>
    cases hv with
    | none => rfl
    | some hr => simp only [ToolCaps.cap, hr.get_eq]

theorem SameCaps.method_iff (h : SameCaps caps caps') : caps = .inherited .method ↔ caps' = .inherited .method := by
  cases h <;> simp

theorem aggregateLimit_congr (h : SameToolState tl tl') (agent : JsString) :
    aggregateLimit tl agent = aggregateLimit tl' agent := by
  have hcaps := configuredToolLimits_congr h agent
  rw [aggregateLimit, aggregateLimit, h.windowSeconds, h.maxCalls.get_eq]
  simp only [hcaps.entries_perm.any_eq, hcaps.method_iff]

theorem isRateLimitedToolCall_congr (intent : Intent) {state state' : State}
    (h : SameToolState state.toolLimits state'.toolLimits) :
    isRateLimitedToolCall intent state = isRateLimitedToolCall intent state' := by
  have hcaps := configuredToolLimits_congr h intent.agentId
  rw [isRateLimitedToolCall, isRateLimitedToolCall, h.maxCalls.get_eq]
  simp only [hcaps.cap_eq]

theorem currentCalls_congr (h : SameToolState tl tl') (agent : JsString) :
    Option.Rel List.Perm (currentCalls tl agent) (currentCalls tl' agent) := by
  have hread := h.calls.get agent
  rw [currentCalls, currentCalls]
  generalize tl.calls.get agent = r at hread
  generalize tl'.calls.get agent = r' at hread
  cases hread with
  | inherited i => exact .none
  | absent => exact .some (.refl _)
  | own hv =>
    cases hv with
    | none => exact .some (.refl _)
    | some hp => exact .some hp

theorem coherentCalls_congr {caps caps' : ToolCaps} (hcaps : SameCaps caps caps') {calls calls' : List ToolCall}
    (h : calls.Perm calls') (max now : JsNumber) :
    coherentCalls max now caps calls = coherentCalls max now caps' calls' := by
  have hover : overrun calls = overrun calls' := by
    funext e
    simp only [overrun, countTool, h.countP_eq]
  rw [coherentCalls, coherentCalls, h.all_eq, h.any_eq, h.length_eq, hover, hcaps.entries_perm.any_eq]

theorem toolCapReached_congr {caps caps' : ToolCaps} (hcaps : SameCaps caps caps') {calls calls' : List ToolCall}
    (h : calls.Perm calls') (tool : JsString) : toolCapReached caps tool calls = toolCapReached caps' tool calls' := by
  simp only [toolCapReached, hcaps.cap_eq, countTool, h.countP_eq]

end

theorem limitToolCall_congr (intent : Intent) {state state' : State} (now : JsNumber) (tool : JsString)
    (h : SameToolState state.toolLimits state'.toolLimits) :
    SameResult (limitToolCall intent state now tool) (limitToolCall intent state' now tool) := by
  have hcaps := configuredToolLimits_congr h intent.agentId
  have hcalls := currentCalls_congr h intent.agentId
  rw [limitToolCall, limitToolCall]
  simp only [aggregateLimit_congr h, isRateLimitedToolCall_congr intent h]
  split
  · exact .deny _
  · rename_i max _
    split
    · exact .permit
    · generalize currentCalls state.toolLimits intent.agentId = o at hcalls
      generalize currentCalls state'.toolLimits intent.agentId = o' at hcalls
      cases hcalls with
      | none => exact .deny _
      | @some calls calls' hp =>
        have hpruned : (pruneCalls state.toolLimits now calls).Perm (pruneCalls state'.toolLimits now calls') := by
          rw [pruneCalls, pruneCalls, h.windowSeconds]
          exact hp.filter _
        simp only [coherentCalls_congr hcaps hp, hpruned.length_eq, toolCapReached_congr hcaps hpruned]
        split
        · exact .deny _
        · split
          · exact .deny _
          · have hset := h.calls.set intent.agentId (Option.Rel.some (hpruned.append_right [⟨now, some tool⟩]))
            exact .allow (.some ⟨.none, .none, .none, .none,
              .some ⟨h.windowSeconds, h.maxCalls, h.maxCallsByTool, hset⟩⟩)

theorem toolAmplificationModule_orderFree : OrderFree toolAmplificationModule := by
  intro intent context state state' h
  rw [toolAmplificationModule, toolAmplificationModule]
  split
  · refine .ok ?_
    split
    · exact .permit
    · exact limitToolCall_congr intent _ _ h.toolLimits
  · exact .ok .permit

theorem budgetModule_orderFree : OrderFree budgetModule := by
  intro intent context state state' h
  rw [budgetModule, budgetModule]
  simp only [h.budget.budgetLimit.own?_eq, h.budget.spentInPeriod.own?_eq, h.maxAmountPerAction.own?_eq]
  split
  · exact .ok (.deny _)
  · split
    · exact .ok (.deny _)
    · exact .ok (.deny _)
    · split
      · exact .ok (.deny _)
      · split
        · exact .ok (.deny _)
        · exact .ok (.allow (.some ⟨.some ⟨h.budget.budgetLimit, h.budget.spentInPeriod.set _ rfl⟩, .none, .none,
            .none, .none⟩))

theorem velocityModule_orderFree : OrderFree velocityModule := by
  intro intent context state state' h
  have hread : readCounter state intent.agentId = readCounter state' intent.agentId := by
    funext now
    rw [readCounter, readCounter, h.velocity.counters.get_eq]
  rw [velocityModule, velocityModule]
  simp only [hread, h.velocity.config]
  split
  · exact .ok (.deny _)
  · split
    · exact .ok (.deny _)
    · split
      · exact .ok (.deny _)
      · exact .ok (.allow (.some ⟨.none, .some ⟨rfl, h.velocity.counters.set _ rfl⟩, .none, .none, .none⟩))

theorem modulesFor_orderFree {intent : Intent} {m : PolicyModule} (h : m ∈ modulesFor intent) : OrderFree m := by
  simp only [modulesFor] at h
  split at h
  · simp only [releaseModules, List.mem_cons, List.not_mem_nil, or_false] at h
    rcases h with rfl | rfl | rfl
    · exact killSwitchModule_orderFree
    · exact replayModule_orderFree
    · exact concurrencyModule_orderFree
  · simp only [executeModules, List.mem_cons, List.not_mem_nil, or_false] at h
    rcases h with rfl | rfl | rfl | rfl | rfl | rfl | rfl | rfl
    · exact killSwitchModule_orderFree
    · exact allowlistModule_orderFree
    · exact replayModule_orderFree
    · exact recursionDepthModule_orderFree
    · exact concurrencyModule_orderFree
    · exact toolAmplificationModule_orderFree
    · exact budgetModule_orderFree
    · exact velocityModule_orderFree

theorem collectResults_congr (mode : EvalMode) {working working' : State} (h : SameState working working')
    (denied : List ReasonCode) {results results' : List PolicyResult} (hr : List.Forall₂ SameResult results results') :
    SameDecision (collectResults mode working denied results) (collectResults mode working' denied results') := by
  induction hr generalizing working working' denied with
  | nil =>
    simp only [collectResults]
    split
    · exact .allow h
    · exact .deny _
  | cons hone _ ih =>
    cases hone with
    | allow hd =>
      cases hd with
      | none => exact ih h denied
      | some hd => exact ih (h.merge hd) denied
    | deny reasons =>
      cases mode with
      | collectAll => exact ih h _
      | failFast =>
        simp only [collectResults]
        split
        · exact .allow h
        · exact .deny _

/-- The decision phase answers alike on states that differ in order only. -/
theorem runDecisionModules_congr (intent : Intent) (context : PolicyEvaluationContext) (mode : EvalMode)
    {state state' : State} (h : SameState state state') :
    ExceptRel SameDecision (runDecisionModules intent state context mode (modulesFor intent))
      (runDecisionModules intent state' context mode (modulesFor intent)) := by
  have hresults := ExceptRel.mapM fun m (hm : m ∈ modulesFor intent) =>
    modulesFor_orderFree hm intent context state state' h
  exact hresults.map fun results results' hr => collectResults_congr mode h [] hr

end OxDeAI
