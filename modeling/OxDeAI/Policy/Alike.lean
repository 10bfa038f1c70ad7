import OxDeAI.Engine.SettledHash
import OxDeAI.Policy.Isolation
import OxDeAI.Snapshot.Alike

/-! The decision phase judges a state and its listed form alike. -/

namespace OxDeAI

open Js

/-- The leaves of the acting agent are its own, and so is whatever else is read under
its name. -/
structure OwnReads (intent : Intent) (state : State) : Prop where
  leaves : NumericLeaves state intent.agentId
  active : (state.concurrency.active.get intent.agentId).isInherited = false
  ordinary : inherited? intent.agentId = none

def StateDelta.listed (delta : StateDelta) : StateDelta :=
  { delta with toolLimits := delta.toolLimits.map ToolLimitsState.listed }

def PolicyResult.listed : PolicyResult → PolicyResult
  | .deny reasons => .deny reasons
  | .allow delta => .allow (delta.map StateDelta.listed)

section

variable {intent : Intent} {state : State} {context : PolicyEvaluationContext} {c : Charge}

theorem PolicyResult.sameAnswer_listed (r : PolicyResult) : SameAnswer r.listed r := by
  cases r with
  | deny reasons => exact .deny reasons
  | allow delta => exact .allow _ _

theorem refuses_listed {α : Type} [DecidableEq α] (names : Option (List α)) (v : α) :
    refuses (some (names.getD []).dedup) v = refuses names v := by
  cases names with
  | none => rfl
  | some names =>
    have hempty : names.dedup.isEmpty = names.isEmpty := by
      rw [Bool.eq_iff_iff, List.isEmpty_iff, List.isEmpty_iff, List.dedup_eq_nil]
    have hmem : names.dedup.contains v = names.contains v := by
      rw [Bool.eq_iff_iff, List.contains_iff_mem, List.contains_iff_mem, List.mem_dedup]
    simp only [refuses, Option.getD_some, hempty, hmem]

theorem allowlistModule_listed (intent : Intent) (state : State) (context : PolicyEvaluationContext) :
    allowlistModule intent state.listed context = allowlistModule intent state context := by
  rw [allowlistModule, allowlistModule]
  simp only [State.listed, AllowLists.listed, refuses_listed]

theorem maxConcurrent_listed (h : OwnReads intent state) :
    state.listed.concurrency.maxConcurrent.own? intent.agentId = state.concurrency.maxConcurrent.own? intent.agentId := by
  obtain ⟨max, hmax, -⟩ := h.leaves.maxConcurrent
  have hmem : intent.agentId ∈ concurrencyAgents state.concurrency := mem_concurrencyAgents_iff.mpr (.inl (by simp [hmax]))
  have hcount : countOr0 state.concurrency.maxConcurrent intent.agentId = max := by
    rw [countOr0, hmax, Option.getD_some]
  rw [hmax, ← hcount]
  exact own?_agentTable _ hmem

theorem activeCount_listed (h : OwnReads intent state) :
    activeCount state.listed intent.agentId = activeCount state intent.agentId := by
  obtain ⟨max, hmax, -⟩ := h.leaves.maxConcurrent
  have hmem : intent.agentId ∈ concurrencyAgents state.concurrency := mem_concurrencyAgents_iff.mpr (.inl (by simp [hmax]))
  have hget : state.listed.concurrency.active.get intent.agentId =
      .own (countOr0 state.concurrency.active intent.agentId) :=
    Record.get_of_own? _ (own?_agentTable _ hmem)
  have hactive := h.active
  rw [activeCount, hget, activeCount, countOr0, ← Record.value?_get]
  cases hread : state.concurrency.active.get intent.agentId with
  | own n => rfl
  | absent => rfl
  | inherited i =>
    rw [hread] at hactive
    cases hactive

theorem residentLeases_listed (state : State) (agent : JsString) :
    residentLeases state.listed agent = residentLeases state agent := listedLeases_listed state.concurrency agent

theorem computeConcurrencyLeases_listed (h : OwnReads intent state) (t : JsNumber) :
    computeConcurrencyLeases intent state.listed t = computeConcurrencyLeases intent state t := by
  rw [computeConcurrencyLeases, computeConcurrencyLeases, activeCount_listed h, residentLeases_listed]

theorem concurrencyModule_listed (h : OwnReads intent state) (context : PolicyEvaluationContext) :
    ExceptRel SameAnswer (concurrencyModule intent state.listed context) (concurrencyModule intent state context) := by
  rw [concurrencyModule, concurrencyModule]
  simp only [computeConcurrencyLeases_listed h, activeCount_listed h, Record.get_congr (maxConcurrent_listed h)]
  split
  · exact .ok (.deny _)
  · split
    · exact .ok (.deny _)
    · split
      · split
        · exact .ok (.deny _)
        · exact .ok (.allow _ _)
      · split
        · exact .ok (.deny _)
        · exact .ok (.allow _ _)

theorem configuredToolLimits_listed (h : inherited? intent.agentId = none) (tl : ToolLimitsState) :
    configuredToolLimits tl.listed intent.agentId = configuredToolLimits tl intent.agentId := by
  obtain ⟨windowSeconds, maxCalls, byTool, calls⟩ := tl
  cases byTool with
  | none => exact Record.get_of_none _ (Record.own?_empty _) h
  | some byTool => rfl

theorem limitToolCall_listed (h : inherited? intent.agentId = none) (now : JsNumber) (tool : JsString) :
    limitToolCall intent state.listed now tool = (limitToolCall intent state now tool).listed := by
  have hcaps : configuredToolLimits state.listed.toolLimits intent.agentId = _ := configuredToolLimits_listed h state.toolLimits
  have haggregate : aggregateLimit state.listed.toolLimits intent.agentId = aggregateLimit state.toolLimits intent.agentId := by
    rw [aggregateLimit, aggregateLimit, hcaps]
    rfl
  have hlimited : isRateLimitedToolCall intent state.listed = isRateLimitedToolCall intent state := by
    rw [isRateLimitedToolCall, isRateLimitedToolCall, hcaps]
    rfl
  have hcurrent : currentCalls state.listed.toolLimits intent.agentId = currentCalls state.toolLimits intent.agentId := rfl
  have hprune : pruneCalls state.listed.toolLimits = pruneCalls state.toolLimits := rfl
  rw [limitToolCall, limitToolCall]
  simp only [haggregate, hlimited, hcurrent, hprune, hcaps]
  split
  · rfl
  · split
    · rfl
    · split
      · rfl
      · split
        · rfl
        · split
          · rfl
          · rfl

theorem toolAmplificationModule_listed (h : inherited? intent.agentId = none) (context : PolicyEvaluationContext) :
    toolAmplificationModule intent state.listed context =
      (toolAmplificationModule intent state context).map PolicyResult.listed := by
  rw [toolAmplificationModule, toolAmplificationModule]
  split
  · simp only [Except.map, limitToolCall_listed h]
    split
    · rfl
    · rfl
  · rfl

theorem sameAnswer_of_eq {r r' : Except JsError PolicyResult} (h : r = r') : ExceptRel SameAnswer r r' :=
  h ▸ sameAnswer_refl r

theorem modulesFor_listed (h : OwnReads intent state) (context : PolicyEvaluationContext) {m : PolicyModule}
    (hm : m ∈ modulesFor intent) : ExceptRel SameAnswer (m intent state.listed context) (m intent state context) := by
  have htool : ExceptRel SameAnswer (toolAmplificationModule intent state.listed context)
      (toolAmplificationModule intent state context) := by
    rw [toolAmplificationModule_listed h.ordinary]
    cases toolAmplificationModule intent state context with
    | error err => exact .error err
    | ok r => exact .ok r.sameAnswer_listed
  simp only [modulesFor] at hm
  split at hm
  · simp only [releaseModules, List.mem_cons, List.not_mem_nil, or_false] at hm
    rcases hm with rfl | rfl | rfl
    · exact sameAnswer_of_eq rfl
    · exact sameAnswer_of_eq rfl
    · exact concurrencyModule_listed h context
  · simp only [executeModules, List.mem_cons, List.not_mem_nil, or_false] at hm
    rcases hm with rfl | rfl | rfl | rfl | rfl | rfl | rfl | rfl
    · exact sameAnswer_of_eq rfl
    · exact sameAnswer_of_eq (allowlistModule_listed intent state context)
    · exact sameAnswer_of_eq rfl
    · exact sameAnswer_of_eq rfl
    · exact concurrencyModule_listed h context
    · exact htool
    · exact sameAnswer_of_eq rfl
    · exact sameAnswer_of_eq rfl

/-- One verdict on a state and its listed form. -/
theorem runDecisionModules_listed (h : OwnReads intent state) (context : PolicyEvaluationContext) (mode : EvalMode) :
    ExceptRel SameVerdict (runDecisionModules intent state.listed context mode (modulesFor intent))
      (runDecisionModules intent state context mode (modulesFor intent)) := by
  have hresults := ExceptRel.mapM fun m (hm : m ∈ modulesFor intent) => modulesFor_listed h context hm
  exact hresults.map fun results results' hr => collectResults_verdict mode state.listed state [] hr

theorem numericLeaves_listed (h : OwnReads intent state) : NumericLeaves state.listed intent.agentId :=
  { h.leaves with
    maxConcurrent := by
      rw [maxConcurrent_listed h]
      exact h.leaves.maxConcurrent }

theorem LeaseStep.listed (hreads : OwnReads intent state) {t : JsNumber} {auths : Record Lease} {removed : ℕ}
    (h : LeaseStep intent state t auths removed) : LeaseStep intent state.listed t auths removed := by
  rw [← computeConcurrencyLeases_valid, computeConcurrencyLeases_listed hreads]
  exact computeConcurrencyLeases_valid.mpr h

theorem toolDelta_listed (events : Option (List ToolCall)) :
    toolDelta intent state.listed events = (toolDelta intent state events).map StateDelta.listed := by
  cases events <;> rfl

/-- What is admitted in a state is admitted at the same charge in its listed form. -/
theorem Admitted.listed (hreads : OwnReads intent state) (h : Admitted intent state context c) :
    Admitted intent state.listed context c where
  killSwitch := h.killSwitch
  replay := ⟨h.replay.own, h.replay.config, h.replay.unused, h.replay.capacity⟩
  leases := h.leases.listed hreads
  execute hk := by
    have hx := h.execute hk
    exact {
      allowlist := (allowlistModule_listed intent state context).trans hx.allowlist
      depth := hx.depth
      capacity := by
        rw [activeCount_listed hreads, maxConcurrent_listed hreads]
        exact hx.capacity
      tool := by
        rw [toolAmplificationModule_listed hreads.ordinary, hx.tool, toolDelta_listed]
        rfl
      nonneg := hx.nonneg
      cap := hx.cap
      limit := hx.limit
      velocityConfig := hx.velocityConfig
      velocity := hx.velocity }
  release := h.release

theorem chargedActive_listed (hreads : OwnReads intent state) :
    chargedActive intent state.listed c = chargedActive intent state c := by
  rw [chargedActive, chargedActive, activeCount_listed hreads]

/-- A state and its listed form are charged alike. -/
theorem settle_listed (hreads : OwnReads intent state) (context : PolicyEvaluationContext) (c : Charge) :
    Alike (settle intent state context c) (settle intent state.listed context c) := by
  have hlisted := numericLeaves_listed hreads
  have halike := alikeConcurrency_listed state.concurrency
  have hread : (state.listed.concurrency.active.get intent.agentId).isInherited = false := by
    have hmem := mem_concurrencyAgents hreads.leaves
    have hget : state.listed.concurrency.active.get intent.agentId = .own _ :=
      Record.get_of_own? _ (own?_agentTable _ hmem)
    rw [hget]
    rfl
  have hactive : (settle intent state context c).concurrency.active =
      state.concurrency.active.set intent.agentId (chargedActive intent state c) :=
    assign_of_not_inherited hreads.active _
  have hactive' : (settle intent state.listed context c).concurrency.active =
      state.listed.concurrency.active.set intent.agentId (chargedActive intent state c) := by
    rw [← chargedActive_listed hreads]
    exact assign_of_not_inherited hread _
  refine { Alike.refl (settle intent state context c) with
    allowlists := (alike_listed state).allowlists
    concurrency := ⟨fun agent => ?_, halike.max, fun agent => ?_, fun agent => ?_⟩
    toolLimits := ?_ }
  · rw [concurrencyAgents_settle context hreads.leaves, concurrencyAgents_settle context hlisted]
    exact halike.agents agent
  · rw [hactive, hactive', countOr0, countOr0, Record.own?_set, Record.own?_set]
    split
    · rfl
    · exact halike.active agent
  · rw [listedLeases_settle, listedLeases_settle]
    split
    · exact .refl (fun _ => rfl) _
    · exact halike.leases agent
  · have hlimits : (settle intent state context c).toolLimits.listed = (settle intent state.listed context c).toolLimits.listed := by
      simp only [settle, proposed]
      cases c.events <;> rfl
    rw [hlimits]
    exact (SameState.refl { state with toolLimits := (settle intent state.listed context c).toolLimits.listed }).toolLimits

end

end OxDeAI
