import OxDeAI.Engine.Evaluate

/-! What the decision phase establishes about a permitted intent, and the state
it charges. -/

namespace OxDeAI

open Js

/-- What each module computed for a permitted intent. -/
structure Charge where
  pruned : List NonceEntry
  auths : Record Lease
  removed : ℕ
  events : Option (List ToolCall)
  counter : Option VelocityCounter

def toolDelta (intent : Intent) (state : State) (events : Option (List ToolCall)) : Option StateDelta :=
  events.map (fun events => { toolLimits := some { state.toolLimits with
    calls := state.toolLimits.calls.set intent.agentId (some events) } })

/-- The checks that only an EXECUTE passes through. -/
structure ExecuteAdmitted (intent : Intent) (state : State) (context : PolicyEvaluationContext)
    (c : Charge) : Prop where
  allowlist : allowlistModule intent state context = .ok (.allow none)
  depth : recursionDepthModule intent state context = .ok (.allow none)
  capacity : ∀ max, state.concurrency.maxConcurrent.own? intent.agentId = some max →
    ((activeCount state intent.agentId).sub (.int c.removed)).ge max = false
  tool : toolAmplificationModule intent state context = .ok (.allow (toolDelta intent state c.events))
  nonneg : 0 ≤ intent.amount
  cap : ∀ cap, state.maxAmountPerAction.own? intent.agentId = some (some cap) → intent.amount ≤ cap
  limit : ∀ limit, state.budget.budgetLimit.own? intent.agentId = some limit →
    spentBy state intent.agentId + intent.amount ≤ limit
  velocityConfig : validVelocityConfig state.velocity.config = true
  velocity : ∃ counter next, readCounter state intent.agentId context.evaluationTime = some counter ∧
    nextCounter state.velocity.config context.evaluationTime counter = some next ∧
    c.counter = some next

structure Admitted (intent : Intent) (state : State) (context : PolicyEvaluationContext)
    (c : Charge) : Prop where
  killSwitch : killSwitchModule intent state context = .ok (.allow none)
  replay : ReplayAdmits intent state context c.pruned
  leases : LeaseStep intent state context.evaluationTime c.auths c.removed
  execute : intent.kind = .execute → ExecuteAdmitted intent state context c
  release : intent.kind = .release → c.events = none ∧ c.counter = none

section

variable (intent : Intent) (state : State) (context : PolicyEvaluationContext) (c : Charge)

def chargedActive : JsNumber := nextActive intent (activeCount state intent.agentId) c.removed

/-- The deltas of a permitted intent, in module order. -/
def proposedDeltas : List (Option StateDelta) :=
  let replay : StateDelta := { replay := some (recordNonce intent state context c.pruned) }
  let concurrency : StateDelta := { concurrency := some (setLeases state.concurrency intent.agentId
    (chargedActive intent state c) c.auths) }
  let budget : StateDelta := { budget := some (chargeBudget intent state) }
  let velocity (next : VelocityCounter) : StateDelta := { velocity := some { state.velocity with
    counters := state.velocity.counters.set intent.agentId (some next) } }
  match intent.kind with
  | .release => [none, some replay, some concurrency]
  | .execute => [none, none, some replay, none, some concurrency, toolDelta intent state c.events,
      some budget, c.counter.map velocity]

/-- The merged state, where removed leases are still listed. -/
def proposed : State :=
  { state with
    replay := recordNonce intent state context c.pruned
    concurrency := mergeConcurrency state.concurrency (setLeases state.concurrency intent.agentId
      (chargedActive intent state c) c.auths)
    toolLimits := match c.events with
      | none => state.toolLimits
      | some events => { state.toolLimits with
          calls := state.toolLimits.calls.set intent.agentId (some events) }
    budget := match intent.kind with
      | .execute => chargeBudget intent state
      | .release => state.budget
    velocity := match c.counter with
      | none => state.velocity
      | some counter => { state.velocity with
          counters := state.velocity.counters.set intent.agentId (some counter) } }

/-- The merged state with the lease map of the acting agent replaced. -/
def settle : State :=
  { proposed intent state context c with
    concurrency := { state.concurrency with
      active := state.concurrency.active.assign intent.agentId (chargedActive intent state c)
      activeAuths := state.concurrency.activeAuths.set intent.agentId c.auths } }

end

section

variable {intent : Intent} {state : State} {context : PolicyEvaluationContext} {c : Charge}

theorem assign_of_not_inherited {α : Type*} {r : Record α} {k : JsString}
    (h : (r.get k).isInherited = false) (v : α) : r.assign k v = r.set k v := by
  cases hk : r.own? k with
  | some w => exact r.assign_of_own hk
  | none =>
    apply r.assign_of_ne
    rintro rfl
    have : (r.get protoKey).isInherited = true := r.isInherited_get.mpr ⟨hk, by simp [inherited?]⟩
    simp [this] at h

theorem not_inherited_of_nonceList {agent : JsString} {list : List NonceEntry}
    (h : nonceList state agent = .ok list) : (state.replay.nonces.get agent).isInherited = false := by
  simp only [nonceList] at h
  split at h
  · rename_i hg
    rw [hg]
    rfl
  · rename_i hg
    rw [hg]
    rfl
  · cases h

/-- The tool module leaves the state alone or records the call. -/
theorem exists_toolDelta {delta : Option StateDelta}
    (h : toolAmplificationModule intent state context = .ok (.allow delta)) :
    ∃ events, delta = toolDelta intent state events ∧
      (events ≠ none → (state.toolLimits.calls.get intent.agentId).isInherited = false) := by
  cases toolAmplificationModule_allow h with
  | unchanged => exact ⟨none, rfl, by simp⟩
  | recorded events hi => exact ⟨some events, rfl, fun _ => hi⟩

theorem toolDelta_inj {events events' : Option (List ToolCall)}
    (h : toolDelta intent state events = toolDelta intent state events') : events = events' := by
  have hset : ∀ l l' : List ToolCall, state.toolLimits.calls.set intent.agentId (some l) =
      state.toolLimits.calls.set intent.agentId (some l') → l = l' := by
    intro l l' hll
    have := congrArg (fun r : Record (Option (List ToolCall)) => r.own? intent.agentId) hll
    simpa using this
  cases events with
  | none => cases events' with
    | none => rfl
    | some l' => simp [toolDelta] at h
  | some l => cases events' with
    | none => simp [toolDelta] at h
    | some l' =>
      simp only [toolDelta, Option.map_some, Option.some.injEq, StateDelta.mk.injEq, true_and,
        ToolLimitsState.mk.injEq] at h
      rw [hset l l' h]

theorem foldl_proposedDeltas (hleaves : NumericLeaves state intent.agentId)
    (h : Admitted intent state context c) :
    (proposedDeltas intent state context c).foldl applyDelta state = proposed intent state context c := by
  obtain ⟨list, hlist, -⟩ := h.replay.own
  have hn := not_inherited_of_nonceList hlist
  cases hk : intent.kind with
  | release =>
    obtain ⟨he, hc⟩ := h.release hk
    simp [proposedDeltas, hk, applyDelta, recordNonce, deepMerge, proposed, he, hc, mergeReplay_nonces,
      assign_of_not_inherited hn]
  | execute =>
    have hx := h.execute hk
    obtain ⟨counter, next, hr, -, hnext⟩ := hx.velocity
    have hv := not_inherited_of_readCounter hr
    have hs := hleaves.spentInPeriod
    cases hev : c.events with
    | none =>
      simp [proposedDeltas, hk, applyDelta, recordNonce, deepMerge, proposed, hnext, hev, toolDelta,
        chargeBudget, mergeReplay_nonces, mergeBudget_spent, mergeVelocity_counter,
        assign_of_not_inherited hn, assign_of_not_inherited hv, assign_of_not_inherited hs]
    | some events =>
      obtain ⟨events', he', hi⟩ := exists_toolDelta hx.tool
      have hi' := hi (by rw [← toolDelta_inj he', hev]; simp)
      simp [proposedDeltas, hk, applyDelta, recordNonce, deepMerge, proposed, hnext, hev, toolDelta,
        chargeBudget, mergeReplay_nonces, mergeBudget_spent, mergeVelocity_counter,
        mergeToolLimits_calls, assign_of_not_inherited hn, assign_of_not_inherited hv,
        assign_of_not_inherited hs, assign_of_not_inherited hi']

theorem forall₂_proposedDeltas (hleaves : NumericLeaves state intent.agentId)
    {deltas : List (Option StateDelta)} :
    List.Forall₂ (fun (m : PolicyModule) d => m intent state context = .ok (.allow d))
        (modulesFor intent) deltas ↔
      ∃ c, Admitted intent state context c ∧ deltas = proposedDeltas intent state context c := by
  obtain ⟨limit, hlimit⟩ := hleaves.budgetLimit
  obtain ⟨cap, hcap⟩ := hleaves.maxAmountPerAction
  obtain ⟨max, hmax, -⟩ := hleaves.maxConcurrent
  obtain ⟨depth, hdepth, -⟩ := hleaves.maxDepth
  cases hk : intent.kind with
  | release =>
    simp only [modulesFor, hk, releaseModules, proposedDeltas]
    constructor
    · rintro (_ | ⟨hkill, _ | ⟨hreplay, _ | ⟨hconc, _ | _⟩⟩⟩)
      obtain rfl := (killSwitchModule_allow.mp hkill).1
      obtain ⟨pruned, hp, rfl⟩ := replayModule_allow.mp hreplay
      obtain ⟨auths, removed, hl, -, rfl⟩ := (concurrencyModule_allow hmax).mp hconc
      exact ⟨⟨pruned, auths, removed, none, none⟩,
        ⟨hkill, hp, hl, fun h => by simp [hk] at h, fun _ => ⟨rfl, rfl⟩⟩, rfl⟩
    · rintro ⟨c, h, rfl⟩
      refine .cons h.killSwitch (.cons (replayModule_allow.mpr ⟨c.pruned, h.replay, rfl⟩)
        (.cons ((concurrencyModule_allow hmax).mpr ⟨c.auths, c.removed, h.leases, ?_, rfl⟩) .nil))
      exact fun he => by simp [hk] at he
  | execute =>
    simp only [modulesFor, hk, executeModules, proposedDeltas]
    constructor
    · rintro (_ | ⟨hkill, _ | ⟨hallow, _ | ⟨hreplay, _ | ⟨hdep, _ | ⟨hconc, _ | ⟨htool, _ |
        ⟨hbudget, _ | ⟨hvel, _ | _⟩⟩⟩⟩⟩⟩⟩⟩)
      obtain rfl := (killSwitchModule_allow.mp hkill).1
      obtain rfl := (allowlistModule_allow.mp hallow).1
      obtain rfl := ((recursionDepthModule_allow hdepth).mp hdep).1
      obtain ⟨pruned, hp, rfl⟩ := replayModule_allow.mp hreplay
      obtain ⟨auths, removed, hl, hge, rfl⟩ := (concurrencyModule_allow hmax).mp hconc
      obtain ⟨events, rfl, -⟩ := exists_toolDelta htool
      obtain ⟨h0, h1, h2, rfl⟩ := (budgetModule_allow hlimit hcap).mp hbudget
      obtain ⟨hvc, counter, next, hr, hn, rfl⟩ := velocityModule_allow.mp hvel
      refine ⟨⟨pruned, auths, removed, events, some next⟩, ⟨hkill, hp, hl, fun _ =>
        ⟨hallow, hdep, ?_, htool, h0, ?_, ?_, hvc, counter, next, hr, hn, rfl⟩,
        fun h => by simp [hk] at h⟩, rfl⟩
      · intro m hm
        cases hmax.symm.trans hm
        exact hge hk
      · intro m hm
        cases hcap.symm.trans hm
        exact h1
      · intro m hm
        cases hlimit.symm.trans hm
        exact h2
    · rintro ⟨c, h, rfl⟩
      have hx := h.execute hk
      obtain ⟨counter, next, hr, hn, hc⟩ := hx.velocity
      refine .cons h.killSwitch (.cons hx.allowlist
        (.cons (replayModule_allow.mpr ⟨c.pruned, h.replay, rfl⟩) (.cons hx.depth
        (.cons ((concurrencyModule_allow hmax).mpr ⟨c.auths, c.removed, h.leases,
          fun _ => hx.capacity max hmax, rfl⟩) (.cons hx.tool
        (.cons ((budgetModule_allow hlimit hcap).mpr
          ⟨hx.nonneg, hx.cap cap hcap, hx.limit limit hlimit, rfl⟩)
        (.cons (velocityModule_allow.mpr ⟨hx.velocityConfig, counter, next, hr, hn, ?_⟩) .nil)))))))
      rw [hc]
      rfl

/-- The decision phase permits an intent exactly when it is admitted at some
charge, which is the state it proposes. -/
theorem runDecisionModules_modulesFor (hleaves : NumericLeaves state intent.agentId) {mode : EvalMode}
    {next : State} :
    runDecisionModules intent state context mode (modulesFor intent) = .ok (.allow next) ↔
      ∃ c, Admitted intent state context c ∧ next = proposed intent state context c := by
  rw [runDecisionModules_allow (fun _ => modulesFor_explain)]
  simp only [forall₂_proposedDeltas hleaves]
  constructor
  · rintro ⟨_, ⟨c, h, rfl⟩, rfl⟩
    exact ⟨c, h, foldl_proposedDeltas hleaves h⟩
  · rintro ⟨c, h, rfl⟩
    exact ⟨_, ⟨c, h, rfl⟩, (foldl_proposedDeltas hleaves h).symm⟩

theorem materializeLeases_proposed (h : Admitted intent state context c) :
    materializeLeases intent state (proposed intent state context c) context.evaluationTime =
      settle intent state context c := by
  rw [materializeLeases, computeConcurrencyLeases_valid.mpr h.leases]
  have := mergeConcurrency_agent state.concurrency intent.agentId (chargedActive intent state c)
    c.auths c.auths
  simp only [settle, proposed, setLeases] at this ⊢
  rw [this]

end

end OxDeAI
