import OxDeAI.Engine.Runs

/-! What a permitted intent may change: the acting agent's entries of six maps, of three
for a RELEASE. The modules may run in any order. -/

namespace OxDeAI

open Js

/-- The same entries, those under one key apart. -/
def SameExcept {α : Type} (key : JsString) (r r' : Record α) : Prop :=
  ∀ k, k ≠ key → r'.own? k = r.own? k

theorem SameExcept.refl {α : Type} (key : JsString) (r : Record α) : SameExcept key r r := fun _ _ => rfl

theorem sameExcept_set {α : Type} (key : JsString) (r : Record α) (v : α) : SameExcept key r (r.set key v) :=
  fun _ hk => r.own?_set_of_ne hk v

theorem sameExcept_assign {α : Type} (key : JsString) (r : Record α) (v : α) :
    SameExcept key r (r.assign key v) := fun _ hk => r.own?_assign_of_ne hk v

/-- Only entries of the acting agent differ, and of fewer maps for a RELEASE. -/
structure Framed (intent : Intent) (state next : State) : Prop where
  fields : next = { state with
    budget.spentInPeriod := next.budget.spentInPeriod
    velocity.counters := next.velocity.counters
    replay.nonces := next.replay.nonces
    concurrency.active := next.concurrency.active
    concurrency.activeAuths := next.concurrency.activeAuths
    toolLimits.calls := next.toolLimits.calls }
  spentInPeriod : SameExcept intent.agentId state.budget.spentInPeriod next.budget.spentInPeriod
  counters : SameExcept intent.agentId state.velocity.counters next.velocity.counters
  nonces : SameExcept intent.agentId state.replay.nonces next.replay.nonces
  active : SameExcept intent.agentId state.concurrency.active next.concurrency.active
  activeAuths : SameExcept intent.agentId state.concurrency.activeAuths next.concurrency.activeAuths
  calls : SameExcept intent.agentId state.toolLimits.calls next.toolLimits.calls
  release : intent.kind = .release →
    next.budget = state.budget ∧ next.velocity = state.velocity ∧ next.toolLimits = state.toolLimits

section

variable {P : Platform} {e : PolicyEngine} {intent : Intent} {state : State} {t : JsNumber} {c : Charge}
  {parts : AuthorizationParts} {context : PolicyEvaluationContext}

theorem framed_settle (h : intent.kind = .release → c.events = none ∧ c.counter = none) :
    Framed intent state (settle intent state context c) where
  fields := by
    unfold settle proposed recordNonce chargeBudget
    cases intent.kind <;> cases c.events <;> cases c.counter <;> rfl
  spentInPeriod := by
    unfold settle proposed chargeBudget
    cases intent.kind with
    | execute => exact sameExcept_set _ _ _
    | release => exact .refl _ _
  counters := by
    unfold settle proposed
    cases c.counter with
    | none => exact .refl _ _
    | some counter => exact sameExcept_set _ _ _
  nonces := sameExcept_set _ _ _
  active := sameExcept_assign _ _ _
  activeAuths := sameExcept_set _ _ _
  calls := by
    unfold settle proposed
    cases c.events with
    | none => exact .refl _ _
    | some events => exact sameExcept_set _ _ _
  release := by
    intro hk
    obtain ⟨hevents, hcounter⟩ := h hk
    simp only [settle, proposed, hk, hevents, hcounter, and_self]

theorem Framed.insertLease {working : State} (h : Framed intent state working) (authId : JsString) (lease : Lease) :
    Framed intent state (insertLease intent working authId lease) where
  fields := by
    unfold OxDeAI.insertLease
    rw [h.fields]
  spentInPeriod := h.spentInPeriod
  counters := h.counters
  nonces := h.nonces
  active := h.active
  activeAuths := fun k hk => (sameExcept_set _ _ _ k hk).trans (h.activeAuths k hk)
  calls := h.calls
  release := h.release

theorem framed_nextStateFor (h : intent.kind = .release → c.events = none ∧ c.counter = none) :
    Framed intent state (nextStateFor P e intent state t c parts) := by
  unfold nextStateFor leaseState
  cases intent.kind with
  | execute => exact (framed_settle h).insertLease _ _
  | release => exact framed_settle h

/-- Two deltas that can be merged in either order. -/
def Commute (d d' : Option StateDelta) : Prop := ∀ s, applyDelta (applyDelta s d) d' = applyDelta (applyDelta s d') d

/-- The modules propose changes of different parts of the state. -/
theorem pairwise_proposedDeltas (intent : Intent) (state : State) (context : PolicyEvaluationContext) (c : Charge) :
    (proposedDeltas intent state context c).Pairwise Commute := by
  unfold proposedDeltas toolDelta
  cases intent.kind with
  | release => simp [Commute, applyDelta, deepMerge]
  | execute => cases c.events <;> cases c.counter <;> simp [Commute, applyDelta, deepMerge]

theorem foldl_applyDelta_perm {ds ds' : List (Option StateDelta)} (hcomm : ds.Pairwise Commute) (h : ds.Perm ds')
    (s : State) : ds.foldl applyDelta s = ds'.foldl applyDelta s := by
  have hsymm : Std.Symm Commute := ⟨fun d d' hd s => (hd s).symm⟩
  have hall := hcomm.forall_of_forall fun d _ s => rfl
  exact h.foldl_eq' (fun d hd d' hd' s => hall hd hd' s) s

/-- An admitted intent is permitted by its modules in any order, and leaves the same
state. -/
theorem runDecisionModules_perm (hleaves : NumericLeaves state intent.agentId) (h : Admitted intent state context c)
    {modules : List PolicyModule} (hperm : modules.Perm (modulesFor intent)) (mode : EvalMode) :
    runDecisionModules intent state context mode modules = .ok (.allow (proposed intent state context c)) := by
  have hrun := (forall₂_proposedDeltas hleaves).mpr ⟨c, h, rfl⟩
  obtain ⟨deltas, hmodules, hdeltas⟩ := List.perm_comp_forall₂ hperm hrun
  refine (runDecisionModules_allow fun m hm => modulesFor_explain (hperm.mem_iff.mp hm)).mpr ⟨deltas, hmodules, ?_⟩
  rw [← foldl_proposedDeltas hleaves h]
  exact foldl_applyDelta_perm (pairwise_proposedDeltas intent state context c) hdeltas.symm state

/-- What an ALLOW leaves of the state, and whatever order its modules run in. -/
theorem allowed_frame {mode : EvalMode} {log log' : AuditLog} {auth : Authorization} {next : State}
    (h : evaluatePure P e intent state t mode log = (.ok (.allow auth next), log')) :
    Framed intent state next ∧ ∃ merged, ∀ modules : List PolicyModule, modules.Perm (modulesFor intent) →
      ∀ mode, runDecisionModules intent state (moduleContext e t) mode modules = .ok (.allow merged) := by
  obtain ⟨c, parts, hp, -, rfl⟩ := evaluatePure_allow h
  exact ⟨framed_nextStateFor hp.admitted.release, _, fun modules hperm mode =>
    runDecisionModules_perm hp.leaves hp.admitted hperm mode⟩

end

/-- A permitted payment. -/
theorem allowed_frame_sample : ∃ auth next, (evaluatePure samplePlatform sampleEngine (sampleIntent (js "a"))
    (sampleState (js "a")) (.int 1000) .failFast (AuditLog.initial samplePlatform)).1 = .ok (.allow auth next) ∧
    Framed (sampleIntent (js "a")) (sampleState (js "a")) next := by
  obtain ⟨parts, hp⟩ := permitted_sample
  have hallow : (evaluatePure samplePlatform sampleEngine (sampleIntent (js "a")) (sampleState (js "a"))
      (.int 1000) .failFast (AuditLog.initial samplePlatform)).1 = .ok (.allow _ _) :=
    (evaluatePure_fst_allow samplePlatform_laws.nfc).mpr ⟨sampleCharge, parts, hp, rfl, rfl, nofun⟩
  generalize hrun : evaluatePure samplePlatform sampleEngine (sampleIntent (js "a")) (sampleState (js "a")) (.int 1000)
    .failFast (AuditLog.initial samplePlatform) = run at hallow ⊢
  obtain ⟨r, left⟩ := run
  obtain rfl : r = _ := hallow
  exact ⟨_, _, rfl, (allowed_frame hrun).1⟩

end OxDeAI
