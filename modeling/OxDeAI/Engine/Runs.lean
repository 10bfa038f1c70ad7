import OxDeAI.Lib.Run
import OxDeAI.Engine.Issue

/-! Runs of an engine: each evaluation starts from the state the one before it
left, whatever it decided. -/

namespace OxDeAI

open Js Run

/-- One call of `evaluatePure`, the state it was given and what it returned. -/
structure Evaluation where
  intent : Intent
  evaluationTime : JsNumber
  mode : EvalMode
  before : State
  result : Except JsError EvaluatePureOutput

namespace Evaluation

variable (ev : Evaluation)

/-- The state the next evaluation starts from. -/
def after : State :=
  match ev.result with
  | .ok (.allow _ nextState) => nextState
  | _ => ev.before

def authorization? : Option Authorization :=
  match ev.result with
  | .ok (.allow authorization _) => some authorization
  | _ => none

def isAllowed : Bool := ev.authorization?.isSome

/-- An ALLOWed EXECUTE of an agent. -/
def executes (agent : JsString) : Bool :=
  ev.isAllowed && ev.intent.kind = .execute && ev.intent.agentId = agent

/-- An ALLOWed RELEASE of an agent. -/
def releases (agent : JsString) : Bool :=
  ev.isAllowed && ev.intent.kind = .release && ev.intent.agentId = agent

/-- The evaluation time of an intent that the engine lets through. -/
def seconds : ℤ :=
  match ev.evaluationTime with
  | .int t => t
  | _ => 0

end Evaluation

theorem executes_iff {ev : Evaluation} {agent : JsString} : ev.executes agent = true ↔
    ev.isAllowed = true ∧ ev.intent.kind = .execute ∧ ev.intent.agentId = agent := by
  simp [Evaluation.executes, and_assoc]

theorem releases_iff {ev : Evaluation} {agent : JsString} : ev.releases agent = true ↔
    ev.isAllowed = true ∧ ev.intent.kind = .release ∧ ev.intent.agentId = agent := by
  simp [Evaluation.releases, and_assoc]

structure EngineStep (P : Platform) (e : PolicyEngine) (s : State × AuditLog) (ev : Evaluation)
    (s' : State × AuditLog) : Prop where
  before : ev.before = s.1
  result : evaluatePure P e ev.intent ev.before ev.evaluationTime ev.mode s.2 = (ev.result, s'.2)
  after : s'.1 = ev.after

abbrev EngineRun (P : Platform) (e : PolicyEngine) := Trace (EngineStep P e)

/-- Evaluation times never decrease. -/
def Clocked (evs : List Evaluation) : Prop :=
  evs.Pairwise (fun a b => a.evaluationTime.le b.evaluationTime = true)

section

variable {P : Platform} {e : PolicyEngine} {s s' : State × AuditLog} {ev : Evaluation}

/-- An allowed step is a permitted evaluation with its authorization and state. -/
structure AllowedStep (P : Platform) (e : PolicyEngine) (ev : Evaluation) (c : Charge)
    (parts : AuthorizationParts) : Prop where
  permitted : Permitted P e ev.intent ev.before ev.evaluationTime c parts
  authorization : ev.authorization? =
    some (authorizationFor P e ev.intent ev.before ev.evaluationTime parts)
  after : ev.after = nextStateFor P e ev.intent ev.before ev.evaluationTime c parts

theorem EngineStep.allowed (h : EngineStep P e s ev s') (ha : ev.isAllowed = true) :
    ∃ c parts, AllowedStep P e ev c parts := by
  have hr := h.result
  cases hres : ev.result with
  | error err => simp [Evaluation.isAllowed, Evaluation.authorization?, hres] at ha
  | ok out =>
    cases out with
    | deny reasons => simp [Evaluation.isAllowed, Evaluation.authorization?, hres] at ha
    | allow auth next =>
      rw [hres] at hr
      obtain ⟨c, parts, hp, hauth, hnext⟩ := evaluatePure_allow hr
      exact ⟨c, parts, hp, by simp [Evaluation.authorization?, hres, hauth],
        by simp [Evaluation.after, hres, hnext]⟩

theorem Evaluation.after_of_not_allowed (h : ev.isAllowed = false) : ev.after = ev.before := by
  cases hres : ev.result with
  | error err => simp [Evaluation.after, hres]
  | ok out =>
    cases out with
    | deny reasons => simp [Evaluation.after, hres]
    | allow auth next => simp [Evaluation.isAllowed, Evaluation.authorization?, hres] at h

theorem AllowedStep.isAllowed {c : Charge} {parts : AuthorizationParts}
    (h : AllowedStep P e ev c parts) : ev.isAllowed = true := by
  simp [Evaluation.isAllowed, h.authorization]

/-- The clock of an allowed step is a number of seconds. -/
theorem AllowedStep.exists_time {c : Charge} {parts : AuthorizationParts}
    (h : AllowedStep P e ev c parts) :
    ∃ t : ℕ, ev.evaluationTime = .int t ∧ t ≤ JsNumber.maxSafeInteger :=
  isProtocolSeconds_iff.mp h.permitted.clock.seconds

section

variable {intent : Intent} {state : State} {t : JsNumber} {c : Charge} {parts : AuthorizationParts}

@[simp] theorem nextStateFor_replay : (nextStateFor P e intent state t c parts).replay =
    recordNonce intent state (moduleContext e t) c.pruned := by
  unfold nextStateFor leaseState
  cases intent.kind <;> rfl

@[simp] theorem nextStateFor_budget : (nextStateFor P e intent state t c parts).budget =
    match intent.kind with
      | .execute => chargeBudget intent state
      | .release => state.budget := by
  unfold nextStateFor leaseState
  cases hk : intent.kind <;> simp [insertLease, settle, proposed, hk]

@[simp] theorem nextStateFor_velocity : (nextStateFor P e intent state t c parts).velocity =
    match c.counter with
      | none => state.velocity
      | some counter => { state.velocity with
          counters := state.velocity.counters.set intent.agentId (some counter) } := by
  unfold nextStateFor leaseState
  cases intent.kind <;> rfl

@[simp] theorem nextStateFor_toolLimits : (nextStateFor P e intent state t c parts).toolLimits =
    match c.events with
      | none => state.toolLimits
      | some events => { state.toolLimits with
          calls := state.toolLimits.calls.set intent.agentId (some events) } := by
  unfold nextStateFor leaseState
  cases intent.kind <;> rfl

@[simp] theorem nextStateFor_maxAmountPerAction :
    (nextStateFor P e intent state t c parts).maxAmountPerAction = state.maxAmountPerAction := by
  unfold nextStateFor leaseState
  cases intent.kind <;> rfl

@[simp] theorem nextStateFor_maxConcurrent :
    (nextStateFor P e intent state t c parts).concurrency.maxConcurrent =
      state.concurrency.maxConcurrent := by
  unfold nextStateFor leaseState
  cases intent.kind <;> rfl

@[simp] theorem nextStateFor_active :
    (nextStateFor P e intent state t c parts).concurrency.active =
      state.concurrency.active.assign intent.agentId (chargedActive intent state c) := by
  unfold nextStateFor leaseState
  cases intent.kind <;> rfl

end

end

/-- The call of an engine on a state, with the answer it gives. -/
def evaluation (P : Platform) (e : PolicyEngine) (log : AuditLog) (intent : Intent) (state : State)
    (t : JsNumber) (mode : EvalMode) : Evaluation :=
  ⟨intent, t, mode, state, (evaluatePure P e intent state t mode log).1⟩

theorem evaluation_step (P : Platform) (e : PolicyEngine) (log : AuditLog) (intent : Intent)
    (state : State) (t : JsNumber) (mode : EvalMode) :
    EngineStep P e (state, log) (evaluation P e log intent state t mode)
      ((evaluation P e log intent state t mode).after, (evaluatePure P e intent state t mode log).2) :=
  ⟨rfl, rfl, rfl⟩

/-- A permitted intent is allowed, unless a checkpoint falls due. -/
theorem evaluation_allowedStep {P : Platform} (hn : NfcLaws P.nfc) {e : PolicyEngine}
    (hnone : e.opts.checkpointEveryNEvents = none) {intent : Intent} {state : State} {t : JsNumber}
    {c : Charge} {parts : AuthorizationParts} (h : Permitted P e intent state t c parts)
    (log : AuditLog) (mode : EvalMode) :
    AllowedStep P e (evaluation P e log intent state t mode) c parts := by
  have hallow : (evaluatePure P e intent state t mode log).1 = .ok (.allow
      (authorizationFor P e intent state t parts) (nextStateFor P e intent state t c parts)) :=
    (evaluatePure_fst_allow hn).mpr ⟨c, parts, h, rfl, rfl, by simp [hnone, checkpointDue]⟩
  exact ⟨h, by simp [evaluation, Evaluation.authorization?, hallow],
    by simp [evaluation, Evaluation.after, hallow]⟩

/-- A call of the sample engine. -/
def sampleCall (s : State × AuditLog) (intent : Intent) (t : JsNumber) : Evaluation :=
  evaluation samplePlatform sampleEngine s.2 intent s.1 t .failFast

/-- The state and the log that it leaves. -/
def sampleLeft (s : State × AuditLog) (intent : Intent) (t : JsNumber) : State × AuditLog :=
  ((sampleCall s intent t).after, (evaluatePure samplePlatform sampleEngine intent s.1 t .failFast s.2).2)

def sampleStart : State × AuditLog := (sampleState (js "a"), AuditLog.initial samplePlatform)

/-- An intent, and the same once more when it is out of date. -/
def sampleRun (intent : Intent) : List Evaluation :=
  [sampleCall sampleStart intent (.int 1000), sampleCall (sampleLeft sampleStart intent (.int 1000)) intent (.int 2000)]

theorem sampleRun_run (intent : Intent) : EngineRun samplePlatform sampleEngine sampleStart (sampleRun intent)
    (sampleLeft (sampleLeft sampleStart intent (.int 1000)) intent (.int 2000)) :=
  .snoc (.snoc .nil (evaluation_step _ _ _ _ _ _ _)) (evaluation_step _ _ _ _ _ _ _)

theorem sampleCall_late (s : State × AuditLog) {intent : Intent} (h : intent.timestamp = .int 1000) :
    (sampleCall s intent (.int 2000)).isAllowed = false := by
  rw [Bool.eq_false_iff]
  intro hallowed
  have hrun := evaluation_step samplePlatform sampleEngine s.2 intent s.1 (.int 2000) .failFast
  obtain ⟨c, parts, hstep⟩ := hrun.allowed hallowed
  have hfresh : verifyTrustedTime intent.timestamp (.int 2000) (.int 30) (.int 60) = .ok (.allow none) :=
    hstep.permitted.fresh
  rw [h] at hfresh
  cases hfresh

theorem sampleCall_late_executes (s : State × AuditLog) {intent : Intent} (h : intent.timestamp = .int 1000)
    (agent : JsString) :
    (sampleCall s intent (.int 2000)).executes agent = false := by
  rw [Evaluation.executes, sampleCall_late s h]
  rfl

theorem sampleCall_allowed {intent : Intent} {c : Charge} {parts : AuthorizationParts}
    (h : Permitted samplePlatform sampleEngine intent (sampleState (js "a")) (.int 1000) c parts) :
    (sampleCall sampleStart intent (.int 1000)).isAllowed = true :=
  (evaluation_allowedStep samplePlatform_laws.nfc rfl h (AuditLog.initial samplePlatform) .failFast).isAllowed

theorem sampleRun_allowed {intent : Intent} {c : Charge} {parts : AuthorizationParts}
    (h : Permitted samplePlatform sampleEngine intent (sampleState (js "a")) (.int 1000) c parts)
    (htime : intent.timestamp = .int 1000) : (sampleRun intent).map Evaluation.isAllowed = [true, false] := by
  rw [sampleRun, List.map_cons, List.map_singleton, sampleCall_late _ htime, sampleCall_allowed h]

end OxDeAI
