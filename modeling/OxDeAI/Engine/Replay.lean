import OxDeAI.Engine.Alike
import OxDeAI.Engine.Frame
import OxDeAI.Snapshot.Plain

/-! Replays, and what two states of one hash make of the same intents. -/

namespace OxDeAI

open Js

structure ReplayResult where
  outputs : List EvaluatePureOutput
  finalState : State
  allDeterministic : Bool

structure SimulationResult where
  outputs : List EvaluatePureOutput
  finalState : State

/-- The state the loop goes on with. -/
def EvaluatePureOutput.working (out : EvaluatePureOutput) (state : State) : State :=
  match out with
  | .allow _ nextState => nextState
  | .deny _ => state

section

variable (P : Platform) (e : PolicyEngine)

/-- The loop of a replay and of a simulation: what an evaluation throws ends it. -/
def evaluateEach (evaluationTime : JsNumber) (mode : EvalMode) : List Intent → State → Eval (List EvaluatePureOutput × State)
  | [], state => pure ([], state)
  | intent :: intents, state => do
    let out ← evaluatePure P e intent state evaluationTime mode
    let rest ← evaluateEach evaluationTime mode intents (out.working state)
    pure (out :: rest.1, rest.2)

def replay (initialState : State) (intents : List Intent) (evaluationTime : JsNumber) (mode : EvalMode) :
    Eval ReplayResult := do
  let run ← evaluateEach P e evaluationTime mode intents initialState
  pure ⟨run.1, run.2, true⟩

def simulateSequence (currentState : Option State) (intents : List Intent) (evaluationTime : JsNumber) (mode : EvalMode) :
    Eval SimulationResult :=
  match currentState with
  | none => Eval.lift (.error (.error (js "simulateSequence: engine has no current state")))
  | some base => do
    let run ← evaluateEach P e evaluationTime mode intents base
    pure ⟨run.1, run.2⟩

/-- Both have a hash, and it is the same. -/
def SameHash (s s' : State) : Prop := ∃ hash, computeStateHash P e s = .ok hash ∧ computeStateHash P e s' = .ok hash

/-- The same reasons, or the same authorization and states of one hash. -/
inductive SameOutput : EvaluatePureOutput → EvaluatePureOutput → Prop
  | deny (reasons : List ReasonCode) : SameOutput (.deny reasons) (.deny reasons)
  | allow (authorization : Authorization) {next next' : State} (h : SameHash P e next next') :
    SameOutput (.allow authorization next) (.allow authorization next')

/-- The outputs one by one, and the states left. -/
structure SameRun (outputs outputs' : List EvaluatePureOutput) (finalState finalState' : State) : Prop where
  outputs : List.Forall₂ (SameOutput P e) outputs outputs'
  finalState : SameHash P e finalState finalState'

end

section

variable {P : Platform} {e : PolicyEngine} {intent : Intent} {s s' : State} {t : JsNumber} {mode : EvalMode}
  {log log' : AuditLog}

theorem Framed.numericLeaves {next : State} (h : Framed intent s next) {agent : JsString} (hleaves : NumericLeaves s agent)
    (hspent : (next.budget.spentInPeriod.get intent.agentId).isInherited = false) : NumericLeaves next agent where
  budgetLimit := by
    rw [h.fields]
    exact hleaves.budgetLimit
  spentInPeriod := by
    by_cases heq : agent = intent.agentId
    · rw [heq]
      exact hspent
    · rw [Record.get_congr (h.spentInPeriod agent heq)]
      exact hleaves.spentInPeriod
  maxAmountPerAction := by
    rw [h.fields]
    exact hleaves.maxAmountPerAction
  maxConcurrent := by
    rw [h.fields]
    exact hleaves.maxConcurrent
  maxDepth := by
    rw [h.fields]
    exact hleaves.maxDepth
  maxCalls := by
    rw [h.fields]
    exact hleaves.maxCalls

theorem Framed.isRuntimeState {next : State} (h : Framed intent s next) : isRuntimeState next = isRuntimeState s := by
  rw [h.fields]
  rfl

/-- The state an ALLOW leaves passes the checks that the one before it passed. -/
theorem validateStateForIntent_next {auth : Authorization} {next : State} (hP : PlatformLaws P)
    (hr : (evaluatePure P e intent s t mode log).1 = .ok (.allow auth next)) {later : Intent}
    (h : validateStateForIntent s later = .ok ()) : validateStateForIntent next later = .ok () := by
  obtain ⟨c, parts, hp, -, rfl, -⟩ := (evaluatePure_fst_allow hP.nfc).mp hr
  have hframed : Framed intent s (nextStateFor P e intent s t c parts) := framed_nextStateFor hp.admitted.release
  obtain ⟨hruntime, hleaves⟩ := validateStateForIntent_ok.mp h
  refine validateStateForIntent_ok.mpr ⟨hframed.isRuntimeState.trans hruntime, hframed.numericLeaves hleaves ?_⟩
  rw [nextStateFor_budget]
  cases intent.kind with
  | execute =>
    have hset : (chargeBudget intent s).spentInPeriod.own? intent.agentId = some _ := Record.own?_set_self _ _ _
    simp only [Record.get_of_own? _ hset]
    rfl
  | release => exact hp.leaves.spentInPeriod

theorem Twins.sameHash (hn : NfcLaws P.nfc) (h : Twins P s s') : SameHash P e s s' := by
  refine ⟨OxDeAI.stateDigest P e s, (computeStateHash_ok hn).mpr ⟨h.left, rfl⟩, ?_⟩
  rw [h.stateDigest]
  exact (computeStateHash_ok hn).mpr ⟨h.right, rfl⟩

/-- Plain states of one version and one hash say the same. -/
theorem twins_of_sameHash (hP : PlatformLaws P) (hversion : s.policyVersion = s'.policyVersion) (hplain : Plain P.nfc s)
    (hplain' : Plain P.nfc s') (h : SameHash P e s s') : Twins P s s' := by
  obtain ⟨hash, hs, hs'⟩ := h
  obtain ⟨hleft, rfl⟩ := hashable_of_computeStateHash hs
  obtain ⟨hright, hdigest⟩ := hashable_of_computeStateHash hs'
  have hforms := (stateDigest_eq_iff hP hleft hright).mp hdigest
  have halike := alike_of_forms hP.nfc hplain hplain' hversion (fun id => (hleft id).2) (fun id => (hright id).2) hforms
  have hlisted := hashable_listed hleft .toolAmplification
  have hties : CallsAgree s.listed.toolLimits s'.listed.toolLimits := by
    refine callsAgree_of_normalForm hP.nfc halike.listed hlisted.1 hlisted.2 ?_
    rw [payload_listed, payload_listed]
    exact hforms _
  exact ⟨halike, hties, hleft, hright⟩

theorem SameFate.sameOutput (hn : NfcLaws P.nfc) {r r' : Except JsError EvaluatePureOutput} (h : SameFate P r r') :
    ExceptRel (SameOutput P e) r r' := by
  cases h with
  | throws err => exact .error err
  | deny reasons => exact .ok (.deny reasons)
  | allow auth hnext => exact .ok (.allow auth (hnext.sameHash hn))

theorem bind_fst {α β : Type} (x : Eval α) (f : α → Eval β) (log : AuditLog) :
    (x >>= f) log = match (x log).1 with
      | .ok a => f a (x log).2
      | .error err => (.error err, (x log).2) := by
  change Eval.bind x f log = _
  unfold Eval.bind
  rcases x log with ⟨r, l⟩
  cases r <;> rfl

theorem evaluateEach_cons {out out' : EvaluatePureOutput} {x x' : Eval (List EvaluatePureOutput × State)}
    (hout : SameOutput P e out out') (h : ExceptRel (fun r r' => SameRun P e r.1 r'.1 r.2 r'.2) (x log).1 (x' log').1) :
    ExceptRel (fun r r' => SameRun P e r.1 r'.1 r.2 r'.2) ((x >>= fun rest => pure (out :: rest.1, rest.2)) log).1
      ((x' >>= fun rest => pure (out' :: rest.1, rest.2)) log').1 := by
  simp only [bind_fst]
  generalize (x log).1 = r at h
  generalize (x' log').1 = r' at h
  cases h with
  | error err => exact .error err
  | ok hrun => exact .ok ⟨.cons hout hrun.outputs, hrun.finalState⟩

/-- Twins keep step through every sequence of intents. -/
theorem evaluateEach_twins (hP : PlatformLaws P) (hx : HexStable P.nfc) {intents : List Intent} (h : Twins P s s')
    (hnames : ∀ intent ∈ intents, inherited? intent.agentId = none)
    (hvalid : ∀ intent ∈ intents, validateStateForIntent s intent = .ok ())
    (hvalid' : ∀ intent ∈ intents, validateStateForIntent s' intent = .ok ()) :
    ExceptRel (fun r r' => SameRun P e r.1 r'.1 r.2 r'.2) (evaluateEach P e t mode intents s log).1
      (evaluateEach P e t mode intents s' log').1 := by
  induction intents generalizing s s' log log' with
  | nil => exact .ok ⟨.nil, h.sameHash hP.nfc⟩
  | cons intent intents ih =>
    rw [List.forall_mem_cons] at hnames hvalid hvalid'
    have hfate : SameFate P (evaluatePure P e intent s t mode log).1 (evaluatePure P e intent s' t mode log').1 :=
      evaluatePure_twins hP hx h hnames.1 hvalid.1 hvalid'.1
    have hnext : ∀ auth next, (evaluatePure P e intent s t mode log).1 = .ok (.allow auth next) →
        ∀ later ∈ intents, validateStateForIntent next later = .ok () :=
      fun auth next hr later hlater => validateStateForIntent_next hP hr (hvalid.2 later hlater)
    have hnext' : ∀ auth next, (evaluatePure P e intent s' t mode log').1 = .ok (.allow auth next) →
        ∀ later ∈ intents, validateStateForIntent next later = .ok () :=
      fun auth next hr later hlater => validateStateForIntent_next hP hr (hvalid'.2 later hlater)
    simp only [evaluateEach, bind_fst _ _ log, bind_fst _ _ log']
    generalize (evaluatePure P e intent s t mode log).1 = r at hfate hnext
    generalize (evaluatePure P e intent s' t mode log').1 = r' at hfate hnext'
    cases hfate with
    | throws err => exact .error err
    | deny reasons => exact evaluateEach_cons (.deny reasons) (ih h hnames.2 hvalid.2 hvalid'.2)
    | allow auth hleft =>
      exact evaluateEach_cons (.allow auth (hleft.sameHash hP.nfc))
        (ih hleft hnames.2 (hnext auth _ rfl) (hnext' auth _ rfl))

theorem sameRun_map {α β : Type} {outputs : β → List EvaluatePureOutput} {final : β → State} {x x' : Eval α}
    {out : α → List EvaluatePureOutput × State} {f : α → β} (hf : ∀ a, (outputs (f a), final (f a)) = out a)
    (h : ExceptRel (fun r r' => SameRun P e (out r).1 (out r').1 (out r).2 (out r').2) (x log).1 (x' log').1) :
    ExceptRel (fun r r' => SameRun P e (outputs r) (outputs r') (final r) (final r')) ((x >>= fun a => pure (f a)) log).1
      ((x' >>= fun a => pure (f a)) log').1 := by
  simp only [bind_fst]
  generalize (x log).1 = r at h
  generalize (x' log').1 = r' at h
  cases h with
  | error err => exact .error err
  | @ok a a' hrun =>
    rw [← hf, ← hf] at hrun
    exact .ok hrun

/-- The state hash decides what becomes of a state: plain states of one version and one hash get the
same answers to any sequence of intents, and stay of one hash, whatever was logged before. -/
theorem sameHash_replay (hP : PlatformLaws P) (hx : HexStable P.nfc) (e : PolicyEngine) (t : JsNumber) (mode : EvalMode)
    (log log' : AuditLog) (hversion : s.policyVersion = s'.policyVersion) (hplain : Plain P.nfc s)
    (hplain' : Plain P.nfc s') (h : SameHash P e s s') {intents : List Intent}
    (hnames : ∀ intent ∈ intents, inherited? intent.agentId = none)
    (hvalid : ∀ intent ∈ intents, validateStateForIntent s intent = .ok ())
    (hvalid' : ∀ intent ∈ intents, validateStateForIntent s' intent = .ok ()) :
    ExceptRel (fun r r' => SameRun P e r.outputs r'.outputs r.finalState r'.finalState)
      (replay P e s intents t mode log).1 (replay P e s' intents t mode log').1 ∧
    ExceptRel (fun r r' => SameRun P e r.outputs r'.outputs r.finalState r'.finalState)
      (simulateSequence P e (some s) intents t mode log).1 (simulateSequence P e (some s') intents t mode log').1 := by
  have hrun : ExceptRel (fun r r' => SameRun P e r.1 r'.1 r.2 r'.2) (evaluateEach P e t mode intents s log).1
      (evaluateEach P e t mode intents s' log').1 :=
    evaluateEach_twins hP hx (twins_of_sameHash hP hversion hplain hplain' h) hnames hvalid hvalid'
  constructor
  · exact sameRun_map (fun _ => rfl) hrun
  · exact sameRun_map (fun _ => rfl) hrun

end

theorem plainRecord_empty {α : Type} (nfc : JsString → JsString) (p : α → Prop) : PlainRecord nfc p Record.empty := by
  intro k x hx
  cases hx

theorem PlainRecord.set {α : Type} {nfc : JsString → JsString} {p : α → Prop} {r : Record α} (h : PlainRecord nfc p r)
    {key : JsString} (hkey : key ≠ protoKey ∧ nfc key = key) {v : α} (hv : p v) : PlainRecord nfc p (r.set key v) := by
  intro k x hx
  rw [Record.own?_set] at hx
  by_cases heq : k = key
  · rw [if_pos heq] at hx
    cases hx
    rw [heq]
    exact ⟨hkey, hv⟩
  · rw [if_neg heq] at hx
    exact h k x hx

/-- The same agent, in another period, with an empty allowlist and a count of nothing in flight. -/
def spelledOutState : State :=
  { sampleState (js "a") with
    periodId := js "p2"
    allowlists := ⟨some [], none, some []⟩
    concurrency := ⟨Record.empty.set (js "a") (.int 2), Record.empty.set (js "a") (.int 0), Record.empty⟩ }

theorem plain_sample : Plain samplePlatform.nfc (sampleState (js "a")) ∧ Plain samplePlatform.nfc spelledOutState := by
  have hkey : js "a" ≠ protoKey ∧ samplePlatform.nfc (js "a") = js "a" := by decide
  have hset : ∀ {α : Type} {p : α → Prop} {v : α}, p v → PlainRecord samplePlatform.nfc p (Record.empty.set (js "a") v) :=
    fun hv => (plainRecord_empty _ _).set hkey hv
  have hplain : Plain samplePlatform.nfc (sampleState (js "a")) := {
    switches := plainRecord_empty _ _
    assets := fun name hname => by cases hname
    targets := fun name hname => by cases hname
    budgetLimit := hset trivial
    spentInPeriod := plainRecord_empty _ _
    maxAmountPerAction := hset ⟨50, rfl⟩
    counters := plainRecord_empty _ _
    nonces := plainRecord_empty _ _
    maxConcurrent := hset trivial
    active := plainRecord_empty _ _
    activeAuths := plainRecord_empty _ _
    maxDepth := hset trivial
    maxCalls := hset ⟨_, rfl⟩
    maxCallsByTool := plainRecord_empty _ _
    calls := plainRecord_empty _ _ }
  exact ⟨hplain, { hplain with active := hset trivial }⟩

theorem sameHash_sample : SameHash samplePlatform sampleEngine (sampleState (js "a")) spelledOutState := by
  have hleft : Hashable samplePlatform (sampleState (js "a")) := isHashable_iff.mp (by decide)
  have hright : Hashable samplePlatform spelledOutState := isHashable_iff.mp (by decide)
  have hforms := (stateDigest_eq_iff (e := sampleEngine) samplePlatform_laws hleft hright).mpr fun id => by
    -- only the first two payloads read what the two states spell differently
    cases id with
    | allowlist =>
      simp only [payload, spelledOutState]
      rfl
    | concurrency =>
      simp only [payload, spelledOutState]
      rfl
    | _ => simp only [payload, spelledOutState, normalizeBudget, normalizeKillSwitch]
  refine ⟨_, (computeStateHash_ok samplePlatform_laws.nfc).mpr ⟨hleft, rfl⟩, ?_⟩
  rw [hforms]
  exact (computeStateHash_ok samplePlatform_laws.nfc).mpr ⟨hright, rfl⟩

theorem sameHash_replay_sample : ExceptRel
    (fun r r' => SameRun samplePlatform sampleEngine r.outputs r'.outputs r.finalState r'.finalState)
    (replay samplePlatform sampleEngine (sampleState (js "a")) [sampleIntent (js "a"), sampleIntent (js "a")] (.int 1000)
      .failFast (AuditLog.initial samplePlatform)).1
    (replay samplePlatform sampleEngine spelledOutState [sampleIntent (js "a"), sampleIntent (js "a")] (.int 1000)
      .failFast (AuditLog.initial samplePlatform)).1 := by
  have hnames : ∀ intent ∈ [sampleIntent (js "a"), sampleIntent (js "a")], inherited? intent.agentId = none := by decide
  have hvalid : ∀ intent ∈ [sampleIntent (js "a"), sampleIntent (js "a")],
      validateStateForIntent (sampleState (js "a")) intent = .ok () := by decide
  have hvalid' : ∀ intent ∈ [sampleIntent (js "a"), sampleIntent (js "a")],
      validateStateForIntent spelledOutState intent = .ok () := by decide
  have hversion : (sampleState (js "a")).policyVersion = spelledOutState.policyVersion := rfl
  exact (sameHash_replay samplePlatform_laws hexStable_sample sampleEngine (.int 1000) .failFast _ _ hversion
    plain_sample.1 plain_sample.2 sameHash_sample hnames hvalid hvalid').1

end OxDeAI
