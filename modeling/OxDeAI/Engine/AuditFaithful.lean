import OxDeAI.Engine.AuditTrail
import OxDeAI.Engine.LeaseHash
import OxDeAI.Lib.Run

/-! The log and the answers of an engine: every intent it records as received
has one decision on record, the one returned, as long as nothing throws in
between. -/

namespace OxDeAI

open Js Run

theorem verifyTrustedTime_deny {ts t skew age : JsNumber} {reasons : List ReasonCode}
    (h : verifyTrustedTime ts t skew age = .ok (.deny reasons)) :
    ReasonCode.internalError ∉ reasons := by
  simp only [verifyTrustedTime] at h
  split at h
  · cases h
  · split at h
    · cases h
    · split at h
      · cases h
      · split at h
        · cases h; simp
        · split at h
          · cases h; simp
          · split at h
            · cases h; simp
            · cases h

/-- One call of `evaluatePure`: what it was given, the number of events emitted
before it, what it returned and the events it appended. -/
structure AuditedCall where
  intent : Intent
  state : State
  evaluationTime : JsNumber
  mode : EvalMode
  auditEventCount : ℕ
  result : Except JsError EvaluatePureOutput
  events : List AuditEvent

/-- A call on any intent and state, over the log the calls before it left. -/
structure AuditedStep (P : Platform) (e : PolicyEngine) (log : AuditLog) (c : AuditedCall)
    (log' : AuditLog) : Prop where
  count : c.auditEventCount = log.auditEventCount
  result : evaluatePure P e c.intent c.state c.evaluationTime c.mode log = (c.result, log')
  events : log'.events = log.events ++ c.events

namespace AuditEvent

def received? : AuditEvent → Option JsString
  | intentReceived intentHash _ _ _ => some intentHash
  | _ => none

def decision? : AuditEvent → Option (JsString × Bool × List ReasonCode)
  | decision intentHash allow reasons _ _ _ => some (intentHash, allow, reasons)
  | _ => none

def emitted? : AuditEvent → Option (JsString × JsNumber)
  | authEmitted authorizationId _ expiresAt _ _ => some (authorizationId, expiresAt)
  | _ => none

end AuditEvent

namespace EvaluatePureOutput

def isAllow : EvaluatePureOutput → Bool
  | allow _ _ => true
  | deny _ => false

def reasons : EvaluatePureOutput → List ReasonCode
  | allow _ _ => []
  | deny reasons => reasons

def issued : EvaluatePureOutput → List (JsString × JsNumber)
  | allow authorization _ => [(authorization.authId, authorization.expiry)]
  | deny _ => []

end EvaluatePureOutput

/-- An intent received has one decision on record, the returned one, and the
emitted authorization is the returned one. -/
def AuditedCall.Faithful (c : AuditedCall) : Prop :=
  ∀ hash ∈ c.events.filterMap AuditEvent.received?, ∃ out, c.result = .ok out ∧
    c.events.filterMap AuditEvent.decision? = [(hash, out.isAllow, out.reasons)] ∧
    c.events.filterMap AuditEvent.emitted? = out.issued

section

variable (P : Platform) (e : PolicyEngine)

/-- What an evaluation does once the intent is on record. -/
def judge (intent : Intent) (state : State) (t : JsNumber) (mode : EvalMode) (hash : JsString) :
    Eval EvaluatePureOutput := do
  let freshness ← Eval.lift (verifyTrustedTime intent.timestamp t e.opts.maxClockSkewSeconds
    e.opts.maxIntentAgeSeconds)
  match freshness with
  | .deny reasons => denyAudited P e hash state t reasons
  | .allow _ =>
    let decision ← Eval.lift (runDecisionModules intent state (moduleContext e t) mode
      (modulesFor intent))
    match decision with
    | .deny reasons => denyAudited P e hash state t reasons
    | .allow nextState =>
      let working := materializeLeases intent state nextState t
      let authorization ← Eval.lift (issueAuthorization P e intent state working t hash)
      allowAudited P e hash state (leaseState intent working authorization) t authorization

/-- The decision phase neither throws nor leads to a step that does: a permission
needs a hash of both states and a signature, a refusal a hash where a checkpoint
is due. -/
def Settles (intent : Intent) (state : State) (t : JsNumber) (mode : EvalMode) (count : ℕ) : Prop :=
  match verifyTrustedTime intent.timestamp t e.opts.maxClockSkewSeconds e.opts.maxIntentAgeSeconds with
  | .error _ => False
  | .ok (.deny _) => Due e (count + 2) → Hashable P state
  | .ok (.allow _) =>
    match runDecisionModules intent state (moduleContext e t) mode (modulesFor intent) with
    | .error _ => False
    | .ok (.deny _) => Due e (count + 2) → Hashable P state
    | .ok (.allow nextState) =>
      Hashable P state ∧ Hashable P (materializeLeases intent state nextState t) ∧ CanSign P e

/-- Calls that do not reach the record of their intent settle nothing. -/
def AuditedCall.Settled (c : AuditedCall) : Prop :=
  precheck e c.intent c.state c.evaluationTime = .ok () →
    (∃ hash, intentHash P c.intent = .ok hash) →
      Settles P e c.intent c.state c.evaluationTime c.mode c.auditEventCount

end

section

variable {P : Platform} {e : PolicyEngine} {intent : Intent} {state : State} {t : JsNumber}
  {mode : EvalMode} {log : AuditLog} {hash : JsString}

theorem evaluateGuarded_eq : evaluateGuarded P e intent state t mode =
    (Eval.lift (intentHash P intent) >>= fun hash =>
      emitAudit P (.intentReceived hash intent.agentId t (computePolicyId P e)) >>= fun _ =>
        judge P e intent state t mode hash) := rfl

theorem CanSign.of_signed {core : JsValue} {sig : JsString}
    (h : signAuthorization P e core = .ok sig) : CanSign P e := by
  unfold signAuthorization at h
  unfold CanSign
  cases halg : e.signingAlg with
  | hmacSha256 => trivial
  | ed25519 =>
    simp only [halg] at h
    split at h
    · cases h
    · rename_i hpem
      refine ⟨hpem, fun hnone => ?_⟩
      rw [signEd25519, hnone] at h
      cases h

/-- What the events of a settled evaluation say. -/
structure Recorded (hash : JsString) (out : EvaluatePureOutput) (es : List AuditEvent) : Prop where
  received : es.filterMap AuditEvent.received? = []
  decision : es.filterMap AuditEvent.decision? = [(hash, out.isAllow, out.reasons)]
  emitted : es.filterMap AuditEvent.emitted? = out.issued

theorem filterMap_checkpointEvents {β : Type} {f : AuditEvent → Option β} {count : ℕ}
    (hf : ∀ s, f (.stateCheckpoint s t (computePolicyId P e)) = none) :
    (checkpointEvents P e t state count).filterMap f = [] := by
  unfold checkpointEvents
  split
  · rw [List.filterMap_cons_none (hf _), List.filterMap_nil]
  · rfl

/-- An authorization carries its id and its expiry twice. -/
def EvaluatePureOutput.Consistent : EvaluatePureOutput → Prop
  | .deny _ => True
  | .allow auth _ => auth.authorizationId = auth.authId ∧ auth.expiresAt = auth.expiry

theorem outcomeEvents_recorded {out : EvaluatePureOutput} (h : out.Consistent) (count : ℕ) :
    Recorded hash out (outcomeEvents P e hash state t count out) := by
  cases out with
  | deny reasons =>
    refine ⟨?_, ?_, ?_⟩
    · simp only [outcomeEvents, List.filterMap_cons, AuditEvent.received?]
      exact filterMap_checkpointEvents fun _ => rfl
    · simp only [outcomeEvents, List.filterMap_cons, AuditEvent.decision?]
      rw [filterMap_checkpointEvents fun _ => rfl]
      rfl
    · simp only [outcomeEvents, List.filterMap_cons, AuditEvent.emitted?]
      exact filterMap_checkpointEvents fun _ => rfl
  | allow auth next =>
    obtain ⟨hid, hex⟩ : _ ∧ _ := h
    refine ⟨?_, ?_, ?_⟩
    · simp only [outcomeEvents, List.filterMap_cons, AuditEvent.received?]
      exact filterMap_checkpointEvents fun _ => rfl
    · simp only [outcomeEvents, List.filterMap_cons, AuditEvent.decision?]
      rw [filterMap_checkpointEvents fun _ => rfl]
      rfl
    · simp only [outcomeEvents, List.filterMap_cons, AuditEvent.emitted?]
      rw [filterMap_checkpointEvents fun _ => rfl, hid, hex]
      rfl

theorem ValidClock.expiry_seconds (h : ValidClock e t) :
    isProtocolSeconds (t.add e.authorizationTtl) = true := by
  obtain ⟨n, ttl, -, -, -, hle, hadd⟩ := h.exists_seconds
  exact isProtocolSeconds_iff.mpr ⟨n + ttl, hadd, hle⟩

theorem hashable_leaseState (hn : NfcLaws P.nfc) (hx : HexStable P.nfc) (hpre : Prechecked e intent state t)
    {nextState : State} (hd : runDecisionModules intent state (moduleContext e t) mode (modulesFor intent) =
      .ok (.allow nextState)) (hw : Hashable P (materializeLeases intent state nextState t))
    {parts : AuthorizationParts} (hid : parts.authorizationId.all isHexUnit = true) :
    Hashable P (leaseState intent (materializeLeases intent state nextState t)
      (assembleAuthorization P e intent state t (t.add e.authorizationTtl) parts)) := by
  obtain ⟨c, hc, rfl⟩ := (runDecisionModules_modulesFor hpre.leaves).mp hd
  have hm : materializeLeases intent state (proposed intent state (moduleContext e t) c) t =
      settle intent state (moduleContext e t) c := materializeLeases_proposed hc
  rw [hm] at hw ⊢
  unfold leaseState
  cases intent.kind with
  | release => exact hw
  | execute =>
    obtain ⟨max, hmax, -⟩ := hpre.leaves.maxConcurrent
    exact hw.insertLease hn hx hmax hid hpre.clock.expiry_seconds

/-- Whether the gate and every module let the intent pass. -/
def passes (e : PolicyEngine) (intent : Intent) (state : State) (t : JsNumber) (mode : EvalMode) : Bool :=
  match verifyTrustedTime intent.timestamp t e.opts.maxClockSkewSeconds e.opts.maxIntentAgeSeconds,
    runDecisionModules intent state (moduleContext e t) mode (modulesFor intent) with
  | .ok (.allow _), .ok (.allow _) => true
  | _, _ => false

/-- A settled evaluation writes the events of the outcome it returns. -/
theorem judge_settled (hash : JsString) (hn : NfcLaws P.nfc) (hx : HexStable P.nfc)
    (hhex : ∀ v, (digest P v).all isHexUnit = true) (hpre : Prechecked e intent state t) {n : ℕ}
    (hcount : log.auditEventCount = n + 1) (h : Settles P e intent state t mode n) :
    ∃ out log', Emits (judge P e intent state t mode hash) log (.ok out)
      (outcomeEvents P e hash state t log.auditEventCount out) log' ∧ out.Consistent ∧
      out.isAllow = passes e intent state t mode := by
  have ht := hpre.clock.seconds
  have hdeny : ∀ reasons, (Due e (n + 2) → Hashable P state) →
      ∃ log', Emits (denyAudited P e hash state t reasons) log (.ok (.deny reasons))
        (outcomeEvents P e hash state t log.auditEventCount (.deny reasons)) log' := by
    intro reasons hs
    exact denyAudited_emits hn ht (by rw [hcount]; exact hs)
  unfold Settles at h
  unfold judge passes
  split at h
  · exact h.elim
  · rename_i reasons hf
    obtain ⟨log', he⟩ := hdeny reasons h
    rw [hf]
    exact ⟨_, log', (Emits.lift _ log).bind he, trivial, rfl⟩
  · rename_i delta hf
    rw [hf]
    split at h
    · exact h.elim
    · rename_i reasons hd
      obtain ⟨log', he⟩ := hdeny reasons h
      rw [hd]
      exact ⟨_, log', (Emits.lift _ log).bind ((Emits.lift _ log).bind he), trivial, rfl⟩
    · rename_i nextState hd
      obtain ⟨hstate, hworking, hsign⟩ := h
      obtain ⟨parts, hi, hp⟩ : ∃ parts, Issued P e intent state
          (materializeLeases intent state nextState t) t parts ∧ parts.intentHash = hash :=
        exists_issued hn hsign hpre.clock hstate hworking hash
      have hauth := issueAuthorization_ok.mpr ⟨parts, hi, hp, rfl⟩
      have hid : parts.authorizationId.all isHexUnit = true := by
        rw [(sha256HexFromJson_ok.mp hi.authorizationId).2]
        exact hhex _
      have hexp : isProtocolSeconds (assembleAuthorization P e intent state t (t.add e.authorizationTtl)
        parts).expiresAt = true := hpre.clock.expiry_seconds
      obtain ⟨log', he⟩ := allowAudited_emits hash state hn ht hexp
        (fun _ => hashable_leaseState hn hx hpre hd hworking hid)
      rw [hd]
      refine ⟨.allow (assembleAuthorization P e intent state t (t.add e.authorizationTtl) parts)
        (leaseState intent (materializeLeases intent state nextState t)
          (assembleAuthorization P e intent state t (t.add e.authorizationTtl) parts)), log',
        (Emits.lift _ log).bind ((Emits.lift _ log).bind ?_), ⟨rfl, rfl⟩, rfl⟩
      simp only [hauth]
      exact (Emits.lift _ log).bind he

/-- A settled evaluation returns what it recorded. -/
theorem judge_recorded (hash : JsString) (hn : NfcLaws P.nfc) (hx : HexStable P.nfc) (hhex : ∀ v, (digest P v).all isHexUnit = true)
    (hpre : Prechecked e intent state t) {n : ℕ} (hcount : log.auditEventCount = n + 1)
    (h : Settles P e intent state t mode n) :
    ∃ out es log', Emits (judge P e intent state t mode hash) log (.ok out) es log' ∧
      Recorded hash out es := by
  obtain ⟨out, log', he, hconsistent, -⟩ := judge_settled hash hn hx hhex hpre hcount h
  exact ⟨out, _, log', he, outcomeEvents_recorded hconsistent _⟩

/-- An evaluation that does not settle throws, with no internal error on record; with
nothing on record where the state has a hash. -/
theorem judge_throws (hash : JsString) (hn : NfcLaws P.nfc) (hpre : Prechecked e intent state t) {n : ℕ}
    (hcount : log.auditEventCount = n + 1) (h : ¬ Settles P e intent state t mode n) :
    ∃ err es log', Emits (judge P e intent state t mode hash) log (.error err) es log' ∧
      es.filterMap AuditEvent.decision? ≠ [(hash, false, [.internalError])] ∧
      (Hashable P state → es = []) := by
  have ht := hpre.clock.seconds
  have hdeny : ∀ reasons, ReasonCode.internalError ∉ reasons → ¬ (Due e (n + 2) → Hashable P state) →
      ∃ err es log', Emits (denyAudited P e hash state t reasons) log (.error err) es log' ∧
        es.filterMap AuditEvent.decision? ≠ [(hash, false, [.internalError])] ∧
        (Hashable P state → es = []) := by
    intro reasons hr hs
    rw [Classical.not_imp] at hs
    obtain ⟨err, log', he⟩ := denyAudited_throws hn ht (by rw [hcount]; exact hs.1) hs.2
    refine ⟨err, _, log', he, ?_, fun hhash => absurd hhash hs.2⟩
    intro heq
    simp only [List.filterMap_cons, AuditEvent.decision?, List.filterMap_nil, List.cons.injEq,
      Prod.mk.injEq, true_and, and_true] at heq
    rw [heq] at hr
    simp at hr
  unfold Settles at h
  unfold judge
  split at h
  · rename_i err hf
    rw [hf]
    exact ⟨err, [], log, (Emits.lift _ log).bind_error, by simp, fun _ => rfl⟩
  · rename_i reasons hf
    obtain ⟨err, es, log', he, hr⟩ := hdeny reasons (verifyTrustedTime_deny hf) h
    rw [hf]
    exact ⟨err, es, log', (Emits.lift _ log).bind he, hr⟩
  · rename_i delta hf
    rw [hf]
    split at h
    · rename_i err hd
      rw [hd]
      exact ⟨err, [], log, (Emits.lift _ log).bind (Emits.lift _ log).bind_error, by simp, fun _ => rfl⟩
    · rename_i reasons hd
      obtain ⟨err, es, log', he, hr⟩ := hdeny reasons (runDecisionModules_deny hd) h
      rw [hd]
      exact ⟨err, es, log', (Emits.lift _ log).bind ((Emits.lift _ log).bind he), hr⟩
    · rename_i nextState hd
      rw [hd]
      cases hi : issueAuthorization P e intent state (materializeLeases intent state nextState t) t hash with
      | ok auth =>
        obtain ⟨parts, hissued, -, -⟩ := issueAuthorization_ok.mp hi
        exact absurd ⟨(hashable_of_computeStateHash hissued.stateHash).1,
          (hashable_of_computeStateHash hissued.snapshot).1, .of_signed hissued.signature⟩ h
      | error err =>
        refine ⟨err, [], log, (Emits.lift _ log).bind ((Emits.lift _ log).bind ?_), by simp, fun _ => rfl⟩
        simp only [hi]
        exact (Emits.lift _ log).bind_error

theorem events_of_same_log {c : AuditedCall} (h : log.events = log.events ++ c.events) : c.events = [] := by
  simpa using h

/-- The call passes the checks before its intent is on record, under this hash. -/
def AuditedCall.Reaches (P : Platform) (e : PolicyEngine) (c : AuditedCall) (hash : JsString) : Prop :=
  precheck e c.intent c.state c.evaluationTime = .ok () ∧ intentHash P c.intent = .ok hash

/-- Other calls leave the log alone. -/
theorem AuditedStep.unreached {c : AuditedCall} {log' : AuditLog} (h : AuditedStep P e log c log')
    (hr : ∀ hash, ¬ c.Reaches P e hash) : c.events = [] ∧ log' = log := by
  have hlog : log' = log := by
    cases hpre : precheck e c.intent c.state c.evaluationTime with
    | error early =>
      have hres := h.result
      rw [evaluatePure, hpre] at hres
      exact (Prod.mk.inj hres).2.symm
    | ok u =>
      cases hh : intentHash P c.intent with
      | ok hash => exact absurd ⟨hpre, hh⟩ (hr hash)
      | error err =>
        have hg : Emits (evaluateGuarded P e c.intent c.state c.evaluationTime c.mode) log (.error err) [] log := by
          rw [evaluateGuarded_eq, hh]
          exact (Emits.lift _ log).bind_error
        have hres := h.result
        simp only [evaluatePure, hpre, Prod.mk.injEq, hg.1] at hres
        exact hres.2.symm
  exact ⟨events_of_same_log (hlog ▸ h.events), hlog⟩

/-- A call whose intent is on record appends that record and what judging it writes. -/
theorem AuditedStep.judged (hn : NfcLaws P.nfc) {c : AuditedCall} {log' : AuditLog} (h : AuditedStep P e log c log')
    (hr : c.Reaches P e hash) : ∃ log₁, log₁.auditEventCount = c.auditEventCount + 1 ∧
      ∀ {r es log₂}, Emits (judge P e c.intent c.state c.evaluationTime c.mode hash) log₁ r es log₂ →
        c.result = caught r ∧ log' = log₂ ∧
        c.events = .intentReceived hash c.intent.agentId c.evaluationTime (computePolicyId P e) :: es := by
  obtain ⟨hcount, hres, hev⟩ := h
  obtain ⟨hpre, hh⟩ := hr
  have hp := precheck_ok.mp hpre
  simp only [evaluatePure, hpre, Prod.mk.injEq] at hres
  obtain ⟨hres, hlog⟩ := hres
  obtain ⟨log₁, h₁⟩ := emitAudit_emits (P := P) hn (.intentReceived hash c.intent.agentId c.evaluationTime
    (computePolicyId P e)) hp.clock.seconds log
  refine ⟨log₁, by rw [h₁.2.2, hcount]; rfl, ?_⟩
  intro r es log₂ hj
  have hg : Emits (evaluateGuarded P e c.intent c.state c.evaluationTime c.mode) log r
      (.intentReceived hash c.intent.agentId c.evaluationTime (computePolicyId P e) :: es) log₂ := by
    rw [evaluateGuarded_eq, hh]
    exact (Emits.lift _ log).bind (h₁.bind hj)
  rw [hg.1] at hres hlog
  refine ⟨hres.symm, hlog.symm, ?_⟩
  rw [← hlog, hg.2.1] at hev
  exact (List.append_cancel_left hev).symm

/-- A call is faithful exactly when it settles. -/
theorem AuditedStep.faithful_iff (hP : PlatformLaws P) (hx : HexStable P.nfc) {c : AuditedCall}
    {log' : AuditLog} (h : AuditedStep P e log c log') : c.Faithful ↔ c.Settled P e := by
  by_cases hreach : ∃ hash, c.Reaches P e hash
  · obtain ⟨hash, hr⟩ := hreach
    obtain ⟨log₁, hcount₁, hcall⟩ := h.judged hP.nfc hr
    have hp := precheck_ok.mp hr.1
    by_cases hs : Settles P e c.intent c.state c.evaluationTime c.mode c.auditEventCount
    · obtain ⟨out, es, log₂, hj, hrec⟩ := judge_recorded hash hP.nfc hx
        (digest_hex hP) hp hcount₁ hs
      obtain ⟨hres, -, he⟩ := hcall hj
      refine ⟨fun _ _ _ => hs, ?_⟩
      intro _ hash' hmem
      rw [he] at hmem ⊢
      simp only [List.filterMap_cons, AuditEvent.received?, hrec.received, List.mem_singleton] at hmem
      subst hmem
      refine ⟨out, hres, ?_, ?_⟩
      · simpa only [List.filterMap_cons, AuditEvent.decision?] using hrec.decision
      · simpa only [List.filterMap_cons, AuditEvent.emitted?] using hrec.emitted
    · obtain ⟨err, es, log₂, hj, hne, -⟩ := judge_throws hash hP.nfc hp hcount₁ hs
      obtain ⟨hres, -, he⟩ := hcall hj
      constructor
      · intro hf
        obtain ⟨out, hout, hdec, -⟩ := hf hash (by rw [he]; simp [AuditEvent.received?])
        rw [hres, caught, Except.ok.injEq] at hout
        rw [he, ← hout] at hdec
        simp only [List.filterMap_cons, AuditEvent.decision?] at hdec
        exact absurd hdec hne
      · intro hsettled
        exact absurd (hsettled hr.1 ⟨hash, hr.2⟩) hs
  · have hnil := (h.unreached fun hash hr => hreach ⟨hash, hr⟩).1
    constructor
    · intro _ hpre hh
      obtain ⟨hash, hh⟩ := hh
      exact absurd ⟨hash, hpre, hh⟩ hreach
    · intro _ hash hmem
      rw [hnil] at hmem
      cases hmem

/-- In every sequence of calls the log is faithful exactly to the calls that
settle; so it is faithful throughout when they all do. -/
theorem audit_faithful (hP : PlatformLaws P) (hx : HexStable P.nfc) {calls : List AuditedCall}
    {log' : AuditLog} (hrun : Trace (AuditedStep P e) log calls log') :
    ∀ c ∈ calls, c.Faithful ↔ c.Settled P e := by
  refine hrun.forall_label (I := fun _ => True) (fun _ _ _ _ _ => trivial) ?_ trivial
  intro a c b _ hstep
  exact hstep.faithful_iff hP hx

end

/-- The call of an engine over a log, with its answer and the events it appends. -/
def auditedCall (P : Platform) (e : PolicyEngine) (log : AuditLog) (intent : Intent) (state : State)
    (t : JsNumber) (mode : EvalMode) : AuditedCall :=
  let out := evaluatePure P e intent state t mode log
  ⟨intent, state, t, mode, log.auditEventCount, out.1, out.2.events.drop log.events.length⟩

theorem auditedCall_initial (P : Platform) (e : PolicyEngine) (intent : Intent) (state : State)
    (t : JsNumber) (mode : EvalMode) :
    AuditedStep P e (AuditLog.initial P) (auditedCall P e (AuditLog.initial P) intent state t mode)
      (evaluatePure P e intent state t mode (AuditLog.initial P)).2 :=
  ⟨rfl, rfl, rfl⟩

/-- Two agents whose names differ only in normalization, and the kill switch set. -/
def twinState : State :=
  { sampleState (js "a") with
    killSwitch := ⟨true, Record.empty⟩
    budget := ⟨((Record.empty.set (js "a") 100).set (js "K") 1).set [unit 8490] 1, Record.empty⟩ }

/-- An engine that writes a checkpoint after every event. -/
def checkpointEngine : PolicyEngine :=
  { sampleEngine with opts := { sampleEngine.opts with checkpointEveryNEvents := some (.int 1) } }

theorem hexStable_sample : HexStable samplePlatform.nfc := by
  intro s hs
  rw [List.all_eq_true] at hs
  refine (List.map_congr_left fun u hu => ?_).trans s.map_id
  by_cases h : u.val = 8490
  · have := hs (unit 75) (List.mem_map.mpr ⟨u, hu, if_pos h⟩)
    simp [isHexUnit] at this
  · rw [if_neg h]
    rfl

/-- The refusal is on record with its reason, and the caller is told of an
internal error. -/
theorem checkpoint_throw_unfaithful : ¬ (auditedCall samplePlatform checkpointEngine
    (AuditLog.initial samplePlatform) (sampleIntent (js "a")) twinState (.int 1000) .failFast).Faithful := by
  intro h
  have hstep := auditedCall_initial samplePlatform checkpointEngine (sampleIntent (js "a")) twinState
    (.int 1000) .failFast
  have hs := (hstep.faithful_iff samplePlatform_laws hexStable_sample).mp h
  have hh : intentHash samplePlatform (sampleIntent (js "a")) = .ok (digest samplePlatform _) :=
    sha256HexFromJson_ok.mpr ⟨(isCanonical_iff _).mp (by decide), rfl⟩
  have hdue : Due checkpointEngine (0 + 2) → Hashable samplePlatform twinState := hs rfl ⟨_, hh⟩
  have hashable := isHashable_iff.mpr (hdue (by decide))
  exact absurd hashable (by decide)

/-- A permitted call, its decision on record. -/
theorem audit_faithful_sample : (auditedCall samplePlatform sampleEngine
    (AuditLog.initial samplePlatform) (sampleIntent (js "a")) (sampleState (js "a")) (.int 1000)
      .failFast).Faithful := by
  have hstep := auditedCall_initial samplePlatform sampleEngine (sampleIntent (js "a"))
    (sampleState (js "a")) (.int 1000) .failFast
  refine (audit_faithful samplePlatform_laws hexStable_sample (.snoc .nil hstep) _
    (List.mem_singleton_self _)).mpr ?_
  intro _ _
  have hsettles : Hashable samplePlatform (sampleState (js "a")) ∧
      Hashable samplePlatform (settle (sampleIntent (js "a")) (sampleState (js "a"))
        (moduleContext sampleEngine (.int 1000)) sampleCharge) ∧ CanSign samplePlatform sampleEngine :=
    ⟨isHashable_iff.mp (by decide), isHashable_iff.mp (by decide), canSign_sampleEngine _⟩
  have hrun : runDecisionModules (sampleIntent (js "a")) (sampleState (js "a"))
      (moduleContext sampleEngine (.int 1000)) .failFast (modulesFor (sampleIntent (js "a"))) = _ :=
    (runDecisionModules_modulesFor prechecked_sample.leaves).mpr ⟨_, admitted_sample, rfl⟩
  rw [← materializeLeases_proposed admitted_sample] at hsettles
  change Settles samplePlatform sampleEngine (sampleIntent (js "a")) (sampleState (js "a")) (.int 1000)
    .failFast 0
  unfold Settles
  have hf : verifyTrustedTime (sampleIntent (js "a")).timestamp (.int 1000)
    sampleEngine.opts.maxClockSkewSeconds sampleEngine.opts.maxIntentAgeSeconds = .ok (.allow none) := rfl
  rw [hf, hrun]
  exact hsettles

end OxDeAI
