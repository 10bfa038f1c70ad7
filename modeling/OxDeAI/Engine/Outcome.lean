import OxDeAI.Engine.Allow
import OxDeAI.Engine.Hashable

/-! The outcome of an evaluation as a function of the intent, the state and the
number of events the engine has emitted. Audit events are never refused. -/

namespace OxDeAI

open Js

section

variable {P : Platform} {e : PolicyEngine}

/-- A valid clock leaves room for the time to live. -/
theorem ValidClock.exists_seconds {t : JsNumber} (h : ValidClock e t) :
    ∃ n ttl : ℕ, t = .int n ∧ e.authorizationTtl = .int ttl ∧ 0 < ttl ∧
      n + ttl ≤ JsNumber.maxSafeInteger ∧ t.add e.authorizationTtl = .int ((n + ttl : ℕ) : ℤ) := by
  obtain ⟨n, rfl, hn⟩ := isProtocolSeconds_iff.mp h.seconds
  obtain ⟨ttl, httl, hpos, hle⟩ := e.exists_ttl
  have hov := h.ttl
  have hsub : (JsNumber.int JsNumber.maxSafeInteger).sub (.int ttl) =
      .int (JsNumber.maxSafeInteger - ttl) := by
    apply JsNumber.sub_int
    simp only [JsNumber.maxSafeInteger] at hle ⊢
    omega
  simp only [ttlOverflows, httl, hsub, JsNumber.lt_int, decide_eq_false_iff_not, not_lt] at hov
  have hsum : n + ttl ≤ JsNumber.maxSafeInteger := by omega
  refine ⟨n, ttl, rfl, httl, hpos, hsum, ?_⟩
  rw [httl, JsNumber.add_int]
  · push_cast
    rfl
  · simp only [JsNumber.maxSafeInteger] at hsum
    omega

theorem canonical_num {nfc : JsString → JsString} {n : ℕ} (h : n ≤ JsNumber.maxSafeInteger) :
    Canonical nfc (.num (.int n)) := .int (by simpa using h)

/-- The numbers of an event are safe integers. -/
def AuditEvent.Safe : AuditEvent → Prop
  | intentReceived _ _ timestamp _ => isProtocolSeconds timestamp = true
  | decision _ _ _ _ timestamp _ => isProtocolSeconds timestamp = true
  | authEmitted _ _ expiresAt timestamp _ =>
    isProtocolSeconds expiresAt = true ∧ isProtocolSeconds timestamp = true
  | stateCheckpoint _ timestamp _ => isProtocolSeconds timestamp = true

theorem canonical_seconds {nfc : JsString → JsString} {n : JsNumber}
    (h : isProtocolSeconds n = true) : Canonical nfc (.num n) := by
  obtain ⟨m, rfl, hm⟩ := isProtocolSeconds_iff.mp h
  exact canonical_num hm

theorem AuditEvent.canonical (hn : NfcLaws P.nfc) {event : AuditEvent} (h : event.Safe) :
    Canonical P.nfc event.value := by
  cases event with
  | intentReceived _ _ timestamp _ =>
    refine (canonical_plain hn ?_ ?_).mpr ?_
    · simp only [List.map_cons, List.map_nil]; decide
    · simp only [List.map_cons, List.map_nil]; decide
    · simp only [List.forall_mem_cons, List.not_mem_nil, false_implies, implies_true, and_true]
      exact ⟨.str _, .str _, .str _, canonical_seconds h, .str _⟩
  | decision _ allow reasons _ timestamp _ =>
    refine (canonical_plain hn ?_ ?_).mpr ?_
    · simp only [List.map_cons, List.map_nil]; decide
    · simp only [List.map_cons, List.map_nil]; decide
    · simp only [List.forall_mem_cons, List.not_mem_nil, false_implies, implies_true, and_true]
      refine ⟨.str _, .str _, .str _, .arr ?_, .str _, canonical_seconds h, .str _⟩
      intro x hx
      obtain ⟨r, -, rfl⟩ := List.mem_map.mp hx
      exact .str _
  | authEmitted _ _ expiresAt timestamp _ =>
    refine (canonical_plain hn ?_ ?_).mpr ?_
    · simp only [List.map_cons, List.map_nil]; decide
    · simp only [List.map_cons, List.map_nil]; decide
    · simp only [List.forall_mem_cons, List.not_mem_nil, false_implies, implies_true, and_true]
      exact ⟨.str _, .str _, .str _, canonical_seconds h.1, canonical_seconds h.2, .str _⟩
  | stateCheckpoint _ timestamp _ =>
    refine (canonical_plain hn ?_ ?_).mpr ?_
    · simp only [List.map_cons, List.map_nil]; decide
    · simp only [List.map_cons, List.map_nil]; decide
    · simp only [List.forall_mem_cons, List.not_mem_nil, false_implies, implies_true, and_true]
      exact ⟨.str _, .str _, canonical_seconds h, .str _⟩

theorem emitAudit_safe (hn : NfcLaws P.nfc) (event : AuditEvent) (h : event.Safe) (log : AuditLog) :
    ∃ log', emitAudit P event log = (.ok (), log') ∧
      log'.auditEventCount = log.auditEventCount + 1 := by
  have hc : canonicalJson P.nfc event.value = .ok (jsonText (normalForm P.nfc event.value)) :=
    (canonicalizeToJson_ok _ _).mpr ⟨AuditEvent.canonical hn h, rfl⟩
  simp only [emitAudit, AuditLog.append, computeNextHash, hc, Except.map]
  exact ⟨_, rfl, rfl⟩

/-- A result, which throws instead when a checkpoint is due on a state without a hash. -/
def withCheckpoint (P : Platform) (e : PolicyEngine) (state : State) (count : ℕ)
    (out : EvaluatePureOutput) : Except JsError EvaluatePureOutput :=
  if checkpointDue e.opts.checkpointEveryNEvents count then
    (computeStateHash P e state).map (fun _ => out)
  else .ok out

theorem withCheckpoint_ok (hn : NfcLaws P.nfc) {state : State} {count : ℕ} {out out' : EvaluatePureOutput} :
    withCheckpoint P e state count out = .ok out' ↔ out = out' ∧
      (checkpointDue e.opts.checkpointEveryNEvents count = true → Hashable P state) := by
  simp only [withCheckpoint]
  by_cases hd : checkpointDue e.opts.checkpointEveryNEvents count = true
  · simp only [hd, if_true, map_eq_ok, computeStateHash_ok hn]
    constructor
    · rintro ⟨_, ⟨h, -⟩, ho⟩
      exact ⟨ho, fun _ => h⟩
    · rintro ⟨ho, h⟩
      exact ⟨_, ⟨h trivial, rfl⟩, ho⟩
  · simp [hd]

/-- What follows the freshness gate. -/
def outcomeAfterGate (P : Platform) (e : PolicyEngine) (intent : Intent) (state : State)
    (t : JsNumber) (mode : EvalMode) (count : ℕ) (hash : JsString) :
    Except JsError EvaluatePureOutput :=
  (runDecisionModules intent state (moduleContext e t) mode (modulesFor intent)).bind (fun decision =>
    match decision with
    | .deny reasons => withCheckpoint P e state (count + 2) (.deny reasons)
    | .allow nextState =>
      let working := materializeLeases intent state nextState t
      (issueAuthorization P e intent state working t hash).bind (fun authorization =>
        let next := leaseState intent working authorization
        withCheckpoint P e next (count + 3) (.allow authorization next)))

def outcome (P : Platform) (e : PolicyEngine) (intent : Intent) (state : State) (t : JsNumber)
    (mode : EvalMode) (count : ℕ) : Except JsError EvaluatePureOutput :=
  (intentHash P intent).bind (fun hash =>
    (verifyTrustedTime intent.timestamp t e.opts.maxClockSkewSeconds e.opts.maxIntentAgeSeconds).bind
      (fun freshness =>
        match freshness with
        | .deny reasons => withCheckpoint P e state (count + 2) (.deny reasons)
        | .allow _ => outcomeAfterGate P e intent state t mode count hash))

theorem bind_lift_fst {α β : Type} (x : Except JsError α) (f : α → Eval β) (log : AuditLog) :
    ((Eval.lift x >>= f) log).1 = x.bind (fun a => (f a log).1) := by
  cases x <;> rfl

theorem bind_emit_fst {β : Type} {event : AuditEvent} {log log' : AuditLog}
    (h : emitAudit P event log = (.ok (), log')) (f : Unit → Eval β) :
    (emitAudit P event >>= f) log = f () log' := by
  change Eval.bind _ _ _ = _
  simp only [Eval.bind, h]

theorem maybeEmitCheckpoint_fst (hn : NfcLaws P.nfc) {policyId : JsString} {t : JsNumber}
    (ht : isProtocolSeconds t = true) {state : State} {log : AuditLog} (out : EvaluatePureOutput) :
    ((maybeEmitCheckpoint P e policyId t state >>= fun _ => pure out) log).1 =
      withCheckpoint P e state log.auditEventCount out := by
  by_cases hdue : checkpointDue e.opts.checkpointEveryNEvents log.auditEventCount = true
  · have hm : maybeEmitCheckpoint P e policyId t state log = (Eval.lift (computeStateHash P e state) >>=
        fun hash => emitAudit P (.stateCheckpoint hash t policyId)) log := if_pos hdue
    rw [withCheckpoint, if_pos hdue]
    change (Eval.bind _ _ _).1 = _
    rw [Eval.bind, hm]
    cases hs : computeStateHash P e state with
    | error err => rfl
    | ok hash =>
      obtain ⟨log', hl, -⟩ := emitAudit_safe (P := P) hn (.stateCheckpoint hash t policyId) ht log
      have hb : (Eval.lift (.ok hash) >>= fun hash => emitAudit P (.stateCheckpoint hash t policyId)) log =
          (.ok (), log') := hl
      rw [hb]
      rfl
  · have hm : maybeEmitCheckpoint P e policyId t state log = (.ok (), log) := if_neg hdue
    rw [withCheckpoint, if_neg hdue]
    change (Eval.bind _ _ _).1 = _
    rw [Eval.bind, hm]
    rfl

theorem denyAudited_fst (hn : NfcLaws P.nfc) {t : JsNumber} (ht : isProtocolSeconds t = true)
    {hash : JsString} {state : State} {reasons : List ReasonCode} {log : AuditLog} :
    (denyAudited P e hash state t reasons log).1 =
      withCheckpoint P e state (log.auditEventCount + 1) (.deny reasons) := by
  obtain ⟨log', hl, hcount⟩ := emitAudit_safe (P := P) hn
    (.decision hash false reasons state.policyVersion t (computePolicyId P e)) ht log
  rw [denyAudited, bind_emit_fst hl, maybeEmitCheckpoint_fst hn ht, hcount]

theorem allowAudited_fst (hn : NfcLaws P.nfc) {t : JsNumber} (ht : isProtocolSeconds t = true)
    {hash : JsString} {state next : State} {auth : Authorization} {log : AuditLog}
    (hexp : isProtocolSeconds auth.expiresAt = true) :
    (allowAudited P e hash state next t auth log).1 =
      withCheckpoint P e next (log.auditEventCount + 2) (.allow auth next) := by
  obtain ⟨log₁, hl, hcount⟩ := emitAudit_safe (P := P) hn
    (.decision hash true [] state.policyVersion t (computePolicyId P e)) ht log
  obtain ⟨log₂, hl₂, hcount₂⟩ := emitAudit_safe (P := P) hn
    (.authEmitted auth.authorizationId hash auth.expiresAt t (computePolicyId P e))
    ⟨hexp, ht⟩ log₁
  rw [allowAudited, bind_emit_fst hl, bind_emit_fst hl₂, maybeEmitCheckpoint_fst hn ht, hcount₂, hcount]

theorem evaluateGuarded_fst (hn : NfcLaws P.nfc) {t : JsNumber} (ht : ValidClock e t) {intent : Intent}
    {state : State} {mode : EvalMode} {log : AuditLog} :
    (evaluateGuarded P e intent state t mode log).1 =
      outcome P e intent state t mode log.auditEventCount := by
  rw [evaluateGuarded, bind_lift_fst, outcome]
  congr 1
  funext hash
  obtain ⟨log', hl, hcount⟩ := emitAudit_safe (P := P) hn
    (.intentReceived hash intent.agentId t (computePolicyId P e)) ht.seconds log
  rw [bind_emit_fst hl, bind_lift_fst]
  congr 1
  funext freshness
  cases freshness with
  | deny reasons =>
    simp only
    rw [denyAudited_fst hn ht.seconds, hcount]
  | allow delta =>
    simp only
    rw [bind_lift_fst, outcomeAfterGate]
    congr 1
    funext decision
    cases decision with
    | deny reasons =>
      simp only
      rw [denyAudited_fst hn ht.seconds, hcount]
    | allow nextState =>
      simp only
      rw [bind_lift_fst]
      cases hi : issueAuthorization P e intent state (materializeLeases intent state nextState t) t hash with
      | error err => rfl
      | ok auth =>
        obtain ⟨parts, -, -, rfl⟩ := issueAuthorization_ok.mp hi
        obtain ⟨n, ttl, -, -, -, hle, hadd⟩ := ht.exists_seconds
        have hexp : isProtocolSeconds (assembleAuthorization P e intent state t
            (t.add e.authorizationTtl) parts).expiresAt = true :=
          isProtocolSeconds_iff.mpr ⟨n + ttl, hadd, hle⟩
        simp only [Except.bind]
        rw [allowAudited_fst hn ht.seconds hexp, hcount]

theorem evaluatePure_fst (hn : NfcLaws P.nfc) {intent : Intent} {state : State} {t : JsNumber}
    {mode : EvalMode} {log : AuditLog} :
    (evaluatePure P e intent state t mode log).1 =
      match precheck e intent state t with
      | .error early => early
      | .ok _ => caught (outcome P e intent state t mode log.auditEventCount) := by
  cases hpre : precheck e intent state t with
  | error early => simp only [evaluatePure, hpre]
  | ok _ =>
    simp only [evaluatePure, hpre]
    rw [evaluateGuarded_fst hn (precheck_ok.mp hpre).clock]

/-- The engine permits exactly what passes every check and leaves both states
with a hash, the final one only when a checkpoint is due. -/
theorem evaluatePure_fst_allow (hn : NfcLaws P.nfc) {intent : Intent} {state : State} {t : JsNumber}
    {mode : EvalMode} {log : AuditLog} {auth : Authorization} {next : State} :
    (evaluatePure P e intent state t mode log).1 = .ok (.allow auth next) ↔
      ∃ c parts, Permitted P e intent state t c parts ∧
        auth = authorizationFor P e intent state t parts ∧
        next = nextStateFor P e intent state t c parts ∧
        (checkpointDue e.opts.checkpointEveryNEvents (log.auditEventCount + 3) = true →
          Hashable P next) := by
  rw [evaluatePure_fst hn]
  cases hpre : precheck e intent state t with
  | error early =>
    constructor
    · rintro rfl
      exact absurd hpre precheck_ne_allow
    · rintro ⟨c, parts, hp, -⟩
      rw [precheck_ok.mpr hp.toPrechecked] at hpre
      cases hpre
  | ok u =>
    have hp := precheck_ok.mp hpre
    have hcaught : ∀ r : Except JsError EvaluatePureOutput,
        caught r = .ok (.allow auth next) ↔ r = .ok (.allow auth next) := by
      intro r
      cases r <;> simp [caught]
    have hcheck : ∀ (s : State) (count : ℕ) (out : EvaluatePureOutput),
        withCheckpoint P e s count out = .ok (.allow auth next) ↔ out = .allow auth next ∧
          (checkpointDue e.opts.checkpointEveryNEvents count = true → Hashable P s) :=
      fun _ _ _ => withCheckpoint_ok hn
    simp only [hcaught, outcome]
    constructor
    · intro h
      obtain ⟨hash, hh, h⟩ := bind_eq_ok.mp h
      obtain ⟨freshness, hf, h⟩ := bind_eq_ok.mp h
      cases freshness with
      | deny reasons => simp [hcheck] at h
      | allow delta =>
        obtain ⟨decision, hd, h⟩ := bind_eq_ok.mp h
        cases decision with
        | deny reasons => simp [hcheck] at h
        | allow nextState =>
          obtain ⟨auth', ha, h⟩ := bind_eq_ok.mp h
          obtain ⟨c, hc, rfl⟩ := (runDecisionModules_modulesFor hp.leaves).mp hd
          have hm : materializeLeases intent state (proposed intent state (moduleContext e t) c) t =
              settle intent state (moduleContext e t) c := materializeLeases_proposed hc
          rw [hm] at ha h
          obtain ⟨parts, hi, rfl, rfl⟩ := issueAuthorization_ok.mp ha
          obtain ⟨ho, hdue⟩ := (hcheck _ _ _).mp h
          cases ho
          exact ⟨c, parts, ⟨hp, hh, verifyTrustedTime_delta hf ▸ hf, hc, hi⟩, rfl, rfl, hdue⟩
    · rintro ⟨c, parts, hperm, rfl, rfl, hdue⟩
      refine bind_eq_ok.mpr ⟨_, hperm.hash, bind_eq_ok.mpr ⟨_, hperm.fresh, ?_⟩⟩
      refine bind_eq_ok.mpr ⟨.allow _, (runDecisionModules_modulesFor hp.leaves).mpr
        ⟨c, hperm.admitted, rfl⟩, ?_⟩
      have hm : materializeLeases intent state (proposed intent state (moduleContext e t) c) t =
          settle intent state (moduleContext e t) c := materializeLeases_proposed hperm.admitted
      simp only [hm]
      exact bind_eq_ok.mpr ⟨_, issueAuthorization_ok.mpr ⟨parts, hperm.issued, rfl, rfl⟩,
        (hcheck _ _ _).mpr ⟨rfl, hdue⟩⟩

end

end OxDeAI
