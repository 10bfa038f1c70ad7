import OxDeAI.Audit.Acceptance
import OxDeAI.Core.Clone
import OxDeAI.Engine.AuditFaithful

/-! The audit verifier accepts the log of every engine: each event passes the schema,
carries the policy of the engine and the time of its call, and extends the chain. -/

namespace OxDeAI

open Js Run

namespace AuditEvent

def timestamp : AuditEvent → JsNumber
  | intentReceived _ _ timestamp _ => timestamp
  | decision _ _ _ _ timestamp _ => timestamp
  | authEmitted _ _ _ timestamp _ => timestamp
  | stateCheckpoint _ timestamp _ => timestamp

def policyId : AuditEvent → JsString
  | intentReceived _ _ _ policyId => policyId
  | decision _ _ _ _ _ policyId => policyId
  | authEmitted _ _ _ _ policyId => policyId
  | stateCheckpoint _ _ policyId => policyId

def isCheckpoint : AuditEvent → Bool
  | stateCheckpoint _ _ _ => true
  | _ => false

variable (ev : AuditEvent)

theorem field_timestamp : ev.value.field (js "timestamp") = .num ev.timestamp := by
  cases ev <;> rfl

theorem field_policyId : ev.value.field (js "policyId") = .str ev.policyId := by
  cases ev <;> rfl

theorem isAnchor_value : isAnchor ev.value = ev.isCheckpoint := by
  cases ev <;> rfl

theorem cloneable_reasons (reasons : List ReasonCode) :
    areCloneable (reasons.map (fun r => .str r.text)) = true ∧
      plainElements (reasons.map (fun r => .str r.text)) = reasons.map (fun r => .str r.text) := by
  constructor
  · rw [areCloneable_iff]
    intro x hx
    obtain ⟨r, -, rfl⟩ := List.mem_map.mp hx
    rfl
  · rw [plainElements_eq_map, List.map_map]
    rfl

/-- An event is its own clone. -/
theorem structuredClone_value : structuredClone ev.value = some ev.value := by
  cases ev with
  | decision intentHash allow reasons policyVersion timestamp policyId =>
    obtain ⟨hcloneable, hplain⟩ := cloneable_reasons reasons
    simp only [structuredClone, value, isCloneable, membersCloneable, hcloneable, Bool.and_true, if_true,
      toPlain, plainMembers, hplain]
  | _ => rfl

end AuditEvent

/-- A copy of each event. -/
def AuditLog.snapshot (log : AuditLog) : Option (List JsValue) :=
  log.chain.mapM (fun entry => structuredClone entry.event.value)

theorem AuditLog.snapshot_eq (log : AuditLog) : log.snapshot = some (log.events.map AuditEvent.value) := by
  rw [AuditLog.snapshot, AuditLog.events, List.map_map]
  simp only [AuditEvent.structuredClone_value]
  exact List.mapM_pure

section

variable {t : JsNumber} {hash policyId : JsString}

theorem validateAuditEventJson_of {ev : AuditEvent} (type : JsString)
    (htype : ev.value.field (js "type") = .str type) (ht : isProtocolSeconds ev.timestamp = true)
    (hev : eventTypeIssues ev.value type = []) : validateAuditEventJson ev.value = [] := by
  have hrec : ev.value.isRecord = true := by cases ev <;> rfl
  obtain ⟨n, hn, -⟩ := isProtocolSeconds_iff.mp ht
  have htime : intNonNegative (ev.value.field (js "timestamp")) = true := by
    rw [ev.field_timestamp, hn, intNonNegative, Bool.and_eq_true]
    exact ⟨rfl, by simp⟩
  have hpolicy : (ev.value.field (js "policyId")).isString = true := by
    rw [ev.field_policyId]
    rfl
  rw [validateAuditEventJson, hrec]
  simp only [Bool.not_true, Bool.false_eq_true, if_false, htype, sortedIssues_eq_nil, htime, hpolicy,
    Bool.or_true, hev, List.append_nil]
  rfl

theorem validate_intentReceived (agentId : JsString) (hh : hash ≠ []) (ht : isProtocolSeconds t = true) :
    validateAuditEventJson (AuditEvent.intentReceived hash agentId t policyId).value = [] := by
  refine validateAuditEventJson_of (js "INTENT_RECEIVED") rfl ht ?_
  cases hash with
  | nil => exact absurd rfl hh
  | cons u us => rfl

theorem validate_decision (allow : Bool) (reasons : List ReasonCode) (policyVersion : JsString) (hh : hash ≠ [])
    (ht : isProtocolSeconds t = true) :
    validateAuditEventJson (AuditEvent.decision hash allow reasons policyVersion t policyId).value = [] := by
  refine validateAuditEventJson_of (js "DECISION") rfl ht ?_
  have hreasons : (reasons.map (fun r => JsValue.str r.text)).all JsValue.isString = true := by
    rw [List.all_map, List.all_eq_true]
    intro r _
    rfl
  have hr : stringArrayField (AuditEvent.decision hash allow reasons policyVersion t policyId).value
      (js "reasons") = [] := issueUnless_eq_nil.mpr hreasons
  cases hash with
  | nil => exact absurd rfl hh
  | cons u us => cases allow <;> simp only [eventTypeIssues, hr] <;> rfl

theorem validate_authEmitted {authorizationId : JsString} {expiresAt : JsNumber} (hid : authorizationId ≠ [])
    (hh : hash ≠ []) (hexp : isProtocolSeconds expiresAt = true) (ht : isProtocolSeconds t = true) :
    validateAuditEventJson (AuditEvent.authEmitted authorizationId hash expiresAt t policyId).value = [] := by
  refine validateAuditEventJson_of (js "AUTH_EMITTED") rfl ht ?_
  obtain ⟨n, rfl, -⟩ := isProtocolSeconds_iff.mp hexp
  have hexpires : issueUnless (intNonNegative (.num (.int n))) (js "$.expires_at") .type
      (js "must be non-negative integer") = [] := by
    rw [issueUnless_eq_nil, intNonNegative, Bool.and_eq_true]
    exact ⟨rfl, by simp⟩
  cases authorizationId with
  | nil => exact absurd rfl hid
  | cons v vs =>
    cases hash with
    | nil => exact absurd rfl hh
    | cons u us =>
      have hfield : (AuditEvent.authEmitted (v :: vs) (u :: us) (.int n) t policyId).value.field (js "expires_at") =
        .num (.int n) := rfl
      simp only [eventTypeIssues, hfield, hexpires]
      rfl

theorem validate_stateCheckpoint (hh : hash ≠ []) (ht : isProtocolSeconds t = true) :
    validateAuditEventJson (AuditEvent.stateCheckpoint hash t policyId).value = [] := by
  refine validateAuditEventJson_of (js "STATE_CHECKPOINT") rfl ht ?_
  cases hash with
  | nil => exact absurd rfl hh
  | cons u us => rfl

end

/-- These events, each with a property, are what extends one log to another. -/
structure Written (P : Platform) (Q : AuditEvent → Prop) (log : AuditLog) (es : List AuditEvent)
    (log' : AuditLog) : Prop where
  events : log'.events = log.events ++ es
  all : ∀ ev ∈ es, Q ev
  head : headFrom P log.head (es.map AuditEvent.value) = .ok log'.head
  count : log'.auditEventCount = log.auditEventCount + es.length

/-- The events that a step appends, also where it throws. -/
def Writes (P : Platform) (Q : AuditEvent → Prop) {α : Type} (x : Eval α) : Prop :=
  ∀ log, ∃ es, Written P Q log es (x log).2

section

variable {P : Platform} {e : PolicyEngine} {Q : AuditEvent → Prop} {α β : Type}

theorem Written.nil (log : AuditLog) : Written P Q log [] log :=
  ⟨(List.append_nil _).symm, by simp, rfl, rfl⟩

theorem headFrom_append {a b c : JsString} {xs ys : List JsValue} (h : headFrom P a xs = .ok b)
    (h' : headFrom P b ys = .ok c) : headFrom P a (xs ++ ys) = .ok c := by
  rw [headFrom, List.foldlM_append]
  exact bind_eq_ok.mpr ⟨b, h, h'⟩

theorem Written.append {log log' log'' : AuditLog} {es es' : List AuditEvent} (h : Written P Q log es log')
    (h' : Written P Q log' es' log'') : Written P Q log (es ++ es') log'' where
  events := by rw [h'.events, h.events, List.append_assoc]
  all := fun ev hev => (List.mem_append.mp hev).elim (h.all ev) (h'.all ev)
  head := by
    rw [List.map_append]
    exact headFrom_append h.head h'.head
  count := by rw [h'.count, h.count, List.length_append, Nat.add_assoc]

theorem Writes.pure (a : α) : Writes P Q (Pure.pure a : Eval α) := fun log => ⟨[], .nil log⟩

theorem Writes.lift (x : Except JsError α) : Writes P Q (Eval.lift x) := fun log => ⟨[], .nil log⟩

/-- A step after another; what the first one returns is known to it. -/
theorem Writes.bind {x : Eval α} {f : α → Eval β} (hx : Writes P Q x)
    (hf : ∀ a log log', x log = (.ok a, log') → Writes P Q (f a)) : Writes P Q (x >>= f) := by
  intro log
  obtain ⟨es, hes⟩ := hx log
  change ∃ es, Written P Q log es (Eval.bind x f log).2
  rcases hlog : x log with ⟨r, log₁⟩
  rw [hlog] at hes
  cases r with
  | error err =>
    simp only [Eval.bind, hlog]
    exact ⟨es, hes⟩
  | ok a =>
    simp only [Eval.bind, hlog]
    obtain ⟨es', hes'⟩ := hf a log log₁ hlog log₁
    exact ⟨es ++ es', hes.append hes'⟩

theorem emitAudit_writes {event : AuditEvent} (h : Q event) : Writes P Q (emitAudit P event) := by
  intro log
  cases happend : log.append P event with
  | error err =>
    simp only [emitAudit, happend]
    exact ⟨[], .nil log⟩
  | ok log' =>
    obtain ⟨hash, hh, rfl⟩ := map_eq_ok.mp happend
    simp only [emitAudit, happend]
    refine ⟨[event], by simp [AuditLog.events], by simpa using h, ?_, rfl⟩
    rw [computeNextHash_eq] at hh
    exact headFrom_cons.mpr ⟨hash, hh, rfl⟩

/-- What an engine writes at a time: valid events with its policy and that time. -/
structure Recordable (P : Platform) (e : PolicyEngine) (t : JsNumber) (ev : AuditEvent) : Prop where
  valid : validateAuditEventJson ev.value = []
  policyId : ev.policyId = computePolicyId P e
  timestamp : ev.timestamp = t

variable {t : JsNumber} {state : State} {hash : JsString}

theorem sha256HexFromJson_ne_nil (hP : PlatformLaws P) {v : JsValue} {h : JsString}
    (hh : sha256HexFromJson P v = .ok h) : h ≠ [] := by
  rw [(sha256HexFromJson_ok.mp hh).2]
  exact (hP.hex _).2

theorem computeStateHash_ne_nil (hP : PlatformLaws P) {h : JsString}
    (hh : computeStateHash P e state = .ok h) : h ≠ [] := by
  obtain ⟨_, -, hh⟩ := bind_eq_ok.mp hh
  exact sha256HexFromJson_ne_nil hP hh

theorem maybeEmitCheckpoint_writes (hP : PlatformLaws P) (ht : isProtocolSeconds t = true) (state : State) :
    Writes P (Recordable P e t) (maybeEmitCheckpoint P e (computePolicyId P e) t state) := by
  intro log
  unfold maybeEmitCheckpoint
  split
  · refine Writes.bind (.lift _) ?_ log
    intro hash log₁ log₂ hlift
    obtain ⟨hhash, -⟩ := Prod.mk.inj hlift
    exact emitAudit_writes ⟨validate_stateCheckpoint (computeStateHash_ne_nil hP hhash) ht, rfl, rfl⟩
  · exact Writes.pure () log

theorem denyAudited_writes (hP : PlatformLaws P) (ht : isProtocolSeconds t = true) (hh : hash ≠ [])
    (reasons : List ReasonCode) : Writes P (Recordable P e t) (denyAudited P e hash state t reasons) := by
  refine (emitAudit_writes ⟨validate_decision _ _ _ hh ht, rfl, rfl⟩).bind fun _ _ _ _ => ?_
  exact (maybeEmitCheckpoint_writes hP ht state).bind fun _ _ _ _ => .pure _

theorem allowAudited_writes (hP : PlatformLaws P) (ht : isProtocolSeconds t = true) (hh : hash ≠ [])
    {next : State} {auth : Authorization} (hid : auth.authorizationId ≠ [])
    (hexp : isProtocolSeconds auth.expiresAt = true) :
    Writes P (Recordable P e t) (allowAudited P e hash state next t auth) := by
  refine (emitAudit_writes ⟨validate_decision _ _ _ hh ht, rfl, rfl⟩).bind fun _ _ _ _ => ?_
  refine (emitAudit_writes ⟨validate_authEmitted hid hh hexp ht, rfl, rfl⟩).bind fun _ _ _ _ => ?_
  exact (maybeEmitCheckpoint_writes hP ht next).bind fun _ _ _ _ => .pure _

theorem evaluateGuarded_writes (hP : PlatformLaws P) (hclock : ValidClock e t) (intent : Intent) (state : State)
    (mode : EvalMode) : Writes P (Recordable P e t) (evaluateGuarded P e intent state t mode) := by
  have ht := hclock.seconds
  refine (Writes.lift (intentHash P intent)).bind fun hash log log' hlift => ?_
  have hh : hash ≠ [] := sha256HexFromJson_ne_nil hP (Prod.mk.inj hlift).1
  refine (emitAudit_writes ⟨validate_intentReceived _ hh ht, rfl, rfl⟩).bind fun _ _ _ _ => ?_
  refine (Writes.lift _).bind fun freshness _ _ _ => ?_
  cases freshness with
  | deny reasons => exact denyAudited_writes hP ht hh reasons
  | allow delta =>
    refine (Writes.lift _).bind fun decision _ _ _ => ?_
    cases decision with
    | deny reasons => exact denyAudited_writes hP ht hh reasons
    | allow nextState =>
      refine (Writes.lift _).bind fun auth log log' hlift => ?_
      obtain ⟨parts, hissued, -, rfl⟩ := issueAuthorization_ok.mp (Prod.mk.inj hlift).1
      exact allowAudited_writes hP ht hh (sha256HexFromJson_ne_nil hP hissued.authorizationId)
        hclock.expiry_seconds

/-- A call that passes the checks of its clock writes only recordable events; others
write none. -/
theorem evaluatePure_writes (hP : PlatformLaws P) (intent : Intent) (state : State) (t : JsNumber)
    (mode : EvalMode) : Writes P (Recordable P e t) (evaluatePure P e intent state t mode) := by
  intro log
  cases hpre : precheck e intent state t with
  | error early =>
    simp only [evaluatePure, hpre]
    exact ⟨[], .nil log⟩
  | ok u =>
    simp only [evaluatePure, hpre]
    exact evaluateGuarded_writes hP (precheck_ok.mp hpre).clock intent state mode log

end

section

variable {P : Platform} {e : PolicyEngine} {calls : List AuditedCall} {log log' : AuditLog}

/-- A log whose events are valid and of one policy, with its head. -/
structure WellRecorded (P : Platform) (e : PolicyEngine) (log : AuditLog) : Prop where
  valid : ∀ ev ∈ log.events, validateAuditEventJson ev.value = []
  policyId : ∀ ev ∈ log.events, ev.policyId = computePolicyId P e
  head : headFrom P (auditGenesisHash P) (log.events.map AuditEvent.value) = .ok log.head

/-- The events are also in order, each written at the time of some call. -/
structure Verifiable (P : Platform) (e : PolicyEngine) (calls : List AuditedCall) (log : AuditLog) : Prop
    extends WellRecorded P e log where
  ordered : log.events.Pairwise (fun a b => b.timestamp.lt a.timestamp = false)
  stamped : ∀ ev ∈ log.events, ∃ c ∈ calls, ev.timestamp = c.evaluationTime

theorem wellRecorded_initial : WellRecorded P e (AuditLog.initial P) :=
  ⟨by simp [AuditLog.initial, AuditLog.events], by simp [AuditLog.initial, AuditLog.events], rfl⟩

/-- What a call appends to the log. -/
theorem AuditedStep.written (hP : PlatformLaws P) {c : AuditedCall} (h : AuditedStep P e log c log') :
    Written P (Recordable P e c.evaluationTime) log c.events log' := by
  obtain ⟨es, hes⟩ := evaluatePure_writes (e := e) hP c.intent c.state c.evaluationTime c.mode log
  rw [h.result] at hes
  have heq := hes.events
  rw [h.events] at heq
  obtain rfl := List.append_cancel_left heq
  exact hes

theorem auditedCall_step (hP : PlatformLaws P) (e : PolicyEngine) (log : AuditLog) (intent : Intent) (state : State)
    (t : JsNumber) (mode : EvalMode) : AuditedStep P e log (auditedCall P e log intent state t mode)
      (evaluatePure P e intent state t mode log).2 := by
  obtain ⟨es, hes⟩ := evaluatePure_writes (e := e) hP intent state t mode log
  refine ⟨rfl, rfl, ?_⟩
  change _ = log.events ++ List.drop log.events.length _
  rw [hes.events, List.drop_left]

theorem WellRecorded.step (hP : PlatformLaws P) {c : AuditedCall} (h : WellRecorded P e log)
    (hstep : AuditedStep P e log c log') : WellRecorded P e log' := by
  have hw := hstep.written hP
  refine ⟨?_, ?_, ?_⟩
  · intro ev hev
    rw [hstep.events] at hev
    exact (List.mem_append.mp hev).elim (h.valid ev) fun hnew => (hw.all ev hnew).valid
  · intro ev hev
    rw [hstep.events] at hev
    exact (List.mem_append.mp hev).elim (h.policyId ev) fun hnew => (hw.all ev hnew).policyId
  · rw [hstep.events, List.map_append]
    exact headFrom_append h.head hw.head

/-- Each call keeps the log verifiable. -/
theorem Verifiable.step (hP : PlatformLaws P) {c : AuditedCall} (h : Verifiable P e calls log)
    (hclock : ∀ prev ∈ calls, c.evaluationTime.lt prev.evaluationTime = false)
    (hstep : AuditedStep P e log c log') : Verifiable P e (calls ++ [c]) log' := by
  have hq := (hstep.written hP).all
  refine ⟨h.toWellRecorded.step hP hstep, ?_, ?_⟩
  · rw [hstep.events, List.pairwise_append]
    refine ⟨h.ordered, ?_, ?_⟩
    · apply List.pairwise_of_forall_mem_list
      intro a ha b hb
      rw [(hq a ha).timestamp, (hq b hb).timestamp]
      exact JsNumber.lt_itself _
    · intro a ha b hb
      obtain ⟨prev, hprev, htime⟩ := h.stamped a ha
      rw [htime, (hq b hb).timestamp]
      exact hclock prev hprev
  · intro ev hev
    rw [hstep.events] at hev
    rcases List.mem_append.mp hev with hold | hnew
    · obtain ⟨prev, hprev, htime⟩ := h.stamped ev hold
      exact ⟨prev, List.mem_append_left _ hprev, htime⟩
    · exact ⟨c, List.mem_append_right _ (List.mem_singleton_self c), (hq ev hnew).timestamp⟩

theorem verifiable_of_run (hP : PlatformLaws P) (hrun : Trace (AuditedStep P e) (AuditLog.initial P) calls log)
    (hclock : calls.Pairwise (fun a b => b.evaluationTime.lt a.evaluationTime = false)) :
    Verifiable P e calls log := by
  refine hrun.history_pairwise (H := Verifiable P e) hclock ?_ ?_
  · exact ⟨wellRecorded_initial, by simp [AuditLog.initial, AuditLog.events],
      by simp [AuditLog.initial, AuditLog.events]⟩
  · intro calls log c log' h hprev hstep
    exact h.step hP hprev hstep

theorem Verifiable.clean (hP : PlatformLaws P) (h : Verifiable P e calls log) :
    CleanEvents P (computePolicyId P e) (log.events.map AuditEvent.value) log.head := by
  refine ⟨computePolicyId_ne_nil fun bytes => (hP.hex bytes).2, ?_, ?_, ?_, h.head⟩
  · intro value hvalue
    obtain ⟨ev, hev, rfl⟩ := List.mem_map.mp hvalue
    exact h.valid ev hev
  · intro value hvalue
    obtain ⟨ev, hev, rfl⟩ := List.mem_map.mp hvalue
    rw [ev.field_policyId, h.policyId ev hev]
  · rw [List.pairwise_map]
    refine h.ordered.imp fun {a b} hab => ?_
    intro s u hs hu
    rw [a.field_timestamp] at hs
    rw [b.field_timestamp] at hu
    cases hs
    cases hu
    exact hab

theorem any_isAnchor (log : AuditLog) : (log.events.map AuditEvent.value).any isAnchor = true ↔
    ∃ ev ∈ log.events, ev.isCheckpoint = true := by
  rw [List.any_map, List.any_eq_true]
  simp only [Function.comp_apply, AuditEvent.isAnchor_value]

/-- The verifier accepts the log of any run of calls whose times never decrease, and
returns its head; in strict mode exactly when the log holds a checkpoint. -/
theorem engine_log_verifies (hP : PlatformLaws P) (hrun : Trace (AuditedStep P e) (AuditLog.initial P) calls log)
    (hclock : calls.Pairwise (fun a b => b.evaluationTime.lt a.evaluationTime = false)) :
    ∃ events, log.snapshot = some events ∧
      (verifyAuditEvents P (.arr events)
        { expectedPolicyId := some (computePolicyId P e), mode := some .bestEffort }).ok = true ∧
      (verifyAuditEvents P (.arr events)
        { expectedPolicyId := some (computePolicyId P e), mode := some .bestEffort }).auditHeadHash = some log.head ∧
      ((verifyAuditEvents P (.arr events)
        { expectedPolicyId := some (computePolicyId P e), mode := some .strict }).ok = true ↔
          ∃ ev ∈ log.events, ev.isCheckpoint = true) := by
  have hclean := (verifiable_of_run hP hrun hclock).clean hP
  refine ⟨_, log.snapshot_eq, (hclean.ok_iff (.inl rfl)).mpr ?_, hclean.auditHeadHash (.inl rfl), ?_⟩
  · intro h
    cases h
  · rw [hclean.ok_iff (.inl rfl), any_isAnchor]
    exact ⟨fun h => h rfl, fun h _ => h⟩

end

/-- One permitted call. -/
theorem engine_log_verifies_sample : ∃ events,
    (evaluatePure samplePlatform sampleEngine (sampleIntent (js "a")) (sampleState (js "a")) (.int 1000)
      .failFast (AuditLog.initial samplePlatform)).2.snapshot = some events ∧
    (verifyAuditEvents samplePlatform (.arr events)
      { expectedPolicyId := some (computePolicyId samplePlatform sampleEngine), mode := some .bestEffort }).ok = true := by
  have hstep := auditedCall_initial samplePlatform sampleEngine (sampleIntent (js "a")) (sampleState (js "a"))
    (.int 1000) .failFast
  obtain ⟨events, hevents, hok, -⟩ := engine_log_verifies samplePlatform_laws (Trace.snoc .nil hstep)
    (List.pairwise_singleton _ _)
  exact ⟨events, hevents, hok⟩

end OxDeAI
