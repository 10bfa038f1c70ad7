import OxDeAI.Engine.Issue

/-! What each step of an evaluation appends to the audit log, also where a later
step throws. -/

namespace OxDeAI

open Js

def AuditLog.events (log : AuditLog) : List AuditEvent := log.chain.map ChainedEntry.event

/-- The step ends with this result and appends these events. -/
def Emits {α : Type} (x : Eval α) (log : AuditLog) (r : Except JsError α) (es : List AuditEvent)
    (log' : AuditLog) : Prop :=
  x log = (r, log') ∧ log'.events = log.events ++ es ∧
    log'.auditEventCount = log.auditEventCount + es.length

section

variable {α β : Type} {log log' log'' : AuditLog} {es es' : List AuditEvent}

theorem Emits.pure (a : α) (log : AuditLog) : Emits (Pure.pure a : Eval α) log (.ok a) [] log :=
  ⟨rfl, by simp, by simp⟩

theorem Emits.lift (x : Except JsError α) (log : AuditLog) : Emits (Eval.lift x) log x [] log :=
  ⟨rfl, by simp, by simp⟩

theorem Emits.bind {x : Eval α} {f : α → Eval β} {a : α} {r : Except JsError β}
    (hx : Emits x log (.ok a) es log') (hf : Emits (f a) log' r es' log'') :
    Emits (x >>= f) log r (es ++ es') log'' := by
  obtain ⟨hx, hxe, hxc⟩ := hx
  obtain ⟨hf, hfe, hfc⟩ := hf
  refine ⟨?_, ?_, ?_⟩
  · change Eval.bind x f log = _
    rw [Eval.bind, hx]
    exact hf
  · rw [hfe, hxe, List.append_assoc]
  · rw [hfc, hxc, List.length_append, Nat.add_assoc]

theorem Emits.bind_error {x : Eval α} {f : α → Eval β} {err : JsError}
    (hx : Emits x log (.error err) es log') : Emits (x >>= f) log (.error err) es log' := by
  obtain ⟨hx, hxe, hxc⟩ := hx
  refine ⟨?_, hxe, hxc⟩
  change Eval.bind x f log = _
  rw [Eval.bind, hx]

end

section

variable {P : Platform} {e : PolicyEngine} {t : JsNumber} {state : State} {log : AuditLog}

theorem emitAudit_emits (hn : NfcLaws P.nfc) (event : AuditEvent) (h : event.Safe) (log : AuditLog) :
    ∃ log', Emits (emitAudit P event) log (.ok ()) [event] log' := by
  have hc : canonicalJson P.nfc event.value = .ok (jsonText (normalForm P.nfc event.value)) :=
    canonicalJson_ok (AuditEvent.canonical hn h)
  simp only [Emits, emitAudit, AuditLog.append, computeNextHash, hc, Except.map]
  exact ⟨_, rfl, by simp [AuditLog.events], rfl⟩

/-- The checkpoint after this many events is due. -/
abbrev Due (e : PolicyEngine) (count : ℕ) : Prop :=
  checkpointDue e.opts.checkpointEveryNEvents count = true

/-- The checkpoint of a state with a hash, where one is due. -/
def checkpointEvents (P : Platform) (e : PolicyEngine) (t : JsNumber) (state : State) (count : ℕ) :
    List AuditEvent :=
  if checkpointDue e.opts.checkpointEveryNEvents count then
    [.stateCheckpoint (stateDigest P e state) t (computePolicyId P e)]
  else []

/-- The events of an outcome, after this many others. -/
def outcomeEvents (P : Platform) (e : PolicyEngine) (hash : JsString) (state : State) (t : JsNumber) (count : ℕ) :
    EvaluatePureOutput → List AuditEvent
  | .deny reasons => .decision hash false reasons state.policyVersion t (computePolicyId P e) ::
      checkpointEvents P e t state (count + 1)
  | .allow auth next => .decision hash true [] state.policyVersion t (computePolicyId P e) ::
      .authEmitted auth.authorizationId hash auth.expiresAt t (computePolicyId P e) ::
        checkpointEvents P e t next (count + 2)

theorem maybeEmitCheckpoint_emits (hn : NfcLaws P.nfc) (ht : isProtocolSeconds t = true)
    (h : Due e log.auditEventCount → Hashable P state) :
    ∃ log', Emits (maybeEmitCheckpoint P e (computePolicyId P e) t state) log (.ok ())
      (checkpointEvents P e t state log.auditEventCount) log' := by
  by_cases hdue : Due e log.auditEventCount
  · have hs := (computeStateHash_ok (e := e) hn).mpr ⟨h hdue, rfl⟩
    obtain ⟨log', hl⟩ := emitAudit_emits (P := P) hn
      (.stateCheckpoint (stateDigest P e state) t (computePolicyId P e)) ht log
    refine ⟨log', ?_⟩
    unfold Emits maybeEmitCheckpoint
    rw [if_pos hdue, hs, checkpointEvents, if_pos hdue]
    exact (Emits.lift (.ok _) log).bind hl
  · refine ⟨log, ?_⟩
    unfold Emits maybeEmitCheckpoint
    rw [if_neg hdue, checkpointEvents, if_neg hdue]
    exact ⟨rfl, by simp, by simp⟩

/-- A checkpoint that is due on a state without a hash throws. -/
theorem maybeEmitCheckpoint_throws (t : JsNumber) (policyId : JsString) (hdue : Due e log.auditEventCount)
    (h : ¬ Hashable P state) :
    ∃ err, Emits (maybeEmitCheckpoint P e policyId t state) log (.error err) [] log := by
  cases hs : computeStateHash P e state with
  | ok hash => exact absurd (hashable_of_computeStateHash hs).1 h
  | error err =>
    refine ⟨err, ?_⟩
    unfold Emits maybeEmitCheckpoint
    rw [if_pos hdue, hs]
    exact (Emits.lift (.error err) log).bind_error

/-- The events of an audited refusal. -/
theorem denyAudited_emits (hn : NfcLaws P.nfc) (ht : isProtocolSeconds t = true) {hash : JsString}
    {reasons : List ReasonCode} (h : Due e (log.auditEventCount + 1) → Hashable P state) :
    ∃ log', Emits (denyAudited P e hash state t reasons) log (.ok (.deny reasons))
      (outcomeEvents P e hash state t log.auditEventCount (.deny reasons)) log' := by
  obtain ⟨log₁, h₁⟩ := emitAudit_emits (P := P) hn
    (.decision hash false reasons state.policyVersion t (computePolicyId P e)) ht log
  have hcount : log₁.auditEventCount = log.auditEventCount + 1 := h₁.2.2
  obtain ⟨log₂, h₂⟩ := maybeEmitCheckpoint_emits (P := P) hn ht (by rw [hcount]; exact h)
  have hlast := h₂.bind (f := fun _ => pure (EvaluatePureOutput.deny reasons)) (Emits.pure _ log₂)
  rw [List.append_nil, hcount] at hlast
  exact ⟨log₂, h₁.bind hlast⟩

theorem denyAudited_throws (hn : NfcLaws P.nfc) (ht : isProtocolSeconds t = true) {hash : JsString}
    {reasons : List ReasonCode} (hdue : Due e (log.auditEventCount + 1)) (h : ¬ Hashable P state) :
    ∃ err log', Emits (denyAudited P e hash state t reasons) log (.error err)
      [.decision hash false reasons state.policyVersion t (computePolicyId P e)] log' := by
  obtain ⟨log₁, h₁⟩ := emitAudit_emits (P := P) hn
    (.decision hash false reasons state.policyVersion t (computePolicyId P e)) ht log
  have hcount : log₁.auditEventCount = log.auditEventCount + 1 := h₁.2.2
  have hdue₁ : Due e log₁.auditEventCount := by rw [hcount]; exact hdue
  obtain ⟨err, h₂⟩ := maybeEmitCheckpoint_throws t (computePolicyId P e) hdue₁ h
  exact ⟨err, log₁, h₁.bind h₂.bind_error⟩

/-- The events of a permission, once the state it leaves has a hash where it needs one. -/
theorem allowAudited_emits (hash : JsString) (state : State) (hn : NfcLaws P.nfc) (ht : isProtocolSeconds t = true)
    {next : State} {auth : Authorization} (hexp : isProtocolSeconds auth.expiresAt = true)
    (h : Due e (log.auditEventCount + 2) → Hashable P next) :
    ∃ log', Emits (allowAudited P e hash state next t auth) log (.ok (.allow auth next))
      (outcomeEvents P e hash state t log.auditEventCount (.allow auth next)) log' := by
  obtain ⟨log₁, h₁⟩ := emitAudit_emits (P := P) hn
    (.decision hash true [] state.policyVersion t (computePolicyId P e)) ht log
  obtain ⟨log₂, h₂⟩ := emitAudit_emits (P := P) hn
    (.authEmitted auth.authorizationId hash auth.expiresAt t (computePolicyId P e))
    ⟨hexp, ht⟩ log₁
  have hcount : log₂.auditEventCount = log.auditEventCount + 2 := by
    rw [h₂.2.2, h₁.2.2]
    rfl
  obtain ⟨log₃, h₃⟩ := maybeEmitCheckpoint_emits (P := P) hn ht (by rw [hcount]; exact h)
  have hlast := h₃.bind (f := fun _ => pure (EvaluatePureOutput.allow auth next)) (Emits.pure _ log₃)
  rw [List.append_nil, hcount] at hlast
  exact ⟨log₃, h₁.bind (h₂.bind hlast)⟩

end

end OxDeAI
