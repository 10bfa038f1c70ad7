import OxDeAI.Audit.EngineLog
import OxDeAI.Lib.Spacing

/-! How far apart the checkpoints in the log of an engine are. The engine asks whether
one is due only at the end of an evaluation, which adds two or three events to the
count, so a multiple of the interval can fall between two counts it looks at. -/

namespace OxDeAI

open Js Run Spacing

section

variable {P : Platform} {e : PolicyEngine}

abbrev AuditLog.sinceCheckpoint (log : AuditLog) : ℕ := sinceLast AuditEvent.isCheckpoint log.events

/-- The events of an evaluation up to the test whether a checkpoint is due. -/
def AuditedCall.span (e : PolicyEngine) (c : AuditedCall) : ℕ :=
  if passes e c.intent c.state c.evaluationTime c.mode then 3 else 2

/-- An evaluation that brings the events since the last checkpoint to the interval also
brings the count of events to a multiple of it. One that throws, and tests nothing,
leaves that to a later one. -/
def AuditedCall.OnCadence (P : Platform) (e : PolicyEngine) (every : ℕ) (log : AuditLog) (c : AuditedCall) : Prop :=
  ∀ hash, c.Reaches P e hash →
    (Settles P e c.intent c.state c.evaluationTime c.mode log.auditEventCount ∧
      (every ≤ log.sinceCheckpoint + c.span e → every ∣ log.auditEventCount + c.span e)) ∨
    (¬ Settles P e c.intent c.state c.evaluationTime c.mode log.auditEventCount ∧
      log.sinceCheckpoint + 1 < every)

/-- A call on a state with a hash that keeps the cadence. -/
structure CadencedStep (P : Platform) (e : PolicyEngine) (every : ℕ) (log : AuditLog) (c : AuditedCall)
    (log' : AuditLog) : Prop where
  step : AuditedStep P e log c log'
  hashable : Hashable P c.state
  cadence : c.OnCadence P e every log

theorem checkpointDue_iff {every : ℕ} (hpos : 0 < every) (count : ℕ) :
    checkpointDue (some (.int every)) count = true ↔ every ∣ count := by
  simp only [checkpointDue, Bool.and_eq_true, decide_eq_true_eq]
  constructor
  · intro h
    exact_mod_cast Int.dvd_of_emod_eq_zero h.2
  · intro h
    exact ⟨by exact_mod_cast hpos, Int.emod_eq_zero_of_dvd (by exact_mod_cast h)⟩

/-- The events of an outcome before its checkpoint. -/
theorem outcomeEvents_split (P : Platform) (e : PolicyEngine) (hash : JsString) (state : State) (t : JsNumber)
    (count : ℕ) (out : EvaluatePureOutput) : ∃ body next, (∀ ev ∈ body, ev.isCheckpoint = false) ∧
      body.length = (if out.isAllow then 2 else 1) ∧
      outcomeEvents P e hash state t count out = body ++ checkpointEvents P e t next (count + body.length) := by
  cases out with
  | deny reasons => exact ⟨[_], state, by simp [AuditEvent.isCheckpoint], rfl, rfl⟩
  | allow auth next => exact ⟨[_, _], next, by simp [AuditEvent.isCheckpoint], rfl, rfl⟩

/-- What a call on a state with a hash appends. -/
theorem AuditedStep.burst (hP : PlatformLaws P) (hx : HexStable P.nfc) {log log' : AuditLog} {c : AuditedCall}
    (h : AuditedStep P e log c log') (hstate : Hashable P c.state) {hash : JsString} (hr : c.Reaches P e hash) :
    (Settles P e c.intent c.state c.evaluationTime c.mode log.auditEventCount ∧
      ∃ body next, (∀ ev ∈ body, ev.isCheckpoint = false) ∧ body.length = c.span e ∧
        c.events = body ++ checkpointEvents P e c.evaluationTime next (log.auditEventCount + c.span e)) ∨
    (¬ Settles P e c.intent c.state c.evaluationTime c.mode log.auditEventCount ∧
      ∃ ev, ev.isCheckpoint = false ∧ c.events = [ev]) := by
  obtain ⟨log₁, hcount, hcall⟩ := h.judged hP.nfc hr
  rw [h.count] at hcount
  have hpre := precheck_ok.mp hr.1
  by_cases hs : Settles P e c.intent c.state c.evaluationTime c.mode log.auditEventCount
  · obtain ⟨out, log₂, hj, -, hpasses⟩ := judge_settled hash hP.nfc hx (digest_hex hP) hpre hcount hs
    obtain ⟨-, -, hevents⟩ := hcall hj
    obtain ⟨body, next, hbody, hlen, hsplit⟩ := outcomeEvents_split P e hash c.state c.evaluationTime
      log₁.auditEventCount out
    have hspan : body.length + 1 = c.span e := by
      rw [hlen, AuditedCall.span, hpasses]
      split <;> rfl
    left
    refine ⟨hs, .intentReceived hash c.intent.agentId c.evaluationTime (computePolicyId P e) :: body, next,
      ?_, hspan, ?_⟩
    · rw [List.forall_mem_cons]
      exact ⟨rfl, hbody⟩
    · rw [hevents, hsplit, hcount, Nat.add_assoc, Nat.add_comm 1, hspan, List.cons_append]
  · obtain ⟨err, es, log₂, hj, -, hnil⟩ := judge_throws hash hP.nfc hpre hcount hs
    obtain ⟨-, -, hevents⟩ := hcall hj
    rw [hnil hstate] at hevents
    exact .inr ⟨hs, _, rfl, hevents⟩

/-- A call that keeps the cadence keeps the checkpoints close. -/
theorem CadencedStep.paced (hP : PlatformLaws P) (hx : HexStable P.nfc) {every : ℕ} (hpos : 0 < every)
    (hopt : e.opts.checkpointEveryNEvents = some (.int every)) {log log' : AuditLog} {c : AuditedCall}
    (h : Paced AuditEvent.isCheckpoint every 3 log.events) (hstep : CadencedStep P e every log c log') :
    Paced AuditEvent.isCheckpoint every 3 log'.events := by
  rw [hstep.step.events]
  by_cases hreach : ∃ hash, c.Reaches P e hash
  · obtain ⟨hash, hr⟩ := hreach
    have hspan : c.span e ≤ 3 := by
      rw [AuditedCall.span]
      split <;> omega
    rcases hstep.step.burst hP hx hstep.hashable hr with ⟨hs, body, next, hbody, hlen, hevents⟩ | ⟨hs, ev, hev, hevents⟩
    · rw [hevents, checkpointEvents, hopt]
      by_cases hdue : every ∣ log.auditEventCount + c.span e
      · rw [if_pos ((checkpointDue_iff hpos _).mpr hdue)]
        exact h.append_marked hbody (by omega) rfl
      · rw [if_neg (fun hd => hdue ((checkpointDue_iff hpos _).mp hd)), List.append_nil]
        rcases hstep.cadence hash hr with ⟨-, hcadence⟩ | ⟨hns, -⟩
        · apply h.append hbody
          rw [hlen]
          by_contra hge
          exact hdue (hcadence (Nat.le_of_not_lt hge))
        · exact absurd hs hns
    · rw [hevents]
      rcases hstep.cadence hash hr with ⟨hset, -⟩ | ⟨-, hroom⟩
      · exact absurd hset hs
      · exact h.append (by simpa using hev) hroom
  · rw [(hstep.step.unreached fun hash hr => hreach ⟨hash, hr⟩).1, List.append_nil]
    exact h

/-- In a run of calls that keep the cadence fewer than `every + 3` events follow one
another without a checkpoint, and a log of that length is anchored. -/
theorem checkpoint_cadence (hP : PlatformLaws P) (hx : HexStable P.nfc) {every : ℕ} (hpos : 1 ≤ every)
    (hopt : e.opts.checkpointEveryNEvents = some (.int every)) {calls : List AuditedCall} {log : AuditLog}
    (hrun : Trace (CadencedStep P e every) (AuditLog.initial P) calls log) :
    Spaced AuditEvent.isCheckpoint (every + 3) log.events ∧
      (every + 3 ≤ log.events.length → (∃ ev ∈ log.events, ev.isCheckpoint = true) ∧
        ∃ events, log.snapshot = some events ∧ ∀ opts : VerifyAuditOptions,
          (verifyAuditEvents P (.arr events) opts).status ≠ .inconclusive) := by
  have hpaced : Paced AuditEvent.isCheckpoint every 3 log.events := by
    refine hrun.invariant (I := fun log => Paced AuditEvent.isCheckpoint every 3 log.events) ?_ (paced_nil hpos)
    intro log c log' h hstep
    exact CadencedStep.paced hP hx hpos hopt h hstep
  have hrecorded : WellRecorded P e log := by
    refine (hrun.imp fun _ _ _ h => h.step).invariant ?_ wellRecorded_initial
    intro log c log' h hstep
    exact h.step hP hstep
  refine ⟨hpaced.spaced, fun hlen => ?_⟩
  have hmark := hpaced.spaced.exists_mark hlen
  refine ⟨hmark, _, log.snapshot_eq, fun opts => ?_⟩
  apply verifyAuditEvents_anchored _ hrecorded.head ((any_isAnchor log).mpr hmark)
  intro value hvalue
  obtain ⟨ev, hev, rfl⟩ := List.mem_map.mp hvalue
  exact hrecorded.valid ev hev

end

def intervalEngine (every : ℕ) : PolicyEngine :=
  { sampleEngine with opts := { sampleEngine.opts with checkpointEveryNEvents := some (.int every) } }

/-- An intent that is long out of date. -/
def staleCall (every : ℕ) (log : AuditLog) : AuditedCall :=
  auditedCall samplePlatform (intervalEngine every) log (sampleIntent (js "a")) (sampleState (js "a")) (.int 5000)
    .failFast

def staleLog (every : ℕ) (log : AuditLog) : AuditLog :=
  (evaluatePure samplePlatform (intervalEngine every) (sampleIntent (js "a")) (sampleState (js "a")) (.int 5000)
    .failFast log).2

theorem hashable_sampleState : Hashable samplePlatform (sampleState (js "a")) := isHashable_iff.mp (by decide)

theorem staleCall_step (every : ℕ) (log : AuditLog) :
    AuditedStep samplePlatform (intervalEngine every) log (staleCall every log) (staleLog every log) :=
  auditedCall_step samplePlatform_laws _ _ _ _ _ _

theorem exists_intentHash_sample : ∃ hash, intentHash samplePlatform (sampleIntent (js "a")) = .ok hash :=
  ⟨_, sha256HexFromJson_ok.mpr ⟨(isCanonical_iff _).mp (by decide), rfl⟩⟩

theorem staleCall_reaches (every : ℕ) (log : AuditLog) :
    ∃ hash, (staleCall every log).Reaches samplePlatform (intervalEngine every) hash := by
  obtain ⟨hash, hh⟩ := exists_intentHash_sample
  exact ⟨hash, rfl, hh⟩

theorem staleCall_settles (every count : ℕ) : Settles samplePlatform (intervalEngine every)
    (sampleIntent (js "a")) (sampleState (js "a")) (.int 5000) .failFast count :=
  fun _ => hashable_sampleState

theorem staleCall_span (every : ℕ) (log : AuditLog) : (staleCall every log).span (intervalEngine every) = 2 := rfl

/-- Unless this makes the count a multiple of the interval, it adds two events and no
checkpoint. -/
theorem staleCall_events {every : ℕ} (hpos : 0 < every) (log : AuditLog) (h : ¬ every ∣ log.auditEventCount + 2) :
    (staleCall every log).events.length = 2 ∧ (∀ ev ∈ (staleCall every log).events, ev.isCheckpoint = false) ∧
      (staleLog every log).auditEventCount = log.auditEventCount + 2 := by
  have hstep := staleCall_step every log
  obtain ⟨hash, hr⟩ := staleCall_reaches every log
  have hdue : checkpointDue (intervalEngine every).opts.checkpointEveryNEvents (log.auditEventCount + 2) = false := by
    rw [Bool.eq_false_iff]
    exact fun hd => h ((checkpointDue_iff hpos _).mp hd)
  rcases hstep.burst samplePlatform_laws hexStable_sample hashable_sampleState hr with
    ⟨-, body, next, hbody, hlen, hevents⟩ | ⟨hns, -⟩
  · rw [staleCall_span] at hlen hevents
    rw [checkpointEvents, hdue, if_neg Bool.false_ne_true, List.append_nil] at hevents
    rw [(hstep.written samplePlatform_laws).count, hevents]
    exact ⟨hlen, hbody, by rw [hlen]⟩
  · exact absurd (staleCall_settles every _) hns

/-- As long as no even count is a multiple of the interval, nothing anchors the log. -/
theorem exists_staleRun {every : ℕ} (hpos : 0 < every) (n : ℕ) (h : ∀ k, k < n → ¬ every ∣ 2 * (k + 1)) :
    ∃ calls log, Trace (AuditedStep samplePlatform (intervalEngine every)) (AuditLog.initial samplePlatform)
        calls log ∧ (∀ c ∈ calls, Hashable samplePlatform c.state) ∧ log.events.length = 2 * n ∧
      (∀ ev ∈ log.events, ev.isCheckpoint = false) ∧ log.auditEventCount = 2 * n := by
  induction n with
  | zero => exact ⟨[], _, .nil, by simp, rfl, by simp [AuditLog.initial, AuditLog.events], rfl⟩
  | succ n ih =>
    obtain ⟨calls, log, hrun, hhash, hlen, hun, hcount⟩ := ih fun k hk => h k (by omega)
    have hdue : ¬ every ∣ log.auditEventCount + 2 := by
      rw [hcount]
      exact h n (by omega)
    obtain ⟨hlen', hun', hcount'⟩ := staleCall_events hpos log hdue
    have hstep := staleCall_step every log
    refine ⟨calls ++ [staleCall every log], staleLog every log, hrun.snoc hstep, ?_, ?_, ?_, ?_⟩
    · intro c hc
      rcases List.mem_append.mp hc with hc | hc
      · exact hhash c hc
      · rw [List.mem_singleton.mp hc]
        exact hashable_sampleState
    · rw [hstep.events, List.length_append, hlen, hlen']
      omega
    · intro ev hev
      rw [hstep.events] at hev
      exact (List.mem_append.mp hev).elim (hun ev) (hun' ev)
    · rw [hcount', hcount]
      omega

/-- Four refusals at an interval of five: the counts looked at are two, four, six and
eight. -/
theorem staleCalls_unanchored : ¬ ∀ (P : Platform) (e : PolicyEngine) (every : ℕ), PlatformLaws P →
    HexStable P.nfc → 1 ≤ every → e.opts.checkpointEveryNEvents = some (.int every) →
    ∀ (calls : List AuditedCall) (log : AuditLog), Trace (AuditedStep P e) (AuditLog.initial P) calls log →
      (∀ c ∈ calls, Hashable P c.state) →
        Spaced AuditEvent.isCheckpoint (every + 3) log.events ∧
          (every + 3 ≤ log.events.length → ∃ ev ∈ log.events, ev.isCheckpoint = true) := by
  intro hall
  obtain ⟨calls, log, hrun, hhash, hlen, hun, -⟩ := exists_staleRun (show 0 < 5 by decide) 4 (by decide)
  have hclaim := hall samplePlatform (intervalEngine 5) 5 samplePlatform_laws hexStable_sample (by decide) rfl
    calls log hrun hhash
  obtain ⟨ev, hev, hmark⟩ := hclaim.2 (by omega)
  rw [hun ev hev] at hmark
  cases hmark

/-- Two refusals at an interval of four: the second brings the count to it. -/
theorem checkpoint_cadence_sample : ∃ first second log,
    Trace (CadencedStep samplePlatform (intervalEngine 4) 4) (AuditLog.initial samplePlatform) [first, second] log ∧
      Spaced AuditEvent.isCheckpoint (4 + 3) log.events := by
  have hcount : (staleLog 4 (AuditLog.initial samplePlatform)).auditEventCount = 2 :=
    (staleCall_events (by decide) (AuditLog.initial samplePlatform) (by decide)).2.2
  have hfirst : CadencedStep samplePlatform (intervalEngine 4) 4 (AuditLog.initial samplePlatform)
      (staleCall 4 (AuditLog.initial samplePlatform)) (staleLog 4 (AuditLog.initial samplePlatform)) := by
    refine ⟨staleCall_step 4 _, hashable_sampleState, fun hash _ => .inl ⟨staleCall_settles 4 _, ?_⟩⟩
    rw [staleCall_span]
    decide
  have hsecond : CadencedStep samplePlatform (intervalEngine 4) 4 (staleLog 4 (AuditLog.initial samplePlatform))
      (staleCall 4 (staleLog 4 (AuditLog.initial samplePlatform)))
      (staleLog 4 (staleLog 4 (AuditLog.initial samplePlatform))) := by
    refine ⟨staleCall_step 4 _, hashable_sampleState, fun hash _ => .inl ⟨staleCall_settles 4 _, fun _ => ?_⟩⟩
    rw [staleCall_span, hcount]
  have hrun := Trace.snoc (.snoc .nil hfirst) hsecond
  exact ⟨_, _, _, hrun, (checkpoint_cadence samplePlatform_laws hexStable_sample (by decide) rfl hrun).1⟩

end OxDeAI
