import OxDeAI.Sdk.Instances

/-! What the audit adapter is given by clients and guards of one engine: all of the log where each
evaluation is made by an instance that has read the log to its end. -/

namespace OxDeAI

open Js Run Async

section

variable (P : Platform) (e : PolicyEngine)

/-- An evaluation that returned, with the caller's collection. -/
structure Collected (caller : Instance) (desk desk' : Desk) : Prop where
  log : ∃ c, AuditedStep P e desk.log c desk'.log
  auditCursor : desk'.auditCursor = Function.update desk.auditCursor caller desk'.log.events.length
  delivered : desk'.delivered =
    desk.delivered ++ (desk'.log.events.drop (desk.auditCursor caller)).map AuditEvent.value

/-- A state arrives for a call of this instance. Where nothing is evaluated nothing happens. -/
def DeskStep (desk : Desk) (caller : Instance) (desk' : Desk) : Prop :=
  desk' = desk ∨ Collected P e caller desk desk'

def evaluates (caller : Instance) (a : Option (State × JsNumber)) (f : Desk → Desk) : Prop :=
  ∃ intent state now mode, a = some (state, now) ∧ f = evaluateTurn caller (evaluatePure P e intent state now mode)

/-- A call that waits for its state, or one that is past its evaluation. -/
inductive InFlight : InstanceCall CallResult → Prop
  | waiting (caller : Instance) {next : Option (State × JsNumber) → InstanceCall CallResult}
    (h : ∀ a, (next a).OneTurn (evaluates P e caller a)) : InFlight (.ask (.load caller) next)
  | past {p : InstanceCall CallResult} (h : p.Silent) : InFlight p

variable {P e}

theorem oneTurn_evaluateAndCollect {caller : Instance} {intent : Intent} {state : State} {now : JsNumber}
    {mode : EvalMode} {k : Option (EvaluatePureOutput × List JsValue) → InstanceCall CallResult}
    (hk : ∀ r, (k r).Silent) :
    (evaluateAndCollect caller (evaluatePure P e intent state now mode) >>= k).OneTurn
      (evaluates P e caller (some (state, now))) :=
  ⟨⟨intent, state, now, mode, rfl, rfl⟩, fun _ => hk _⟩

theorem silent_clientRest (state : State) (r : Option (EvaluatePureOutput × List JsValue)) :
    (clientRest state r).Silent := by
  cases r with
  | none => exact Prog.silent_pure _
  | some result =>
    obtain ⟨out, events⟩ := result
    refine Prog.silent_request_bind fun appended => ?_
    cases appended with
    | false => exact Prog.silent_pure _
    | true =>
      cases out with
      | deny reasons => exact Prog.silent_pure _
      | allow authorization next =>
        refine Prog.silent_request_bind fun saved => ?_
        cases saved <;> exact Prog.silent_pure _

theorem alone_evaluateAndCollect (caller : Instance) (evaluation : Eval EvaluatePureOutput) (reply : (i : Request) → Reply i)
    (desk : Desk) {k : Option (EvaluatePureOutput × List JsValue) → InstanceCall CallResult}
    (hk : ∀ r, (k r).Silent) :
    ((evaluateAndCollect caller evaluation >>= k).alone reply desk).1 = evaluateTurn caller evaluation desk :=
  (hk _).alone reply _

theorem inFlight_evaluateAndCommit (id : ℕ) (input : EvaluateInput) :
    InFlight P e (evaluateAndCommit P e id input) := by
  refine .waiting (.client id) fun a => ?_
  cases a with
  | none => exact Prog.Silent.oneTurn (Prog.silent_pure _)
  | some loaded =>
    obtain ⟨state, now⟩ := loaded
    exact oneTurn_evaluateAndCollect (silent_clientRest state)

theorem silent_guardDecided (opts : GuardOptions) (intent : Intent) (state : State) (now : JsNumber)
    (events : List JsValue) (out : EvaluatePureOutput) :
    (guardDecided P e opts intent state now events out).Silent := by
  cases out with
  | deny reasons => exact Prog.silent_pure _
  | allow authorization next =>
    rw [guardDecided]
    cases bindingFailure P e opts intent authorization next now with
    | some reason => exact Prog.silent_pure _
    | none =>
      refine Prog.silent_request_bind fun executed => ?_
      cases executed with
      | false => exact Prog.silent_pure _
      | true =>
        refine Prog.silent_request_bind fun saved => ?_
        cases saved <;> exact Prog.silent_pure _

theorem silent_guardRest (opts : GuardOptions) (intent : Intent) (state : State) (now : JsNumber)
    (r : Option (EvaluatePureOutput × List JsValue)) : (guardRest P e opts intent state now r).Silent := by
  cases r with
  | none => exact Prog.silent_pure _
  | some result =>
    obtain ⟨out, events⟩ := result
    refine Prog.silent_request_bind fun appended => ?_
    cases appended with
    | false => exact Prog.silent_pure _
    | true => exact silent_guardDecided opts intent state now events out

theorem inFlight_guardInstanceCall (opts : GuardOptions) (id : ℕ) (input : GuardInputIntent) :
    InFlight P e (guardInstanceCall P e opts id input) := by
  refine .waiting (.guard opts id) fun a => ?_
  cases a with
  | none => exact Prog.Silent.oneTurn (Prog.silent_pure _)
  | some loaded =>
    obtain ⟨state, now⟩ := loaded
    change (guardIntent P e opts id state now (input.intentAt now)).OneTurn _
    cases input.intentAt now with
    | error err => exact Prog.Silent.oneTurn (Prog.silent_pure _)
    | ok intent => exact oneTurn_evaluateAndCollect (silent_guardRest opts intent state now)

theorem IsInstanceCall.inFlight {p : InstanceCall CallResult} (h : IsInstanceCall P e p) : InFlight P e p := by
  cases h with
  | client id input => exact inFlight_evaluateAndCommit id input
  | guard opts id input => exact inFlight_guardInstanceCall opts id input

section

variable {caller : Instance} {intent : Intent} {state : State} {now : JsNumber} {mode : EvalMode} {desk : Desk}

theorem collected_of_ok (hP : PlatformLaws P) {out : EvaluatePureOutput}
    (hout : (evaluatePure P e intent state now mode desk.log).1 = .ok out) :
    Collected P e caller desk (evaluateTurn caller (evaluatePure P e intent state now mode) desk) := by
  have hstep := auditedCall_step hP e desk.log intent state now mode
  have heval : evaluatePure P e intent state now mode desk.log =
      (.ok out, (evaluatePure P e intent state now mode desk.log).2) := Prod.ext hout rfl
  rw [evaluateTurn, heval]
  simp only [collectNewEvents, AuditLog.snapshot_eq, Option.map_some]
  exact ⟨⟨_, hstep⟩, by rw [List.length_map], by rw [List.map_drop]⟩

theorem evaluateTurn_log (evaluation : Eval EvaluatePureOutput) :
    (evaluateTurn caller evaluation desk).log = (evaluation desk.log).2 := by
  rw [evaluateTurn]
  rcases evaluation desk.log with ⟨r, log⟩
  cases r with
  | error err => rfl
  | ok out =>
    simp only [collectNewEvents, AuditLog.snapshot_eq, Option.map_some]

theorem evaluatePure_returns (mode : EvalMode) (h : precheck e intent state now = .ok ()) (log : AuditLog) :
    ∃ out, (evaluatePure P e intent state now mode log).1 = .ok out := by
  rw [evaluatePure, h]
  change ∃ out, caught (evaluateGuarded P e intent state now mode log).1 = .ok out
  cases (evaluateGuarded P e intent state now mode log).1 with
  | error err => exact ⟨_, rfl⟩
  | ok out => exact ⟨out, rfl⟩

/-- What a turn does to the desk: an evaluation that throws has written nothing. -/
theorem evaluateTurn_step (hP : PlatformLaws P) :
    DeskStep P e desk caller (evaluateTurn caller (evaluatePure P e intent state now mode) desk) := by
  cases hpre : precheck e intent state now with
  | error early =>
    have heval : evaluatePure P e intent state now mode desk.log = (early, desk.log) := by
      rw [evaluatePure, hpre]
    cases early with
    | error err =>
      left
      rw [evaluateTurn, heval]
    | ok out =>
      have hout : (evaluatePure P e intent state now mode desk.log).1 = .ok out := by rw [heval]
      exact .inr (collected_of_ok hP hout)
  | ok u =>
    obtain ⟨out, hout⟩ := evaluatePure_returns (P := P) mode hpre desk.log
    exact .inr (collected_of_ok hP hout)

end

/-- A step of the calls, seen from the desk: whose evaluation it may be. -/
def evaluator : Event Request Reply → Option Instance
  | .answer (.load caller) (some _) => some caller
  | _ => none

/-- A turn only follows the arrival of a state. -/
theorem instanceStep_desk (hP : PlatformLaws P) {sys sys' : System Desk Request Reply CallResult}
    {ev : Event Request Reply} (hprocs : ∀ p ∈ sys.procs, InFlight P e p)
    (h : Step (IsInstanceCall P e) serveDesk sys ev sys') :
    (sys'.shared = sys.shared ∨ ∃ caller, evaluator ev = some caller ∧
      DeskStep P e sys.shared caller sys'.shared) ∧ ∀ p ∈ sys'.procs, InFlight P e p := by
  cases h with
  | @start p hp =>
    have hflight := hp.inFlight
    have hsettle : p.settle sys.shared = (sys.shared, p) := by
      cases hflight with
      | waiting caller hnext => rfl
      | past hsilent => exact hsilent.settle _
    rw [hsettle]
    refine ⟨.inl rfl, fun q hq => ?_⟩
    rcases List.mem_append.mp hq with hq | hq
    · exact hprocs q hq
    · obtain rfl := List.mem_singleton.mp hq
      exact hflight
  | @answer n i next hn a t ht =>
    obtain rfl : t = sys.shared := ht
    have hmem : Prog.ask i next ∈ sys.procs := List.mem_of_getElem? hn
    have hkeep : ∀ q : InstanceCall CallResult, q.Silent → ∀ p ∈ sys.procs.set n q, InFlight P e p := by
      intro q hq p hp
      rcases List.mem_or_eq_of_mem_set hp with hp | rfl
      · exact hprocs p hp
      · exact .past hq
    cases hprocs _ hmem with
    | waiting caller hnext =>
      obtain ⟨hturn, hsilent⟩ := (hnext a).settle sys.shared
      refine ⟨?_, hkeep _ hsilent⟩
      rcases hturn with hsame | ⟨f, ⟨intent, state, now, mode, rfl, rfl⟩, hf⟩
      · exact .inl hsame
      · refine .inr ⟨caller, rfl, ?_⟩
        rw [hf]
        exact evaluateTurn_step hP
    | past hsilent =>
      have hrest : (next a).settle sys.shared = (sys.shared, next a) := Prog.Silent.settle (hsilent a) _
      rw [hrest]
      exact ⟨.inl rfl, hkeep _ (hsilent a)⟩

/-- The instance has read the log to its end. -/
def Desk.CaughtUp (desk : Desk) (caller : Instance) : Prop := desk.auditCursor caller = desk.log.events.length

/-- The engine's log is sound, and the adapter was given each of its events once, in order. -/
structure Delivered (P : Platform) (e : PolicyEngine) (desk : Desk) : Prop where
  log : WellRecorded P e desk.log
  delivered : desk.delivered = desk.log.events.map AuditEvent.value

theorem delivered_initial : Delivered P e (Desk.initial P) := ⟨wellRecorded_initial, rfl⟩

theorem Collected.events {caller : Instance} {desk desk' : Desk} (h : Collected P e caller desk desk') :
    ∃ es, desk'.log.events = desk.log.events ++ es := by
  obtain ⟨c, hc⟩ := h.log
  exact ⟨c.events, hc.events⟩

theorem Delivered.step (hP : PlatformLaws P) {caller : Instance} {desk desk' : Desk} (h : Delivered P e desk)
    (hstep : DeskStep P e desk caller desk') (hcursor : desk.CaughtUp caller) : Delivered P e desk' := by
  rcases hstep with rfl | hstep
  · exact h
  · obtain ⟨c, hc⟩ := hstep.log
    refine ⟨h.log.step hP hc, ?_⟩
    have hnew : desk'.log.events.drop (desk.auditCursor caller) = c.events := by
      rw [hcursor, hc.events, List.drop_left]
    rw [hstep.delivered, hnew, h.delivered, hc.events, List.map_append]

/-- What the verifier makes of it. -/
theorem Delivered.head {desk : Desk} (h : Delivered P e desk) (opts : VerifyAuditOptions) :
    (verifyAuditEvents P (.arr desk.delivered) opts).auditHeadHash = some desk.log.head := by
  have hvalid : ∀ event ∈ desk.delivered, validateAuditEventJson event = [] := by
    intro event hevent
    rw [h.delivered] at hevent
    obtain ⟨ev, hev, rfl⟩ := List.mem_map.mp hevent
    exact h.log.valid ev hev
  rw [verifyAuditEvents_auditHeadHash, scanEvents_head hvalid]
  rw [h.delivered]
  exact h.log.head

/-- Where a state arrives, the instance of the call has read the log to its end. -/
def ArrivesCaughtUp : (i : Request) → Reply i → Desk → Prop
  | .load caller, a, desk => a.isSome = true → desk.CaughtUp caller
  | _, _, _ => True

theorem caughtUp_of_meets {ev : Event Request Reply} {desk : Desk} {caller : Instance}
    (h : ev.Meets ArrivesCaughtUp desk) (hev : evaluator ev = some caller) : desk.CaughtUp caller := by
  cases ev with
  | start => cases hev
  | answer i a =>
    cases i with
    | load caller' =>
      cases a with
      | none => cases hev
      | some loaded =>
        obtain rfl : caller' = caller := Option.some.inj hev
        exact h rfl
    | append events => cases hev
    | execute intent authorization state => cases hev
    | save state => cases hev

/-- A run all of whose arrivals meet a condition. -/
abbrev InstanceRun (P : Platform) (e : PolicyEngine) (C : (i : Request) → Reply i → Desk → Prop) :=
  Trace (fun a ev b => Step (IsInstanceCall P e) serveDesk a ev b ∧ ev.Meets C a.shared) ⟨Desk.initial P, []⟩

theorem delivered_of_run (hP : PlatformLaws P) {sys : System Desk Request Reply CallResult}
    {evs : List (Event Request Reply)} (h : InstanceRun P e ArrivesCaughtUp evs sys) :
    Delivered P e sys.shared ∧ ∀ p ∈ sys.procs, InFlight P e p := by
  refine h.invariant (I := fun sys => Delivered P e sys.shared ∧ ∀ p ∈ sys.procs, InFlight P e p) ?_
    ⟨delivered_initial, by simp⟩
  intro a ev b ⟨hdelivered, hprocs⟩ ⟨hstep, hmeets⟩
  obtain ⟨hdesk, hprocs'⟩ := instanceStep_desk hP hprocs hstep
  refine ⟨?_, hprocs'⟩
  rcases hdesk with hsame | ⟨caller, hev, hturn⟩
  · rw [hsame]
    exact hdelivered
  · exact hdelivered.step hP hturn (caughtUp_of_meets hmeets hev)

/-- In every run of client and guard calls whose evaluations are made by instances that have read
the log to its end, the adapter has been given the log of the engine. -/
theorem audit_delivery (hP : PlatformLaws P) {sys : System Desk Request Reply CallResult}
    {evs : List (Event Request Reply)} (h : InstanceRun P e ArrivesCaughtUp evs sys) :
    sys.shared.log.snapshot = some sys.shared.delivered ∧ ∀ opts,
      (verifyAuditEvents P (.arr sys.shared.delivered) opts).auditHeadHash = some sys.shared.log.head := by
  have hdelivered := (delivered_of_run hP h).1
  refine ⟨?_, hdelivered.head⟩
  rw [AuditLog.snapshot_eq, hdelivered.delivered]

def ArrivesFor (caller : Instance) : (i : Request) → Reply i → Desk → Prop
  | .load caller', _, _ => caller' = caller
  | _, _, _ => True

theorem DeskStep.caughtUp {caller : Instance} {desk desk' : Desk} (h : DeskStep P e desk caller desk')
    (hcursor : desk.CaughtUp caller) : desk'.CaughtUp caller := by
  rcases h with rfl | h
  · exact hcursor
  · rw [Desk.CaughtUp, h.auditCursor, Function.update_self]

theorem meets_of_arrivesFor {ev : Event Request Reply} {desk : Desk} {caller : Instance}
    (h : ev.Meets (ArrivesFor caller) desk) (hcursor : desk.CaughtUp caller) :
    ev.Meets ArrivesCaughtUp desk ∧ ∀ other, evaluator ev = some other → other = caller := by
  cases ev with
  | start => exact ⟨trivial, nofun⟩
  | answer i a =>
    cases i with
    | load caller' =>
      obtain rfl : caller' = caller := h
      refine ⟨fun _ => hcursor, fun other hother => ?_⟩
      cases a with
      | none => cases hother
      | some loaded => exact (Option.some.inj hother).symm
    | append events => exact ⟨trivial, nofun⟩
    | execute intent authorization state => exact ⟨trivial, nofun⟩
    | save state => exact ⟨trivial, nofun⟩

/-- Where all calls are made through one instance it never lags, however its calls interleave. -/
theorem run_of_one_instance (hP : PlatformLaws P) {caller : Instance} {sys : System Desk Request Reply CallResult}
    {evs : List (Event Request Reply)} (h : InstanceRun P e (ArrivesFor caller) evs sys) :
    InstanceRun P e ArrivesCaughtUp evs sys ∧ sys.shared.CaughtUp caller := by
  induction h with
  | nil => exact ⟨.nil, rfl⟩
  | @snoc es b ev c run last ih =>
    obtain ⟨hrun, hcursor⟩ := ih
    obtain ⟨hmeets, hother⟩ := meets_of_arrivesFor last.2 hcursor
    refine ⟨hrun.snoc ⟨last.1, hmeets⟩, ?_⟩
    rcases (instanceStep_desk hP (delivered_of_run hP hrun).2 last.1).1 with hsame | ⟨other, hev, hturn⟩
    · rw [hsame]
      exact hcursor
    · obtain rfl := hother other hev
      exact hturn.caughtUp hcursor

/-- No cursor is beyond the log, and the adapter was given each event at least once, in order. -/
structure NothingLost (desk : Desk) : Prop where
  cursor : ∀ caller, desk.auditCursor caller ≤ desk.log.events.length
  kept : List.Sublist (desk.log.events.map AuditEvent.value) desk.delivered

theorem nothingLost_initial : NothingLost (Desk.initial P) := ⟨fun _ => Nat.zero_le _, List.Sublist.refl _⟩

theorem Collected.delivered_eq {caller : Instance} {desk desk' : Desk} (h : Collected P e caller desk desk')
    (hcursor : desk.auditCursor caller ≤ desk.log.events.length) :
    ∃ es, desk'.log.events = desk.log.events ++ es ∧ desk'.delivered = desk.delivered ++
      ((desk.log.events.drop (desk.auditCursor caller)).map AuditEvent.value ++ es.map AuditEvent.value) := by
  obtain ⟨es, hes⟩ := h.events
  refine ⟨es, hes, ?_⟩
  rw [h.delivered, hes, List.drop_append_of_le_length hcursor, List.map_append]

theorem NothingLost.step {caller : Instance} {desk desk' : Desk} (h : NothingLost desk)
    (hstep : DeskStep P e desk caller desk') : NothingLost desk' := by
  rcases hstep with rfl | hstep
  · exact h
  · obtain ⟨es, hes, hdelivered⟩ := hstep.delivered_eq (h.cursor caller)
    refine ⟨fun other => ?_, ?_⟩
    · rw [hstep.auditCursor]
      by_cases hother : other = caller
      · rw [hother, Function.update_self]
      · rw [Function.update_of_ne hother, hes, List.length_append]
        have hold := h.cursor other
        omega
    · rw [hes, hdelivered, List.map_append]
      exact h.kept.append (List.sublist_append_right _ _)

theorem nothingLost_of_run (hP : PlatformLaws P) {sys : System Desk Request Reply CallResult}
    {evs : List (Event Request Reply)}
    (h : Trace (Step (IsInstanceCall P e) serveDesk) ⟨Desk.initial P, []⟩ evs sys) :
    NothingLost sys.shared ∧ ∀ p ∈ sys.procs, InFlight P e p := by
  refine h.invariant (I := fun sys => NothingLost sys.shared ∧ ∀ p ∈ sys.procs, InFlight P e p) ?_
    ⟨nothingLost_initial, by simp⟩
  intro a ev b ⟨hkept, hprocs⟩ hstep
  obtain ⟨hdesk, hprocs'⟩ := instanceStep_desk hP hprocs hstep
  refine ⟨?_, hprocs'⟩
  rcases hdesk with hsame | ⟨caller, -, hturn⟩
  · rw [hsame]
    exact hkept
  · exact hkept.step hturn

/-- In every run the adapter has been given every event of the log. -/
theorem no_event_lost (hP : PlatformLaws P) {sys : System Desk Request Reply CallResult}
    {evs : List (Event Request Reply)}
    (h : Trace (Step (IsInstanceCall P e) serveDesk) ⟨Desk.initial P, []⟩ evs sys) :
    List.Sublist (sys.shared.log.events.map AuditEvent.value) sys.shared.delivered :=
  (nothingLost_of_run hP h).1.kept

theorem Collected.repeats {caller : Instance} {desk desk' : Desk} (h : Collected P e caller desk desk')
    (hkept : NothingLost desk) (hlag : ¬ desk.CaughtUp caller) :
    desk'.log.events.length < desk'.delivered.length := by
  obtain ⟨es, hes, hdelivered⟩ := h.delivered_eq (hkept.cursor caller)
  have hlength := hkept.kept.length_le
  have hcursor := hkept.cursor caller
  rw [Desk.CaughtUp] at hlag
  rw [hes, hdelivered]
  simp only [List.length_append, List.length_map, List.length_drop] at hlength ⊢
  omega

theorem snapshot_ne_of_repeats {desk : Desk} (h : desk.log.events.length < desk.delivered.length) :
    desk.log.snapshot ≠ some desk.delivered := by
  rw [AuditLog.snapshot_eq]
  intro heq
  have hlength := congrArg List.length (Option.some.inj heq)
  rw [List.length_map] at hlength
  omega

/-- What was repeated stays so. -/
theorem DeskStep.repeats {caller : Instance} {desk desk' : Desk} (h : DeskStep P e desk caller desk')
    (hkept : NothingLost desk) (hlong : desk.log.events.length < desk.delivered.length) :
    desk'.log.events.length < desk'.delivered.length := by
  rcases h with rfl | h
  · exact hlong
  · obtain ⟨es, hes, hdelivered⟩ := h.delivered_eq (hkept.cursor caller)
    rw [hes, hdelivered]
    simp only [List.length_append, List.length_map]
    omega

/-- A call that gets as far as its intent writes to the log. -/
theorem AuditedStep.events_ne_nil {log log' : AuditLog} {hash : JsString} (hP : PlatformLaws P) (hx : HexStable P.nfc)
    {c : AuditedCall} (h : AuditedStep P e log c log') (hr : c.Reaches P e hash) : c.events ≠ [] := by
  obtain ⟨log₁, hcount, hcall⟩ := h.judged hP.nfc hr
  have hpre := precheck_ok.mp hr.1
  by_cases hsettles : Settles P e c.intent c.state c.evaluationTime c.mode c.auditEventCount
  · obtain ⟨out, es, log₂, hemits, -⟩ := judge_recorded hash hP.nfc hx (digest_hex hP) hpre hcount hsettles
    rw [(hcall hemits).2.2]
    exact List.cons_ne_nil _ _
  · obtain ⟨err, es, log₂, hemits, -⟩ := judge_throws hash hP.nfc hpre hcount hsettles
    rw [(hcall hemits).2.2]
    exact List.cons_ne_nil _ _

/-- Adapters that answer with one state, and accept all they are given. -/
def replyWith (state : State) (now : JsNumber) : (i : Request) → Reply i
  | .load _ => some (state, now)
  | .append _ => true
  | .execute _ _ _ => true
  | .save _ => true

theorem alone_client (state : State) (now : JsNumber) (id : ℕ) (input : EvaluateInput) (desk : Desk) :
    ((evaluateAndCommit P e id input).alone (replyWith state now) desk).1 =
      evaluateTurn (.client id) (evaluatePure P e (input.intentAt now) state now .failFast) desk :=
  alone_evaluateAndCollect _ _ _ _ (silent_clientRest state)

theorem alone_guard (state : State) (now : JsNumber) (opts : GuardOptions) (id : ℕ) {input : GuardInputIntent}
    {intent : Intent} (hintent : input.intentAt now = .ok intent) (desk : Desk) :
    ((guardInstanceCall P e opts id input).alone (replyWith state now) desk).1 =
      evaluateTurn (.guard opts id) (evaluatePure P e intent state now (opts.mode.getD .failFast)) desk := by
  have hload : (guardInstanceCall P e opts id input).alone (replyWith state now) desk =
    (guardIntent P e opts id state now (input.intentAt now)).alone (replyWith state now) desk := rfl
  rw [hload, hintent]
  exact alone_evaluateAndCollect _ _ _ _ (silent_guardRest opts intent state now)

/-- A first call that gets as far as its intent writes to the log. -/
theorem first_turn_written (hP : PlatformLaws P) (hx : HexStable P.nfc) {intent : Intent} {state : State}
    {now : JsNumber} {hash : JsString} (caller : Instance) (mode : EvalMode) (hhash : intentHash P intent = .ok hash)
    (hpre : precheck e intent state now = .ok ()) :
    (evaluateTurn caller (evaluatePure P e intent state now mode) (Desk.initial P)).log.events ≠ [] := by
  have hstep := auditedCall_initial P e intent state now mode
  have hnew := hstep.events_ne_nil hP hx ⟨hpre, hhash⟩
  rw [evaluateTurn_log]
  change (evaluatePure P e intent state now mode (AuditLog.initial P)).2.events ≠ []
  rw [hstep.events]
  exact List.append_ne_nil_of_right_ne_nil _ hnew

/-- The first call of a guard, after the first one of a client, repeats the events of the client. -/
theorem guard_after_client (hP : PlatformLaws P) (hx : HexStable P.nfc) {intent : Intent} {state : State}
    {now : JsNumber} {hash : JsString} (id : ℕ) (opts : GuardOptions) (hhash : intentHash P intent = .ok hash)
    (hpre : precheck e intent state now = .ok ()) {input : EvaluateInput} (hinput : input.intentAt now = intent)
    {input' : GuardInputIntent} (hinput' : input'.intentAt now = .ok intent) :
    ∃ evs sys, Trace (Step (IsInstanceCall P e) serveDesk) ⟨Desk.initial P, []⟩ evs sys ∧
      sys.shared.log.snapshot ≠ some sys.shared.delivered := by
  obtain ⟨evs, hclient⟩ := Step.alone (IsInstanceCall P e) serveDesk (replyWith state now) (fun _ _ => rfl)
    (.client id input) (Desk.initial P) []
  rw [alone_client, hinput] at hclient
  have hwritten := first_turn_written hP hx (.client id) .failFast hhash hpre
  have hfirst : Collected P e (.client id) (Desk.initial P) _ :=
    collected_of_ok hP (evaluatePure_returns (P := P) .failFast hpre (AuditLog.initial P)).choose_spec
  generalize evaluateTurn (.client id) (evaluatePure P e intent state now .failFast) (Desk.initial P) = desk
    at hclient hfirst hwritten
  obtain ⟨evs', hguard⟩ := Step.alone (IsInstanceCall P e) serveDesk (replyWith state now) (fun _ _ => rfl)
    (.guard opts id input') desk _
  rw [alone_guard state now opts id hinput'] at hguard
  refine ⟨_, _, hclient.append hguard, snapshot_ne_of_repeats ?_⟩
  have hsecond : Collected P e (.guard opts id) desk _ :=
    collected_of_ok hP (evaluatePure_returns (P := P) (opts.mode.getD .failFast) hpre desk.log).choose_spec
  apply hsecond.repeats (nothingLost_initial.step (.inr hfirst))
  intro hcursor
  have hzero : desk.auditCursor (.guard opts id) = 0 := by
    have hne : Instance.guard opts id ≠ Instance.client id := by simp
    rw [hfirst.auditCursor, Function.update_of_ne hne]
    rfl
  rw [Desk.CaughtUp, hzero] at hcursor
  exact hwritten (List.eq_nil_of_length_eq_zero hcursor.symm)

/-- One more call of a client that has read the log to its end, up to its wait for the adapter. -/
theorem client_turn {evs : List (Event Request Reply)} {sys : System Desk Request Reply CallResult}
    (hrun : InstanceRun P e ArrivesCaughtUp evs sys) (state : State) (now : JsNumber) {id : ℕ} (input : EvaluateInput)
    (hcursor : sys.shared.CaughtUp (.client id)) : ∃ evs sys', InstanceRun P e ArrivesCaughtUp evs sys' ∧
      sys'.procs.length = sys.procs.length + 1 ∧ sys'.shared =
        evaluateTurn (.client id) (evaluatePure P e (input.intentAt now) state now .failFast) sys.shared := by
  obtain ⟨next, hask, hnext⟩ : ∃ next, evaluateAndCommit P e id input = .ask (Request.load (.client id)) next ∧
      next (some (state, now)) = evaluateAndCollect (.client id)
        (evaluatePure P e (input.intentAt now) state now .failFast) >>= clientRest state := ⟨_, rfl, rfl⟩
  have hstart : Step (IsInstanceCall P e) serveDesk sys .start
      ⟨sys.shared, sys.procs ++ [.ask (Request.load (.client id)) next]⟩ := by
    rw [← hask]
    exact .start (IsInstanceCall.client id input)
  have hlast : (sys.procs ++ [Prog.ask (Request.load (.client id)) next])[sys.procs.length]? =
      some (.ask (Request.load (.client id)) next) := by simp
  have hserve : serveDesk sys.shared (Request.load (.client id)) (some (state, now)) sys.shared := rfl
  have harrives := @Step.answer _ _ _ _ (IsInstanceCall P e) serveDesk
    ⟨sys.shared, sys.procs ++ [.ask (Request.load (.client id)) next]⟩ _ _ next hlast (some (state, now)) _ hserve
  refine ⟨_, _, (hrun.snoc ⟨hstart, trivial⟩).snoc ⟨harrives, fun _ => hcursor⟩, by simp, ?_⟩
  have hrest := silent_clientRest state (turnOutcome (.client id)
    (evaluatePure P e (input.intentAt now) state now .failFast) sys.shared)
  rw [hnext]
  exact congrArg Prod.fst (hrest.settle _)

end

def sampleInput : EvaluateInput := ⟨sampleIntent (js "a"), some (.int 1000)⟩

theorem precheck_sample : precheck sampleEngine (sampleIntent (js "a")) (sampleState (js "a")) (.int 1000) = .ok () :=
  precheck_ok.mpr prechecked_sample

/-- A client and a guard of one engine. -/
theorem guard_repeats_client : ∃ evs sys,
    Trace (Step (IsInstanceCall samplePlatform sampleEngine) serveDesk) ⟨Desk.initial samplePlatform, []⟩ evs sys ∧
      sys.shared.log.snapshot ≠ some sys.shared.delivered := by
  have hhash : intentHash samplePlatform (sampleIntent (js "a")) = .ok (digest samplePlatform _) :=
    sha256HexFromJson_ok.mpr ⟨(isCanonical_iff _).mp (by decide), rfl⟩
  have hclient : sampleInput.intentAt (.int 1000) = sampleIntent (js "a") := rfl
  have hguard : (GuardInputIntent.intent (sampleIntent (js "a"))).intentAt (.int 1000) =
    .ok (sampleIntent (js "a")) := rfl
  exact guard_after_client samplePlatform_laws hexStable_sample 0 {} hhash precheck_sample hclient hguard

/-- Two calls of one client, the second while the first waits for the adapter. -/
theorem audit_delivery_sample : ∃ evs sys, InstanceRun samplePlatform sampleEngine ArrivesCaughtUp evs sys ∧
    sys.procs.length = 2 ∧ sys.shared.log.events ≠ [] ∧ sys.shared.log.snapshot = some sys.shared.delivered := by
  have hinitial : (Desk.initial samplePlatform).CaughtUp (.client 0) := rfl
  obtain ⟨_, first, hfirst, hone, hshared⟩ := client_turn (P := samplePlatform) (e := sampleEngine) .nil
    (sampleState (js "a")) (.int 1000) sampleInput hinitial
  have hhash : intentHash samplePlatform (sampleIntent (js "a")) = .ok (digest samplePlatform _) :=
    sha256HexFromJson_ok.mpr ⟨(isCanonical_iff _).mp (by decide), rfl⟩
  have hclient : sampleInput.intentAt (.int 1000) = sampleIntent (js "a") := rfl
  rw [hclient] at hshared
  have hwritten := first_turn_written samplePlatform_laws hexStable_sample (.client 0) .failFast hhash precheck_sample
  have hcollected : Collected samplePlatform sampleEngine (.client 0) (Desk.initial samplePlatform) _ :=
    collected_of_ok samplePlatform_laws
      (evaluatePure_returns (P := samplePlatform) .failFast precheck_sample (AuditLog.initial samplePlatform)).choose_spec
  have hcursor := DeskStep.caughtUp (.inr hcollected) hinitial
  rw [← hshared] at hwritten hcursor
  obtain ⟨evs, sys, hrun, htwo, hshared'⟩ := client_turn hfirst (sampleState (js "a")) (.int 1000) sampleInput hcursor
  rw [hclient] at hshared'
  have hagain : Collected samplePlatform sampleEngine (.client 0) first.shared _ :=
    collected_of_ok samplePlatform_laws
      (evaluatePure_returns (P := samplePlatform) .failFast precheck_sample first.shared.log).choose_spec
  rw [← hshared'] at hagain
  obtain ⟨call, hstep⟩ := hagain.log
  refine ⟨evs, sys, hrun, by rw [htwo, hone]; rfl, ?_, (audit_delivery samplePlatform_laws hrun).1⟩
  rw [hstep.events]
  exact List.append_ne_nil_of_left_ne_nil hwritten _

end OxDeAI
