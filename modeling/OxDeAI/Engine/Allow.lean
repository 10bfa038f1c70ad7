import OxDeAI.Engine.Admission

/-! What an ALLOW of the engine rests on. -/

namespace OxDeAI

open Js

section

variable {P : Platform} {e : PolicyEngine} {intent : Intent} {state : State} {t : JsNumber}

/-- The digests and signatures behind an authorization. -/
structure Issued (P : Platform) (e : PolicyEngine) (intent : Intent) (state working : State)
    (t : JsNumber) (parts : AuthorizationParts) : Prop where
  snapshot : computeStateHash P e working = .ok parts.stateSnapshotHash
  engineSignature : engineSignHmac P (engineAuthPayload parts.intentHash state.policyVersion
    parts.stateSnapshotHash (t.add e.authorizationTtl)) e.opts.engineSecret = .ok parts.engineSignature
  stateHash : computeStateHash P e state = .ok parts.stateHash
  authorizationId : sha256HexFromJson P (.obj (authorizationCore P e intent parts.intentHash
    parts.stateHash [] t (t.add e.authorizationTtl) ++
      [(js "engine_signature", JsValue.str parts.engineSignature)])) = .ok parts.authorizationId
  signature : signAuthorization P e (.obj (authorizationCore P e intent parts.intentHash
    parts.stateHash parts.authorizationId t (t.add e.authorizationTtl))) = .ok parts.signature

theorem issueAuthorization_ok {working : State} {hash : JsString} {auth : Authorization} :
    issueAuthorization P e intent state working t hash = .ok auth ↔
      ∃ parts, Issued P e intent state working t parts ∧ parts.intentHash = hash ∧
        auth = assembleAuthorization P e intent state t (t.add e.authorizationTtl) parts := by
  simp only [issueAuthorization, bind_eq_ok, pure, Except.pure]
  constructor
  · rintro ⟨snap, h1, eng, h2, sh, h3, id, h4, sig, h5, h6⟩
    cases h6
    exact ⟨⟨hash, snap, eng, sh, id, sig⟩, ⟨h1, h2, h3, h4, h5⟩, rfl, rfl⟩
  · rintro ⟨parts, ⟨h1, h2, h3, h4, h5⟩, rfl, rfl⟩
    exact ⟨_, h1, _, h2, _, h3, _, h4, _, h5, rfl⟩

/-- The clock readings an engine evaluates at. -/
structure ValidClock (e : PolicyEngine) (t : JsNumber) : Prop where
  seconds : isProtocolSeconds t = true
  ttl : ttlOverflows e t = false

/-- The checks before evaluation, all passed. -/
structure Prechecked (e : PolicyEngine) (intent : Intent) (state : State) (t : JsNumber) : Prop where
  intentValid : validateIntent intent = .ok ()
  runtime : isRuntimeState state = true
  leaves : NumericLeaves state intent.agentId
  version : state.policyVersion = e.opts.policyVersion
  clock : ValidClock e t

/-- Everything an ALLOW has passed, with the charge and the digests it produced. -/
structure Permitted (P : Platform) (e : PolicyEngine) (intent : Intent) (state : State)
    (t : JsNumber) (c : Charge) (parts : AuthorizationParts) : Prop
    extends Prechecked e intent state t where
  hash : intentHash P intent = .ok parts.intentHash
  fresh : verifyTrustedTime intent.timestamp t e.opts.maxClockSkewSeconds
    e.opts.maxIntentAgeSeconds = .ok (.allow none)
  admitted : Admitted intent state (moduleContext e t) c
  issued : Issued P e intent state (settle intent state (moduleContext e t) c) t parts

/-- The authorization an ALLOW returns. -/
def authorizationFor (P : Platform) (e : PolicyEngine) (intent : Intent) (state : State)
    (t : JsNumber) (parts : AuthorizationParts) : Authorization :=
  assembleAuthorization P e intent state t (t.add e.authorizationTtl) parts

/-- The state an ALLOW returns. -/
def nextStateFor (P : Platform) (e : PolicyEngine) (intent : Intent) (state : State)
    (t : JsNumber) (c : Charge) (parts : AuthorizationParts) : State :=
  leaseState intent (settle intent state (moduleContext e t) c)
    (authorizationFor P e intent state t parts)

theorem denyAudited_ne_allow {hash : JsString} {reasons : List ReasonCode} {log log' : AuditLog}
    {auth : Authorization} {next : State} :
    denyAudited P e hash state t reasons log ≠ (.ok (.allow auth next), log') := by
  intro h
  obtain ⟨_, _, -, h⟩ := Eval.bind_ok.mp h
  obtain ⟨_, _, -, h⟩ := Eval.bind_ok.mp h
  cases h

/-- The gate proposes no change of state. -/
theorem verifyTrustedTime_delta {a b c d : JsNumber} {delta : Option StateDelta}
    (h : verifyTrustedTime a b c d = .ok (.allow delta)) : delta = none := by
  simp only [verifyTrustedTime] at h
  repeat' split at h
  all_goals cases h
  rfl

theorem evaluateGuarded_allow {mode : EvalMode} {log log' : AuditLog} {auth : Authorization}
    {next : State} (hleaves : NumericLeaves state intent.agentId)
    (h : evaluateGuarded P e intent state t mode log = (.ok (.allow auth next), log')) :
    ∃ c parts, intentHash P intent = .ok parts.intentHash ∧
      verifyTrustedTime intent.timestamp t e.opts.maxClockSkewSeconds e.opts.maxIntentAgeSeconds =
        .ok (.allow none) ∧
      Admitted intent state (moduleContext e t) c ∧
      Issued P e intent state (settle intent state (moduleContext e t) c) t parts ∧
      auth = authorizationFor P e intent state t parts ∧
      next = nextStateFor P e intent state t c parts := by
  obtain ⟨hash, log₁, hh, h⟩ := Eval.bind_ok.mp h
  obtain ⟨hh, -⟩ := Prod.mk.inj hh
  obtain ⟨_, log₂, -, h⟩ := Eval.bind_ok.mp h
  obtain ⟨freshness, log₃, hf, h⟩ := Eval.bind_ok.mp h
  obtain ⟨hf, -⟩ := Prod.mk.inj hf
  cases freshness with
  | deny reasons => exact absurd h denyAudited_ne_allow
  | allow delta =>
    obtain ⟨decision, log₄, hd, h⟩ := Eval.bind_ok.mp h
    obtain ⟨hd, -⟩ := Prod.mk.inj hd
    cases decision with
    | deny reasons => exact absurd h denyAudited_ne_allow
    | allow nextState =>
      obtain ⟨c, hc, rfl⟩ := (runDecisionModules_modulesFor hleaves).mp hd
      obtain ⟨auth', log₅, ha, h⟩ := Eval.bind_ok.mp h
      obtain ⟨ha, -⟩ := Prod.mk.inj ha
      have hm : materializeLeases intent state (proposed intent state (moduleContext e t) c) t =
          settle intent state (moduleContext e t) c := materializeLeases_proposed hc
      rw [hm] at ha h
      obtain ⟨parts, hi, rfl, rfl⟩ := issueAuthorization_ok.mp ha
      obtain ⟨_, _, -, h⟩ := Eval.bind_ok.mp h
      obtain ⟨_, _, -, h⟩ := Eval.bind_ok.mp h
      obtain ⟨_, _, -, h⟩ := Eval.bind_ok.mp h
      cases h
      exact ⟨c, parts, hh, verifyTrustedTime_delta hf ▸ hf, hc, hi, rfl, rfl⟩

theorem validateStateForIntent_ok :
    validateStateForIntent state intent = .ok () ↔
      isRuntimeState state = true ∧ NumericLeaves state intent.agentId := by
  rw [← validateNumericLeaves_ok, validateStateForIntent]
  cases isRuntimeState state with
  | false => simp
  | true => cases validateNumericLeaves state intent.agentId <;> simp

theorem assertProtocolSeconds_ok {label : JsString} :
    assertProtocolSeconds t label = .ok () ↔ isProtocolSeconds t = true := by
  rw [assertProtocolSeconds]
  cases isProtocolSeconds t <;> simp

theorem precheck_ok : precheck e intent state t = .ok () ↔ Prechecked e intent state t := by
  constructor
  · intro h
    simp only [precheck] at h
    split at h
    · cases h
    · rename_i hiv
      split at h
      · cases h
      · rename_i hsv
        obtain ⟨hr, hl⟩ := validateStateForIntent_ok.mp hsv
        split at h
        · cases h
        · rename_i hver
          split at h
          · cases h
          · rename_i hclock
            split at h
            · cases h
            · rename_i httl
              exact ⟨hiv, hr, hl, by simpa using hver,
                ⟨assertProtocolSeconds_ok.mp hclock, by simpa using httl⟩⟩
  · intro h
    simp only [precheck, h.intentValid, validateStateForIntent_ok.mpr ⟨h.runtime, h.leaves⟩, h.version,
      assertProtocolSeconds_ok.mpr h.clock.seconds, h.clock.ttl, ne_eq, not_true_eq_false, if_false,
      Bool.false_eq_true]

theorem precheck_ne_allow {auth : Authorization} {next : State} :
    precheck e intent state t ≠ .error (.ok (.allow auth next)) := by
  intro h
  simp only [precheck] at h
  split at h
  · cases h
  · split at h
    · cases h
    · split at h
      · cases h
      · split at h
        · cases h
        · split at h <;> cases h

/-- Every ALLOW passed every check, at one charge and one set of digests. -/
theorem evaluatePure_allow {mode : EvalMode} {log log' : AuditLog} {auth : Authorization} {next : State}
    (h : evaluatePure P e intent state t mode log = (.ok (.allow auth next), log')) :
    ∃ c parts, Permitted P e intent state t c parts ∧
      auth = authorizationFor P e intent state t parts ∧
      next = nextStateFor P e intent state t c parts := by
  simp only [evaluatePure] at h
  split at h
  · rename_i early he
    obtain ⟨rfl, -⟩ := Prod.mk.inj h
    exact absurd he precheck_ne_allow
  · rename_i hpre
    have hp := precheck_ok.mp hpre
    obtain ⟨hres, hlog⟩ := Prod.mk.inj h
    have hg : evaluateGuarded P e intent state t mode log = (.ok (.allow auth next), log') := by
      refine Prod.ext ?_ hlog
      cases hr : (evaluateGuarded P e intent state t mode log).1 with
      | error err => simp [hr, caught] at hres
      | ok out => simpa [hr, caught] using hres
    obtain ⟨c, parts, hh, hf, hc, hi, ha, hn⟩ := evaluateGuarded_allow hp.leaves hg
    exact ⟨c, parts, ⟨hp, hh, hf, hc, hi⟩, ha, hn⟩

end

end OxDeAI
