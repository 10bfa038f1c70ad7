import OxDeAI.Engine.AuditFaithful
import OxDeAI.Engine.SettledHash

/-! Which calls end in an internal error: those that throw inside the evaluation. -/

namespace OxDeAI

open Js

/-- A permission, or a refusal for a reason of the policy or the state. -/
def DecidesSpecifically (r : Except JsError EvaluatePureOutput) : Prop :=
  ∃ out, r = .ok out ∧ ReasonCode.internalError ∉ out.reasons

section

variable (P : Platform) (e : PolicyEngine) (intent : Intent) (state : State) (t : JsNumber) (mode : EvalMode)

/-- The checks that refuse an intent or a state before the clock is looked at. -/
structure Validated : Prop where
  intentValid : validateIntent intent = .ok ()
  stateValid : validateStateForIntent state intent = .ok ()
  version : state.policyVersion = e.opts.policyVersion

/-- The numbers of the intent are what its type says. -/
def Intent.conforms : Bool := intent.depth.all isNonNegativeSafeInteger && intent.timestamp.isSafeInteger

/-- The limits and counts of the state are nonnegative safe integers, and no agent
has more actions in flight than its limit. -/
def State.conforms : Bool :=
  state.budget.budgetLimit.entries.all (fun x => 0 ≤ x.2) &&
  state.budget.spentInPeriod.entries.all (fun x => 0 ≤ x.2) &&
  state.maxAmountPerAction.entries.all (fun x => x.2.any (fun cap => 0 ≤ cap)) &&
  isNonNegativeSafeInteger state.velocity.config.windowSeconds &&
  isNonNegativeSafeInteger state.velocity.config.maxActions &&
  state.velocity.counters.entries.all (fun x => x.2.any (fun counter =>
    isNonNegativeSafeInteger counter.windowStart && isNonNegativeSafeInteger counter.count)) &&
  isNonNegativeSafeInteger state.replay.windowSeconds &&
  isNonNegativeSafeInteger state.replay.maxNoncesPerAgent &&
  state.replay.nonces.entries.all (fun x => x.2.all (fun entry => isNonNegativeSafeInteger entry.ts)) &&
  state.concurrency.maxConcurrent.entries.all (fun x => isNonNegativeSafeInteger x.2) &&
  state.concurrency.active.entries.all (fun x => isNonNegativeSafeInteger x.2 &&
    x.2.le (countOr0 state.concurrency.maxConcurrent x.1)) &&
  state.concurrency.activeAuths.entries.all (fun x => x.2.entries.all (fun lease =>
    isNonNegativeSafeInteger lease.2.expiresAt)) &&
  state.recursion.maxDepth.entries.all (fun x => isNonNegativeSafeInteger x.2) &&
  isNonNegativeSafeInteger state.toolLimits.windowSeconds &&
  state.toolLimits.maxCalls.entries.all (fun x => x.2.any isNonNegativeSafeInteger) &&
  state.toolLimits.maxCallsByTool.all (fun byTool => byTool.entries.all (fun x => x.2.any (fun caps =>
    caps.entries.all (fun y => y.2.any isNonNegativeSafeInteger)))) &&
  state.toolLimits.calls.entries.all (fun x => x.2.any (fun calls =>
    calls.all (fun call => isNonNegativeSafeInteger call.ts)))

/-- Nothing that evaluating the intent reads makes it throw. -/
structure Judgeable (count : ℕ) : Prop where
  clock : ValidClock e t
  hash : ∃ hash, intentHash P intent = .ok hash
  nonces : verifyTrustedTime intent.timestamp t e.opts.maxClockSkewSeconds e.opts.maxIntentAgeSeconds =
    .ok (.allow none) → validReplayConfig state.replay = true →
      (state.replay.nonces.get intent.agentId).isInherited = false
  refused : passes e intent state t mode = false → Due e (count + 2) → Hashable P state
  permitted : passes e intent state t mode = true → Hashable P state ∧ Chargeable P.nfc intent state t

end

section

variable {P : Platform} {e : PolicyEngine} {intent : Intent} {state : State} {t : JsNumber} {mode : EvalMode}
  {count : ℕ} {log : AuditLog} {context : PolicyEvaluationContext}

theorem validateIntent_reason {reason : ReasonCode} (h : validateIntent intent = .error reason) :
    reason ≠ .internalError := by
  rintro rfl
  unfold validateIntent at h
  split at h
  · cases h
  · split at h <;> cases h

theorem validateStateForIntent_reason {reason : ReasonCode}
    (h : validateStateForIntent state intent = .error reason) : reason ≠ .internalError := by
  rintro rfl
  unfold validateStateForIntent at h
  split at h
  · cases h
  · split at h <;> cases h

theorem precheck_refuses (h : ¬ Validated e intent state) : ∃ reason, reason ≠ ReasonCode.internalError ∧
    precheck e intent state t = .error (.ok (.deny [reason])) := by
  cases hi : validateIntent intent with
  | error reason => exact ⟨reason, validateIntent_reason hi, by simp only [precheck, hi]⟩
  | ok u =>
    cases hs : validateStateForIntent state intent with
    | error reason => exact ⟨reason, validateStateForIntent_reason hs, by simp only [precheck, hi, hs]⟩
    | ok u' =>
      have hv : state.policyVersion ≠ e.opts.policyVersion := fun hv => h ⟨hi, hs, hv⟩
      exact ⟨.policyVersionMismatch, by decide, by simp only [precheck, hi, hs, if_pos hv]⟩

/-- A clock that leaves no room is the caller's fault, and thrown at the caller. -/
theorem precheck_throws (h : Validated e intent state) (hc : ¬ ValidClock e t) :
    ∃ err, precheck e intent state t = .error (.error err) := by
  simp only [precheck, h.intentValid, h.stateValid, h.version, ne_eq, not_true_eq_false, if_false]
  split
  · exact ⟨_, rfl⟩
  · rename_i hclock
    split
    · exact ⟨_, rfl⟩
    · rename_i httl
      exact absurd ⟨assertProtocolSeconds_ok.mp hclock, by simpa using httl⟩ hc

theorem prechecked_of_validated (h : Validated e intent state) (hc : ValidClock e t) :
    Prechecked e intent state t := by
  obtain ⟨hruntime, hleaves⟩ := validateStateForIntent_ok.mp h.stateValid
  exact ⟨h.intentValid, hruntime, hleaves, h.version, hc⟩

theorem replayModule_returns (context : PolicyEvaluationContext) : (∃ r, replayModule intent state context = .ok r) ↔
    (validReplayConfig state.replay = true → (state.replay.nonces.get intent.agentId).isInherited = false) := by
  cases hc : validReplayConfig state.replay with
  | false =>
    simp only [replayModule, hc, Bool.not_false, if_true]
    exact ⟨fun _ h => (by cases h), fun _ => ⟨_, rfl⟩⟩
  | true =>
    simp only [replayModule, hc, Bool.not_true, Bool.false_eq_true, if_false, map_eq_ok, forall_const]
    constructor
    · rintro ⟨r, list, hl, -⟩
      exact not_inherited_of_nonceList hl
    · intro hn
      have hlist : ∃ list, nonceList state intent.agentId = .ok list := by
        rw [nonceList]
        cases hg : state.replay.nonces.get intent.agentId with
        | own list => exact ⟨list, rfl⟩
        | absent => exact ⟨[], rfl⟩
        | inherited i =>
          rw [hg] at hn
          cases hn
      obtain ⟨list, hl⟩ := hlist
      exact ⟨_, list, hl, rfl⟩

/-- Of the modules only the one that keeps nonces can throw. -/
theorem module_returns {m : PolicyModule} (hm : m ∈ modulesFor intent) (hne : m ≠ replayModule) :
    ∃ r, m intent state context = .ok r := by
  have hall : m ∈ executeModules := by
    rw [modulesFor] at hm
    split at hm
    · simp only [releaseModules, executeModules, List.mem_cons, List.not_mem_nil, or_false] at hm ⊢
      tauto
    · exact hm
  simp only [executeModules, List.mem_cons, List.not_mem_nil, or_false] at hall
  rcases hall with rfl | rfl | rfl | rfl | rfl | rfl | rfl | rfl
  · rw [killSwitchModule]
    split
    · exact ⟨_, rfl⟩
    · split <;> exact ⟨_, rfl⟩
  · exact ⟨_, rfl⟩
  · exact absurd rfl hne
  · rw [recursionDepthModule]
    split
    · exact ⟨_, rfl⟩
    · exact ⟨_, rfl⟩
    · split <;> exact ⟨_, rfl⟩
  · rw [concurrencyModule]
    dsimp only
    split
    · exact ⟨_, rfl⟩
    · split
      · exact ⟨_, rfl⟩
      · split
        · split <;> exact ⟨_, rfl⟩
        · split <;> exact ⟨_, rfl⟩
  · rw [toolAmplificationModule]
    split <;> exact ⟨_, rfl⟩
  · rw [budgetModule]
    split
    · exact ⟨_, rfl⟩
    · dsimp only
      split
      · exact ⟨_, rfl⟩
      · exact ⟨_, rfl⟩
      · split
        · exact ⟨_, rfl⟩
        · split <;> exact ⟨_, rfl⟩
  · rw [velocityModule]
    dsimp only
    split
    · exact ⟨_, rfl⟩
    · split
      · exact ⟨_, rfl⟩
      · split <;> exact ⟨_, rfl⟩

theorem replayModule_mem (intent : Intent) : replayModule ∈ modulesFor intent := by
  rw [modulesFor]
  cases intent.kind <;> simp [releaseModules, executeModules]

theorem mapM_returns {α β : Type} {f : α → Except JsError β} {xs : List α} :
    (∃ ys, xs.mapM f = .ok ys) ↔ ∀ x ∈ xs, ∃ y, f x = .ok y := by
  induction xs with
  | nil => simp [pure, Except.pure]
  | cons x xs ih =>
    rw [List.forall_mem_cons, ← ih]
    constructor
    · rintro ⟨ys, h⟩
      obtain ⟨y, ys', hy, hys, -⟩ := mapM_cons_ok.mp h
      exact ⟨⟨y, hy⟩, ys', hys⟩
    · rintro ⟨⟨y, hy⟩, ys', hys⟩
      exact ⟨y :: ys', mapM_cons_ok.mpr ⟨y, ys', hy, hys, rfl⟩⟩

/-- The decision phase throws when it cannot read the nonces. -/
theorem runDecisionModules_returns (mode : EvalMode) (context : PolicyEvaluationContext) :
    (∃ d, runDecisionModules intent state context mode (modulesFor intent) = .ok d) ↔
      (validReplayConfig state.replay = true → (state.replay.nonces.get intent.agentId).isInherited = false) := by
  have hmap : (∃ d, runDecisionModules intent state context mode (modulesFor intent) = .ok d) ↔
      ∃ results, (modulesFor intent).mapM (fun m : PolicyModule => m intent state context) = .ok results := by
    simp only [runDecisionModules, map_eq_ok]
    constructor
    · rintro ⟨d, results, h, -⟩
      exact ⟨results, h⟩
    · rintro ⟨results, h⟩
      exact ⟨_, results, h, rfl⟩
  rw [hmap, mapM_returns, ← replayModule_returns context]
  constructor
  · exact fun h => h replayModule (replayModule_mem intent)
  · intro h m hm
    by_cases hr : m = replayModule
    · rw [hr]
      exact h
    · exact module_returns hm hr

theorem hashable_working (hn : NfcLaws P.nfc) (hpre : Prechecked e intent state t) {nextState : State}
    (hd : runDecisionModules intent state (moduleContext e t) mode (modulesFor intent) = .ok (.allow nextState))
    (hstate : Hashable P state) :
    Hashable P (materializeLeases intent state nextState t) ↔ Chargeable P.nfc intent state t := by
  obtain ⟨c, hc, rfl⟩ := (runDecisionModules_modulesFor hpre.leaves).mp hd
  have hm : materializeLeases intent state (proposed intent state (moduleContext e t) c) t =
      settle intent state (moduleContext e t) c := materializeLeases_proposed hc
  rw [hm]
  exact hashable_settle hn hstate hpre.leaves hc hpre.clock.seconds

theorem verifyTrustedTime_returns (h : ValidClock e t) (intent : Intent) : ∃ r, verifyTrustedTime intent.timestamp t
    e.opts.maxClockSkewSeconds e.opts.maxIntentAgeSeconds = .ok r := by
  simp only [verifyTrustedTime, h.seconds, e.clockSkew, e.intentAge, Bool.not_true, Bool.false_eq_true, if_false]
  split
  · exact ⟨_, rfl⟩
  · split
    · exact ⟨_, rfl⟩
    · split <;> exact ⟨_, rfl⟩

/-- Judging settles when the nonces can be read, and what it hashes and signs can be hashed and signed. -/
theorem settles_parts (hn : NfcLaws P.nfc) (hpre : Prechecked e intent state t) :
    Settles P e intent state t mode count ↔
      (verifyTrustedTime intent.timestamp t e.opts.maxClockSkewSeconds e.opts.maxIntentAgeSeconds = .ok (.allow none) →
        validReplayConfig state.replay = true → (state.replay.nonces.get intent.agentId).isInherited = false) ∧
      (passes e intent state t mode = false → Due e (count + 2) → Hashable P state) ∧
      (passes e intent state t mode = true →
        (Hashable P state ∧ Chargeable P.nfc intent state t) ∧ CanSign P e) := by
  obtain ⟨freshness, hf⟩ := verifyTrustedTime_returns hpre.clock intent
  cases freshness with
  | deny reasons =>
    have hp : passes e intent state t mode = false := by simp only [passes, hf]
    simp only [Settles, hf]
    constructor
    · intro hdue
      exact ⟨fun h => by simp at h, fun _ => hdue, fun h => by simp [hp] at h⟩
    · rintro ⟨-, hrefused, -⟩
      exact hrefused hp
  | allow delta =>
    obtain rfl := verifyTrustedTime_delta hf
    have hreturns : (∃ d, runDecisionModules intent state (moduleContext e t) mode (modulesFor intent) = .ok d) ↔ _ :=
      runDecisionModules_returns mode (moduleContext e t)
    cases hd : runDecisionModules intent state (moduleContext e t) mode (modulesFor intent) with
    | error err =>
      simp only [Settles, hf, hd, false_iff]
      rintro ⟨hnonces, -⟩
      obtain ⟨d, hok⟩ := hreturns.mpr (hnonces trivial)
      rw [hd] at hok
      cases hok
    | ok decision =>
      have hnonces := hreturns.mp ⟨decision, hd⟩
      cases decision with
      | deny reasons =>
        have hp : passes e intent state t mode = false := by simp only [passes, hf, hd]
        simp only [Settles, hf, hd]
        constructor
        · intro hdue
          exact ⟨fun _ => hnonces, fun _ => hdue, fun h => by simp [hp] at h⟩
        · rintro ⟨-, hrefused, -⟩
          exact hrefused hp
      | allow nextState =>
        have hp : passes e intent state t mode = true := by simp only [passes, hf, hd]
        simp only [Settles, hf, hd]
        constructor
        · rintro ⟨hstate, hworking, hsign⟩
          exact ⟨fun _ => hnonces, fun h => by simp [hp] at h,
            fun _ => ⟨⟨hstate, (hashable_working hn hpre hd hstate).mp hworking⟩, hsign⟩⟩
        · rintro ⟨-, -, hpermitted⟩
          obtain ⟨⟨hstate, hcharge⟩, hsign⟩ := hpermitted hp
          exact ⟨hstate, (hashable_working hn hpre hd hstate).mpr hcharge, hsign⟩

/-- Judging settles exactly when what it reads and charges can be written. -/
theorem settles_iff (hn : NfcLaws P.nfc) (hs : CanSign P e) (hpre : Prechecked e intent state t)
    (hh : ∃ hash, intentHash P intent = .ok hash) :
    Settles P e intent state t mode count ↔ Judgeable P e intent state t mode count := by
  rw [settles_parts hn hpre]
  constructor
  · rintro ⟨hnonces, hrefused, hpermitted⟩
    exact ⟨hpre.clock, hh, hnonces, hrefused, fun hp => (hpermitted hp).1⟩
  · intro h
    exact ⟨h.nonces, h.refused, fun hp => ⟨h.permitted hp, hs⟩⟩

/-- The evaluation throws when the intent has no hash or judging it does not settle. -/
theorem evaluateGuarded_returns (mode : EvalMode) (log : AuditLog) (hP : PlatformLaws P) (hx : HexStable P.nfc)
    (hpre : Prechecked e intent state t) :
    (∃ out, (evaluateGuarded P e intent state t mode log).1 = .ok out) ↔
      (∃ hash, intentHash P intent = .ok hash) ∧ Settles P e intent state t mode log.auditEventCount := by
  cases hh : intentHash P intent with
  | error err =>
    have hg : Emits (evaluateGuarded P e intent state t mode) log (.error err) [] log := by
      rw [evaluateGuarded_eq, hh]
      exact (Emits.lift _ log).bind_error
    simp [hg.1]
  | ok hash =>
    obtain ⟨log₁, h₁⟩ := emitAudit_emits (P := P) hP.nfc (.intentReceived hash intent.agentId t
      (computePolicyId P e)) hpre.clock.seconds log
    have hcount : log₁.auditEventCount = log.auditEventCount + 1 := h₁.2.2
    have hjudge : ∀ {r es log₂}, Emits (judge P e intent state t mode hash) log₁ r es log₂ →
        (evaluateGuarded P e intent state t mode log).1 = r := by
      intro r es log₂ hj
      have hg : Emits (evaluateGuarded P e intent state t mode) log r
          (.intentReceived hash intent.agentId t (computePolicyId P e) :: es) log₂ := by
        rw [evaluateGuarded_eq, hh]
        exact (Emits.lift _ log).bind (h₁.bind hj)
      rw [hg.1]
    constructor
    · rintro ⟨out, hout⟩
      refine ⟨⟨hash, rfl⟩, ?_⟩
      by_contra hnot
      obtain ⟨err, es, log₂, hj, -⟩ := judge_throws hash hP.nfc hpre hcount hnot
      rw [hjudge hj] at hout
      cases hout
    · rintro ⟨-, hsettles⟩
      obtain ⟨out, log₂, hj, -⟩ := judge_settled hash hP.nfc hx (digest_hex hP) hpre hcount hsettles
      exact ⟨out, hjudge hj⟩

/-- What the evaluation returns carries no reason of a throw. -/
theorem outcome_reasons {out : EvaluatePureOutput} (hn : NfcLaws P.nfc)
    (h : outcome P e intent state t mode count = .ok out) : ReasonCode.internalError ∉ out.reasons := by
  obtain ⟨hash, -, h⟩ := bind_eq_ok.mp h
  obtain ⟨freshness, hf, h⟩ := bind_eq_ok.mp h
  cases freshness with
  | deny reasons =>
    obtain ⟨rfl, -⟩ := (withCheckpoint_ok hn).mp h
    exact verifyTrustedTime_deny hf
  | allow delta =>
    obtain ⟨decision, hd, h⟩ := bind_eq_ok.mp h
    cases decision with
    | deny reasons =>
      obtain ⟨rfl, -⟩ := (withCheckpoint_ok hn).mp h
      exact runDecisionModules_deny hd
    | allow nextState =>
      obtain ⟨auth, -, h⟩ := bind_eq_ok.mp h
      obtain ⟨rfl, -⟩ := (withCheckpoint_ok hn).mp h
      simp [EvaluatePureOutput.reasons]

theorem decidesSpecifically_caught {r : Except JsError EvaluatePureOutput}
    (hr : ∀ out, r = .ok out → ReasonCode.internalError ∉ out.reasons) :
    DecidesSpecifically (caught r) ↔ ∃ out, r = .ok out := by
  cases r with
  | error err => simp [DecidesSpecifically, caught, EvaluatePureOutput.reasons]
  | ok out =>
    constructor
    · exact fun _ => ⟨out, rfl⟩
    · exact fun _ => ⟨out, rfl, hr out rfl⟩

/-- An evaluation decides for a reason of its own exactly when it refuses the intent
or the state at once, or nothing that it goes on to read makes it throw. -/
theorem decides_unless_unwritable (hP : PlatformLaws P) (hx : HexStable P.nfc) (hs : CanSign P e) :
    DecidesSpecifically (evaluatePure P e intent state t mode log).1 ↔
      (Validated e intent state → Judgeable P e intent state t mode log.auditEventCount) := by
  rw [evaluatePure_fst hP.nfc]
  by_cases hv : Validated e intent state
  · simp only [hv, true_implies]
    by_cases hc : ValidClock e t
    · have hpre := prechecked_of_validated hv hc
      have hreturns := evaluateGuarded_returns mode log hP hx hpre
      rw [evaluateGuarded_fst hP.nfc hc] at hreturns
      simp only [precheck_ok.mpr hpre]
      rw [decidesSpecifically_caught fun out => outcome_reasons hP.nfc, hreturns]
      constructor
      · rintro ⟨hh, hsettles⟩
        exact (settles_iff hP.nfc hs hpre hh).mp hsettles
      · intro h
        exact ⟨h.hash, (settles_iff hP.nfc hs hpre h.hash).mpr h⟩
    · obtain ⟨err, hthrow⟩ := precheck_throws hv hc
      simp only [hthrow]
      constructor
      · rintro ⟨out, hout, -⟩
        cases hout
      · exact fun h => absurd h.clock hc
  · obtain ⟨reason, hne, hdeny⟩ := precheck_refuses (t := t) hv
    simp only [hdeny]
    constructor
    · exact fun _ h => absurd h hv
    · exact fun _ => ⟨_, rfl, by simpa [EvaluatePureOutput.reasons] using hne.symm⟩

end

/-- An agent whose name is that of a method every object has, with no nonce used yet. -/
def methodState : State :=
  { sampleState (js "constructor") with
    budget := ⟨Record.empty.set (js "constructor") 100, Record.empty.set (js "constructor") 0⟩ }

/-- The nonces of `constructor` are read from the prototype, and a function has no `filter`. -/
theorem method_name_internal_error : ¬ ∀ (P : Platform) (e : PolicyEngine) (intent : Intent) (state : State)
    (t : JsNumber) (mode : EvalMode) (log : AuditLog), PlatformLaws P → HexStable P.nfc → CanSign P e →
      intent.conforms = true → state.conforms = true → ValidClock e t →
        DecidesSpecifically (evaluatePure P e intent state t mode log).1 := by
  intro h
  have hpre : Prechecked sampleEngine (sampleIntent (js "constructor")) methodState (.int 1000) := by
    apply precheck_ok.mp
    rfl
  have hdecides := h samplePlatform sampleEngine (sampleIntent (js "constructor")) methodState (.int 1000)
    .failFast (AuditLog.initial samplePlatform) samplePlatform_laws hexStable_sample (canSign_sampleEngine _)
    (by decide) (by decide) hpre.clock
  rw [evaluatePure_fst samplePlatform_laws.nfc] at hdecides
  simp only [precheck_ok.mpr hpre] at hdecides
  obtain ⟨out, hout⟩ := (decidesSpecifically_caught fun out => outcome_reasons samplePlatform_laws.nfc).mp hdecides
  obtain ⟨hash, -, hout⟩ := bind_eq_ok.mp hout
  obtain ⟨freshness, hf, hout⟩ := bind_eq_ok.mp hout
  obtain rfl : freshness = .allow none := (Except.ok.inj hf).symm
  obtain ⟨decision, hd, -⟩ := bind_eq_ok.mp hout
  have hnonces := (runDecisionModules_returns .failFast (moduleContext sampleEngine (.int 1000))).mp ⟨decision, hd⟩
  exact absurd (hnonces (by decide)) (by decide)

/-- The sample intent is permitted. -/
theorem decides_unless_unwritable_sample : DecidesSpecifically (evaluatePure samplePlatform sampleEngine
    (sampleIntent (js "a")) (sampleState (js "a")) (.int 1000) .failFast (AuditLog.initial samplePlatform)).1 := by
  refine (decides_unless_unwritable samplePlatform_laws hexStable_sample (canSign_sampleEngine _)).mpr fun _ => ?_
  have hstate : Hashable samplePlatform (sampleState (js "a")) := isHashable_iff.mp (by decide)
  have hsettled : Hashable samplePlatform (settle (sampleIntent (js "a")) (sampleState (js "a"))
      (moduleContext sampleEngine (.int 1000)) sampleCharge) := isHashable_iff.mp (by decide)
  have hrun : runDecisionModules (sampleIntent (js "a")) (sampleState (js "a"))
      (moduleContext sampleEngine (.int 1000)) .failFast (modulesFor (sampleIntent (js "a"))) = _ :=
    (runDecisionModules_modulesFor prechecked_sample.leaves).mpr ⟨_, admitted_sample, rfl⟩
  have hgate : verifyTrustedTime (sampleIntent (js "a")).timestamp (.int 1000)
    sampleEngine.opts.maxClockSkewSeconds sampleEngine.opts.maxIntentAgeSeconds = .ok (.allow none) := rfl
  have hp : passes sampleEngine (sampleIntent (js "a")) (sampleState (js "a")) (.int 1000) .failFast = true := by
    simp only [passes, hgate, hrun]
  exact {
    clock := prechecked_sample.clock
    hash := ⟨_, sha256HexFromJson_ok.mpr ⟨(isCanonical_iff _).mp (by decide), rfl⟩⟩
    nonces := fun _ _ => by decide
    refused := fun h => by simp [hp] at h
    permitted := fun _ => ⟨hstate, (hashable_settle samplePlatform_laws.nfc hstate prechecked_sample.leaves
      admitted_sample prechecked_sample.clock.seconds).mp hsettled⟩ }

end OxDeAI
