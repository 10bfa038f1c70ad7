import OxDeAI.Engine.InternalErrors
import OxDeAI.Policy.Isolation

/-! Evaluations for an agent in two states that differ in the entries of others. -/

namespace OxDeAI

open Js

/-- The same throw, the same refusal, or two permissions. -/
inductive SameReply : Except JsError EvaluatePureOutput → Except JsError EvaluatePureOutput → Prop
  | throws (err : JsError) : SameReply (.error err) (.error err)
  | deny (reasons : List ReasonCode) : SameReply (.ok (.deny reasons)) (.ok (.deny reasons))
  | allow (auth auth' : Authorization) (next next' : State) :
    SameReply (.ok (.allow auth next)) (.ok (.allow auth' next'))

section

variable (P : Platform) (e : PolicyEngine) (intent : Intent) (state : State) (t : JsNumber) (mode : EvalMode)

/-- Nothing stops the evaluation before a state is hashed. -/
structure Evaluable : Prop extends Prechecked e intent state t where
  hash : ∃ hash, intentHash P intent = .ok hash
  nonces : verifyTrustedTime intent.timestamp t e.opts.maxClockSkewSeconds e.opts.maxIntentAgeSeconds =
    .ok (.allow none) → validReplayConfig state.replay = true →
      (state.replay.nonces.get intent.agentId).isInherited = false

/-- The states that are hashed have a hash: the given one for a due checkpoint of a
refusal, and the given and the charged one for an authorization. -/
structure HashesTaken (count : ℕ) : Prop where
  refused : passes e intent state t mode = false → Due e (count + 2) → Hashable P state
  permitted : passes e intent state t mode = true → CanSign P e → Hashable P state ∧ Chargeable P.nfc intent state t

end

section

variable {P : Platform} {e : PolicyEngine} {intent : Intent} {s s' : State} {t : JsNumber} {mode : EvalMode}
  {log : AuditLog} {count : ℕ}

theorem SameReply.refl (r : Except JsError EvaluatePureOutput) : SameReply r r := by
  cases r with
  | error err => exact .throws err
  | ok out =>
    cases out with
    | deny reasons => exact .deny reasons
    | allow auth next => exact .allow auth auth next next

theorem SameReply.reasons {out out' : EvaluatePureOutput} (h : SameReply (.ok out) (.ok out')) :
    out.reasons = out'.reasons := by
  cases h <;> rfl

theorem precheck_own (h : SameFor intent.agentId s s') (hs : validateStateForIntent s intent = .ok ())
    (hs' : validateStateForIntent s' intent = .ok ()) : precheck e intent s t = precheck e intent s' t := by
  simp only [precheck, hs, hs', h.policyVersion]

theorem passes_own (h : SameFor intent.agentId s s') : passes e intent s t mode = passes e intent s' t mode := by
  have hverdict := runDecisionModules_isolated h (moduleContext e t) mode
  rw [passes, passes]
  generalize runDecisionModules intent s (moduleContext e t) mode (modulesFor intent) = d at hverdict
  generalize runDecisionModules intent s' (moduleContext e t) mode (modulesFor intent) = d' at hverdict
  cases hverdict with
  | error err => rfl
  | ok hv =>
    cases hv with
    | deny reasons => rfl
    | allow next next' =>
      generalize verifyTrustedTime intent.timestamp t e.opts.maxClockSkewSeconds e.opts.maxIntentAgeSeconds = freshness
      rcases freshness with err | r
      · rfl
      · cases r <;> rfl

theorem nonces_own (h : SameFor intent.agentId s s') :
    (validReplayConfig s.replay = true → (s.replay.nonces.get intent.agentId).isInherited = false) ↔
      (validReplayConfig s'.replay = true → (s'.replay.nonces.get intent.agentId).isInherited = false) := by
  have hconfig : validReplayConfig s.replay = validReplayConfig s'.replay := by
    rw [validReplayConfig, validReplayConfig, h.replayWindow, h.maxNoncesPerAgent]
  rw [hconfig, Record.get_congr h.nonces]

/-- Where both evaluations come to an end they end alike. -/
theorem outcome_own (hn : NfcLaws P.nfc) (h : SameFor intent.agentId s s') {out out' : EvaluatePureOutput}
    (ho : outcome P e intent s t mode count = .ok out) (ho' : outcome P e intent s' t mode count = .ok out') :
    SameReply (.ok out) (.ok out') := by
  obtain ⟨hash, hh, ho⟩ := bind_eq_ok.mp ho
  obtain ⟨freshness, hf, ho⟩ := bind_eq_ok.mp ho
  obtain ⟨hash', hh', ho'⟩ := bind_eq_ok.mp ho'
  obtain ⟨freshness', hf', ho'⟩ := bind_eq_ok.mp ho'
  obtain rfl : freshness = freshness' := Except.ok.inj (hf.symm.trans hf')
  cases freshness with
  | deny reasons =>
    obtain ⟨rfl, -⟩ := (withCheckpoint_ok hn).mp ho
    obtain ⟨rfl, -⟩ := (withCheckpoint_ok hn).mp ho'
    exact .deny reasons
  | allow delta =>
    obtain ⟨decision, hd, ho⟩ := bind_eq_ok.mp ho
    obtain ⟨decision', hd', ho'⟩ := bind_eq_ok.mp ho'
    have hverdict := runDecisionModules_isolated h (moduleContext e t) mode
    rw [hd, hd'] at hverdict
    cases hverdict with
    | ok hv =>
      cases hv with
      | deny reasons =>
        obtain ⟨rfl, -⟩ := (withCheckpoint_ok hn).mp ho
        obtain ⟨rfl, -⟩ := (withCheckpoint_ok hn).mp ho'
        exact .deny reasons
      | allow next next' =>
        obtain ⟨auth, -, ho⟩ := bind_eq_ok.mp ho
        obtain ⟨auth', -, ho'⟩ := bind_eq_ok.mp ho'
        obtain ⟨rfl, -⟩ := (withCheckpoint_ok hn).mp ho
        obtain ⟨rfl, -⟩ := (withCheckpoint_ok hn).mp ho'
        exact .allow auth auth' _ _

/-- The reply differs when one of two evaluations throws and the other does not. -/
theorem sameReply_caught {r r' : Except JsError EvaluatePureOutput}
    (hr : ∀ out, r = .ok out → ReasonCode.internalError ∉ out.reasons)
    (hr' : ∀ out, r' = .ok out → ReasonCode.internalError ∉ out.reasons)
    (hboth : ∀ out out', r = .ok out → r' = .ok out' → SameReply (.ok out) (.ok out')) :
    SameReply (caught r) (caught r') ↔ ((∃ out, r = .ok out) ↔ ∃ out, r' = .ok out) := by
  have hthrown : ReasonCode.internalError ∈ (EvaluatePureOutput.deny [.internalError]).reasons := List.mem_singleton.mpr rfl
  cases r with
  | error err =>
    cases r' with
    | error err' => exact iff_of_true (.deny _) (by simp)
    | ok out' =>
      refine iff_of_false (fun h => ?_) (by simp)
      rw [h.reasons] at hthrown
      exact hr' out' rfl hthrown
  | ok out =>
    cases r' with
    | error err' =>
      refine iff_of_false (fun h => ?_) (by simp)
      rw [← h.reasons] at hthrown
      exact hr out rfl hthrown
    | ok out' => exact iff_of_true (hboth out out' rfl rfl) (by simp)

/-- A prechecked evaluation comes to an end when it reaches its hashes and they can be taken. -/
theorem outcome_returns (hP : PlatformLaws P) (hx : HexStable P.nfc) (hpre : Prechecked e intent s t) :
    (∃ out, outcome P e intent s t mode log.auditEventCount = .ok out) ↔ Evaluable P e intent s t ∧
      HashesTaken P e intent s t mode log.auditEventCount ∧ (passes e intent s t mode = true → CanSign P e) := by
  have hreturns := evaluateGuarded_returns mode log hP hx hpre
  rw [evaluateGuarded_fst hP.nfc hpre.clock, settles_parts hP.nfc hpre] at hreturns
  rw [hreturns]
  constructor
  · rintro ⟨hhash, hnonces, hrefused, hpermitted⟩
    exact ⟨⟨hpre, hhash, hnonces⟩, ⟨hrefused, fun hp _ => (hpermitted hp).1⟩, fun hp => (hpermitted hp).2⟩
  · rintro ⟨heval, htaken, hsign⟩
    exact ⟨heval.hash, heval.nonces, htaken.refused, fun hp => ⟨htaken.permitted hp (hsign hp), hsign hp⟩⟩

/-- An engine that cannot sign takes no hash for a permission. -/
theorem hashesTaken_unsigned (hp : passes e intent s t mode = true) (hsign : ¬ CanSign P e) :
    HashesTaken P e intent s t mode count := by
  refine ⟨fun hrefused => ?_, fun _ h => absurd h hsign⟩
  rw [hp] at hrefused
  cases hrefused

theorem evaluable_own (h : SameFor intent.agentId s s') (hs' : validateStateForIntent s' intent = .ok ())
    (heval : Evaluable P e intent s t) : Evaluable P e intent s' t := by
  obtain ⟨hruntime, hleaves⟩ := validateStateForIntent_ok.mp hs'
  refine ⟨⟨heval.intentValid, hruntime, hleaves, ?_, heval.clock⟩, heval.hash, fun hf => (nonces_own h).mp (heval.nonces hf)⟩
  rw [← h.policyVersion]
  exact heval.version

/-- In two states that differ in the entries of other agents an intent gets one reply, unless
the hashes that the evaluation takes exist for one of the states only. -/
theorem sameReply_iff (hP : PlatformLaws P) (hx : HexStable P.nfc) (h : SameFor intent.agentId s s')
    (hs : validateStateForIntent s intent = .ok ()) (hs' : validateStateForIntent s' intent = .ok ()) :
    SameReply (evaluatePure P e intent s t mode log).1 (evaluatePure P e intent s' t mode log).1 ↔
      (Evaluable P e intent s t → (HashesTaken P e intent s t mode log.auditEventCount ↔
        HashesTaken P e intent s' t mode log.auditEventCount)) := by
  have hsame := precheck_own (e := e) (t := t) h hs hs'
  rw [evaluatePure_fst hP.nfc, evaluatePure_fst hP.nfc, ← hsame]
  by_cases hpre : precheck e intent s t = .ok ()
  · simp only [hpre]
    rw [sameReply_caught (fun _ => outcome_reasons hP.nfc) (fun _ => outcome_reasons hP.nfc)
      fun _ _ => outcome_own hP.nfc h, outcome_returns hP hx (precheck_ok.mp hpre),
      outcome_returns hP hx (precheck_ok.mp (hsame ▸ hpre)), ← passes_own h]
    have heval : Evaluable P e intent s' t ↔ Evaluable P e intent s t :=
      ⟨evaluable_own h.symm hs, evaluable_own h hs'⟩
    rw [heval]
    by_cases hsign : passes e intent s t mode = true → CanSign P e
    · tauto
    · push Not at hsign
      obtain ⟨hp, hcannot⟩ := hsign
      have htaken : HashesTaken P e intent s t mode log.auditEventCount := hashesTaken_unsigned hp hcannot
      have htaken' : HashesTaken P e intent s' t mode log.auditEventCount :=
        hashesTaken_unsigned ((passes_own h) ▸ hp) hcannot
      tauto
  · have hnot : ¬ Evaluable P e intent s t := fun heval => hpre (precheck_ok.mpr heval.toPrechecked)
    cases hp : precheck e intent s t with
    | ok u => exact absurd hp hpre
    | error early => exact iff_of_true (.refl early) fun heval => absurd heval hnot

end

/-- The counter of an agent `b` has no window. -/
def corruptState : State :=
  { sampleState (js "a") with
    velocity := ⟨⟨.int 60, .int 10⟩, Record.empty.set (js "b") (some ⟨.nan, .int 0⟩)⟩ }

theorem sameFor_corrupt : SameFor (js "a") (sampleState (js "a")) corruptState where
  policyVersion := rfl
  periodId := rfl
  globalSwitch := rfl
  killSwitch := rfl
  allowlists := rfl
  budgetLimit := rfl
  spentInPeriod := rfl
  maxAmountPerAction := rfl
  velocityConfig := rfl
  counters := rfl
  replayWindow := rfl
  maxNoncesPerAgent := rfl
  nonces := rfl
  maxConcurrent := rfl
  active := rfl
  activeAuths := rfl
  maxDepth := rfl
  toolWindow := rfl
  maxCalls := rfl
  maxCallsByTool := .none
  calls := rfl

theorem passes_sample :
    passes sampleEngine (sampleIntent (js "a")) (sampleState (js "a")) (.int 1000) .failFast = true := by
  have hrun : runDecisionModules (sampleIntent (js "a")) (sampleState (js "a"))
      (moduleContext sampleEngine (.int 1000)) .failFast (modulesFor (sampleIntent (js "a"))) = _ :=
    (runDecisionModules_modulesFor prechecked_sample.leaves).mpr ⟨_, admitted_sample, rfl⟩
  have hgate : verifyTrustedTime (sampleIntent (js "a")).timestamp (.int 1000)
    sampleEngine.opts.maxClockSkewSeconds sampleEngine.opts.maxIntentAgeSeconds = .ok (.allow none) := rfl
  simp only [passes, hgate, hrun]

/-- It denies agent `a` what it was allowed. -/
theorem sameReply_iff_sample : ¬ SameReply
    (evaluatePure samplePlatform sampleEngine (sampleIntent (js "a")) (sampleState (js "a")) (.int 1000) .failFast
      (AuditLog.initial samplePlatform)).1
    (evaluatePure samplePlatform sampleEngine (sampleIntent (js "a")) corruptState (.int 1000) .failFast
      (AuditLog.initial samplePlatform)).1 := by
  intro h
  have hsame := (sameReply_iff samplePlatform_laws hexStable_sample sameFor_corrupt rfl rfl).mp h
  have heval : Evaluable samplePlatform sampleEngine (sampleIntent (js "a")) (sampleState (js "a")) (.int 1000) :=
    ⟨prechecked_sample, ⟨_, sha256HexFromJson_ok.mpr ⟨(isCanonical_iff _).mp (by decide), rfl⟩⟩, fun _ _ => by decide⟩
  have hstate : Hashable samplePlatform (sampleState (js "a")) := isHashable_iff.mp (by decide)
  have hsettled : Hashable samplePlatform (settle (sampleIntent (js "a")) (sampleState (js "a"))
      (moduleContext sampleEngine (.int 1000)) sampleCharge) := isHashable_iff.mp (by decide)
  have hcharge := (hashable_settle samplePlatform_laws.nfc hstate prechecked_sample.leaves admitted_sample
    prechecked_sample.clock.seconds).mp hsettled
  have htaken := (hsame heval).mp
    ⟨fun hrefused => by simp [passes_sample] at hrefused, fun _ _ => ⟨hstate, hcharge⟩⟩
  have hfor : SameFor (sampleIntent (js "a")).agentId (sampleState (js "a")) corruptState := sameFor_corrupt
  have hpasses : passes sampleEngine (sampleIntent (js "a")) corruptState (.int 1000) .failFast = true := by
    rw [← passes_own hfor]
    exact passes_sample
  have hcorrupt := (htaken.permitted hpasses (canSign_sampleEngine _)).1
  exact absurd (isHashable_iff.mpr hcorrupt) (by decide)

end OxDeAI
