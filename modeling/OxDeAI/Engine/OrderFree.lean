import OxDeAI.Engine.InternalErrors
import OxDeAI.Policy.OrderFree
import OxDeAI.Snapshot.OrderFree

/-! Evaluations of two states that differ only in the order things were written in. -/

namespace OxDeAI

open Js

/-- The same throw or refusal, or one authorization and next states that differ in
order only. -/
inductive SameOutcome : Except JsError EvaluatePureOutput → Except JsError EvaluatePureOutput → Prop
  | throws (err : JsError) : SameOutcome (.error err) (.error err)
  | deny (reasons : List ReasonCode) : SameOutcome (.ok (.deny reasons)) (.ok (.deny reasons))
  | allow (authorization : Authorization) {next next' : State} (h : SameState next next') :
    SameOutcome (.ok (.allow authorization next)) (.ok (.allow authorization next'))

section

variable (P : Platform) (e : PolicyEngine) (intent : Intent) (state : State) (t : JsNumber) (mode : EvalMode)

/-- What it takes for an intent to be permitted and its authorization issued. -/
structure Permissible : Prop where
  prechecked : Prechecked e intent state t
  hash : ∃ hash, intentHash P intent = .ok hash
  passes : passes e intent state t mode = true
  hashable : Hashable P state
  chargeable : Chargeable P.nfc intent state t
  sign : CanSign P e

end

section

variable {P : Platform} {e : PolicyEngine} {intent : Intent} {s s' : State} {t : JsNumber} {mode : EvalMode}
  {log : AuditLog}

theorem passes_iff : passes e intent s t mode = true ↔
    verifyTrustedTime intent.timestamp t e.opts.maxClockSkewSeconds e.opts.maxIntentAgeSeconds = .ok (.allow none) ∧
      ∃ next, runDecisionModules intent s (moduleContext e t) mode (modulesFor intent) = .ok (.allow next) := by
  unfold passes
  constructor
  · intro h
    split at h
    · rename_i delta next hf hd
      obtain rfl := verifyTrustedTime_delta hf
      exact ⟨hf, next, hd⟩
    · cases h
  · rintro ⟨hf, next, hd⟩
    rw [hf, hd]

theorem runDecisionModules_admitted {context : PolicyEvaluationContext} {c : Charge} (mode : EvalMode)
    (hleaves : NumericLeaves s intent.agentId) (h : Admitted intent s context c) :
    runDecisionModules intent s context mode (modulesFor intent) = .ok (.allow (proposed intent s context c)) :=
  (runDecisionModules_modulesFor hleaves).mpr ⟨c, h, rfl⟩

/-- The state a permission leaves can be written wherever the charged one can. -/
theorem hashable_nextStateFor (hP : PlatformLaws P) (hx : HexStable P.nfc) {c : Charge} {parts : AuthorizationParts}
    (h : Permitted P e intent s t c parts) : Hashable P (nextStateFor P e intent s t c parts) := by
  have hd := runDecisionModules_admitted .failFast h.leaves h.admitted
  have hm : materializeLeases intent s (proposed intent s (moduleContext e t) c) t =
      settle intent s (moduleContext e t) c := materializeLeases_proposed h.admitted
  have hid : parts.authorizationId.all isHexUnit = true := by
    rw [(sha256HexFromJson_ok.mp h.issued.authorizationId).2]
    exact digest_hex hP _
  have hw := (hashable_of_computeStateHash h.issued.snapshot).1
  rw [← hm] at hw
  have hnext := hashable_leaseState hP.nfc hx h.toPrechecked hd hw hid
  rw [hm] at hnext
  exact hnext

/-- A call is permitted exactly under these conditions. -/
theorem permissible_iff (log : AuditLog) (hP : PlatformLaws P) (hx : HexStable P.nfc) :
    (∃ auth next, (evaluatePure P e intent s t mode log).1 = .ok (.allow auth next)) ↔
      Permissible P e intent s t mode := by
  constructor
  · rintro ⟨auth, next, h⟩
    obtain ⟨c, parts, hp, -⟩ := (evaluatePure_fst_allow hP.nfc).mp h
    have hstate := (hashable_of_computeStateHash hp.issued.stateHash).1
    have hsettled := (hashable_of_computeStateHash hp.issued.snapshot).1
    exact {
      prechecked := hp.toPrechecked
      hash := ⟨_, hp.hash⟩
      passes := passes_iff.mpr ⟨hp.fresh, _, (runDecisionModules_modulesFor hp.leaves).mpr ⟨c, hp.admitted, rfl⟩⟩
      hashable := hstate
      chargeable := (hashable_settle hP.nfc hstate hp.leaves hp.admitted hp.clock.seconds).mp hsettled
      sign := .of_signed hp.issued.signature }
  · intro h
    obtain ⟨hash, hh⟩ := h.hash
    obtain ⟨hfresh, next, hd⟩ := passes_iff.mp h.passes
    obtain ⟨c, hc, rfl⟩ := (runDecisionModules_modulesFor h.prechecked.leaves).mp hd
    have hsettled := (hashable_settle hP.nfc h.hashable h.prechecked.leaves hc h.prechecked.clock.seconds).mpr
      h.chargeable
    obtain ⟨parts, hp⟩ := exists_permitted hP.nfc h.sign h.prechecked hh hfresh hc h.hashable hsettled
    exact ⟨_, _, (evaluatePure_fst_allow hP.nfc).mpr ⟨c, parts, hp, rfl, rfl, fun _ => hashable_nextStateFor hP hx hp⟩⟩

theorem isRuntimeState_congr (h : SameState s s') : isRuntimeState s = isRuntimeState s' := by
  rw [isRuntimeState, isRuntimeState, h.velocity.config, h.replay.windowSeconds, h.replay.maxNoncesPerAgent,
    h.toolLimits.windowSeconds]

theorem validateNumericLeaves_congr (h : SameState s s') (agent : JsString) :
    validateNumericLeaves s agent = validateNumericLeaves s' agent := by
  simp only [validateNumericLeaves, h.budget.budgetLimit.get_eq, h.budget.spentInPeriod.get_eq,
    h.maxAmountPerAction.get_eq, h.concurrency.maxConcurrent.get_eq, h.recursion.get_eq, h.toolLimits.maxCalls.get_eq]

theorem precheck_sameState (h : SameState s s') (e : PolicyEngine) (intent : Intent) (t : JsNumber) :
    precheck e intent s t = precheck e intent s' t := by
  simp only [precheck, validateStateForIntent, isRuntimeState_congr h, validateNumericLeaves_congr h, h.policyVersion]

theorem hashable_congr (hn : NfcLaws P.nfc) (h : SameState s s') (hs : Hashable P s) : Hashable P s' := by
  intro id
  obtain ⟨hser, hcan⟩ := hs id
  refine ⟨serializable_congr h hser, ?_⟩
  by_cases hid : id = .toolAmplification
  · subst hid
    exact canonical_toolLimits_congr hn h hcan
  · rw [← payload_congr h hser hid]
    exact hcan

/-- Hashes of states that differ in order only, the ties of their calls in one order. -/
theorem stateDigest_congr (h : SameState s s') (hs : Hashable P s) (hties : CallsAgree s.toolLimits s'.toolLimits) :
    stateDigest P e s = stateDigest P e s' := by
  have hdigests : moduleDigests P s = moduleDigests P s' := by
    refine List.map_congr_left fun id _ => ?_
    by_cases hid : id = .toolAmplification
    · subst hid
      rw [toolPayload_congr h (hs .toolAmplification).1 hties]
    · rw [payload_congr h (hs id).1 hid]
  rw [stateDigest, stateDigest, hdigests]

theorem materializeLeases_congr (h : SameState s s') {working working' : State} (hw : SameState working working') :
    SameState (materializeLeases intent s working t) (materializeLeases intent s' working' t) := by
  have hleases := computeConcurrencyLeases_congr intent t h.concurrency
  rw [materializeLeases, materializeLeases]
  generalize computeConcurrencyLeases intent s t = l at hleases
  generalize computeConcurrencyLeases intent s' t = l' at hleases
  cases hleases with
  | none => exact hw
  | some hl =>
    exact { hw with concurrency := { hw.concurrency with
      activeAuths := hw.concurrency.activeAuths.set intent.agentId hl.auths } }

theorem leaseState_congr (h : SameState s s') (auth : Authorization) :
    SameState (leaseState intent s auth) (leaseState intent s' auth) := by
  unfold leaseState
  cases intent.kind with
  | release => exact h
  | execute =>
    have hleases := (residentLeases_congr h.concurrency intent.agentId).set auth.authId (v := ⟨auth.expiry⟩) rfl
    exact { h with concurrency := { h.concurrency with
      activeAuths := h.concurrency.activeAuths.set intent.agentId hleases } }

theorem withCheckpoint_refusal (hn : NfcLaws P.nfc) (h : SameState s s') (count : ℕ) (reasons : List ReasonCode) :
    caught (withCheckpoint P e s count (.deny reasons)) = caught (withCheckpoint P e s' count (.deny reasons)) := by
  have hmove : ∀ {a b : State}, SameState a b → ∀ out, withCheckpoint P e a count (.deny reasons) = .ok out →
      withCheckpoint P e b count (.deny reasons) = .ok out := by
    intro a b hab out hok
    obtain ⟨hout, hdue⟩ := (withCheckpoint_ok hn).mp hok
    exact (withCheckpoint_ok hn).mpr ⟨hout, fun hd => hashable_congr hn hab (hdue hd)⟩
  cases hr : withCheckpoint P e s count (.deny reasons) with
  | ok out => rw [hmove h out hr]
  | error err =>
    cases hr' : withCheckpoint P e s' count (.deny reasons) with
    | error err' => rfl
    | ok out =>
      rw [hmove h.symm out hr'] at hr
      cases hr

/-- Issuing either permits or throws. -/
theorem issue_permits (hn : NfcLaws P.nfc) {working : State} {count : ℕ} {hash : JsString} {out : EvaluatePureOutput}
    (h : (issueAuthorization P e intent s working t hash).bind (fun authorization =>
      withCheckpoint P e (leaseState intent working authorization) count
        (.allow authorization (leaseState intent working authorization))) = .ok out) :
    ∃ auth next, out = .allow auth next := by
  obtain ⟨auth, -, h⟩ := bind_eq_ok.mp h
  obtain ⟨rfl, -⟩ := (withCheckpoint_ok hn).mp h
  exact ⟨_, _, rfl⟩

/-- Calls of which neither is permitted end alike. -/
theorem refusal_congr (hn : NfcLaws P.nfc) (h : SameState s s')
    (hs : ∀ auth next, (evaluatePure P e intent s t mode log).1 ≠ .ok (.allow auth next))
    (hs' : ∀ auth next, (evaluatePure P e intent s' t mode log).1 ≠ .ok (.allow auth next)) :
    (evaluatePure P e intent s t mode log).1 = (evaluatePure P e intent s' t mode log).1 := by
  rw [evaluatePure_fst hn] at hs hs' ⊢
  rw [evaluatePure_fst hn]
  rw [precheck_sameState h] at hs ⊢
  cases hpre : precheck e intent s' t with
  | error early => rfl
  | ok u =>
    simp only [hpre, outcome] at hs hs' ⊢
    cases hh : intentHash P intent with
    | error err => rfl
    | ok hash =>
      simp only [hh, Except.bind] at hs hs' ⊢
      cases hf : verifyTrustedTime intent.timestamp t e.opts.maxClockSkewSeconds e.opts.maxIntentAgeSeconds with
      | error err => rfl
      | ok freshness =>
        cases freshness with
        | deny reasons => exact withCheckpoint_refusal hn h _ reasons
        | allow delta =>
          simp only [hf, outcomeAfterGate] at hs hs' ⊢
          have hphase := runDecisionModules_congr intent (moduleContext e t) mode h
          generalize runDecisionModules intent s (moduleContext e t) mode (modulesFor intent) = d at hphase hs
          generalize runDecisionModules intent s' (moduleContext e t) mode (modulesFor intent) = d' at hphase hs'
          cases hphase with
          | error err => rfl
          | ok hd =>
            cases hd with
            | deny reasons => exact withCheckpoint_refusal hn h _ reasons
            | allow hnext =>
              -- what is issued would be a permission
              have hthrows : ∀ r : Except JsError EvaluatePureOutput, (∀ out, r = .ok out → ∃ auth next, out = .allow auth next) →
                  (∀ auth next, caught r ≠ .ok (.allow auth next)) → caught r = .ok (.deny [.internalError]) := by
                intro r hr hnot
                cases r with
                | error err => rfl
                | ok out =>
                  obtain ⟨auth, next, rfl⟩ := hr out rfl
                  exact absurd rfl (hnot auth next)
              exact (hthrows _ (fun _ hok => issue_permits hn hok) hs).trans
                (hthrows _ (fun _ hok => issue_permits hn hok) hs').symm

theorem own_calls_agree (h : SameState s s') (hties : CallsAgree s.toolLimits s'.toolLimits) {agent : JsString}
    (hne : agent ≠ protoKey) {calls calls' : List ToolCall} (hc : currentCalls s.toolLimits agent = some calls)
    (hc' : currentCalls s'.toolLimits agent = some calls') : TiesAgree calls calls' := by
  have hperm := currentCalls_congr h.toolLimits agent
  rw [hc, hc'] at hperm
  cases hperm with
  | some hp =>
    rcases own_calls hc with ⟨own, hown, rfl⟩ | rfl
    · rcases own_calls hc' with ⟨own', hown', rfl⟩ | rfl
      · exact hties agent own own' hne hown hown'
      · rw [hp.eq_nil]
        exact fun _ => rfl
    · rw [hp.nil_eq]
      exact fun _ => rfl

/-- A charge keeps the ties of every agent in one order. -/
theorem callsAgree_settle (h : SameState s s') (hties : CallsAgree s.toolLimits s'.toolLimits)
    {context : PolicyEvaluationContext} {c c' : Charge} (ha : Admitted intent s context c)
    (ha' : Admitted intent s' context c') :
    CallsAgree (settle intent s context c).toolLimits (settle intent s' context c').toolLimits := by
  have hkept : c.events = none → c'.events = none →
      CallsAgree (settle intent s context c).toolLimits (settle intent s' context c').toolLimits := by
    intro he he'
    simp only [settle, proposed, he, he']
    exact hties
  cases hk : intent.kind with
  | release => exact hkept (ha.release hk).1 (ha'.release hk).1
  | execute =>
    have hevents := admitted_events hk (ha.execute hk)
    have hevents' := admitted_events hk (ha'.execute hk)
    by_cases hname : namesTool intent = true
    · rw [if_pos hname] at hevents hevents'
      obtain ⟨tool, max, calls, htool, hrec, he⟩ := hevents
      obtain ⟨tool', max', calls', htool', hrec', he'⟩ := hevents'
      obtain rfl := Option.some.inj (htool.symm.trans htool')
      have hlimits : ∀ {state : State} {charge : Charge} {events : List ToolCall}, charge.events = some events →
          (settle intent state context charge).toolLimits.calls =
            state.toolLimits.calls.set intent.agentId (some events) := by
        intro state charge events hev
        simp only [settle, proposed, hev]
      intro agent own own' hne hown hown'
      rw [hlimits he, Record.own?_set] at hown
      rw [hlimits he', Record.own?_set] at hown'
      by_cases hagent : agent = intent.agentId
      · rw [if_pos hagent] at hown hown'
        obtain rfl := Option.some.inj hown
        obtain rfl := Option.some.inj hown'
        have hcurrent := own_calls_agree h hties (hagent ▸ hne) hrec.current hrec'.current
        simp only [Option.getD_some, pruneCalls, h.toolLimits.windowSeconds]
        exact (hcurrent.filter _).append _
      · rw [if_neg hagent] at hown hown'
        exact hties agent own own' hne hown hown'
    · rw [if_neg hname] at hevents hevents'
      exact hkept hevents hevents'

theorem settle_congr (h : SameState s s') {c c' : Charge} (hleaves : NumericLeaves s intent.agentId)
    (hleaves' : NumericLeaves s' intent.agentId) (ha : Admitted intent s (moduleContext e t) c)
    (ha' : Admitted intent s' (moduleContext e t) c') :
    SameState (settle intent s (moduleContext e t) c) (settle intent s' (moduleContext e t) c') := by
  have hd := runDecisionModules_admitted .failFast hleaves ha
  have hd' := runDecisionModules_admitted .failFast hleaves' ha'
  have hphase := runDecisionModules_congr intent (moduleContext e t) .failFast h
  rw [hd, hd'] at hphase
  have hm : materializeLeases intent s (proposed intent s (moduleContext e t) c) t =
      settle intent s (moduleContext e t) c := materializeLeases_proposed ha
  have hm' : materializeLeases intent s' (proposed intent s' (moduleContext e t) c') t =
      settle intent s' (moduleContext e t) c' := materializeLeases_proposed ha'
  rw [← hm, ← hm']
  cases hphase with
  | ok hdecision =>
    cases hdecision with
    | allow hnext => exact materializeLeases_congr h hnext

/-- An authorization binds a state through its version and its hash only. -/
theorem issueAuthorization_congr {working working' : State} {hash : JsString} (hversion : s.policyVersion = s'.policyVersion)
    (hs : computeStateHash P e s = computeStateHash P e s')
    (hw : computeStateHash P e working = computeStateHash P e working') :
    issueAuthorization P e intent s working t hash = issueAuthorization P e intent s' working' t hash := by
  simp only [issueAuthorization, assembleAuthorization, hs, hw, hversion]

theorem computeStateHash_congr (hn : NfcLaws P.nfc) (h : SameState s s') (hs : Hashable P s)
    (hties : CallsAgree s.toolLimits s'.toolLimits) : computeStateHash P e s = computeStateHash P e s' := by
  rw [(computeStateHash_ok hn).mpr ⟨hs, rfl⟩, (computeStateHash_ok hn).mpr ⟨hashable_congr hn h hs, rfl⟩,
    stateDigest_congr h hs hties]

/-- Permitted calls whose ties agree return one authorization. -/
theorem permission_congr (hP : PlatformLaws P) (hx : HexStable P.nfc) (h : SameState s s')
    (hp : Permissible P e intent s t mode) (hp' : Permissible P e intent s' t mode)
    (hties : CallsAgree s.toolLimits s'.toolLimits) :
    SameOutcome (evaluatePure P e intent s t mode log).1 (evaluatePure P e intent s' t mode log).1 := by
  obtain ⟨auth, next, hr⟩ := (permissible_iff log hP hx).mpr hp
  obtain ⟨auth', next', hr'⟩ := (permissible_iff log hP hx).mpr hp'
  obtain ⟨c, parts, hperm, hauth, hnext, -⟩ := (evaluatePure_fst_allow hP.nfc).mp hr
  obtain ⟨c', parts', hperm', hauth', hnext', -⟩ := (evaluatePure_fst_allow hP.nfc).mp hr'
  have hsettle := settle_congr h hperm.leaves hperm'.leaves hperm.admitted hperm'.admitted
  have hstate := (hashable_of_computeStateHash hperm.issued.stateHash).1
  have hworking := (hashable_of_computeStateHash hperm.issued.snapshot).1
  have hsame : auth = auth' := by
    have hissued := issueAuthorization_ok.mpr ⟨parts, hperm.issued, rfl, rfl⟩
    have hissued' := issueAuthorization_ok.mpr ⟨parts', hperm'.issued, rfl, rfl⟩
    have hhash : parts'.intentHash = parts.intentHash := Except.ok.inj (hperm'.hash.symm.trans hperm.hash)
    rw [hhash, ← issueAuthorization_congr h.policyVersion (computeStateHash_congr hP.nfc h hstate hties)
      (computeStateHash_congr hP.nfc hsettle hworking (callsAgree_settle h hties hperm.admitted hperm'.admitted)),
      hissued] at hissued'
    rw [hauth, hauth']
    exact Except.ok.inj hissued'
  rw [hr, hr', ← hsame]
  refine .allow auth ?_
  rw [hnext, hnext', nextStateFor, nextStateFor, ← hauth, ← hauth', ← hsame]
  exact leaseState_congr hsettle auth

theorem Permissible.congr (hP : PlatformLaws P) (h : SameState s s')
    (hp : Permissible P e intent s t mode) : Permissible P e intent s' t mode := by
  obtain ⟨hfresh, next, hd⟩ := passes_iff.mp hp.passes
  have hpre : Prechecked e intent s' t := by
    rw [← precheck_ok, ← precheck_sameState h]
    exact precheck_ok.mpr hp.prechecked
  have hhash := hashable_congr hP.nfc h hp.hashable
  have hphase := runDecisionModules_congr intent (moduleContext e t) mode h
  rw [hd] at hphase
  generalize hd' : runDecisionModules intent s' (moduleContext e t) mode (modulesFor intent) = d' at hphase
  cases hphase with
  | ok hdecision =>
    cases hdecision with
    | @allow _ next' hnext =>
      obtain ⟨c, hc, rfl⟩ := (runDecisionModules_modulesFor hp.prechecked.leaves).mp hd
      obtain ⟨c', hc', rfl⟩ := (runDecisionModules_modulesFor hpre.leaves).mp hd'
      have hsettled := (hashable_settle hP.nfc hp.hashable hp.prechecked.leaves hc hp.prechecked.clock.seconds).mpr
        hp.chargeable
      have hsettled' := hashable_congr hP.nfc (settle_congr h hp.prechecked.leaves hpre.leaves hc hc') hsettled
      exact {
        prechecked := hpre
        hash := hp.hash
        passes := passes_iff.mpr ⟨hfresh, _, hd'⟩
        hashable := hhash
        chargeable := (hashable_settle hP.nfc hhash hpre.leaves hc' hpre.clock.seconds).mp hsettled'
        sign := hp.sign }

/-- A permission binds the order of the ties, through the hash of the state. -/
theorem callsAgree_of_sameOutcome (hP : PlatformLaws P) (hx : HexStable P.nfc) (h : SameState s s')
    (hp : Permissible P e intent s t mode)
    (hout : SameOutcome (evaluatePure P e intent s t mode log).1 (evaluatePure P e intent s' t mode log).1) :
    CallsAgree s.toolLimits s'.toolLimits := by
  obtain ⟨auth, next, hr⟩ := (permissible_iff log hP hx).mpr hp
  rw [hr] at hout
  generalize hr' : (evaluatePure P e intent s' t mode log).1 = r' at hout
  cases hout with
  | allow _ hnext =>
    obtain ⟨c, parts, hperm, hauth, -⟩ := (evaluatePure_fst_allow hP.nfc).mp hr
    obtain ⟨c', parts', hperm', hauth', -⟩ := (evaluatePure_fst_allow hP.nfc).mp hr'
    have hhash : parts.stateHash = parts'.stateHash := by
      have hfield := congrArg Authorization.stateHash (hauth.symm.trans hauth')
      exact hfield
    obtain ⟨hs, hdigest⟩ := hashable_of_computeStateHash hperm.issued.stateHash
    obtain ⟨hs', hdigest'⟩ := hashable_of_computeStateHash hperm'.issued.stateHash
    have hdigests : stateDigest P e s = stateDigest P e s' := by rw [← hdigest, ← hdigest', hhash]
    have hforms := (stateDigest_eq_iff hP hs hs').mp hdigests
    exact callsAgree_of_normalForm hP.nfc h (hs .toolAmplification).1 (hs .toolAmplification).2
      (hforms .toolAmplification)

/-- States that differ in order only are judged alike, except that a permission binds
the order of the tool calls of one second that name no tool. -/
theorem order_free_unless_ties (hP : PlatformLaws P) (hx : HexStable P.nfc) (h : SameState s s') :
    SameOutcome (evaluatePure P e intent s t mode log).1 (evaluatePure P e intent s' t mode log).1 ↔
      (Permissible P e intent s t mode → CallsAgree s.toolLimits s'.toolLimits) := by
  constructor
  · exact fun hout hp => callsAgree_of_sameOutcome hP hx h hp hout
  · intro hties
    by_cases hp : Permissible P e intent s t mode
    · exact permission_congr hP hx h hp (hp.congr hP h) (hties hp)
    · have hp' : ¬ Permissible P e intent s' t mode := fun hp' => hp (hp'.congr hP h.symm)
      have hs : ∀ auth next, (evaluatePure P e intent s t mode log).1 ≠ .ok (.allow auth next) :=
        fun auth next hr => hp ((permissible_iff log hP hx).mp ⟨auth, next, hr⟩)
      have hs' : ∀ auth next, (evaluatePure P e intent s' t mode log).1 ≠ .ok (.allow auth next) :=
        fun auth next hr => hp' ((permissible_iff log hP hx).mp ⟨auth, next, hr⟩)
      rw [refusal_congr hP.nfc h hs hs']
      cases hr : (evaluatePure P e intent s' t mode log).1 with
      | error err => exact .throws err
      | ok out =>
        cases out with
        | deny reasons => exact .deny reasons
        | allow auth next => exact absurd hr (hs' auth next)

end

/-- The sample state, with the calls of another agent. -/
def callsState (calls : List ToolCall) : State :=
  { sampleState (js "a") with
    toolLimits := { (sampleState (js "a")).toolLimits with calls := Record.empty.set (js "b") (some calls) } }

theorem sameState_calls {calls calls' : List ToolCall} (h : calls.Perm calls') :
    SameState (callsState calls) (callsState calls') :=
  { SameState.refl (sampleState (js "a")) with
    toolLimits := { (SameState.refl (sampleState (js "a"))).toolLimits with
      calls := (SameRecord.refl (rel_refl List.Perm.refl) Record.empty).set (js "b") (.some h) } }

/-- One call without a tool and one with an empty name, in the same second. -/
def unnamedCalls : List ToolCall := [⟨.int 1, none⟩, ⟨.int 1, some []⟩]

theorem permissible_calls : Permissible samplePlatform sampleEngine (sampleIntent (js "a")) (callsState unnamedCalls)
    (.int 1000) .failFast where
  prechecked := by
    apply precheck_ok.mp
    rfl
  hash := ⟨_, sha256HexFromJson_ok.mpr ⟨(isCanonical_iff _).mp (by decide), rfl⟩⟩
  passes := by decide
  hashable := isHashable_iff.mp (by decide)
  chargeable :=
    { apart :=
        { nonces := .inr fun k hk => by simp [written, callsState, sampleState] at hk
          spent := fun _ => .inr fun k hk => by simp [written, callsState, sampleState] at hk
          counters := fun _ => .inr fun k hk => by simp [written, callsState, sampleState] at hk
          calls := fun _ hname => by simp [namesTool, sampleIntent] at hname }
      fits := ⟨by decide, by decide, fun _ => by decide⟩ }
  sign := canSign_sampleEngine _

/-- Exchanging the two calls changes the hash that the authorization binds. -/
theorem exchanged_calls_differ : ¬ ∀ (P : Platform) (e : PolicyEngine) (intent : Intent) (s s' : State) (t : JsNumber)
    (mode : EvalMode) (log : AuditLog), PlatformLaws P → HexStable P.nfc → SameState s s' →
      SameOutcome (evaluatePure P e intent s t mode log).1 (evaluatePure P e intent s' t mode log).1 := by
  intro h
  have hsame := sameState_calls (List.reverse_perm unnamedCalls).symm
  have hout := h samplePlatform sampleEngine (sampleIntent (js "a")) (callsState unnamedCalls)
    (callsState unnamedCalls.reverse) (.int 1000) .failFast (AuditLog.initial samplePlatform) samplePlatform_laws
    hexStable_sample hsame
  have hagree := callsAgree_of_sameOutcome samplePlatform_laws hexStable_sample hsame permissible_calls hout
  have hties := hagree (js "b") (some unnamedCalls) (some unnamedCalls.reverse) (by decide) (by decide) (by decide)
    (.int 1)
  exact absurd hties (by decide)

/-- Agents listed in two orders. -/
theorem order_free_unless_ties_sample : SameOutcome
    (evaluatePure samplePlatform sampleEngine (sampleIntent (js "a")) { sampleState (js "a") with
      killSwitch := ⟨false, (Record.empty.set (js "a") false).set (js "b") true⟩ } (.int 1000) .failFast
        (AuditLog.initial samplePlatform)).1
    (evaluatePure samplePlatform sampleEngine (sampleIntent (js "a")) { sampleState (js "a") with
      killSwitch := ⟨false, (Record.empty.set (js "b") true).set (js "a") false⟩ } (.int 1000) .failFast
        (AuditLog.initial samplePlatform)).1 := by
  refine (order_free_unless_ties samplePlatform_laws hexStable_sample ?_).mpr fun _ => ?_
  · refine { SameState.refl (sampleState (js "a")) with killSwitch := ⟨rfl, ?_⟩ }
    intro k
    simp only [rel_eq, Record.own?_set]
    by_cases ha : k = js "a"
    · simp [ha, show js "a" ≠ js "b" by decide]
    · simp [ha]
  · intro agent calls calls' _ hown
    simp [sampleState] at hown

end OxDeAI
