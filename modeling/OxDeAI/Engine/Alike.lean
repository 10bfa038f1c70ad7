import OxDeAI.Engine.OrderFree
import OxDeAI.Policy.Alike

/-! The hash of a state decides what becomes of it: states that say the same are judged
alike, and left alike. -/

namespace OxDeAI

open Js

/-- States of one hash that say the same. -/
structure Twins (P : Platform) (s s' : State) : Prop where
  alike : Alike s s'
  ties : CallsAgree s.toolLimits s'.toolLimits
  left : Hashable P s
  right : Hashable P s'

/-- The same throw or refusal, or one authorization and states that are twins. -/
inductive SameFate (P : Platform) : Except JsError EvaluatePureOutput → Except JsError EvaluatePureOutput → Prop
  | throws (err : JsError) : SameFate P (.error err) (.error err)
  | deny (reasons : List ReasonCode) : SameFate P (.ok (.deny reasons)) (.ok (.deny reasons))
  | allow (authorization : Authorization) {next next' : State} (h : Twins P next next') :
    SameFate P (.ok (.allow authorization next)) (.ok (.allow authorization next'))

section

variable {P : Platform} {e : PolicyEngine} {intent : Intent} {s s' : State} {t : JsNumber} {mode : EvalMode}
  {context : PolicyEvaluationContext} {c c' : Charge} {log log' : AuditLog}

theorem Twins.symm (h : Twins P s s') : Twins P s' s where
  alike := h.alike.symm
  ties agent calls calls' hne hown hown' ts := (h.ties agent calls' calls hne hown' hown ts).symm
  left := h.right
  right := h.left

theorem hashable_listed (h : Hashable P s) : Hashable P s.listed := by
  intro id
  rw [payload_listed]
  exact ⟨serializable_listed (h id).1, (h id).2⟩

theorem stateDigest_listed (e : PolicyEngine) (s : State) : stateDigest P e s.listed = stateDigest P e s := by
  simp only [stateDigest, moduleDigests, payload_listed]

/-- Twins have one hash. -/
theorem Twins.stateDigest (h : Twins P s s') (e : PolicyEngine) : stateDigest P e s = stateDigest P e s' := by
  have hlisted := stateDigest_congr (e := e) h.alike.listed (hashable_listed h.left) h.ties
  rwa [stateDigest_listed, stateDigest_listed] at hlisted

theorem Twins.computeStateHash (hn : NfcLaws P.nfc) (h : Twins P s s') (e : PolicyEngine) :
    computeStateHash P e s = computeStateHash P e s' := by
  rw [(computeStateHash_ok hn).mpr ⟨h.left, rfl⟩, (computeStateHash_ok hn).mpr ⟨h.right, rfl⟩, h.stateDigest]

/-- No count of an agent is read from the prototype. -/
def OwnCounts (c : ConcurrencyState) : Prop := ∀ agent ∈ concurrencyAgents c,
  (c.maxConcurrent.get agent).isInherited = false ∧ (c.active.get agent).isInherited = false

theorem ownCounts_of_serializable (h : Serializable s .concurrency) : OwnCounts s.concurrency :=
  fun agent hagent => ⟨(h agent hagent).maxRead, (h agent hagent).activeRead⟩

theorem serializable_of_listed {id : ModuleId} (hown : OwnCounts s.concurrency) (h : Serializable s.listed id) :
    Serializable s id := by
  cases id with
  | concurrency =>
    intro agent hagent
    have hok : AgentConcurrencyOk s.concurrency.listed agent := h agent (mem_concurrencyAgents_listed.mpr hagent)
    have halike := alikeConcurrency_listed s.concurrency
    exact {
      maxRead := (hown agent hagent).1
      activeRead := (hown agent hagent).2
      max := (halike.max agent) ▸ hok.max
      active := (halike.active agent) ▸ hok.active
      le := by
        rw [halike.max agent, halike.active agent]
        exact hok.le
      leases := by
        rw [← listedLeases_listed]
        exact hok.leases }
  | _ => exact h

theorem hashable_of_listed (hown : OwnCounts s.concurrency) (h : Hashable P s.listed) : Hashable P s := by
  intro id
  have hlisted := h id
  rw [payload_listed] at hlisted
  exact ⟨serializable_of_listed hown hlisted.1, hlisted.2⟩

/-- A state that says the same as one with a hash has a hash when its counts are its own. -/
theorem Alike.hashable (hn : NfcLaws P.nfc) (h : Alike s s') (hs : Hashable P s) (hown : OwnCounts s'.concurrency) :
    Hashable P s' := hashable_of_listed hown (hashable_congr hn h.listed (hashable_listed hs))

theorem ownCounts_settle (context : PolicyEvaluationContext) (c : Charge) (hleaves : NumericLeaves s intent.agentId)
    (h : OwnCounts s.concurrency) : OwnCounts (settle intent s context c).concurrency := by
  intro agent hagent
  rw [concurrencyAgents_settle context hleaves] at hagent
  obtain ⟨hmax, hactive⟩ := h agent hagent
  refine ⟨hmax, ?_⟩
  have hset : (settle intent s context c).concurrency.active = s.concurrency.active.set intent.agentId
      (chargedActive intent s c) := assign_of_not_inherited (h _ (mem_concurrencyAgents hleaves)).2 _
  rw [hset]
  by_cases heq : agent = intent.agentId
  · rw [heq, Record.get_of_own? _ (Record.own?_set_self _ _ _)]
    rfl
  · rw [Record.get_congr (Record.own?_set_of_ne _ heq _)]
    exact hactive

theorem ownReads_of_hashable (hs : Hashable P s) (hleaves : NumericLeaves s intent.agentId)
    (hname : inherited? intent.agentId = none) : OwnReads intent s :=
  ⟨hleaves, (ownCounts_of_serializable (hs .concurrency).1 _ (mem_concurrencyAgents hleaves)).2, hname⟩

theorem sameVerdict_of_sameDecision {d d' : DecisionResult} (h : SameDecision d d') : SameVerdict d d' := by
  cases h with
  | deny reasons => exact .deny reasons
  | allow hnext => exact .allow _ _

theorem sameVerdict_symm {d d' : DecisionResult} (h : SameVerdict d d') : SameVerdict d' d := by
  cases h with
  | deny reasons => exact .deny reasons
  | allow next next' => exact .allow _ _

theorem sameVerdict_trans {d d' d'' : DecisionResult} (h : SameVerdict d d') (h' : SameVerdict d' d'') :
    SameVerdict d d'' := by
  cases h with
  | deny reasons => exact h'
  | allow next next' =>
    cases h' with
    | allow _ next'' => exact .allow _ _

/-- States that say the same get one verdict. -/
theorem runDecisionModules_alike (h : Alike s s') (hs : OwnReads intent s) (hs' : OwnReads intent s')
    (context : PolicyEvaluationContext) (mode : EvalMode) :
    ExceptRel SameVerdict (runDecisionModules intent s context mode (modulesFor intent))
      (runDecisionModules intent s' context mode (modulesFor intent)) := by
  have hleft := runDecisionModules_listed hs context mode
  have hmiddle := runDecisionModules_congr intent context mode h.listed
  have hright := runDecisionModules_listed hs' context mode
  generalize runDecisionModules intent s context mode (modulesFor intent) = d at hleft
  generalize runDecisionModules intent s' context mode (modulesFor intent) = d' at hright
  generalize runDecisionModules intent s.listed context mode (modulesFor intent) = x at hleft hmiddle
  generalize runDecisionModules intent s'.listed context mode (modulesFor intent) = x' at hright hmiddle
  cases hmiddle with
  | error err =>
    cases hleft
    cases hright
    exact .error err
  | ok hm =>
    cases hleft with
    | ok hl =>
      cases hright with
      | ok hr => exact .ok (sameVerdict_trans (sameVerdict_symm hl) (sameVerdict_trans (sameVerdict_of_sameDecision hm) hr))

/-- States that say the same are charged alike. -/
theorem settle_alike (h : Alike s s') (hs : OwnReads intent s) (hs' : OwnReads intent s')
    (ha : Admitted intent s (moduleContext e t) c) (ha' : Admitted intent s' (moduleContext e t) c') :
    Alike (settle intent s (moduleContext e t) c) (settle intent s' (moduleContext e t) c') := by
  have hmiddle := settle_congr h.listed (numericLeaves_listed hs) (numericLeaves_listed hs') (ha.listed hs) (ha'.listed hs')
  have hsame : Alike (settle intent s.listed (moduleContext e t) c) (settle intent s'.listed (moduleContext e t) c') :=
    hmiddle.alike
  exact (settle_listed hs _ c).trans (hsame.trans (settle_listed hs' _ c').symm)

theorem callsAgree_listed (hs : OwnReads intent s) (hs' : OwnReads intent s') (h : Twins P s s')
    (ha : Admitted intent s context c) (ha' : Admitted intent s' context c') :
    CallsAgree (settle intent s context c).toolLimits (settle intent s' context c').toolLimits := by
  have hcalls : ∀ (state : State) (charge : Charge), (settle intent state.listed context charge).toolLimits.calls =
      (settle intent state context charge).toolLimits.calls := by
    intro state charge
    simp only [settle, proposed]
    cases charge.events <;> rfl
  have hagree := callsAgree_settle h.alike.listed h.ties (ha.listed hs) (ha'.listed hs')
  intro agent calls calls' hne hown hown'
  rw [← hcalls] at hown hown'
  exact hagree agent calls calls' hne hown hown'

theorem alikeConcurrency_insertLease (h : Alike s s') (id : JsString) (lease : Lease) :
    AlikeConcurrency (insertLease intent s id lease).concurrency (insertLease intent s' id lease).concurrency where
  agents agent := by
    have hagents := h.concurrency.agents agent
    simp only [mem_concurrencyAgents_iff] at hagents
    simp only [mem_concurrencyAgents_iff, insertLease, Record.own?_set]
    by_cases heq : agent = intent.agentId
    · simp [heq]
    · simpa [heq] using hagents
  max := h.concurrency.max
  active := h.concurrency.active
  leases agent := by
    rw [listedLeases_insertLease, listedLeases_insertLease]
    split
    · exact (h.concurrency.leases intent.agentId).set id rfl
    · exact h.concurrency.leases agent

theorem leaseState_alike (h : Alike s s') (auth : Authorization) :
    Alike (leaseState intent s auth) (leaseState intent s' auth) := by
  unfold leaseState
  cases intent.kind with
  | release => exact h
  | execute => exact { h with concurrency := alikeConcurrency_insertLease h _ _ }

theorem toolLimits_leaseState (intent : Intent) (s : State) (auth : Authorization) :
    (leaseState intent s auth).toolLimits = s.toolLimits := by
  unfold leaseState
  cases intent.kind <;> rfl

theorem passes_of_verdict (h : ExceptRel SameVerdict (runDecisionModules intent s (moduleContext e t) mode (modulesFor intent))
    (runDecisionModules intent s' (moduleContext e t) mode (modulesFor intent))) :
    passes e intent s t mode = passes e intent s' t mode := by
  rw [passes, passes]
  generalize runDecisionModules intent s (moduleContext e t) mode (modulesFor intent) = d at h
  generalize runDecisionModules intent s' (moduleContext e t) mode (modulesFor intent) = d' at h
  cases h with
  | error err => rfl
  | ok hv =>
    cases hv with
    | deny reasons => rfl
    | allow next next' =>
      generalize verifyTrustedTime intent.timestamp t e.opts.maxClockSkewSeconds e.opts.maxIntentAgeSeconds = freshness
      rcases freshness with err | r
      · rfl
      · cases r <;> rfl

/-- States that say the same pass the same checks where their leaves do. -/
theorem prechecked_alike (h : Alike s s') (hs' : NumericLeaves s' intent.agentId) (hp : Prechecked e intent s t) :
    Prechecked e intent s' t where
  intentValid := hp.intentValid
  runtime := by
    have hruntime : isRuntimeState s.listed = isRuntimeState s'.listed := isRuntimeState_congr h.listed
    exact hruntime.symm.trans hp.runtime
  leaves := hs'
  version := h.policyVersion.symm.trans hp.version
  clock := hp.clock

theorem hashable_settle_alike (hn : NfcLaws P.nfc) (h : Twins P s s') (hs : OwnReads intent s) (hs' : OwnReads intent s')
    (ha : Admitted intent s (moduleContext e t) c) (ha' : Admitted intent s' (moduleContext e t) c')
    (hw : Hashable P (settle intent s (moduleContext e t) c)) : Hashable P (settle intent s' (moduleContext e t) c') :=
  (settle_alike h.alike hs hs' ha ha').hashable hn hw
    (ownCounts_settle _ c' hs'.leaves (ownCounts_of_serializable (h.right .concurrency).1))

/-- What is permitted in a state is permitted in its twin. -/
theorem permissible_twin (hn : NfcLaws P.nfc) (h : Twins P s s') (hs' : NumericLeaves s' intent.agentId)
    (hname : inherited? intent.agentId = none) (hp : Permissible P e intent s t mode) :
    Permissible P e intent s' t mode := by
  have hreads := ownReads_of_hashable h.left hp.prechecked.leaves hname
  have hreads' := ownReads_of_hashable h.right hs' hname
  have hpasses : passes e intent s' t mode = true := by
    rw [← passes_of_verdict (runDecisionModules_alike h.alike hreads hreads' _ _)]
    exact hp.passes
  have hpre := prechecked_alike h.alike hs' hp.prechecked
  obtain ⟨-, next, hd⟩ := passes_iff.mp hp.passes
  obtain ⟨-, next', hd'⟩ := passes_iff.mp hpasses
  obtain ⟨c, hc, -⟩ := (runDecisionModules_modulesFor hp.prechecked.leaves).mp hd
  obtain ⟨c', hc', -⟩ := (runDecisionModules_modulesFor hs').mp hd'
  have hsettled := (hashable_settle hn h.left hp.prechecked.leaves hc hp.prechecked.clock.seconds).mpr hp.chargeable
  have hsettled' := hashable_settle_alike hn h hreads hreads' hc hc' hsettled
  exact {
    prechecked := hpre
    hash := hp.hash
    passes := hpasses
    hashable := h.right
    chargeable := (hashable_settle hn h.right hs' hc' hpre.clock.seconds).mp hsettled'
    sign := hp.sign }

/-- Permitted calls on twins return one authorization, and leave twins. -/
theorem permission_twin (hP : PlatformLaws P) (hx : HexStable P.nfc) (h : Twins P s s')
    (hname : inherited? intent.agentId = none) (hp : Permissible P e intent s t mode) (hp' : Permissible P e intent s' t mode) :
    SameFate P (evaluatePure P e intent s t mode log).1 (evaluatePure P e intent s' t mode log').1 := by
  obtain ⟨auth, next, hr⟩ := (permissible_iff log hP hx).mpr hp
  obtain ⟨auth', next', hr'⟩ := (permissible_iff log' hP hx).mpr hp'
  obtain ⟨c, parts, hperm, hauth, hnext, -⟩ := (evaluatePure_fst_allow hP.nfc).mp hr
  obtain ⟨c', parts', hperm', hauth', hnext', -⟩ := (evaluatePure_fst_allow hP.nfc).mp hr'
  have hreads := ownReads_of_hashable h.left hperm.leaves hname
  have hreads' := ownReads_of_hashable h.right hperm'.leaves hname
  have hsettled : Twins P (settle intent s (moduleContext e t) c) (settle intent s' (moduleContext e t) c') :=
    { alike := settle_alike h.alike hreads hreads' hperm.admitted hperm'.admitted
      ties := callsAgree_listed hreads hreads' h hperm.admitted hperm'.admitted
      left := (hashable_of_computeStateHash hperm.issued.snapshot).1
      right := (hashable_of_computeStateHash hperm'.issued.snapshot).1 }
  have hsame : auth = auth' := by
    have hissued := issueAuthorization_ok.mpr ⟨parts, hperm.issued, rfl, rfl⟩
    have hissued' := issueAuthorization_ok.mpr ⟨parts', hperm'.issued, rfl, rfl⟩
    have hhash : parts'.intentHash = parts.intentHash := Except.ok.inj (hperm'.hash.symm.trans hperm.hash)
    rw [hhash, ← issueAuthorization_congr h.alike.policyVersion (h.computeStateHash hP.nfc e)
      (hsettled.computeStateHash hP.nfc e), hissued] at hissued'
    rw [hauth, hauth']
    exact Except.ok.inj hissued'
  have hleft := hashable_nextStateFor hP hx hperm
  have hright := hashable_nextStateFor hP hx hperm'
  rw [hr, hr', ← hsame]
  refine .allow auth ?_
  rw [hnext, hnext']
  rw [nextStateFor, nextStateFor, ← hauth, ← hauth', ← hsame] at *
  exact {
    alike := leaseState_alike hsettled.alike auth
    ties := by
      rw [toolLimits_leaseState, toolLimits_leaseState]
      exact hsettled.ties
    left := hleft
    right := hright }

/-- Calls on twins of which neither is permitted end alike. -/
theorem refusal_twin (hn : NfcLaws P.nfc) (h : Twins P s s') (hs : OwnReads intent s) (hs' : OwnReads intent s')
    (hpre : precheck e intent s t = precheck e intent s' t)
    (hnot : ∀ auth next, (evaluatePure P e intent s t mode log).1 ≠ .ok (.allow auth next))
    (hnot' : ∀ auth next, (evaluatePure P e intent s' t mode log').1 ≠ .ok (.allow auth next)) :
    (evaluatePure P e intent s t mode log).1 = (evaluatePure P e intent s' t mode log').1 := by
  have hrefused : ∀ (state : State) (count : ℕ) (reasons : List ReasonCode), Hashable P state →
      withCheckpoint P e state count (.deny reasons) = .ok (.deny reasons) :=
    fun state count reasons hhash => (withCheckpoint_ok hn).mpr ⟨rfl, fun _ => hhash⟩
  -- what is issued would be a permission
  have hthrows : ∀ r : Except JsError EvaluatePureOutput, (∀ out, r = .ok out → ∃ auth next, out = .allow auth next) →
      (∀ auth next, caught r ≠ .ok (.allow auth next)) → caught r = .ok (.deny [.internalError]) := by
    intro r hr hnever
    cases r with
    | error err => rfl
    | ok out =>
      obtain ⟨auth, next, rfl⟩ := hr out rfl
      exact absurd rfl (hnever auth next)
  rw [evaluatePure_fst hn] at hnot hnot' ⊢
  rw [evaluatePure_fst hn]
  rw [hpre] at hnot ⊢
  cases hp : precheck e intent s' t with
  | error early => rfl
  | ok u =>
    simp only [hp, outcome] at hnot hnot' ⊢
    cases hh : intentHash P intent with
    | error err => rfl
    | ok hash =>
      simp only [hh, Except.bind] at hnot hnot' ⊢
      cases hf : verifyTrustedTime intent.timestamp t e.opts.maxClockSkewSeconds e.opts.maxIntentAgeSeconds with
      | error err => rfl
      | ok freshness =>
        cases freshness with
        | deny reasons =>
          simp only [hrefused s _ reasons h.left, hrefused s' _ reasons h.right]
        | allow delta =>
          simp only [hf, outcomeAfterGate] at hnot hnot' ⊢
          have hphase := runDecisionModules_alike h.alike hs hs' (moduleContext e t) mode
          generalize runDecisionModules intent s (moduleContext e t) mode (modulesFor intent) = d at hphase hnot
          generalize runDecisionModules intent s' (moduleContext e t) mode (modulesFor intent) = d' at hphase hnot'
          cases hphase with
          | error err => rfl
          | ok hd =>
            cases hd with
            | deny reasons => simp only [Except.bind, hrefused s _ reasons h.left, hrefused s' _ reasons h.right]
            | allow next next' =>
              exact (hthrows _ (fun _ hok => issue_permits hn hok) hnot).trans
                (hthrows _ (fun _ hok => issue_permits hn hok) hnot').symm

/-- Twins are judged alike, whatever was logged before, and left twins. -/
theorem evaluatePure_twins (hP : PlatformLaws P) (hx : HexStable P.nfc) (h : Twins P s s')
    (hname : inherited? intent.agentId = none) (hs : validateStateForIntent s intent = .ok ())
    (hs' : validateStateForIntent s' intent = .ok ()) :
    SameFate P (evaluatePure P e intent s t mode log).1 (evaluatePure P e intent s' t mode log').1 := by
  have hleaves := (validateStateForIntent_ok.mp hs).2
  have hleaves' := (validateStateForIntent_ok.mp hs').2
  by_cases hp : Permissible P e intent s t mode
  · exact permission_twin hP hx h hname hp (permissible_twin hP.nfc h hleaves' hname hp)
  · have hp' : ¬ Permissible P e intent s' t mode := fun hp' => hp (permissible_twin hP.nfc h.symm hleaves hname hp')
    have hnot : ∀ auth next, (evaluatePure P e intent s t mode log).1 ≠ .ok (.allow auth next) :=
      fun auth next hr => hp ((permissible_iff log hP hx).mp ⟨auth, next, hr⟩)
    have hnot' : ∀ auth next, (evaluatePure P e intent s' t mode log').1 ≠ .ok (.allow auth next) :=
      fun auth next hr => hp' ((permissible_iff log' hP hx).mp ⟨auth, next, hr⟩)
    have hpre : precheck e intent s t = precheck e intent s' t := by
      simp only [precheck, hs, hs', h.alike.policyVersion]
    rw [refusal_twin hP.nfc h (ownReads_of_hashable h.left hleaves hname) (ownReads_of_hashable h.right hleaves' hname)
      hpre hnot hnot']
    cases hr : (evaluatePure P e intent s' t mode log').1 with
    | error err => exact .throws err
    | ok out =>
      cases out with
      | deny reasons => exact .deny reasons
      | allow auth next => exact absurd hr (hnot' auth next)

end

end OxDeAI
