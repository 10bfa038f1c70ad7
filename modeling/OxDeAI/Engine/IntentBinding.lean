import OxDeAI.Engine.Probe
import OxDeAI.Engine.Runs

/-! Which intents an authorization can be presented for: those of one hash are
judged alike exactly when the strings the modules compare are the same. -/

namespace OxDeAI

open Js

section

variable {P : Platform} {a b intent : Intent} {log : AuditLog}

/-- A probe under another policy version. -/
def mismatchState (agent : JsString) : State :=
  { probeState agent noLists Record.empty Record.empty with policyVersion := js "v2" }

theorem evaluatePure_invalid (hn : NfcLaws P.nfc) {e : PolicyEngine} {state : State} {t : JsNumber}
    {mode : EvalMode} {reason : ReasonCode} (h : validateIntent intent = .error reason) :
    (evaluatePure P e intent state t mode log).1 = .ok (.deny [reason]) := by
  rw [evaluatePure_fst hn]
  simp only [precheck, h]

theorem evaluatePure_mismatch (hn : NfcLaws P.nfc) (h : validateIntent intent = .ok ()) :
    (evaluatePure P probeEngine intent (mismatchState intent.agentId) (.int 0) .failFast log).1 =
      .ok (.deny [.policyVersionMismatch]) := by
  have hpre : Prechecked probeEngine intent (probeState intent.agentId noLists Record.empty Record.empty)
      (.int 0) := prechecked_probe h
  have hstate : validateStateForIntent (mismatchState intent.agentId) intent = .ok () := by
    rw [validateStateForIntent_ok, mismatchState]
    exact ⟨rfl, ⟨hpre.leaves.budgetLimit, hpre.leaves.spentInPeriod, hpre.leaves.maxAmountPerAction,
      hpre.leaves.maxConcurrent, hpre.leaves.maxDepth, hpre.leaves.maxCalls⟩⟩
  have hver : (mismatchState intent.agentId).policyVersion ≠ probeEngine.opts.policyVersion := by
    simp only [mismatchState, probeEngine]
    decide
  rw [evaluatePure_fst hn]
  simp only [precheck, h, hstate, if_pos hver]

/-- An agent the state says nothing about. -/
theorem evaluatePure_stranger (hn : NfcLaws P.nfc) (h : validateIntent intent = .ok ())
    {agent : JsString} (hne : intent.agentId ≠ agent) :
    (evaluatePure P probeEngine intent (mismatchState agent) (.int 0) .failFast log).1 =
      .ok (.deny [.stateInvalid]) := by
  have hnone : (mismatchState agent).budget.budgetLimit.own? intent.agentId = none := by
    simp only [mismatchState, probeState, Record.own?_set, if_neg hne, Record.own?_empty]
  have hleaves : ∃ err, validateNumericLeaves (mismatchState agent) intent.agentId = .error err := by
    refine ⟨"budget.budget_limit", ?_⟩
    rw [validateNumericLeaves, Record.value?_get, hnone]
    rfl
  obtain ⟨err, herr⟩ := hleaves
  have hstate : validateStateForIntent (mismatchState agent) intent = .error .stateInvalid := by
    rw [validateStateForIntent, herr]
    rfl
  rw [evaluatePure_fst hn]
  simp only [precheck, h, hstate]

/-- The evaluations of two intents agree, whatever the engine, the state and the
clock. -/
def AlwaysAgree (P : Platform) (a b : Intent) : Prop :=
  ∀ e state t mode log, Agrees P e (evaluatePure P e a state t mode log).1
    (evaluatePure P e b state t mode log).1

theorem valid_of_agree (hn : NfcLaws P.nfc) (h : AlwaysAgree P a b) :
    validateIntent a = validateIntent b := by
  cases hva : validateIntent a with
  | error r =>
    cases hvb : validateIntent b with
    | error r' =>
      have hag := h probeEngine (mismatchState []) (.int 0) .failFast (AuditLog.initial P)
      rw [evaluatePure_invalid hn hva, evaluatePure_invalid hn hvb] at hag
      simpa [Agrees] using hag
    | ok u =>
      have hag := h probeEngine (mismatchState b.agentId) (.int 0) .failFast (AuditLog.initial P)
      rw [evaluatePure_invalid hn hva, evaluatePure_mismatch hn hvb] at hag
      have hr : r = .policyVersionMismatch := by simpa [Agrees] using hag
      subst hr
      simp only [validateIntent] at hva
      split at hva
      · cases hva
      · split at hva <;> cases hva
  | ok u =>
    cases hvb : validateIntent b with
    | error r =>
      have hag := h probeEngine (mismatchState a.agentId) (.int 0) .failFast (AuditLog.initial P)
      rw [evaluatePure_invalid hn hvb, evaluatePure_mismatch hn hva] at hag
      have hr : r = .policyVersionMismatch := by simpa [Agrees, @eq_comm _ _ r] using hag
      subst hr
      simp only [validateIntent] at hvb
      split at hvb
      · cases hvb
      · split at hvb <;> cases hvb
    | ok u' => rfl

theorem agentId_of_agree (hn : NfcLaws P.nfc) (h : AlwaysAgree P a b)
    (hva : validateIntent a = .ok ()) : a.agentId = b.agentId := by
  by_contra hne
  have hvb := (valid_of_agree hn h).symm.trans hva
  have hag := h probeEngine (mismatchState a.agentId) (.int 0) .failFast (AuditLog.initial P)
  rw [evaluatePure_mismatch hn hva, evaluatePure_stranger hn hvb (Ne.symm hne)] at hag
  simp [Agrees] at hag

/-- Two probed intents of one hash that agree meet the same objections. -/
theorem objections_of_agree (hP : PlatformLaws P) {hash : JsString} (hha : intentHash P a = .ok hash)
    (hhb : intentHash P b = .ok hash) (h : AlwaysAgree P a b) (hva : validateIntent a = .ok ())
    (hts : isProtocolSeconds a.timestamp = true) (al : AllowLists) (leases : Record Lease)
    (caps : Record (Option JsNumber)) :
    (modulesFor a).flatMap (objections a (probeState a.agentId al leases caps)) =
      (modulesFor b).flatMap (objections b (probeState a.agentId al leases caps)) := by
  have hn := hP.nfc
  have hvb := (valid_of_agree hn h).symm.trans hva
  have hagent := agentId_of_agree hn h hva
  have hts' : isProtocolSeconds b.timestamp = true :=
    (sameBinding_of_intentHash hP hha hhb).timestamp ▸ hts
  have hag := h probeEngine (probeState a.agentId al leases caps) (.int 0) .collectAll (AuditLog.initial P)
  rw [evaluatePure_probe hn hva hha hts] at hag
  rw [hagent] at hag ⊢
  rw [evaluatePure_probe hn hvb hhb hts'] at hag
  simpa [Agrees] using hag

/-- For two executions they differ at most in the allowlists and the tools. -/
theorem execute_objections (hP : PlatformLaws P) {hash : JsString} (hha : intentHash P a = .ok hash)
    (hhb : intentHash P b = .ok hash) (h : AlwaysAgree P a b) (hva : validateIntent a = .ok ())
    (hts : isProtocolSeconds a.timestamp = true) (hk : a.kind = .execute) (al : AllowLists)
    (caps : Record (Option JsNumber)) {s : State} (hs : s = probeState a.agentId al Record.empty caps) :
    (objections a s allowlistModule = objections b s allowlistModule →
      objections a s toolAmplificationModule = objections b s toolAmplificationModule) ∧
    (objections a s toolAmplificationModule = objections b s toolAmplificationModule →
      objections a s allowlistModule = objections b s allowlistModule) := by
  have hsame := sameBinding_of_intentHash hP hha hhb
  have hcore := core_eq hsame (agentId_of_agree hP.nfc h hva)
  have hkb : b.kind = .execute := hsame.kind.symm.trans hk
  have hobj := objections_of_agree hP hha hhb h hva hts al Record.empty caps
  rw [← hs] at hobj
  have hmods : ∀ {i : Intent}, i.kind = .execute → modulesFor i = executeModules := by
    intro i hi
    rw [modulesFor, hi]
  have hshared : ∀ m ∈ [killSwitchModule, replayModule, recursionDepthModule, budgetModule, velocityModule],
      objections a s m = objections b s m := by
    intro m hm
    rw [objections_core a s hm, objections_core b s hm, hcore]
  have hleases : objections a s concurrencyModule = objections b s concurrencyModule := by
    rw [objections_leases_core a s hk, objections_leases_core b s hkb, hcore]
  have hkill := hshared killSwitchModule (by simp)
  have hreplay := hshared replayModule (by simp)
  have hdepth := hshared recursionDepthModule (by simp)
  have hbudget := hshared budgetModule (by simp)
  have hvelocity := hshared velocityModule (by simp)
  rw [hmods hk, hmods hkb] at hobj
  simp only [executeModules, List.flatMap_cons, List.flatMap_nil] at hobj
  rw [hkill, hreplay, hdepth, hleases, hbudget, hvelocity] at hobj
  constructor
  · intro hal
    rw [hal] at hobj
    simpa only [List.append_cancel_left_eq, List.append_cancel_right_eq] using hobj
  · intro htool
    rw [htool] at hobj
    simpa only [List.append_cancel_left_eq, List.append_cancel_right_eq] using hobj

/-- A cap of zero on one tool tells it from every other. -/
theorem tool_of_agree (hP : PlatformLaws P) {hash : JsString} (hha : intentHash P a = .ok hash)
    (hhb : intentHash P b = .ok hash) (h : AlwaysAgree P a b) (hva : validateIntent a = .ok ())
    (hts : isProtocolSeconds a.timestamp = true) (hk : a.kind = .execute) : a.tool = b.tool := by
  have hsame := sameBinding_of_intentHash hP hha hhb
  have hagent := agentId_of_agree hP.nfc h hva
  have hkb : b.kind = .execute := hsame.kind.symm.trans hk
  have hprobe : ∀ caps, objections a (probeState a.agentId noLists Record.empty caps)
      toolAmplificationModule = objections b (probeState a.agentId noLists Record.empty caps)
        toolAmplificationModule := by
    intro caps
    apply (execute_objections hP hha hhb h hva hts hk noLists caps rfl).1
    rw [objections_noLists, objections_noLists]
  have htool := hsame.tool
  cases hta : a.tool with
  | none =>
    rw [hta] at htool
    exact (Option.map_eq_none_iff.mp htool.symm).symm
  | some x =>
    rw [hta, Option.map_some] at htool
    obtain ⟨y, hty, -⟩ := Option.map_eq_some_iff.mp htool.symm
    by_contra hne
    rw [hty, Option.some.injEq] at hne
    by_cases hx : x = []
    · have hy : y ≠ [] := fun hy => hne (hx.trans hy.symm)
      have hcap := hprobe (Record.empty.set y (some (.int 0)))
      rw [objections_tool hk hy hta, hagent, objections_tool hkb hy hty, if_neg hne, if_pos rfl] at hcap
      cases hcap
    · have hcap := hprobe (Record.empty.set x (some (.int 0)))
      rw [objections_tool hk hx hta, hagent, objections_tool hkb hx hty, if_pos rfl,
        if_neg (Ne.symm hne)] at hcap
      cases hcap

theorem allowlists_of_agree (hP : PlatformLaws P) {hash : JsString} (hha : intentHash P a = .ok hash)
    (hhb : intentHash P b = .ok hash) (h : AlwaysAgree P a b) (hva : validateIntent a = .ok ())
    (hts : isProtocolSeconds a.timestamp = true) (hk : a.kind = .execute) :
    a.asset = b.asset ∧ a.target = b.target := by
  have hsame := sameBinding_of_intentHash hP hha hhb
  have hagent := agentId_of_agree hP.nfc h hva
  have htool := tool_of_agree hP hha hhb h hva hts hk
  have hprobe : ∀ al, objections a (probeState a.agentId al Record.empty Record.empty) allowlistModule =
      objections b (probeState a.agentId al Record.empty Record.empty) allowlistModule := by
    intro al
    apply (execute_objections hP hha hhb h hva hts hk al Record.empty rfl).2
    rw [objections_tool_core a, objections_tool_core b, core_eq hsame hagent, htool]
  constructor
  · have hasset := hsame.asset
    cases haa : a.asset with
    | none =>
      rw [haa] at hasset
      exact (Option.map_eq_none_iff.mp hasset.symm).symm
    | some x =>
      rw [haa, Option.map_some] at hasset
      obtain ⟨y, hay, -⟩ := Option.map_eq_some_iff.mp hasset.symm
      by_contra hne
      rw [hay, Option.some.injEq] at hne
      by_cases hx : x = []
      · have hy : y ≠ [] := fun hy => hne (hx.trans hy.symm)
        have hlist := hprobe ⟨none, some [x], none⟩
        rw [objections_asset haa, objections_asset hay, if_neg (by simp), if_pos ⟨hy, Ne.symm hne⟩] at hlist
        cases hlist
      · have hlist := hprobe ⟨none, some [y], none⟩
        rw [objections_asset haa, objections_asset hay, if_pos ⟨hx, hne⟩, if_neg (by simp)] at hlist
        cases hlist
  · by_contra hne
    have hlist := hprobe ⟨none, none, some [b.target]⟩
    rw [objections_target, objections_target, if_pos hne, if_neg (by simp)] at hlist
    cases hlist

theorem isAscii_of_inherited {k : JsString} (h : (inherited? k).isSome = true) : isAscii k = true := by
  rw [inherited?] at h
  by_cases hp : k = protoKey
  · rw [hp]
    decide
  · rw [if_neg hp] at h
    by_cases hm : k ∈ prototypeMethods
    · have hall : ∀ m ∈ prototypeMethods, isAscii m = true := by decide
      exact hall k hm
    · rw [if_neg hm] at h
      cases h

/-- A single lease, or none for a name every object inherits, tells two releases
apart. -/
theorem authorizationId_of_agree (hP : PlatformLaws P) {hash : JsString}
    (hha : intentHash P a = .ok hash) (hhb : intentHash P b = .ok hash) (h : AlwaysAgree P a b)
    (hva : validateIntent a = .ok ()) (hts : isProtocolSeconds a.timestamp = true)
    (hk : a.kind = .release) : a.authorizationId = b.authorizationId := by
  have hsame := sameBinding_of_intentHash hP hha hhb
  have hagent := agentId_of_agree hP.nfc h hva
  have hvb := (valid_of_agree hP.nfc h).symm.trans hva
  have hkb : b.kind = .release := hsame.kind.symm.trans hk
  have hnamed : ∀ {i : Intent}, validateIntent i = .ok () → i.kind = .release →
      ∃ id, i.authorizationId = some id ∧ id ≠ [] := by
    intro i hv hki
    have htype : i.type = some .release := by
      rw [Intent.kind] at hki
      cases ht : i.type with
      | none =>
        rw [ht] at hki
        cases hki
      | some t =>
        rw [ht] at hki
        exact congrArg some hki
    cases hid : i.authorizationId with
    | none =>
      simp only [validateIntent, htype, hid] at hv
      split at hv <;> cases hv
    | some id =>
      refine ⟨id, rfl, ?_⟩
      rintro rfl
      simp only [validateIntent, htype, hid] at hv
      split at hv <;> cases hv
  obtain ⟨x, hx, hx0⟩ := hnamed hva hk
  obtain ⟨y, hy, hy0⟩ := hnamed hvb hkb
  have hnfc : P.nfc x = P.nfc y := by
    have hids := hsame.authorizationId
    rw [hx, hy] at hids
    exact Option.some.inj hids
  have hprobe : ∀ leases : Record Lease, wellFormedLeases leases = true → leases.size ≤ 5 →
      (LeaseMap.truthy ⟨liveLeases (.int 0) leases, protoLease (.int 0) leases⟩ x =
        LeaseMap.truthy ⟨liveLeases (.int 0) leases, protoLease (.int 0) leases⟩ y) := by
    intro leases hwf hsize
    have hobj := objections_of_agree hP hha hhb h hva hts noLists leases Record.empty
    have hmods : ∀ {i : Intent}, i.kind = .release → modulesFor i = releaseModules := by
      intro i hi
      rw [modulesFor, hi]
    have hshared : ∀ m ∈ [killSwitchModule, replayModule, recursionDepthModule, budgetModule,
        velocityModule], ∀ s, objections a s m = objections b s m := by
      intro m hm s
      rw [objections_core a s hm, objections_core b s hm, core_eq hsame hagent]
    rw [hmods hk, hmods hkb] at hobj
    simp only [releaseModules, List.flatMap_cons, List.flatMap_nil] at hobj
    rw [hshared killSwitchModule (by simp), hshared replayModule (by simp),
      objections_leases hk hx hx0 hwf hsize, hagent, objections_leases hkb hy hy0 hwf hsize] at hobj
    simp only [List.append_cancel_left_eq, List.append_nil] at hobj
    revert hobj
    cases LeaseMap.truthy ⟨liveLeases (.int 0) leases, protoLease (.int 0) leases⟩ x <;>
      cases LeaseMap.truthy ⟨liveLeases (.int 0) leases, protoLease (.int 0) leases⟩ y <;> simp
  rw [hx, hy, Option.some.injEq]
  have hinherited := hprobe Record.empty rfl (by simp [Record.size, Record.empty])
  rw [truthy_empty, truthy_empty] at hinherited
  cases hix : (inherited? x).isSome with
  | true =>
    have hasciix := hP.nfc.ascii _ (isAscii_of_inherited hix)
    have hasciiy := hP.nfc.ascii _ (isAscii_of_inherited (hinherited ▸ hix))
    rw [← hasciix, ← hasciiy, hnfc]
  | false =>
    have hxp : x ≠ protoKey := by
      rintro rfl
      simp [inherited?] at hix
    have hsingle := hprobe (Record.empty.set x ⟨.int 100⟩) rfl
      (by simp [Record.size, Record.set, Record.empty, setEntry])
    rw [truthy_single hxp, truthy_single hxp, ← hinherited, hix] at hsingle
    simpa [@eq_comm _ y] using hsingle

/-- Intents of one hash always agree exactly when they are judged alike. -/
theorem intent_hash_congruence (hP : PlatformLaws P) {hash : JsString}
    (hha : intentHash P a = .ok hash) (hhb : intentHash P b = .ok hash) :
    AlwaysAgree P a b ↔ JudgedAlike a b := by
  constructor
  · intro h
    refine ⟨valid_of_agree hP.nfc h, agentId_of_agree hP.nfc h, ?_, ?_⟩
    · intro hva hts hk
      obtain ⟨hasset, htarget⟩ := allowlists_of_agree hP hha hhb h hva hts hk
      exact ⟨hasset, htarget, tool_of_agree hP hha hhb h hva hts hk⟩
    · intro hva hts hk
      exact authorizationId_of_agree hP hha hhb h hva hts hk
  · intro h e state t mode log
    rw [evaluatePure_congr hP hha hhb h]
    exact agrees_refl _

end

/-- Only the target K is allowed. -/
def targetState : State :=
  { sampleState (js "a") with allowlists := ⟨none, none, some [js "K"]⟩ }

def targetIntent (target : JsString) : Intent := { sampleIntent (js "a") with target := target }

theorem admitted_target : Admitted (targetIntent (js "K")) targetState
    (moduleContext sampleEngine (.int 1000)) sampleCharge where
  killSwitch := rfl
  replay := ⟨⟨[], rfl, rfl⟩, by decide, by simp [sampleCharge], by decide⟩
  leases := ⟨by decide, rfl, .inl ⟨rfl, rfl, rfl⟩⟩
  execute _ := {
    allowlist := rfl
    depth := rfl
    capacity := by
      intro max hmax
      cases hmax
      decide
    tool := rfl
    nonneg := by decide
    cap := by
      intro cap hcap
      cases hcap
      decide
    limit := by
      intro limit hlimit
      cases hlimit
      decide
    velocityConfig := by decide
    velocity := ⟨none, ⟨.int 1000, .int 1⟩, rfl, rfl, rfl⟩ }
  release h := by cases h

theorem exists_targetHash (target : JsString) :
    intentHash samplePlatform (targetIntent target) = .ok (intentDigest samplePlatform (targetIntent target)) :=
  intentHash_ok.mpr ⟨.obj (canonicalMembers_intentBinding samplePlatform_laws.nfc _)
    (by
      simp only [intentBinding, targetIntent, sampleIntent, optionalField, Option.map_none,
        List.append_nil, List.cons_append, List.nil_append, List.forall_mem_cons, List.not_mem_nil,
        false_implies, implies_true, and_true]
      exact ⟨.str _, .str _, .str _, .bigint _, .str _, .int (by decide), .str _, .bigint _⟩), rfl⟩

/-- The Kelvin sign in place of the letter K leaves the hash as it is and turns
an allowed target into a refused one. -/
theorem kelvin_target_judged_differently :
    intentHash samplePlatform (targetIntent (js "K")) =
      intentHash samplePlatform (targetIntent [unit 8490]) ∧
    (∃ hash, intentHash samplePlatform (targetIntent (js "K")) = .ok hash) ∧
    (evaluation samplePlatform sampleEngine (AuditLog.initial samplePlatform) (targetIntent (js "K"))
      targetState (.int 1000) .failFast).isAllowed = true ∧
    (evaluation samplePlatform sampleEngine (AuditLog.initial samplePlatform)
      (targetIntent [unit 8490]) targetState (.int 1000) .failFast).isAllowed = false := by
  have hk : samplePlatform.nfc [unit 8490] = samplePlatform.nfc (js "K") := by decide
  have hbinding : normalForm samplePlatform.nfc (.obj (intentBinding (targetIntent (js "K")))) =
      normalForm samplePlatform.nfc (.obj (intentBinding (targetIntent [unit 8490]))) :=
    (normalForm_intentBinding_eq_iff samplePlatform_laws.nfc).mpr
      ⟨rfl, rfl, rfl, rfl, rfl, rfl, hk.symm, rfl, rfl, rfl, rfl, rfl, rfl, rfl⟩
  refine ⟨?_, ⟨_, exists_targetHash _⟩, ?_, ?_⟩
  · rw [exists_targetHash, exists_targetHash, intentDigest, intentDigest, digest, digest, hbinding]
  · obtain ⟨parts, hp⟩ := exists_permitted samplePlatform_laws.nfc (canSign_sampleEngine _)
      (precheck_ok.mp rfl) (exists_targetHash (js "K")) rfl admitted_target
      (isHashable_iff.mp (by decide)) (isHashable_iff.mp (by decide))
    exact (evaluation_allowedStep samplePlatform_laws.nfc rfl hp _ _).isAllowed
  · have hstep := evaluation_step samplePlatform sampleEngine (AuditLog.initial samplePlatform)
      (targetIntent [unit 8490]) targetState (.int 1000) .failFast
    rw [← Bool.not_eq_true]
    intro hallowed
    obtain ⟨c, parts, ha⟩ := hstep.allowed hallowed
    have hlist := (ha.permitted.admitted.execute rfl).allowlist
    have hrefused : allowlistModule (targetIntent [unit 8490]) targetState
        (moduleContext sampleEngine (.int 1000)) = .ok (.deny [.allowlistTarget]) := rfl
    exact absurd (hrefused.symm.trans hlist) (by simp)

/-- The signature is not part of the hash, and no module reads it. -/
theorem intent_hash_congruence_sample :
    AlwaysAgree samplePlatform (targetIntent (js "K"))
      { targetIntent (js "K") with signature := js "00" } :=
  (intent_hash_congruence samplePlatform_laws (exists_targetHash (js "K"))
    (exists_targetHash (js "K"))).mpr
    ⟨rfl, fun _ => rfl, fun _ _ _ => ⟨rfl, rfl, rfl⟩, fun _ _ _ => rfl⟩

end OxDeAI
