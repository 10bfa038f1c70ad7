import OxDeAI.Engine.LeaseTable

/-! The counter of actions in flight against the leases that account for them.
An allowed step moves both alike exactly when it keeps clear of the names that
every object inherits. -/

namespace OxDeAI

open Js Run

/-- How many leases a permitted intent is granted. -/
def granted : IntentType → ℕ
  | .execute => 1
  | .release => 0

/-- The entries of an agent's table that are live when a step evaluates. -/
def Evaluation.live (ev : Evaluation) : Record Lease :=
  liveAt ev.evaluationTime (residentLeases ev.before ev.intent.agentId)

/-- The live leases, with the one issued or without the one released. -/
def Evaluation.expectedLease (ev : Evaluation) (id : JsString) : Option Lease :=
  match ev.intent.kind with
  | .execute =>
    match ev.authorization? with
    | some auth => if id = auth.authId then some ⟨auth.expiry⟩ else ev.live.own? id
    | none => ev.live.own? id
  | .release => if ev.intent.authorizationId = some id then none else ev.live.own? id

/-- A RELEASE names a live lease. -/
def Evaluation.NamesLive (ev : Evaluation) : Prop :=
  ev.intent.kind = .release → ∃ id, ev.intent.authorizationId = some id ∧ id ∈ ev.live.keys

/-- The counter and the table moved by the same amount, and the table holds
exactly the leases it should. -/
structure LeasesConserved (ev : Evaluation) : Prop where
  counter : ∃ n n' : ℕ, activeCount ev.before ev.intent.agentId = .int n ∧
    activeCount ev.after ev.intent.agentId = .int n' ∧
    n' + tracked ev.before ev.intent.agentId = n + tracked ev.after ev.intent.agentId
  table : ∀ id, (residentLeases ev.after ev.intent.agentId).own? id = ev.expectedLease id
  released : ev.NamesLive

/-- The leases a step takes out of the table. -/
def Evaluation.removals (ev : Evaluation) : ℕ :=
  expiredCount ev.evaluationTime (residentLeases ev.before ev.intent.agentId) +
    match ev.intent.kind with
    | .execute => 0
    | .release => 1

/-- The counter's arithmetic on doubles is exact. -/
def CountsExactly (kind : IntentType) (active removed : ℕ) : Prop :=
  match kind with
  | .release => (JsNumber.int active).sub (.int removed) = .int (active - removed)
  | .execute => ((JsNumber.int active).sub (.int removed)).add (.int 1) = .int (active - removed + 1)

/-- The one live lease under `__proto__`, if there is one, is the one released,
and a RELEASE names a key of the live leases, not an inherited one. -/
structure OwnNames (ev : Evaluation) : Prop where
  proto : ev.live.own? protoKey = none ∨
    (ev.intent.kind = .release ∧ ev.intent.authorizationId = some protoKey)
  named : ev.NamesLive

structure LeaseCondition (ev : Evaluation) : Prop extends OwnNames ev where
  exact : ∀ n : ℕ, activeCount ev.before ev.intent.agentId = .int n →
    CountsExactly ev.intent.kind n ev.removals

/-- The id of an issued authorization is not yet a key of the agent's table. -/
def FreshAuthorization (ev : Evaluation) : Prop :=
  ∀ auth, ev.authorization? = some auth → ev.intent.kind = .execute →
    auth.authId ∉ (residentLeases ev.before ev.intent.agentId).keys

/-- At least as many actions are counted as leases are listed. -/
def Accounted (state : State) (agent : JsString) : Prop :=
  (activeCount state agent).ge (.int (tracked state agent)) = true

/-- Counters up to the largest safe integer are exact. -/
theorem countsExactly_of_safe {kind : IntentType} {active removed : ℕ} (hr : removed ≤ active)
    (ha : active ≤ JsNumber.maxSafeInteger) : CountsExactly kind active removed := by
  have hsub : (JsNumber.int active).sub (.int removed) = .int (active - removed) := by
    apply JsNumber.sub_int
    simp only [JsNumber.maxSafeInteger] at ha
    omega
  cases kind with
  | release => exact hsub
  | execute =>
    rw [CountsExactly, hsub]
    apply JsNumber.add_int
    simp only [JsNumber.maxSafeInteger] at ha
    omega

theorem nextActive_eq_iff {intent : Intent} {n removed : ℕ} :
    CountsExactly intent.kind n removed ↔
      nextActive intent (.int n) removed = .int (n - removed + granted intent.kind) := by
  unfold CountsExactly nextActive granted
  cases intent.kind <;> simp

section

variable {P : Platform} {e : PolicyEngine} {s s' : State × AuditLog} {ev : Evaluation} {c : Charge}
  {parts : AuthorizationParts}

theorem AllowedStep.removed (h : AllowedStep P e ev c parts) : c.removed = ev.removals := by
  rcases h.transition with ⟨hk, -, hr⟩ | ⟨hk, id, -, -, -, -, hr⟩
  · rw [hr, Evaluation.removals, hk]
    rfl
  · rw [hr, Evaluation.removals, hk]

theorem AllowedStep.authId_notMem (h : AllowedStep P e ev c parts) (hf : FreshAuthorization ev)
    (hk : ev.intent.kind = .execute) :
    parts.authorizationId ∉ (residentLeases ev.before ev.intent.agentId).keys :=
  hf _ h.authorization hk

theorem own?_liveAt_of_notMem {t : JsNumber} {table : Record Lease} {id : JsString}
    (h : id ∉ table.keys) : (liveAt t table).own? id = none := by
  have hnone := table.own?_eq_none.mpr h
  rw [Option.eq_none_iff_forall_ne_some]
  intro lease hl
  rw [liveAt, Record.own?_filter, hnone] at hl
  cases hl.1

/-- The table an allowed step leaves is the expected one, but for `__proto__`. -/
theorem AllowedStep.own?_after (h : AllowedStep P e ev c parts) (id : JsString) :
    (residentLeases ev.after ev.intent.agentId).own? id =
      if id = protoKey ∧ (ev.intent.kind = .execute → parts.authorizationId ≠ protoKey) then none
      else ev.expectedLease id := by
  rw [h.residentLeases_after, Evaluation.expectedLease]
  rcases h.transition with ⟨hk, ha, -⟩ | ⟨hk, r, hr, -, -, ha, -⟩
  · have hauth : (authorizationFor P e ev.intent ev.before ev.evaluationTime parts).authId =
        parts.authorizationId := rfl
    rw [hk, h.authorization, ha]
    simp only [Record.own?_set, own?_liveLeases, hauth, true_implies]
    by_cases hid : id = parts.authorizationId
    · rw [if_pos hid, if_neg (fun hh => hh.2 (hid.symm.trans hh.1)), if_pos hid]
      rfl
    · rw [if_neg hid, if_neg hid]
      by_cases hp : id = protoKey
      · rw [if_pos hp, if_pos ⟨hp, fun hh => hid (hp.trans hh.symm)⟩]
      · rw [if_neg hp, if_neg (fun hh => hp hh.1)]
        rfl
  · rw [hk, ha, hr]
    simp only [Record.own?_without, own?_liveLeases, Option.some.injEq, reduceCtorEq, false_implies,
      and_true]
    by_cases hid : id = r
    · simp [hid]
    · rw [if_neg hid, if_neg (Ne.symm hid)]
      rfl

/-- When only own names are involved, the table loses what the counter is
lowered by and gains what it is raised by. -/
theorem AllowedStep.tracked_after (h : AllowedStep P e ev c parts) (hf : FreshAuthorization ev)
    (hown : OwnNames ev) :
    tracked ev.after ev.intent.agentId + ev.removals =
      tracked ev.before ev.intent.agentId + granted ev.intent.kind := by
  have hsize := size_resident ev.evaluationTime (residentLeases ev.before ev.intent.agentId)
  have hproto : protoLease ev.evaluationTime (residentLeases ev.before ev.intent.agentId) =
      ev.live.own? protoKey := protoLease_eq
  rw [tracked, tracked, h.residentLeases_after, Evaluation.removals]
  rcases h.transition with ⟨hk, ha, -⟩ | ⟨hk, r, hr, -, -, ha, -⟩
  · have hnone : ev.live.own? protoKey = none :=
      hown.proto.resolve_right (fun hh => by simp [hk] at hh)
    have hnew : parts.authorizationId ∉ (liveLeases ev.evaluationTime
        (residentLeases ev.before ev.intent.agentId)).keys := by
      rw [← Record.own?_eq_none, own?_liveLeases, own?_liveAt_of_notMem (h.authId_notMem hf hk), ite_self]
    rw [hproto, hnone, Option.toList_none, List.length_nil] at hsize
    simp only [hk, ha, Record.size_set, if_neg hnew, granted]
    omega
  · obtain ⟨r', hr', hmem⟩ := hown.named hk
    obtain rfl : r = r' := Option.some.inj (hr.symm.trans hr')
    simp only [hk, ha, granted]
    by_cases hp : r = protoKey
    · have hnot : r ∉ (liveLeases ev.evaluationTime
          (residentLeases ev.before ev.intent.agentId)).keys := by
        rw [← Record.own?_eq_none, own?_liveLeases, if_pos hp]
      obtain ⟨lease, hl⟩ := Option.isSome_iff_exists.mp ((Record.mem_keys _).mp hmem)
      rw [hproto, ← hp, hl, Option.toList_some, List.length_singleton] at hsize
      rw [Record.without_of_notMem _ hnot]
      omega
    · have hnone : ev.live.own? protoKey = none :=
        hown.proto.resolve_right (fun hh => hp (Option.some.inj (hr.symm.trans hh.2)))
      have hin : r ∈ (liveLeases ev.evaluationTime
          (residentLeases ev.before ev.intent.agentId)).keys := by
        rw [Record.mem_keys, own?_liveLeases, if_neg hp]
        exact (Record.mem_keys _).mp hmem
      have hwithout := Record.size_without_of_mem _ hin
      rw [hproto, hnone, Option.toList_none, List.length_nil] at hsize
      omega

/-- No step takes out more than is listed. -/
theorem AllowedStep.removals_le (h : AllowedStep P e ev c parts) (hf : FreshAuthorization ev)
    (hown : OwnNames ev) : ev.removals ≤ tracked ev.before ev.intent.agentId := by
  have hsize := h.tracked_after hf hown
  cases hk : ev.intent.kind with
  | release =>
    rw [hk, granted] at hsize
    omega
  | execute =>
    have hle := size_resident ev.evaluationTime (residentLeases ev.before ev.intent.agentId)
    simp only [Evaluation.removals, hk, tracked]
    omega

theorem AllowedStep.conserved_of_condition (h : AllowedStep P e ev c parts)
    (hf : FreshAuthorization ev) (hcond : LeaseCondition ev) : LeasesConserved ev := by
  have hown := hcond.toOwnNames
  obtain ⟨max, n, hc⟩ := h.counts
  have hle := h.le_count hc.count
  have hrem := h.removals_le hf hown
  have hsize := h.tracked_after hf hown
  have hafter : activeCount ev.after ev.intent.agentId =
      .int (n - ev.removals + granted ev.intent.kind) := by
    rw [h.activeCount_after, chargedActive, hc.count, h.removed]
    exact nextActive_eq_iff.mp (hcond.exact n hc.count)
  refine ⟨⟨n, n - ev.removals + granted ev.intent.kind, hc.count, ?_, by omega⟩, ?_, hown.named⟩
  · rw [hafter]
    push_cast [Nat.cast_sub (hrem.trans hle)]
    rfl
  · intro id
    rw [h.own?_after]
    by_cases hp : id = protoKey ∧ (ev.intent.kind = .execute → parts.authorizationId ≠ protoKey)
    · rw [if_pos hp, hp.1, Evaluation.expectedLease]
      cases hk : ev.intent.kind with
      | execute =>
        have hnone : ev.live.own? protoKey = none :=
          hown.proto.resolve_right (fun hh => by simp [hk] at hh)
        have hne : protoKey ≠ (authorizationFor P e ev.intent ev.before ev.evaluationTime
            parts).authId := fun hh => hp.2 hk hh.symm
        simp only [h.authorization, if_neg hne, hnone]
      | release =>
        rcases hown.proto with hnone | ⟨-, hr⟩
        · simp [hnone]
        · simp [hr]
    · rw [if_neg hp]

theorem AllowedStep.condition_of_conserved (h : AllowedStep P e ev c parts)
    (hf : FreshAuthorization ev) (hcons : LeasesConserved ev) : LeaseCondition ev := by
  have hown : OwnNames ev := by
    refine ⟨?_, hcons.released⟩
    have htable := hcons.table protoKey
    rw [h.own?_after] at htable
    cases hk : ev.intent.kind with
    | execute =>
      left
      by_cases hid : parts.authorizationId = protoKey
      · exact own?_liveAt_of_notMem (hid ▸ h.authId_notMem hf hk)
      · rw [if_pos ⟨rfl, fun _ => hid⟩, Evaluation.expectedLease] at htable
        have hne : protoKey ≠ (authorizationFor P e ev.intent ev.before ev.evaluationTime
            parts).authId := fun hh => hid hh.symm
        simpa only [hk, h.authorization, if_neg hne, @eq_comm _ none] using htable
    | release =>
      rw [if_pos ⟨rfl, fun hh => by simp [hk] at hh⟩, Evaluation.expectedLease] at htable
      by_cases hr : ev.intent.authorizationId = some protoKey
      · exact .inr ⟨rfl, hr⟩
      · left
        simpa only [hk, if_neg hr, @eq_comm _ none] using htable
  refine ⟨hown, fun n hn => ?_⟩
  obtain ⟨m, n', hm, hn', hdiff⟩ := hcons.counter
  obtain rfl : m = n := by
    rw [hm] at hn
    simpa using hn
  have hle := h.le_count hn
  have hrem := h.removals_le hf hown
  have hsize := h.tracked_after hf hown
  have heq : (n' : ℤ) = m - ev.removals + granted ev.intent.kind := by omega
  rw [nextActive_eq_iff, ← heq, ← hn', h.activeCount_after, chargedActive, hn, h.removed]

/-- A step keeps every agent accounted for whose step meets the condition. -/
theorem EngineStep.accounted (h : EngineStep P e s ev s') (hf : FreshAuthorization ev)
    {agent : JsString} (hacc : Accounted s.1 agent)
    (hcond : ev.isAllowed = true → ev.intent.agentId = agent → LeaseCondition ev) :
    Accounted s'.1 agent := by
  rw [h.after]
  rw [← h.before] at hacc
  cases hcur : ev.isAllowed with
  | false =>
    rw [ev.after_of_not_allowed hcur]
    exact hacc
  | true =>
    obtain ⟨c, parts, ha⟩ := h.allowed hcur
    by_cases hagent : ev.intent.agentId = agent
    · subst hagent
      obtain ⟨n, n', hn, hn', hdiff⟩ := (ha.conserved_of_condition hf (hcond hcur rfl)).counter
      have hle := ha.le_count hn
      rw [Accounted, hn', JsNumber.ge_int, decide_eq_true_eq]
      omega
    · obtain ⟨hactive, hleases⟩ := ha.others (Ne.symm hagent)
      rw [Accounted, tracked, hactive, hleases]
      exact hacc

/-- Counter and table of an allowed step move together exactly under the
condition, and over a run of steps that meet it no agent holds more leases than
are counted for it. -/
theorem lease_accounting {evs : List Evaluation} (hrun : EngineRun P e s evs s')
    (hfresh : ∀ ev ∈ evs, FreshAuthorization ev) :
    (∀ ev ∈ evs, ev.isAllowed = true → (LeasesConserved ev ↔ LeaseCondition ev)) ∧
      ∀ agent, Accounted s.1 agent →
        (∀ ev ∈ evs, ev.isAllowed = true → ev.intent.agentId = agent → LeaseCondition ev) →
        Accounted s'.1 agent := by
  constructor
  · have hlabel : ∀ ev ∈ evs, ev.isAllowed = true → ∃ c parts, AllowedStep P e ev c parts :=
      hrun.forall_label (I := fun _ => True) (fun _ _ _ _ _ => trivial)
        (fun _ _ _ _ hstep ha => hstep.allowed ha) trivial
    intro ev hev hallowed
    obtain ⟨c, parts, ha⟩ := hlabel ev hev hallowed
    exact ⟨ha.condition_of_conserved (hfresh ev hev), ha.conserved_of_condition (hfresh ev hev)⟩
  · intro agent hacc hcond
    induction hrun with
    | nil => exact hacc
    | snoc run last ih =>
      have hprev := ih (fun ev hev => hfresh ev (List.mem_append_left _ hev))
        (fun ev hev => hcond ev (List.mem_append_left _ hev))
      exact last.accounted (hfresh _ (by simp)) hprev (hcond _ (by simp))

end

/-- One action in flight, with its lease. -/
def leasedState : State :=
  { sampleState (js "a") with concurrency := {
      maxConcurrent := Record.empty.set (js "a") (.int 2)
      active := Record.empty.set (js "a") (.int 1)
      activeAuths := Record.empty.set (js "a") (Record.empty.set (js "l1") ⟨.int 5000⟩) } }

/-- A RELEASE that names a method every object inherits. -/
def inheritedRelease : Intent :=
  { sampleIntent (js "a") with type := some .release, authorizationId := some (js "toString") }

def inheritedReleaseCharge : Charge where
  pruned := []
  auths := Record.empty.set (js "l1") ⟨.int 5000⟩
  removed := 1
  events := none
  counter := none

theorem admitted_inheritedRelease : Admitted inheritedRelease leasedState
    (moduleContext sampleEngine (.int 1000)) inheritedReleaseCharge where
  killSwitch := rfl
  replay := ⟨⟨[], rfl, rfl⟩, by decide, by simp [inheritedReleaseCharge], by decide⟩
  leases := ⟨by decide, rfl, .inr ⟨rfl, js "toString", rfl, by decide, by decide, by decide, by decide⟩⟩
  execute h := by cases h
  release _ := ⟨rfl, rfl⟩

theorem permitted_inheritedRelease : ∃ parts, Permitted samplePlatform sampleEngine inheritedRelease
    leasedState (.int 1000) inheritedReleaseCharge parts := by
  have hpre : Prechecked sampleEngine inheritedRelease leasedState (.int 1000) := precheck_ok.mp rfl
  obtain ⟨hash, hh⟩ : ∃ hash, intentHash samplePlatform inheritedRelease = .ok hash :=
    ⟨_, sha256HexFromJson_ok.mpr ⟨(isCanonical_iff _).mp (by decide), rfl⟩⟩
  exact exists_permitted samplePlatform_laws.nfc (canSign_sampleEngine _) hpre hh rfl
    admitted_inheritedRelease (isHashable_iff.mp (by decide)) (isHashable_iff.mp (by decide))

/-- Releasing `toString` is allowed: it frees a slot and no lease. -/
theorem release_of_inherited_name :
    let ev := evaluation samplePlatform sampleEngine (AuditLog.initial samplePlatform)
      inheritedRelease leasedState (.int 1000) .failFast
    ev.isAllowed = true ∧
      activeCount ev.before (js "a") = .int 1 ∧ tracked ev.before (js "a") = 1 ∧
      activeCount ev.after (js "a") = .int 0 ∧ tracked ev.after (js "a") = 1 := by
  obtain ⟨parts, hp⟩ := permitted_inheritedRelease
  have ha := evaluation_allowedStep samplePlatform_laws.nfc rfl hp (AuditLog.initial samplePlatform)
    .failFast
  have hactive := ha.activeCount_after
  have hleases := ha.residentLeases_after
  refine ⟨ha.isAllowed, rfl, rfl, hactive.trans rfl, ?_⟩
  exact (congrArg Record.size hleases).trans rfl

theorem leaseCondition_sample : LeaseCondition (sampleCall sampleStart (sampleIntent (js "a")) (.int 1000)) := by
  refine ⟨⟨.inl rfl, fun h => by cases h⟩, fun n hn => ?_⟩
  cases hn
  exact countsExactly_of_safe (by decide) (by decide)

/-- An action with its slot and its lease, and the same intent refused later on. -/
theorem lease_accounting_sample :
    (sampleRun (sampleIntent (js "a"))).map Evaluation.isAllowed = [true, false] ∧
      (∀ ev ∈ sampleRun (sampleIntent (js "a")), ev.isAllowed = true → LeasesConserved ev) ∧
      Accounted (sampleLeft (sampleLeft sampleStart (sampleIntent (js "a")) (.int 1000)) (sampleIntent (js "a"))
        (.int 2000)).1 (js "a") := by
  obtain ⟨parts, hp⟩ := permitted_sample
  have hrun := sampleRun_run (sampleIntent (js "a"))
  have htime : (sampleIntent (js "a")).timestamp = .int 1000 := rfl
  have hallowed := sampleRun_allowed hp htime
  have hlate := sampleCall_late (sampleLeft sampleStart (sampleIntent (js "a")) (.int 1000)) htime
  have hcond : ∀ ev ∈ sampleRun (sampleIntent (js "a")), ev.isAllowed = true → LeaseCondition ev := by
    intro ev hev ha
    rcases List.mem_pair.mp hev with rfl | rfl
    · exact leaseCondition_sample
    · rw [hlate] at ha
      cases ha
  have hfresh : ∀ ev ∈ sampleRun (sampleIntent (js "a")), FreshAuthorization ev := by
    intro ev hev auth hauth _
    rcases List.mem_pair.mp hev with rfl | rfl
    · exact List.not_mem_nil
    · rw [Evaluation.isAllowed, hauth] at hlate
      cases hlate
  have hstart : Accounted sampleStart.1 (js "a") := rfl
  obtain ⟨hconserved, haccounted⟩ := lease_accounting hrun hfresh
  refine ⟨hallowed, fun ev hev ha => (hconserved ev hev ha).mpr (hcond ev hev ha), ?_⟩
  exact haccounted (js "a") hstart fun ev hev ha _ => hcond ev hev ha

end OxDeAI
