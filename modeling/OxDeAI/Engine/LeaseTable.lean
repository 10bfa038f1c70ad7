import OxDeAI.Engine.Runs

/-! The lease table of an agent and its counter over one allowed step. -/

namespace OxDeAI

open Js Run

theorem isNonNegInt_iff {n : JsNumber} : isNonNegInt n = true ↔ ∃ m : ℕ, n = .int m := by
  constructor
  · intro h
    rw [isNonNegInt, Bool.and_eq_true] at h
    obtain ⟨z, rfl⟩ := JsNumber.exists_int_of_isInteger h.1
    have h0 : 0 ≤ z := by simpa using h.2
    exact ⟨z.toNat, by rw [Int.toNat_of_nonneg h0]⟩
  · rintro ⟨m, rfl⟩
    simp [isNonNegInt]

/-- The numbers of an agent in a state with a hash. -/
structure AgentCounts (state : State) (agent : JsString) (max active : ℕ) : Prop where
  cap : state.concurrency.maxConcurrent.own? agent = some (.int max)
  count : activeCount state agent = .int active
  read : (state.concurrency.active.get agent).isInherited = false
  le : active ≤ max

theorem agentCounts_of_serializable {state : State} {agent : JsString}
    (hs : Serializable state .concurrency) {n : JsNumber}
    (hmax : state.concurrency.maxConcurrent.own? agent = some n) :
    ∃ max active, AgentCounts state agent max active := by
  have hmem : agent ∈ concurrencyAgents state.concurrency := by
    have hk : agent ∈ state.concurrency.maxConcurrent.keys :=
      (Record.mem_keys _).mpr (by simp [hmax])
    rw [concurrencyAgents, sortKeys, List.mem_insertionSort, List.mem_dedup]
    simp [hk]
  have hok := hs agent hmem
  obtain ⟨max, hm⟩ := isNonNegInt_iff.mp hok.max
  obtain ⟨active, ha⟩ := isNonNegInt_iff.mp hok.active
  have hn : countOr0 state.concurrency.maxConcurrent agent = n := by rw [countOr0, hmax]; rfl
  have hread : activeCount state agent = countOr0 state.concurrency.active agent := by
    have hr := hok.activeRead
    rw [activeCount, countOr0, ← Record.value?_get]
    cases hg : state.concurrency.active.get agent with
    | own n => rfl
    | absent => rfl
    | inherited i => rw [hg] at hr; cases hr
  have hle := hok.le
  rw [hm, ha] at hle
  refine ⟨max, active, by rw [hmax, ← hn, hm], by rw [hread, ha], hok.activeRead, ?_⟩
  simpa using hle

section

variable {P : Platform} {e : PolicyEngine} {ev : Evaluation} {c : Charge} {parts : AuthorizationParts}

/-- The number of leases listed for an agent. -/
def tracked (state : State) (agent : JsString) : ℕ := (residentLeases state agent).size

theorem AllowedStep.counts (h : AllowedStep P e ev c parts) :
    ∃ max active, AgentCounts ev.before ev.intent.agentId max active := by
  obtain ⟨n, hn, -⟩ := h.permitted.leaves.maxConcurrent
  exact agentCounts_of_serializable
    ((hashable_of_computeStateHash h.permitted.issued.stateHash).1 .concurrency).1 hn

theorem AllowedStep.transition (h : AllowedStep P e ev c parts) :
    (ev.intent.kind = .execute ∧
      c.auths = liveLeases ev.evaluationTime (residentLeases ev.before ev.intent.agentId) ∧
      c.removed = expiredCount ev.evaluationTime (residentLeases ev.before ev.intent.agentId)) ∨
    (ev.intent.kind = .release ∧ ∃ id, ev.intent.authorizationId = some id ∧ id ≠ [] ∧
      LeaseMap.truthy ⟨liveLeases ev.evaluationTime (residentLeases ev.before ev.intent.agentId),
        protoLease ev.evaluationTime (residentLeases ev.before ev.intent.agentId)⟩ id = true ∧
      c.auths = (liveLeases ev.evaluationTime
        (residentLeases ev.before ev.intent.agentId)).without id ∧
      c.removed = expiredCount ev.evaluationTime (residentLeases ev.before ev.intent.agentId) + 1) :=
  h.permitted.admitted.leases.transition

theorem AllowedStep.le_count (h : AllowedStep P e ev c parts) {n : ℕ}
    (hn : activeCount ev.before ev.intent.agentId = .int n) :
    tracked ev.before ev.intent.agentId ≤ n := by
  have ht := h.permitted.admitted.leases.tracked
  rw [hn] at ht
  simpa [tracked] using ht

/-- The counter an allowed step leaves. -/
theorem AllowedStep.activeCount_after (h : AllowedStep P e ev c parts) :
    activeCount ev.after ev.intent.agentId = chargedActive ev.intent ev.before c := by
  obtain ⟨max, active, hc⟩ := h.counts
  have hset := assign_of_not_inherited hc.read (chargedActive ev.intent ev.before c)
  rw [h.after, activeCount, nextStateFor_active, hset,
    Record.get_of_own? _ (Record.own?_set_self _ _ _)]

/-- The table an allowed step leaves. -/
theorem AllowedStep.residentLeases_after (h : AllowedStep P e ev c parts) :
    residentLeases ev.after ev.intent.agentId = match ev.intent.kind with
      | .execute => c.auths.set parts.authorizationId
          ⟨ev.evaluationTime.add e.authorizationTtl⟩
      | .release => c.auths := by
  rw [h.after, nextStateFor, leaseState]
  cases ev.intent.kind with
  | release =>
    simp only [settle, residentLeases]
    rw [Record.get_of_own? _ (Record.own?_set_self _ _ _)]
  | execute =>
    have hsettle : residentLeases (settle ev.intent ev.before (moduleContext e ev.evaluationTime) c)
        ev.intent.agentId = c.auths := by
      rw [residentLeases]
      simp only [settle]
      rw [Record.get_of_own? _ (Record.own?_set_self _ _ _)]
    simp only [insertLease, hsettle]
    rw [residentLeases]
    simp only
    rw [Record.get_of_own? _ (Record.own?_set_self _ _ _)]
    rfl

/-- A step leaves the other agents' counters and tables alone. -/
theorem AllowedStep.others (h : AllowedStep P e ev c parts) {agent : JsString}
    (hne : agent ≠ ev.intent.agentId) :
    activeCount ev.after agent = activeCount ev.before agent ∧
      residentLeases ev.after agent = residentLeases ev.before agent := by
  have hactive : (ev.before.concurrency.active.assign ev.intent.agentId
      (chargedActive ev.intent ev.before c)).get agent = ev.before.concurrency.active.get agent :=
    Record.get_congr (Record.own?_assign_of_ne _ hne _)
  constructor
  · rw [h.after, activeCount, nextStateFor_active, hactive, activeCount]
  · have hauths : (ev.before.concurrency.activeAuths.set ev.intent.agentId c.auths).get agent =
        ev.before.concurrency.activeAuths.get agent :=
      Record.get_congr (Record.own?_set_of_ne _ hne _)
    rw [h.after, nextStateFor, leaseState]
    cases ev.intent.kind with
    | release =>
      simp only [settle, residentLeases]
      rw [hauths]
    | execute =>
      have hins : ∀ w : Record Lease, ((ev.before.concurrency.activeAuths.set ev.intent.agentId
          c.auths).set ev.intent.agentId w).get agent = ev.before.concurrency.activeAuths.get agent :=
        fun w => Record.get_congr (by simp [hne])
      simp only [insertLease, settle, residentLeases]
      rw [hins]

/-- The leases of a table that are live at a time. -/
def liveAt (t : JsNumber) (table : Record Lease) : Record Lease := table.filter (fun e => isLive t e.2)

theorem own?_liveLeases {t : JsNumber} {table : Record Lease} {id : JsString} :
    (liveLeases t table).own? id = if id = protoKey then none else (liveAt t table).own? id := by
  apply Option.ext
  intro lease
  rw [liveLeases, Record.own?_filter]
  by_cases hid : id = protoKey
  · simp [hid]
  · rw [if_neg hid, liveAt, Record.own?_filter]
    simp [hid]

theorem protoLease_eq {t : JsNumber} {table : Record Lease} :
    protoLease t table = (liveAt t table).own? protoKey := by
  apply Option.ext
  intro lease
  rw [protoLease, liveAt, Record.own?_filter, Option.filter_eq_some_iff]

end

end OxDeAI
