import OxDeAI.Policy.Gates

/-! Concurrency: a counter of actions in flight and the leases that account for
them, reclaimed at expiry. -/

namespace OxDeAI

open Js

/-- The plain object the live leases are collected in. Assigning under
`__proto__` replaces its prototype. -/
structure LeaseMap where
  own : Record Lease
  proto : Option Lease

namespace LeaseMap

def empty : LeaseMap := ⟨Record.empty, none⟩

def assign (m : LeaseMap) (k : JsString) (lease : Lease) : LeaseMap :=
  if k = protoKey then { m with proto := some lease } else { m with own := m.own.set k lease }

def truthyNumber (n : JsNumber) : Bool := !(n.isNaN || n = .int 0)

/-- Truthiness of `map[key]`, through the prototype chain. -/
def truthy (m : LeaseMap) (k : JsString) : Bool :=
  (m.own.own? k).isSome || (inherited? k).isSome ||
    m.proto.any (fun lease => k = js "expires_at" && truthyNumber lease.expiresAt)

end LeaseMap

structure ConcurrencyLeaseTransition where
  auths : Record Lease
  removed : ℕ
  releaseInvalid : Bool

/-- The leases of an agent; the built-ins of the prototype have no own keys. -/
def residentLeases (state : State) (agent : JsString) : Record Lease :=
  match state.concurrency.activeAuths.get agent with
  | .own auths => auths
  | _ => Record.empty

/-- `active?.[agent] ?? 0`. An object compares and subtracts as `NaN`. -/
def activeCount (state : State) (agent : JsString) : JsNumber :=
  match state.concurrency.active.get agent with
  | .own n => n
  | .absent => .int 0
  | .inherited _ => .nan

/-- One resident lease: malformed, expired and counted, or still live. -/
def scanLease (evaluationTime : JsNumber) (acc : LeaseMap × ℕ) (e : JsString × Lease) :
    Option (LeaseMap × ℕ) :=
  if !isProtocolSeconds e.2.expiresAt then none
  else if evaluationTime.ge e.2.expiresAt then some (acc.1, acc.2 + 1)
  else some (acc.1.assign e.1 e.2, acc.2)

/-- The transition once the resident leases are sorted into live and expired. -/
def leaseTransition (intent : Intent) (auths : LeaseMap) (removed : ℕ) : ConcurrencyLeaseTransition :=
  match intent.kind, intent.authorizationId with
  | .execute, _ => ⟨auths.own, removed, false⟩
  | .release, none => ⟨auths.own, removed, true⟩
  | .release, some authId =>
    if authId = [] ∨ auths.truthy authId = false then ⟨auths.own, removed, true⟩
    else ⟨auths.own.without authId, removed + 1, false⟩

def computeConcurrencyLeases (intent : Intent) (state : State) (evaluationTime : JsNumber) :
    Option ConcurrencyLeaseTransition :=
  let agent := intent.agentId
  let resident := residentLeases state agent
  if (activeCount state agent).lt (.int resident.size) then none
  else
    (resident.entries.foldlM (scanLease evaluationTime) (LeaseMap.empty, 0)).map
      (fun acc => leaseTransition intent acc.1 acc.2)

def setLeases (concurrency : ConcurrencyState) (agent : JsString) (active : JsNumber)
    (auths : Record Lease) : ConcurrencyState :=
  { concurrency with
    active := concurrency.active.set agent active
    activeAuths := concurrency.activeAuths.set agent auths }

def concurrencyModule : PolicyModule := fun intent state context =>
  let agent := intent.agentId
  let max : Option JsNumber := match state.concurrency.maxConcurrent.get agent with
    | .own n => some n
    | .absent => none
    | .inherited _ => some .nan
  match max with
  | none => .ok (.deny [.stateInvalid])
  | some max =>
    match computeConcurrencyLeases intent state context.evaluationTime with
    | none => .ok (.deny [.stateInvalid])
    | some leases =>
      let activeAfterReclaim := (activeCount state agent).sub (.int leases.removed)
      if intent.kind = .release then
        if leases.releaseInvalid then .ok (.deny [.concurrencyReleaseInvalid])
        else .ok (.allow (some {
          concurrency := some (setLeases state.concurrency agent activeAfterReclaim leases.auths) }))
      else if activeAfterReclaim.ge max then .ok (.deny [.concurrencyLimitExceeded])
      else .ok (.allow (some {
        concurrency := some (setLeases state.concurrency agent (activeAfterReclaim.add (.int 1)) leases.auths) }))

def isLive (t : JsNumber) (lease : Lease) : Bool := !t.ge lease.expiresAt

def liveLeases (t : JsNumber) (resident : Record Lease) : Record Lease :=
  resident.filter (fun e => isLive t e.2 && e.1 ≠ protoKey)

def expiredCount (t : JsNumber) (resident : Record Lease) : ℕ :=
  resident.entries.countP (fun e => !isLive t e.2)

def protoLease (t : JsNumber) (resident : Record Lease) : Option Lease :=
  (resident.own? protoKey).filter (isLive t)

def wellFormedLeases (resident : Record Lease) : Bool :=
  resident.entries.all (fun e => isProtocolSeconds e.2.expiresAt)

theorem filter_ownEntry_cons {p : Lease → Bool} {k : JsString} {lease : Lease}
    {es : List (JsString × Lease)} (hk : k ∉ es.map Prod.fst) :
    (ownEntry protoKey ((k, lease) :: es)).filter p =
      if k = protoKey ∧ p lease = true then some lease else (ownEntry protoKey es).filter p := by
  by_cases hp : k = protoKey
  · have hnone : ownEntry protoKey es = none := ownEntry_eq_none.mpr (hp ▸ hk)
    by_cases hl : p lease = true
    · simp [ownEntry, hp, hl]
    · simp [ownEntry, hp, hl, hnone]
  · simp [ownEntry, hp]

/-- The scan of a list of leases, from any leases collected before it. -/
theorem scanLease_foldlM {t : JsNumber} {es : List (JsString × Lease)} (own : Record Lease)
    (proto : Option Lease) (n : ℕ) (hnd : (es.map Prod.fst).Nodup)
    (hdisj : ∀ e ∈ es, e.1 ∉ own.keys) (hwf : ∀ e ∈ es, isProtocolSeconds e.2.expiresAt = true) :
    ∃ own' : Record Lease,
      own'.entries = own.entries ++ es.filter (fun e => isLive t e.2 && e.1 ≠ protoKey) ∧
      es.foldlM (scanLease t) (⟨own, proto⟩, n) =
        some (⟨own', ((ownEntry protoKey es).filter (isLive t)).or proto⟩,
          n + es.countP (fun e => !isLive t e.2)) := by
  induction es generalizing own proto n with
  | nil => exact ⟨own, by simp, by simp [ownEntry]⟩
  | cons e es ih =>
    obtain ⟨k, lease⟩ := e
    rw [List.map_cons, List.nodup_cons] at hnd
    have hk : ∀ e ∈ es, e.1 ≠ k := fun e he h => hnd.1 (List.mem_map.mpr ⟨e, he, h⟩)
    have hrest : ∀ e ∈ es, e.1 ∉ own.keys := fun e he => hdisj e (by simp [he])
    have hwf' : ∀ e ∈ es, isProtocolSeconds e.2.expiresAt = true := fun e he => hwf e (by simp [he])
    have hl : isProtocolSeconds lease.expiresAt = true := hwf (k, lease) (by simp)
    rw [filter_ownEntry_cons hnd.1, List.foldlM_cons]
    by_cases hlive : isLive t lease = true
    · have hge : t.ge lease.expiresAt = false := by simpa [isLive] using hlive
      by_cases hp : k = protoKey
      · have hnone : ownEntry protoKey es = none := ownEntry_eq_none.mpr (hp ▸ hnd.1)
        obtain ⟨own', hown, hfold⟩ := ih _ (some lease) n hnd.2 hrest hwf'
        refine ⟨own', by simp [hown, hp], ?_⟩
        rw [hnone] at hfold
        rw [if_pos ⟨hp, hlive⟩, List.countP_cons_of_neg (by simpa using hlive)]
        simpa [scanLease, hl, hge, LeaseMap.assign, hp] using hfold
      · have hset : (own.set k lease).entries = own.entries ++ [(k, lease)] :=
          setEntry_of_notMem (hdisj (k, lease) (by simp))
        have hkeys : ∀ e ∈ es, e.1 ∉ (own.set k lease).keys := by
          intro e he
          rw [Record.keys_set]
          split
          · exact hrest e he
          · simp [hrest e he, hk e he]
        obtain ⟨own', hown, hfold⟩ := ih _ proto n hnd.2 hkeys hwf'
        refine ⟨own', by simp [hown, hset, hlive, hp], ?_⟩
        rw [if_neg (fun h => hp h.1), List.countP_cons_of_neg (by simpa using hlive)]
        simpa [scanLease, hl, hge, LeaseMap.assign, hp] using hfold
    · have hge : t.ge lease.expiresAt = true := by simpa [isLive] using hlive
      obtain ⟨own', hown, hfold⟩ := ih _ proto (n + 1) hnd.2 hrest hwf'
      refine ⟨own', by simp [hown, hlive], ?_⟩
      rw [if_neg (fun h => hlive h.2), List.countP_cons_of_pos (by simpa using hlive),
        ← Nat.add_assoc, Nat.add_right_comm]
      simpa [scanLease, hl, hge] using hfold

theorem scanLease_malformed {t : JsNumber} {es : List (JsString × Lease)} {acc : LeaseMap × ℕ}
    {e : JsString × Lease} (he : e ∈ es) (hwf : isProtocolSeconds e.2.expiresAt = false) :
    es.foldlM (scanLease t) acc = none := by
  induction es generalizing acc with
  | nil => simp at he
  | cons e' es ih =>
    rw [List.foldlM_cons]
    rcases List.mem_cons.mp he with rfl | he
    · simp [scanLease, hwf]
    · cases scanLease t acc e' with
      | none => rfl
      | some acc' => exact ih he

theorem scanLeases_eq (t : JsNumber) (resident : Record Lease) :
    resident.entries.foldlM (scanLease t) (LeaseMap.empty, 0) =
      if wellFormedLeases resident then
        some (⟨liveLeases t resident, protoLease t resident⟩, expiredCount t resident)
      else none := by
  by_cases hwf : wellFormedLeases resident = true
  · rw [if_pos hwf]
    rw [wellFormedLeases, List.all_eq_true] at hwf
    obtain ⟨own', hown, hfold⟩ := scanLease_foldlM (t := t) Record.empty none 0
      resident.nodup (by simp [Record.empty, Record.keys]) hwf
    have heq : own' = liveLeases t resident := by
      cases own'
      simpa only [liveLeases, Record.filter, Record.mk.injEq, Record.empty, List.nil_append] using hown
    rw [LeaseMap.empty, hfold, heq, Option.or_none, Nat.zero_add]
    rfl
  · rw [if_neg hwf]
    rw [wellFormedLeases, List.all_eq_true] at hwf
    push Not at hwf
    obtain ⟨e, he, hw⟩ := hwf
    exact scanLease_malformed he (by simpa using hw)

theorem length_scan (t : JsNumber) {es : List (JsString × Lease)} (hnd : (es.map Prod.fst).Nodup) :
    (es.filter (fun e => isLive t e.2 && e.1 ≠ protoKey)).length +
      ((ownEntry protoKey es).filter (isLive t)).toList.length +
      es.countP (fun e => !isLive t e.2) = es.length := by
  induction es with
  | nil => simp [ownEntry]
  | cons e es ih =>
    obtain ⟨k, lease⟩ := e
    rw [List.map_cons, List.nodup_cons] at hnd
    have hih := ih hnd.2
    rw [filter_ownEntry_cons hnd.1, List.length_cons]
    by_cases hlive : isLive t lease = true
    · rw [List.countP_cons_of_neg (by simpa using hlive)]
      by_cases hp : k = protoKey
      · have hnone : ownEntry protoKey es = none := ownEntry_eq_none.mpr (hp ▸ hnd.1)
        rw [if_pos ⟨hp, hlive⟩, List.filter_cons_of_neg (by simp [hp])]
        simp only [hnone, Option.filter_none, Option.toList_none, List.length_nil] at hih
        simp only [Option.toList_some, List.length_singleton]
        omega
      · rw [if_neg (fun h => hp h.1), List.filter_cons_of_pos (by simp [hlive, hp]), List.length_cons]
        omega
    · rw [if_neg (fun h => hlive h.2), List.countP_cons_of_pos (by simpa using hlive),
        List.filter_cons_of_neg (by simp [hlive])]
      omega

/-- Live leases, the one under `__proto__` apart, and expired ones make up the
resident ones. -/
theorem size_resident (t : JsNumber) (resident : Record Lease) :
    (liveLeases t resident).size + (protoLease t resident).toList.length + expiredCount t resident =
      resident.size := length_scan t resident.nodup

/-- A lease transition a permitted intent goes through. -/
structure LeaseStep (intent : Intent) (state : State) (t : JsNumber) (auths : Record Lease)
    (removed : ℕ) : Prop where
  tracked : (activeCount state intent.agentId).lt
    (.int (residentLeases state intent.agentId).size) = false
  wellFormed : wellFormedLeases (residentLeases state intent.agentId) = true
  transition : (intent.kind = .execute ∧
      auths = liveLeases t (residentLeases state intent.agentId) ∧
      removed = expiredCount t (residentLeases state intent.agentId)) ∨
    (intent.kind = .release ∧ ∃ authId, intent.authorizationId = some authId ∧ authId ≠ [] ∧
      LeaseMap.truthy ⟨liveLeases t (residentLeases state intent.agentId),
        protoLease t (residentLeases state intent.agentId)⟩ authId = true ∧
      auths = (liveLeases t (residentLeases state intent.agentId)).without authId ∧
      removed = expiredCount t (residentLeases state intent.agentId) + 1)

theorem leaseTransition_valid {intent : Intent} {m : LeaseMap} {n : ℕ} {auths : Record Lease}
    {removed : ℕ} :
    leaseTransition intent m n = ⟨auths, removed, false⟩ ↔
      (intent.kind = .execute ∧ auths = m.own ∧ removed = n) ∨
      (intent.kind = .release ∧ ∃ authId, intent.authorizationId = some authId ∧ authId ≠ [] ∧
        m.truthy authId = true ∧ auths = m.own.without authId ∧ removed = n + 1) := by
  constructor
  · intro h
    unfold leaseTransition at h
    split at h
    · rename_i hk
      cases h
      exact .inl ⟨hk, rfl, rfl⟩
    · cases h
    · rename_i authId hk ha
      split at h
      · cases h
      · rename_i hr
        rw [not_or, Bool.not_eq_false] at hr
        cases h
        exact .inr ⟨hk, authId, ha, hr.1, hr.2, rfl, rfl⟩
  · rintro (⟨hk, rfl, rfl⟩ | ⟨hk, authId, ha, hne, ht, rfl, rfl⟩)
    · simp only [leaseTransition, hk]
    · simp only [leaseTransition, hk, ha]
      rw [if_neg (by simp [hne, ht])]

theorem releaseInvalid_of_execute {intent : Intent} {state : State} {t : JsNumber}
    {leases : ConcurrencyLeaseTransition} (hk : intent.kind = .execute)
    (h : computeConcurrencyLeases intent state t = some leases) : leases.releaseInvalid = false := by
  simp only [computeConcurrencyLeases] at h
  split at h
  · cases h
  · obtain ⟨acc, -, rfl⟩ := Option.map_eq_some_iff.mp h
    simp only [leaseTransition, hk]

theorem computeConcurrencyLeases_valid {intent : Intent} {state : State} {t : JsNumber}
    {auths : Record Lease} {removed : ℕ} :
    computeConcurrencyLeases intent state t = some ⟨auths, removed, false⟩ ↔
      LeaseStep intent state t auths removed := by
  rw [computeConcurrencyLeases, scanLeases_eq]
  by_cases hlt : (activeCount state intent.agentId).lt
      (.int (residentLeases state intent.agentId).size) = true
  · rw [if_pos hlt]
    exact ⟨fun h => (by cases h), fun h => by simp [h.tracked] at hlt⟩
  · rw [if_neg hlt]
    by_cases hwf : wellFormedLeases (residentLeases state intent.agentId) = true
    · rw [if_pos hwf, Option.map_some, Option.some.injEq, leaseTransition_valid]
      exact ⟨fun h => ⟨by simpa using hlt, hwf, h⟩, fun h => h.transition⟩
    · rw [if_neg hwf]
      exact ⟨fun h => (by cases h), fun h => absurd h.wellFormed hwf⟩

/-- The counter value a permitted intent leaves behind. -/
def nextActive (intent : Intent) (active : JsNumber) (removed : ℕ) : JsNumber :=
  match intent.kind with
  | .release => active.sub (.int removed)
  | .execute => (active.sub (.int removed)).add (.int 1)

theorem concurrencyModule_allow {intent : Intent} {state : State} {context : PolicyEvaluationContext}
    {delta : Option StateDelta} {max : JsNumber}
    (hmax : state.concurrency.maxConcurrent.own? intent.agentId = some max) :
    concurrencyModule intent state context = .ok (.allow delta) ↔
      ∃ auths removed, LeaseStep intent state context.evaluationTime auths removed ∧
        (intent.kind = .execute →
          ((activeCount state intent.agentId).sub (.int removed)).ge max = false) ∧
        delta = some { concurrency := some (setLeases state.concurrency intent.agentId
          (nextActive intent (activeCount state intent.agentId) removed) auths) } := by
  simp only [concurrencyModule, Record.get_of_own? _ hmax, ← computeConcurrencyLeases_valid]
  cases hl : computeConcurrencyLeases intent state context.evaluationTime with
  | none => simp
  | some leases =>
    obtain ⟨auths, removed, releaseInvalid⟩ := leases
    cases hk : intent.kind with
    | release =>
      constructor
      · intro h
        cases releaseInvalid with
        | true => cases h
        | false =>
          cases h
          exact ⟨auths, removed, rfl, nofun, by rw [nextActive, hk]⟩
      · rintro ⟨auths', removed', h, -, rfl⟩
        cases h
        simp [nextActive, hk]
    | execute =>
      have hri : releaseInvalid = false := releaseInvalid_of_execute hk hl
      subst hri
      constructor
      · intro h
        simp only [reduceCtorEq, if_false] at h
        split at h
        · cases h
        · rename_i hge
          cases h
          exact ⟨auths, removed, rfl, fun _ => by simpa using hge, by rw [nextActive, hk]⟩
      · rintro ⟨auths', removed', h, hge, rfl⟩
        cases h
        simp [nextActive, hk, hge rfl]

end OxDeAI
