import OxDeAI.Engine.Issue
import OxDeAI.Snapshot.CanonicalRecord

/-! Adding the lease of a fresh authorization to a state with a hash leaves a
state with a hash. -/

namespace OxDeAI

open Js

/-- Only hexadecimal text normalizes to hexadecimal text. -/
def HexStable (nfc : JsString → JsString) : Prop :=
  ∀ s, (nfc s).all isHexUnit = true → nfc s = s

section

variable {nfc : JsString → JsString}

theorem buildObject_map (keys : List JsString) (f : JsString → JsValue) :
    buildObject (keys.map (fun k => (k, f k))) =
      .obj ((keys.filter (fun k => k ≠ protoKey)).map (fun k => (k, f k))) := by
  rw [buildObject, List.filter_map]
  rfl

/-- A member of an accepted object is accepted. -/
theorem canonical_of_buildObject {keys : List JsString} {f : JsString → JsValue}
    (h : Canonical nfc (buildObject (keys.map (fun k => (k, f k))))) {k : JsString} (hk : k ∈ keys)
    (hne : k ≠ protoKey) : Canonical nfc (f k) := by
  rw [buildObject_map] at h
  cases h with
  | obj hm hv => exact hv (k, f k) (List.mem_map.mpr ⟨k, List.mem_filter.mpr ⟨hk, by simpa using hne⟩, rfl⟩)

/-- Objects over the same keys, when each value stays accepted. -/
theorem canonical_buildObject_mono {keys : List JsString} {f g : JsString → JsValue}
    (h : Canonical nfc (buildObject (keys.map (fun k => (k, f k)))))
    (hts : ∀ k, k ≠ protoKey → isTimestamp (f k) = true → isTimestamp (g k) = true)
    (hc : ∀ k ∈ keys, k ≠ protoKey → Canonical nfc (f k) → Canonical nfc (g k)) :
    Canonical nfc (buildObject (keys.map (fun k => (k, g k)))) := by
  have hvalue := fun k hk hne => canonical_of_buildObject (k := k) h hk hne
  rw [buildObject_map] at h ⊢
  cases h with
  | obj hm hv =>
    refine .obj ⟨?_, ?_⟩ ?_
    · have hnd := hm.nodup
      rw [List.map_map] at hnd ⊢
      exact hnd
    · intro e he hk
      obtain ⟨k, hin, rfl⟩ := List.mem_map.mp he
      have hne : k ≠ protoKey := by simpa using (List.mem_filter.mp hin).2
      exact hts k hne (hm.timestamp (k, f k) (List.mem_map.mpr ⟨k, hin, rfl⟩) hk)
    · intro e he
      obtain ⟨k, hin, rfl⟩ := List.mem_map.mp he
      obtain ⟨hin, hne⟩ := List.mem_filter.mp hin
      have hne : k ≠ protoKey := by simpa using hne
      exact hc k hin hne (hvalue k hin hne)

/-- A lease table is accepted when its keys stay apart and none reads as a timestamp. -/
structure CanonicalLeases (nfc : JsString → JsString) (r : Record Lease) : Prop where
  value : ∀ k lease, r.own? k = some lease → k ≠ protoKey → Canonical nfc (leasePayload lease)
  timestamp : ∀ k lease, r.own? k = some lease → k ≠ protoKey → nfc k ≠ tsKey
  apart : ∀ k k', k ∈ r.keys → k' ∈ r.keys → k ≠ protoKey → k' ≠ protoKey → nfc k = nfc k' → k = k'

theorem written_leases {r : Record Lease} {k : JsString} {v : JsValue} :
    written r (some ∘ leasePayload) k = some v ↔ ∃ lease, r.own? k = some lease ∧ k ≠ protoKey ∧ leasePayload lease = v := by
  by_cases hne : k = protoKey
  · simp [written, hne]
  · rw [written_of_ne hne]
    cases r.own? k <;> simp [hne]

theorem canonical_leasesPayload {r : Record Lease} :
    Canonical nfc (leasesPayload r) ↔ CanonicalLeases nfc r := by
  rw [leasesPayload, canonical_record]
  constructor
  · intro h
    refine ⟨fun k lease ho hne => h.value k _ (written_leases.mpr ⟨lease, ho, hne, rfl⟩), ?_, ?_⟩
    · intro k lease ho hne hk
      have hts := h.timestamp k _ (written_leases.mpr ⟨lease, ho, hne, rfl⟩) hk
      cases hts
    · intro k k' hk hk' hne hne' heq
      obtain ⟨lease, ho⟩ := Option.isSome_iff_exists.mp ((Record.mem_keys _).mp hk)
      obtain ⟨lease', ho'⟩ := Option.isSome_iff_exists.mp ((Record.mem_keys _).mp hk')
      exact h.apart k k' _ _ (written_leases.mpr ⟨lease, ho, hne, rfl⟩)
        (written_leases.mpr ⟨lease', ho', hne', rfl⟩) heq
  · intro h
    constructor
    · intro k v hw
      obtain ⟨lease, ho, hne, rfl⟩ := written_leases.mp hw
      exact h.value k lease ho hne
    · intro k v hw hk
      obtain ⟨lease, ho, hne, rfl⟩ := written_leases.mp hw
      exact absurd hk (h.timestamp k lease ho hne)
    · intro k k' v v' hw hw' heq
      obtain ⟨lease, ho, hne, -⟩ := written_leases.mp hw
      obtain ⟨lease', ho', hne', -⟩ := written_leases.mp hw'
      exact h.apart k k' ((Record.mem_keys _).mpr (by simp [ho])) ((Record.mem_keys _).mpr (by simp [ho'])) hne
        hne' heq

/-- Fewer leases are accepted where more of them are. -/
theorem CanonicalLeases.mono {r r' : Record Lease} (h : CanonicalLeases nfc r)
    (hsub : ∀ k lease, r'.own? k = some lease → r.own? k = some lease) : CanonicalLeases nfc r' := by
  have hkeys : ∀ k, k ∈ r'.keys → k ∈ r.keys := by
    intro k hk
    obtain ⟨lease, ho⟩ := Option.isSome_iff_exists.mp ((Record.mem_keys _).mp hk)
    exact (Record.mem_keys _).mpr (by rw [hsub k lease ho]; rfl)
  constructor
  · exact fun k lease ho hne => h.value k lease (hsub k lease ho) hne
  · exact fun k lease ho hne => h.timestamp k lease (hsub k lease ho) hne
  · exact fun k k' hk hk' hne hne' heq => h.apart k k' (hkeys k hk) (hkeys k' hk') hne hne' heq

/-- A lease under a digest, with a clock reading for its expiry. -/
theorem CanonicalLeases.set (hn : NfcLaws nfc) (hx : HexStable nfc) {r : Record Lease}
    (h : CanonicalLeases nfc r) {id : JsString} (hid : id.all isHexUnit = true) {lease : Lease}
    (hl : isProtocolSeconds lease.expiresAt = true) : CanonicalLeases nfc (r.set id lease) := by
  have hplain : nfc id = id := hn.ascii _ (isAscii_of_hex hid)
  have hstay : ∀ k, nfc k = id → k = id := by
    intro k hk
    have := hx k (by rw [hk]; exact hid)
    rw [← this, hk]
  constructor
  · intro k lease' ho hne
    rw [Record.own?_set] at ho
    split at ho
    · cases ho
      refine (canonical_plain hn ?_ ?_).mpr ?_
      · simp only [List.map_cons, List.map_nil]; decide
      · simp only [List.map_cons, List.map_nil]; decide
      · simp only [List.forall_mem_cons, List.not_mem_nil, false_implies, implies_true, and_true]
        exact canonical_seconds hl
    · exact h.value k lease' ho hne
  · intro k lease' ho hne
    rw [Record.own?_set] at ho
    split at ho
    · rename_i hk
      subst hk
      rw [hplain]
      intro hts
      rw [hts] at hid
      exact absurd hid (by decide)
    · exact h.timestamp k lease' ho hne
  · intro k k' hk hk' hne hne' heq
    have hold : ∀ k, k ∈ (r.set id lease).keys → k ≠ id → k ∈ r.keys := by
      intro k hk hki
      rw [Record.mem_keys, Record.own?_set_of_ne _ hki, ← Record.mem_keys] at hk
      exact hk
    by_cases hki : k = id
    · subst hki
      exact (hstay k' (by rw [← heq, hplain])).symm
    · by_cases hki' : k' = id
      · subst hki'
        exact hstay k (by rw [heq, hplain])
      · exact h.apart k k' (hold k hk hki) (hold k' hk' hki') hne hne' heq

end

section

variable {P : Platform} {state : State} {intent : Intent}

theorem sortKeys_dedup_congr {l l' : List JsString} (h : ∀ k, k ∈ l ↔ k ∈ l') :
    sortKeys l.dedup = sortKeys l'.dedup := by
  have hd : l.dedup.Perm l'.dedup :=
    (List.perm_ext_iff_of_nodup l.nodup_dedup l'.nodup_dedup).mpr (by simpa using h)
  refine List.Perm.eq_of_pairwise' (r := (· ≤ ·)) ?_ ?_ ?_
  · exact List.pairwise_insertionSort _ _
  · exact List.pairwise_insertionSort _ _
  · exact (List.perm_insertionSort _ _).trans (hd.trans (List.perm_insertionSort _ _).symm)

/-- Counts and leases set for an agent that has a limit add no agent. -/
theorem concurrencyAgents_charged {c c' : ConcurrencyState} {agent : JsString} (hmax : c'.maxConcurrent = c.maxConcurrent)
    (hagent : agent ∈ c.maxConcurrent.keys) (hcount : ∀ k, k ≠ agent → (k ∈ c'.active.keys ↔ k ∈ c.active.keys))
    (hleases : ∀ k, k ≠ agent → (k ∈ c'.activeAuths.keys ↔ k ∈ c.activeAuths.keys)) :
    concurrencyAgents c' = concurrencyAgents c := by
  apply sortKeys_dedup_congr
  intro k
  simp only [List.mem_append, hmax]
  by_cases hk : k = agent
  · subst hk
    simp [hagent]
  · rw [hcount k hk, hleases k hk]

theorem mem_keys_set {α : Type} {r : Record α} {agent : JsString} {v : α} {k : JsString} (h : k ≠ agent) :
    k ∈ (r.set agent v).keys ↔ k ∈ r.keys := by
  rw [Record.mem_keys, Record.mem_keys, Record.own?_set_of_ne _ h]

theorem concurrencyAgents_insertLease {n : JsNumber}
    (hmax : state.concurrency.maxConcurrent.own? intent.agentId = some n) (id : JsString)
    (lease : Lease) : concurrencyAgents (insertLease intent state id lease).concurrency =
      concurrencyAgents state.concurrency :=
  concurrencyAgents_charged rfl ((Record.mem_keys _).mpr (by simp [hmax])) (fun _ _ => Iff.rfl)
    fun _ hk => mem_keys_set hk

theorem listedLeases_insertLease (intent : Intent) (state : State) (id : JsString) (lease : Lease) (agent : JsString) :
    listedLeases (insertLease intent state id lease).concurrency agent =
      if agent = intent.agentId then (listedLeases state.concurrency intent.agentId).set id lease
      else listedLeases state.concurrency agent := by
  have hr : residentLeases state intent.agentId = listedLeases state.concurrency intent.agentId := rfl
  split
  · rename_i h
    subst h
    rw [listedLeases, insertLease, hr]
    rw [Record.get_of_own? _ (Record.own?_set_self _ _ _)]
  · rename_i h
    have hget := Record.get_congr (r := (insertLease intent state id lease).concurrency.activeAuths)
      (s := state.concurrency.activeAuths) (Record.own?_set_of_ne _ h _)
    rw [listedLeases, listedLeases, hget]

/-- The lease of an authorization keeps the state hashable. -/
theorem Hashable.insertLease (hn : NfcLaws P.nfc) (hx : HexStable P.nfc) (h : Hashable P state)
    {n : JsNumber} (hmax : state.concurrency.maxConcurrent.own? intent.agentId = some n)
    {id : JsString} (hid : id.all isHexUnit = true) {lease : Lease}
    (hl : isProtocolSeconds lease.expiresAt = true) :
    Hashable P (insertLease intent state id lease) := by
  have hagents := concurrencyAgents_insertLease hmax id lease
  have hleases := listedLeases_insertLease intent state id lease
  intro module
  cases module with
  | allowlist => exact h .allowlist
  | budget => exact h .budget
  | killSwitch => exact h .killSwitch
  | recursionDepth => exact h .recursionDepth
  | replay => exact h .replay
  | toolAmplification => exact h .toolAmplification
  | velocity => exact h .velocity
  | concurrency =>
    obtain ⟨hser, hcan⟩ := h .concurrency
    constructor
    · intro agent hagent
      rw [hagents] at hagent
      have hok := hser agent hagent
      refine ⟨hok.maxRead, hok.activeRead, hok.max, hok.active, hok.le, ?_⟩
      rw [hleases]
      split
      · rename_i heq
        subst heq
        rintro ⟨k, lease'⟩ hk
        rw [← Record.own?_eq_some, Record.own?_set] at hk
        split at hk
        · cases hk
          obtain ⟨m, hm, -⟩ := isProtocolSeconds_iff.mp hl
          rw [hm]
          rfl
        · exact hok.leases _ ((Record.own?_eq_some _).mp hk)
      · exact hok.leases
    · simp only [payload, canonical_concurrency hn, List.map_map, Function.comp_def] at hcan ⊢
      rw [hagents]
      refine ⟨hcan.1, hcan.2.1, canonical_buildObject_mono hcan.2.2 ?_ ?_⟩
      · intro k _ hk
        simp only [agentConcurrency, leasesPayload, buildObject] at hk
        cases hk
      · intro k _ _ hc
        simp only [agentConcurrency, canonical_leasesPayload] at hc ⊢
        rw [hleases]
        split
        · rename_i heq
          subst heq
          exact hc.set hn hx hid hl
        · exact hc

end

end OxDeAI
