import OxDeAI.Snapshot.Serialize

/-! What each codec accepts and the data it writes. -/

namespace OxDeAI

open Js

def velocityPayload (s : VelocityState) : JsValue :=
  .obj [(js "config", .obj [(js "window_seconds", .num s.config.windowSeconds),
      (js "max_actions", .num s.config.maxActions)]),
    (js "counters", buildObject (recordMembers s.counters (Option.map counterPayload)))]

def noncesPayload (list : List NonceEntry) : JsValue := .arr ((sortNonces list).map noncePayload)

def replayPayload (s : ReplayState) : JsValue :=
  .obj [(js "window_seconds", .num s.windowSeconds),
    (js "max_nonces_per_agent", .num s.maxNoncesPerAgent),
    (js "nonces", buildObject (recordMembers s.nonces (some ∘ noncesPayload)))]

/-- `record[agent] ?? 0`, where it is a number. -/
def countOr0 (r : Record JsNumber) (agent : JsString) : JsNumber := (r.own? agent).getD (.int 0)

def leasesPayload (auths : Record Lease) : JsValue :=
  buildObject (recordMembers auths (some ∘ leasePayload))

def agentConcurrency (c : ConcurrencyState) (agent : JsString) : AgentConcurrency where
  max := countOr0 c.maxConcurrent agent
  active := countOr0 c.active agent
  auths := leasesPayload (listedLeases c agent)

def callsPayload (calls : Option (List ToolCall)) : JsValue :=
  .arr ((sortCalls (calls.getD [])).map toolCallPayload)

def toolsPayload (tools : Option (Record (Option JsNumber))) : JsValue :=
  buildObject (recordMembers (tools.getD Record.empty) (Option.map .num))

def toolLimitsPayload (tl : ToolLimitsState) : JsValue :=
  .obj [(js "window_seconds", .num tl.windowSeconds),
    (js "max_calls", buildObject (recordMembers tl.maxCalls (Option.map .num))),
    (js "max_calls_by_tool",
      buildObject (recordMembers (tl.maxCallsByTool.getD Record.empty) (some ∘ toolsPayload))),
    (js "calls", buildObject (recordMembers tl.calls (some ∘ callsPayload)))]

def payload (state : State) : ModuleId → JsValue
  | .allowlist => normalizeAllowlists state.allowlists
  | .budget => normalizeBudget state
  | .concurrency => concurrencyPayload ((concurrencyAgents state.concurrency).map
      (fun agent => (agent, agentConcurrency state.concurrency agent)))
  | .killSwitch => normalizeKillSwitch state
  | .recursionDepth =>
    .obj [(js "max_depth", buildObject (recordMembers state.recursion.maxDepth (some ∘ .num)))]
  | .replay => replayPayload state.replay
  | .toolAmplification => toolLimitsPayload state.toolLimits
  | .velocity => velocityPayload state.velocity

def CounterOk (c : VelocityCounter) : Prop := c.windowStart.isInteger = true ∧ isNonNegInt c.count = true

/-- Integral timestamps, and no entry twice. -/
def NoncesOk (list : List NonceEntry) : Prop := (∀ x ∈ list, x.ts.isInteger = true) ∧ list.Nodup

def LeasesOk (auths : Record Lease) : Prop := ∀ e ∈ auths.entries, e.2.expiresAt.isInteger = true

structure AgentConcurrencyOk (c : ConcurrencyState) (agent : JsString) : Prop where
  maxRead : (c.maxConcurrent.get agent).isInherited = false
  activeRead : (c.active.get agent).isInherited = false
  max : isNonNegInt (countOr0 c.maxConcurrent agent) = true
  active : isNonNegInt (countOr0 c.active agent) = true
  le : (countOr0 c.maxConcurrent agent).lt (countOr0 c.active agent) = false
  leases : LeasesOk (listedLeases c agent)

def CallsOk (calls : Option (List ToolCall)) : Prop := ∀ x ∈ calls.getD [], x.ts.isInteger = true

def CountOk (n : Option JsNumber) : Prop := ∀ m, n = some m → isNonNegInt m = true

def ToolsOk (tools : Option (Record (Option JsNumber))) : Prop :=
  ∀ e ∈ (tools.getD Record.empty).entries, CountOk e.2

def Serializable (state : State) : ModuleId → Prop
  | .allowlist => True
  | .budget => True
  | .concurrency =>
    ∀ agent ∈ concurrencyAgents state.concurrency, AgentConcurrencyOk state.concurrency agent
  | .killSwitch => True
  | .recursionDepth => ∀ e ∈ state.recursion.maxDepth.entries, isNonNegInt e.2 = true
  | .replay =>
    (∀ e ∈ state.replay.nonces.entries, NoncesOk e.2) ∧ isPosInt state.replay.windowSeconds = true ∧
      isNonNegInt state.replay.maxNoncesPerAgent = true
  | .toolAmplification =>
    (∀ e ∈ state.toolLimits.maxCalls.entries, CountOk e.2) ∧
    (∀ e ∈ (state.toolLimits.maxCallsByTool.getD Record.empty).entries, ToolsOk e.2) ∧
    (∀ e ∈ state.toolLimits.calls.entries, CallsOk e.2) ∧
    isPosInt state.toolLimits.windowSeconds = true
  | .velocity =>
    isPosInt state.velocity.config.windowSeconds = true ∧
    isNonNegInt state.velocity.config.maxActions = true ∧
    ∀ e ∈ state.velocity.counters.entries, ∀ c, e.2 = some c → CounterOk c

theorem normalizeCounter_ok (c : Option VelocityCounter) (v : Option JsValue) :
    normalizeCounter c = .ok v ↔ (∀ c', c = some c' → CounterOk c') ∧ v = c.map counterPayload := by
  cases c with
  | none => simp [normalizeCounter, eq_comm]
  | some c =>
    simp only [normalizeCounter, bind_eq_ok, assertInt_num, assertNonNegInt_num, pure, Except.pure]
    constructor
    · rintro ⟨_, ⟨h1, rfl⟩, _, ⟨h2, rfl⟩, h⟩
      cases h
      exact ⟨fun c' hc => by cases hc; exact ⟨h1, h2⟩, rfl⟩
    · rintro ⟨h, rfl⟩
      have hc := h c rfl
      exact ⟨_, ⟨hc.1, rfl⟩, _, ⟨hc.2, rfl⟩, rfl⟩

theorem nodup_sortNonces {list : List NonceEntry} : (sortNonces list).Nodup ↔ list.Nodup :=
  (List.perm_insertionSort _ list).nodup_iff

theorem normalizeNonces_ok (list : List NonceEntry) (v : Option JsValue) :
    normalizeNonces list = .ok v ↔ NoncesOk list ∧ v = (some ∘ noncesPayload) list := by
  have hstep : ∀ x ∈ list, ∀ y : NonceEntry,
      (assertInt (.num x.ts) (js "replay.nonces.ts")).map (fun ts => NonceEntry.mk x.nonce ts) = .ok y ↔
        x.ts.isInteger = true ∧ y = id x := by
    intro x _ y
    rw [map_eq_ok]
    simp only [assertInt_num]
    constructor
    · rintro ⟨_, ⟨h, rfl⟩, rfl⟩
      exact ⟨h, rfl⟩
    · rintro ⟨h, rfl⟩
      exact ⟨_, ⟨h, rfl⟩, rfl⟩
  simp only [normalizeNonces, bind_eq_ok, mapM_ok_iff hstep, List.map_id, NoncesOk]
  constructor
  · rintro ⟨_, ⟨h, rfl⟩, hv⟩
    split at hv
    · rename_i hnd
      cases hv
      exact ⟨⟨h, nodup_sortNonces.mp hnd⟩, rfl⟩
    · cases hv
  · rintro ⟨⟨h, hnd⟩, rfl⟩
    exact ⟨_, ⟨h, rfl⟩, by rw [if_pos (nodup_sortNonces.mpr hnd)]; rfl⟩

theorem normalizeLease_ok (lease : Lease) (v : Option JsValue) :
    normalizeLease lease = .ok v ↔ lease.expiresAt.isInteger = true ∧ v = (some ∘ leasePayload) lease := by
  simp only [normalizeLease, map_eq_ok, assertInt_num]
  constructor
  · rintro ⟨_, ⟨h, rfl⟩, rfl⟩
    exact ⟨h, rfl⟩
  · rintro ⟨h, rfl⟩
    exact ⟨_, ⟨h, rfl⟩, rfl⟩

theorem normalizeCount_ok (field : JsString) (n : JsNumber) (v : Option JsValue) :
    normalizeCount field n = .ok v ↔ isNonNegInt n = true ∧ v = (some ∘ .num) n := by
  simp only [normalizeCount, map_eq_ok, assertNonNegInt_num]
  constructor
  · rintro ⟨_, ⟨h, rfl⟩, rfl⟩
    exact ⟨h, rfl⟩
  · rintro ⟨h, rfl⟩
    exact ⟨_, ⟨h, rfl⟩, rfl⟩

theorem normalizeOptionalCount_ok (field : JsString) (n : Option JsNumber) (v : Option JsValue) :
    normalizeOptionalCount field n = .ok v ↔ CountOk n ∧ v = n.map .num := by
  cases n with
  | none =>
    constructor
    · rintro h
      cases h
      exact ⟨nofun, rfl⟩
    · rintro ⟨-, rfl⟩
      rfl
  | some n =>
    rw [normalizeOptionalCount, normalizeCount_ok]
    simp [CountOk]

theorem normalizeTools_ok (tools : Option (Record (Option JsNumber))) (v : Option JsValue) :
    normalizeTools tools = .ok v ↔ ToolsOk tools ∧ v = (some ∘ toolsPayload) tools := by
  simp only [normalizeTools, map_eq_ok, serializeRecord_ok (normalizeOptionalCount_ok _), ToolsOk]
  constructor
  · rintro ⟨_, ⟨h, rfl⟩, rfl⟩
    exact ⟨h, rfl⟩
  · rintro ⟨h, rfl⟩
    exact ⟨_, ⟨h, rfl⟩, rfl⟩

theorem normalizeCalls_ok (calls : Option (List ToolCall)) (v : Option JsValue) :
    normalizeCalls calls = .ok v ↔ CallsOk calls ∧ v = (some ∘ callsPayload) calls := by
  have hstep : ∀ x ∈ calls.getD [], ∀ y : ToolCall,
      (assertInt (.num x.ts) (js "tool_limits.calls.ts")).map (fun ts => ToolCall.mk ts x.tool) = .ok y ↔
        x.ts.isInteger = true ∧ y = id x := by
    intro x _ y
    rw [map_eq_ok]
    simp only [assertInt_num]
    constructor
    · rintro ⟨_, ⟨h, rfl⟩, rfl⟩
      exact ⟨h, rfl⟩
    · rintro ⟨h, rfl⟩
      exact ⟨_, ⟨h, rfl⟩, rfl⟩
  simp only [normalizeCalls, bind_eq_ok, mapM_ok_iff hstep, List.map_id, CallsOk, pure, Except.pure]
  constructor
  · rintro ⟨_, ⟨h, rfl⟩, hv⟩
    cases hv
    exact ⟨h, rfl⟩
  · rintro ⟨h, rfl⟩
    exact ⟨_, ⟨h, rfl⟩, rfl⟩

theorem assertNonNegInt_countValue {r : Record JsNumber} {agent field : JsString} {m : JsNumber} :
    assertNonNegInt (countValue r agent) field = .ok m ↔
      (r.get agent).isInherited = false ∧ isNonNegInt (countOr0 r agent) = true ∧
        m = countOr0 r agent := by
  rw [countValue, countOr0, ← Record.value?_get]
  cases r.get agent with
  | own n => rw [assertNonNegInt_num]; simp [Read.isInherited, Read.value?]
  | absent => rw [assertNonNegInt_num]; simp [Read.isInherited, Read.value?]
  | inherited i => simp [assertNonNegInt, assertInt, Except.bind, Read.isInherited]

theorem normalizeAgentConcurrency_ok {c : ConcurrencyState} {agent : JsString} {v : AgentConcurrency} :
    normalizeAgentConcurrency c agent = .ok v ↔
      AgentConcurrencyOk c agent ∧ v = agentConcurrency c agent := by
  simp only [normalizeAgentConcurrency, bind_eq_ok, assertNonNegInt_countValue]
  constructor
  · rintro ⟨_, ⟨hm, hm', rfl⟩, _, ⟨ha, ha', rfl⟩, hv⟩
    split at hv
    · cases hv
    · rename_i hlt
      obtain ⟨_, hl, hv⟩ := bind_eq_ok.mp hv
      obtain ⟨hok, rfl⟩ := (serializeRecord_ok normalizeLease_ok _).mp hl
      cases hv
      exact ⟨⟨hm, ha, hm', ha', by simpa using hlt, hok⟩, rfl⟩
  · rintro ⟨h, rfl⟩
    refine ⟨_, ⟨h.maxRead, h.max, rfl⟩, _, ⟨h.activeRead, h.active, rfl⟩, ?_⟩
    rw [if_neg (by simpa using h.le)]
    exact bind_eq_ok.mpr ⟨_, (serializeRecord_ok normalizeLease_ok _).mpr ⟨h.leases, rfl⟩, rfl⟩

/-- A codec succeeds exactly on the parts it accepts, and writes the payload. -/
theorem serializeState_ok (id : ModuleId) (state : State) (v : JsValue) :
    serializeState id state = .ok v ↔ Serializable state id ∧ v = payload state id := by
  cases id with
  | allowlist => simp [serializeState, Serializable, payload, eq_comm]
  | budget => simp [serializeState, Serializable, payload, eq_comm]
  | killSwitch => simp [serializeState, Serializable, payload, eq_comm]
  | concurrency =>
    have hstep : ∀ agent ∈ concurrencyAgents state.concurrency, ∀ y : JsString × AgentConcurrency,
        (normalizeAgentConcurrency state.concurrency agent).map (fun c => (agent, c)) = .ok y ↔
          AgentConcurrencyOk state.concurrency agent ∧
            y = (agent, agentConcurrency state.concurrency agent) := by
      intro agent _ y
      simp only [map_eq_ok, normalizeAgentConcurrency_ok]
      constructor
      · rintro ⟨_, ⟨h, rfl⟩, rfl⟩
        exact ⟨h, rfl⟩
      · rintro ⟨h, rfl⟩
        exact ⟨_, ⟨h, rfl⟩, rfl⟩
    simp only [serializeState, normalizeConcurrency, map_eq_ok, mapM_ok_iff hstep]
    constructor
    · rintro ⟨_, ⟨h, rfl⟩, rfl⟩
      exact ⟨h, rfl⟩
    · rintro ⟨h, rfl⟩
      exact ⟨_, ⟨h, rfl⟩, rfl⟩
  | recursionDepth =>
    simp only [serializeState, normalizeRecursion, bind_eq_ok,
      serializeRecord_ok (normalizeCount_ok _), pure, Except.pure]
    constructor
    · rintro ⟨_, ⟨h, rfl⟩, hv⟩
      cases hv
      exact ⟨h, rfl⟩
    · rintro ⟨h, rfl⟩
      exact ⟨_, ⟨h, rfl⟩, rfl⟩
  | replay =>
    simp only [serializeState, normalizeReplay, bind_eq_ok, serializeRecord_ok normalizeNonces_ok,
      assertPosInt_num, assertNonNegInt_num, pure, Except.pure]
    constructor
    · rintro ⟨_, ⟨h, rfl⟩, _, ⟨hw, rfl⟩, _, ⟨hm, rfl⟩, hv⟩
      cases hv
      exact ⟨⟨h, hw, hm⟩, rfl⟩
    · rintro ⟨⟨h, hw, hm⟩, rfl⟩
      exact ⟨_, ⟨h, rfl⟩, _, ⟨hw, rfl⟩, _, ⟨hm, rfl⟩, rfl⟩
  | toolAmplification =>
    simp only [serializeState, normalizeToolLimits, bind_eq_ok,
      serializeRecord_ok (normalizeOptionalCount_ok _), serializeRecord_ok normalizeTools_ok,
      serializeRecord_ok normalizeCalls_ok, assertPosInt_num, pure, Except.pure]
    constructor
    · rintro ⟨_, ⟨h1, rfl⟩, _, ⟨h2, rfl⟩, _, ⟨h3, rfl⟩, _, ⟨h4, rfl⟩, hv⟩
      cases hv
      exact ⟨⟨h1, h2, h3, h4⟩, rfl⟩
    · rintro ⟨⟨h1, h2, h3, h4⟩, rfl⟩
      exact ⟨_, ⟨h1, rfl⟩, _, ⟨h2, rfl⟩, _, ⟨h3, rfl⟩, _, ⟨h4, rfl⟩, rfl⟩
  | velocity =>
    simp only [serializeState, normalizeVelocity, bind_eq_ok, serializeRecord_ok normalizeCounter_ok,
      assertPosInt_num, assertNonNegInt_num, pure, Except.pure]
    constructor
    · rintro ⟨_, ⟨h1, rfl⟩, _, ⟨h2, rfl⟩, _, ⟨h3, rfl⟩, hv⟩
      cases hv
      exact ⟨⟨h1, h2, h3⟩, rfl⟩
    · rintro ⟨⟨h1, h2, h3⟩, rfl⟩
      exact ⟨_, ⟨h1, rfl⟩, _, ⟨h2, rfl⟩, _, ⟨h3, rfl⟩, rfl⟩

end OxDeAI
