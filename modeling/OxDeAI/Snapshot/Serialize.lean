import OxDeAI.Core.Types

/-! The module codecs, written side: each part of the state as plain data, with
sorted keys and checked numbers. -/

namespace OxDeAI

open Js

def invalidField (field : JsString) : JsError := .error (js "invalid " ++ field)

def assertInt (value : JsValue) (field : JsString) : Except JsError JsNumber :=
  match value with
  | .num n => if n.isInteger then .ok n else .error (invalidField field)
  | _ => .error (invalidField field)

def assertPosInt (value : JsValue) (field : JsString) : Except JsError JsNumber :=
  (assertInt value field).bind (fun n => if n.le (.int 0) then .error (invalidField field) else .ok n)

def assertNonNegInt (value : JsValue) (field : JsString) : Except JsError JsNumber :=
  (assertInt value field).bind (fun n => if n.lt (.int 0) then .error (invalidField field) else .ok n)

theorem assertInt_num {n : JsNumber} {field : JsString} {m : JsNumber} :
    assertInt (.num n) field = .ok m ↔ n.isInteger = true ∧ m = n := by
  cases h : n.isInteger with
  | false => simp [assertInt, h]
  | true =>
    simp only [assertInt, h, if_true, Except.ok.injEq, true_and]
    exact eq_comm

/-- Integers the counters of the state are limited to. -/
def isNonNegInt (n : JsNumber) : Bool := n.isInteger && !n.lt (.int 0)

def isPosInt (n : JsNumber) : Bool := n.isInteger && !n.le (.int 0)

theorem assertNonNegInt_num {n : JsNumber} {field : JsString} {m : JsNumber} :
    assertNonNegInt (.num n) field = .ok m ↔ isNonNegInt n = true ∧ m = n := by
  cases h : n.isInteger with
  | false => simp [assertNonNegInt, assertInt, isNonNegInt, h, Except.bind]
  | true =>
    cases h0 : n.lt (.int 0) with
    | true => simp [assertNonNegInt, assertInt, isNonNegInt, h, h0, Except.bind]
    | false =>
      simp only [assertNonNegInt, assertInt, isNonNegInt, h, h0, Except.bind, if_true,
        Bool.false_eq_true, if_false, Except.ok.injEq, Bool.not_false, Bool.and_self, true_and]
      exact eq_comm

theorem assertPosInt_num {n : JsNumber} {field : JsString} {m : JsNumber} :
    assertPosInt (.num n) field = .ok m ↔ isPosInt n = true ∧ m = n := by
  cases h : n.isInteger with
  | false => simp [assertPosInt, assertInt, isPosInt, h, Except.bind]
  | true =>
    cases h0 : n.le (.int 0) with
    | true => simp [assertPosInt, assertInt, isPosInt, h, h0, Except.bind]
    | false =>
      simp only [assertPosInt, assertInt, isPosInt, h, h0, Except.bind, if_true,
        Bool.false_eq_true, if_false, Except.ok.injEq, Bool.not_false, Bool.and_self, true_and]
      exact eq_comm

section

variable {α : Type}

/-- Keys in UTF-16 order. -/
def sortKeys (keys : List JsString) : List JsString := keys.insertionSort (· ≤ ·)

def sortEntries (entries : List (JsString × α)) : List (JsString × α) :=
  entries.insertionSort (fun a b => a.1 ≤ b.1)

/-- A plain object filled by assignment, where `__proto__` creates no member. -/
def buildObject (members : List (JsString × JsValue)) : JsValue :=
  .obj (members.filter (fun e => e.1 ≠ protoKey))

/-- Members of a record's object: the keys in order, the skipped ones left out. -/
def recordMembers (r : Record α) (g : α → Option JsValue) : List (JsString × JsValue) :=
  (sortEntries r.entries).filterMap (fun e => (g e.2).map (fun v => (e.1, v)))

def serializeRecord (r : Record α) (f : α → Except JsError (Option JsValue)) : Except JsError JsValue :=
  ((sortEntries r.entries).mapM (fun e => (f e.2).map (Option.map (fun v => (e.1, v))))).map
    (fun members => buildObject (members.filterMap id))

theorem mem_sortEntries {entries : List (JsString × α)} {e : JsString × α} :
    e ∈ sortEntries entries ↔ e ∈ entries := List.mem_insertionSort _

theorem serializeRecord_ok {r : Record α} {f : α → Except JsError (Option JsValue)} {p : α → Prop}
    {g : α → Option JsValue} (h : ∀ x y, f x = .ok y ↔ p x ∧ y = g x) (v : JsValue) :
    serializeRecord r f = .ok v ↔ (∀ e ∈ r.entries, p e.2) ∧ v = buildObject (recordMembers r g) := by
  have hstep : ∀ e ∈ sortEntries r.entries, ∀ y,
      (f e.2).map (Option.map (fun v => (e.1, v))) = .ok y ↔
        p e.2 ∧ y = (g e.2).map (fun v => (e.1, v)) := by
    intro e _ y
    rw [map_eq_ok]
    simp only [h]
    constructor
    · rintro ⟨_, ⟨hp, rfl⟩, rfl⟩
      exact ⟨hp, rfl⟩
    · rintro ⟨hp, rfl⟩
      exact ⟨_, ⟨hp, rfl⟩, rfl⟩
  rw [serializeRecord, map_eq_ok]
  simp only [mapM_ok_iff hstep, mem_sortEntries]
  constructor
  · rintro ⟨_, ⟨hp, rfl⟩, rfl⟩
    exact ⟨hp, by simp [recordMembers, List.filterMap_map]⟩
  · rintro ⟨hp, rfl⟩
    exact ⟨_, ⟨hp, rfl⟩, by simp [recordMembers, List.filterMap_map]⟩

end

def uniqSorted (values : List JsString) : List JsString := sortKeys values.dedup

def stringArray (values : List JsString) : JsValue := .arr (values.map .str)

def normalizeAllowlists (al : AllowLists) : JsValue :=
  .obj [(js "action_types", stringArray (uniqSorted ((al.actionTypes.getD []).map ActionType.text))),
    (js "assets", stringArray (uniqSorted (al.assets.getD []))),
    (js "targets", stringArray (uniqSorted (al.targets.getD [])))]

def amountText (z : ℤ) : JsValue := .str (decimal z)

def normalizeBudget (state : State) : JsValue :=
  .obj [(js "budget_limit", buildObject (recordMembers state.budget.budgetLimit (some ∘ amountText))),
    (js "spent_in_period", buildObject (recordMembers state.budget.spentInPeriod (some ∘ amountText))),
    (js "max_amount_per_action",
      buildObject (recordMembers state.maxAmountPerAction (Option.map amountText)))]

def normalizeKillSwitch (state : State) : JsValue :=
  .obj [(js "global", .bool state.killSwitch.globalSwitch),
    (js "agents", buildObject (recordMembers state.killSwitch.agents (some ∘ .bool)))]

def counterPayload (c : VelocityCounter) : JsValue :=
  .obj [(js "window_start", .num c.windowStart), (js "count", .num c.count)]

def normalizeCounter : Option VelocityCounter → Except JsError (Option JsValue)
  | none => .ok none
  | some c => do
    let _ ← assertInt (.num c.windowStart) (js "velocity.counters.window_start")
    let _ ← assertNonNegInt (.num c.count) (js "velocity.counters.count")
    return some (counterPayload c)

def normalizeVelocity (state : State) : Except JsError JsValue := do
  let windowSeconds ← assertPosInt (.num state.velocity.config.windowSeconds)
    (js "velocity.config.window_seconds")
  let maxActions ← assertNonNegInt (.num state.velocity.config.maxActions)
    (js "velocity.config.max_actions")
  let counters ← serializeRecord state.velocity.counters normalizeCounter
  return .obj [(js "config", .obj [(js "window_seconds", .num windowSeconds),
      (js "max_actions", .num maxActions)]), (js "counters", counters)]

/-- Entries by timestamp, then by nonce. -/
def nonceLe (a b : NonceEntry) : Bool :=
  a.ts.lt b.ts || (!b.ts.lt a.ts && a.nonce ≤ b.nonce)

def sortNonces (list : List NonceEntry) : List NonceEntry :=
  list.insertionSort (fun a b => nonceLe a b)

def noncePayload (entry : NonceEntry) : JsValue :=
  .obj [(js "nonce", .str entry.nonce), (js "ts", .num entry.ts)]

def normalizeNonces (list : List NonceEntry) : Except JsError (Option JsValue) := do
  let normalized ← list.mapM (fun entry =>
    (assertInt (.num entry.ts) (js "replay.nonces.ts")).map (fun ts => NonceEntry.mk entry.nonce ts))
  if (sortNonces normalized).Nodup then return some (.arr ((sortNonces normalized).map noncePayload))
  else .error (invalidField (js "replay.nonces duplicate"))

def normalizeReplay (state : State) : Except JsError JsValue := do
  let nonces ← serializeRecord state.replay.nonces normalizeNonces
  let windowSeconds ← assertPosInt (.num state.replay.windowSeconds) (js "replay.window_seconds")
  let maxNonces ← assertNonNegInt (.num state.replay.maxNoncesPerAgent)
    (js "replay.max_nonces_per_agent")
  return .obj [(js "window_seconds", .num windowSeconds), (js "max_nonces_per_agent", .num maxNonces),
    (js "nonces", nonces)]

/-- `record[agent] ?? 0` as a value: what the prototype supplies is no number. -/
def countValue (r : Record JsNumber) (agent : JsString) : JsValue :=
  match r.get agent with
  | .own n => .num n
  | .absent => .num (.int 0)
  | .inherited _ => .function

def leasePayload (lease : Lease) : JsValue := .obj [(js "expires_at", .num lease.expiresAt)]

def normalizeLease (lease : Lease) : Except JsError (Option JsValue) :=
  (assertInt (.num lease.expiresAt) (js "concurrency.active_auths.expires_at")).map
    (fun expiresAt => some (leasePayload ⟨expiresAt⟩))

/-- The leases listed for an agent. What the prototype supplies lists none. -/
def listedLeases (concurrency : ConcurrencyState) (agent : JsString) : Record Lease :=
  match concurrency.activeAuths.get agent with
  | .own auths => auths
  | _ => Record.empty

structure AgentConcurrency where
  max : JsNumber
  active : JsNumber
  auths : JsValue

def normalizeAgentConcurrency (concurrency : ConcurrencyState) (agent : JsString) :
    Except JsError AgentConcurrency := do
  let max ← assertNonNegInt (countValue concurrency.maxConcurrent agent)
    (js "concurrency.max_concurrent")
  let act ← assertNonNegInt (countValue concurrency.active agent) (js "concurrency.active")
  if max.lt act then .error (invalidField (js "concurrency.active exceeds max_concurrent"))
  else
    let auths ← serializeRecord (listedLeases concurrency agent) normalizeLease
    return ⟨max, act, auths⟩

def concurrencyAgents (concurrency : ConcurrencyState) : List JsString :=
  sortKeys (concurrency.maxConcurrent.keys ++ concurrency.active.keys ++
    concurrency.activeAuths.keys).dedup

def concurrencyPayload (agents : List (JsString × AgentConcurrency)) : JsValue :=
  .obj [(js "max_concurrent", buildObject (agents.map (fun e => (e.1, .num e.2.max)))),
    (js "active", buildObject (agents.map (fun e => (e.1, .num e.2.active)))),
    (js "active_auths", buildObject (agents.map (fun e => (e.1, e.2.auths))))]

def normalizeConcurrency (state : State) : Except JsError JsValue :=
  ((concurrencyAgents state.concurrency).mapM (fun agent =>
    (normalizeAgentConcurrency state.concurrency agent).map (fun c => (agent, c)))).map
      concurrencyPayload

def normalizeCount (field : JsString) (n : JsNumber) : Except JsError (Option JsValue) :=
  (assertNonNegInt (.num n) field).map (fun n => some (.num n))

def normalizeOptionalCount (field : JsString) : Option JsNumber → Except JsError (Option JsValue)
  | none => .ok none
  | some n => normalizeCount field n

def normalizeRecursion (state : State) : Except JsError JsValue := do
  let maxDepth ← serializeRecord state.recursion.maxDepth (normalizeCount (js "recursion.max_depth"))
  return .obj [(js "max_depth", maxDepth)]

/-- Events by timestamp, then by tool, where no tool sorts as the empty name. -/
def toolCallLe (a b : ToolCall) : Bool :=
  a.ts.lt b.ts || (!b.ts.lt a.ts && a.tool.getD [] ≤ b.tool.getD [])

def sortCalls (calls : List ToolCall) : List ToolCall :=
  calls.insertionSort (fun a b => toolCallLe a b)

def toolCallPayload (call : ToolCall) : JsValue :=
  .obj ((js "ts", JsValue.num call.ts) :: optionalField (js "tool") (call.tool.map .str))

def normalizeCalls (calls : Option (List ToolCall)) : Except JsError (Option JsValue) := do
  let events ← (calls.getD []).mapM (fun e =>
    (assertInt (.num e.ts) (js "tool_limits.calls.ts")).map (fun ts => ToolCall.mk ts e.tool))
  return some (.arr ((sortCalls events).map toolCallPayload))

def normalizeTools (tools : Option (Record (Option JsNumber))) : Except JsError (Option JsValue) :=
  (serializeRecord (tools.getD Record.empty)
    (normalizeOptionalCount (js "tool_limits.max_calls_by_tool"))).map some

def normalizeToolLimits (state : State) : Except JsError JsValue := do
  let tl := state.toolLimits
  let maxCalls ← serializeRecord tl.maxCalls (normalizeOptionalCount (js "tool_limits.max_calls"))
  let maxCallsByTool ← serializeRecord (tl.maxCallsByTool.getD Record.empty) normalizeTools
  let calls ← serializeRecord tl.calls normalizeCalls
  let windowSeconds ← assertPosInt (.num tl.windowSeconds) (js "tool_limits.window_seconds")
  return .obj [(js "window_seconds", .num windowSeconds), (js "max_calls", maxCalls),
    (js "max_calls_by_tool", maxCallsByTool), (js "calls", calls)]

/-- The modules that own part of the state, in the order of their ids. -/
inductive ModuleId
  | allowlist
  | budget
  | concurrency
  | killSwitch
  | recursionDepth
  | replay
  | toolAmplification
  | velocity
  deriving DecidableEq

namespace ModuleId

def text : ModuleId → JsString
  | allowlist => js "AllowlistModule"
  | budget => js "BudgetModule"
  | concurrency => js "ConcurrencyModule"
  | killSwitch => js "KillSwitchModule"
  | recursionDepth => js "RecursionDepthModule"
  | replay => js "ReplayModule"
  | toolAmplification => js "ToolAmplificationModule"
  | velocity => js "VelocityModule"

/-- `Object.keys(MODULE_CODECS).sort()`. -/
def sorted : List ModuleId :=
  [allowlist, budget, concurrency, killSwitch, recursionDepth, replay, toolAmplification, velocity]

end ModuleId

def serializeState (id : ModuleId) (state : State) : Except JsError JsValue :=
  match id with
  | .allowlist => .ok (normalizeAllowlists state.allowlists)
  | .budget => .ok (normalizeBudget state)
  | .concurrency => normalizeConcurrency state
  | .killSwitch => .ok (normalizeKillSwitch state)
  | .recursionDepth => normalizeRecursion state
  | .replay => normalizeReplay state
  | .toolAmplification => normalizeToolLimits state
  | .velocity => normalizeVelocity state

end OxDeAI
