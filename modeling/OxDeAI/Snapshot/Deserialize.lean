import OxDeAI.Snapshot.Serialize
import OxDeAI.Js.Value

/-! The module codecs, read side: what each makes of its payload. -/

namespace OxDeAI

open Js

/-- An object that began as `{}`: what it holds itself, and the prototype that an
assignment of an object to `__proto__` has left it. -/
structure Filled (α : Type) where
  own : Record α
  proto : Option α
  deriving DecidableEq

namespace Filled

variable {α : Type}

def empty : Filled α := ⟨Record.empty, none⟩

/-- `object[key] = value`. Assigning a primitive to `__proto__` does nothing. -/
def setPrimitive (r : Filled α) (key : JsString) (v : α) : Filled α :=
  if key = protoKey then r else { r with own := r.own.set key v }

def setObject (r : Filled α) (key : JsString) (v : α) : Filled α :=
  if key = protoKey then { r with proto := some v } else { r with own := r.own.set key v }

def ofPrimitives (members : List (JsString × α)) : Filled α :=
  members.foldl (fun r e => r.setPrimitive e.1 e.2) empty

def ofObjects (members : List (JsString × α)) : Filled α :=
  members.foldl (fun r e => r.setObject e.1 e.2) empty

/-- A plain object with the members of a record. -/
def ofRecord (r : Record α) : Filled α := ⟨r, none⟩

/-- A structured clone keeps own members and drops the prototype. -/
def clone (r : Filled α) : Filled α := ⟨r.own, none⟩

end Filled

def asObject (value : JsValue) (field : JsString) : Except JsError JsValue :=
  if value.isRecord then .ok value else .error (invalidField field)

/-- `asObject(value ?? {}, field)`. -/
def asObjectOrEmpty (value : JsValue) (field : JsString) : Except JsError JsValue :=
  asObject (if value.isNullish then .obj [] else value) field

def asStringArray (value : JsValue) (field : JsString) : Except JsError (List JsString) :=
  match value with
  | .arr xs => xs.mapM (fun entry => match entry with
      | .str s => .ok s
      | _ => .error (invalidField field))
  | _ => .error (invalidField field)

/-- `/^(0|[1-9]\d*)$/`. -/
def isDecimalBigInt : JsString → Bool
  | [] => false
  | d :: ds => (d :: ds).all isDigit && (d.val ≠ 48 || ds.isEmpty)

def assertDecimalBigIntString (value : JsValue) (field : JsString) : Except JsError ℤ :=
  match value with
  | .str s => if isDecimalBigInt s then .ok (digitsValue s) else .error (invalidField field)
  | _ => .error (invalidField field)

/-- The members of an object in the order of their keys, each decoded under its key. -/
def decodeMembers {α : Type} (object : JsValue) (decode : JsString → JsValue → Except JsError α) :
    Except JsError (List (JsString × α)) :=
  (sortEntries object.entries).mapM (fun e => (decode e.1 e.2).map (fun v => (e.1, v)))

/-- `object[key]`, where the prototype supplies its methods and itself. -/
def readMember (object : JsValue) (key : JsString) : JsValue :=
  match ownEntry key object.entries with
  | some v => v
  | none => match inherited? key with
    | some .method => .function
    | some .prototype => .obj []
    | none => .undefined

def indexed (field : JsString) (index : ℕ) : JsString := field ++ js "[" ++ natDecimal index ++ js "]"

/-- `payload[field]` of an optional list of strings. -/
def optionalStrings (object : JsValue) (key field : JsString) : Except JsError (List JsString) :=
  if (object.field key).isUndefined then .ok [] else asStringArray (object.field key) field

structure AllowListsPart where
  actionTypes : Option (List JsString)
  assets : Option (List JsString)
  targets : Option (List JsString)
  deriving DecidableEq

structure BudgetPart where
  budgetLimit : Filled ℤ
  spentInPeriod : Filled ℤ
  maxAmountPerAction : Filled (Option ℤ)
  deriving DecidableEq

structure ConcurrencyPart where
  maxConcurrent : Filled JsNumber
  active : Filled JsNumber
  activeAuths : Filled (Filled Lease)
  deriving DecidableEq

structure KillSwitchPart where
  globalSwitch : Bool
  agents : Filled Bool
  deriving DecidableEq

structure RecursionPart where
  maxDepth : Filled JsNumber
  deriving DecidableEq

structure ReplayPart where
  windowSeconds : JsNumber
  maxNoncesPerAgent : JsNumber
  nonces : Filled (List NonceEntry)
  deriving DecidableEq

structure ToolLimitsPart where
  windowSeconds : JsNumber
  maxCalls : Filled (Option JsNumber)
  maxCallsByTool : Option (Filled (Option (Filled (Option JsNumber))))
  calls : Filled (Option (List ToolCall))
  deriving DecidableEq

structure VelocityPart where
  config : VelocityConfig
  counters : Filled (Option VelocityCounter)
  deriving DecidableEq

/-- The properties of a state that one codec assigns. -/
abbrev ModulePart : ModuleId → Type
  | .allowlist => AllowListsPart
  | .budget => BudgetPart
  | .concurrency => ConcurrencyPart
  | .killSwitch => KillSwitchPart
  | .recursionDepth => RecursionPart
  | .replay => ReplayPart
  | .toolAmplification => ToolLimitsPart
  | .velocity => VelocityPart

def deserializeAllowlists (payload : JsValue) : Except JsError AllowListsPart :=
  if payload.isUndefined then .ok ⟨none, none, none⟩
  else do
    let obj ← asObject payload (js "allowlists")
    let actionTypes ← optionalStrings obj (js "action_types") (js "allowlists.action_types")
    let assets ← optionalStrings obj (js "assets") (js "allowlists.assets")
    let targets ← optionalStrings obj (js "targets") (js "allowlists.targets")
    return ⟨some (uniqSorted actionTypes), some (uniqSorted assets), some (uniqSorted targets)⟩

/-- Amounts, each checked under the name of its agent. -/
def decodeAmounts (object : JsValue) (field : JsString) : Except JsError (List (JsString × ℤ)) :=
  decodeMembers object (fun agent v => assertDecimalBigIntString v (field ++ js "." ++ agent))

def deserializeBudget (payload : JsValue) : Except JsError BudgetPart :=
  if payload.isUndefined then .ok ⟨.empty, .empty, .empty⟩
  else do
    let obj ← asObject payload (js "budget")
    let budgetLimitObj ← asObjectOrEmpty (obj.field (js "budget_limit")) (js "budget.budget_limit")
    let spentObj ← asObjectOrEmpty (obj.field (js "spent_in_period")) (js "budget.spent_in_period")
    let capObj ← asObjectOrEmpty (obj.field (js "max_amount_per_action")) (js "budget.max_amount_per_action")
    let budgetLimit ← decodeAmounts budgetLimitObj (js "budget_limit")
    let spentInPeriod ← decodeAmounts spentObj (js "spent_in_period")
    let maxAmountPerAction ← decodeAmounts capObj (js "max_amount_per_action")
    return ⟨.ofPrimitives budgetLimit, .ofPrimitives spentInPeriod,
      .ofPrimitives (maxAmountPerAction.map (fun e => (e.1, some e.2)))⟩

def deserializeKillSwitch (payload : JsValue) : Except JsError KillSwitchPart :=
  if payload.isUndefined then .ok ⟨false, .empty⟩
  else do
    let obj ← asObject payload (js "kill_switch")
    match obj.field (js "global") with
    | .bool globalSwitch =>
      let agentsObj ← asObjectOrEmpty (obj.field (js "agents")) (js "kill_switch.agents")
      let agents ← decodeMembers agentsObj (fun agent v => match v with
        | .bool b => .ok b
        | _ => .error (invalidField (js "kill_switch.agents." ++ agent)))
      return ⟨globalSwitch, .ofPrimitives agents⟩
    | _ => .error (invalidField (js "kill_switch.global"))

def decodeCounter (agent : JsString) (value : JsValue) : Except JsError VelocityCounter := do
  let path := js "velocity.counters." ++ agent
  let item ← asObject value path
  let windowStart ← assertInt (item.field (js "window_start")) (path ++ js ".window_start")
  let count ← assertNonNegInt (item.field (js "count")) (path ++ js ".count")
  return ⟨windowStart, count⟩

def deserializeVelocity (payload : JsValue) : Except JsError VelocityPart :=
  if payload.isUndefined then .ok ⟨⟨.int 1, .int 0⟩, .empty⟩
  else do
    let obj ← asObject payload (js "velocity")
    let config ← asObject (obj.field (js "config")) (js "velocity.config")
    let countersObj ← asObjectOrEmpty (obj.field (js "counters")) (js "velocity.counters")
    let counters ← decodeMembers countersObj decodeCounter
    let windowSeconds ← assertPosInt (config.field (js "window_seconds")) (js "velocity.config.window_seconds")
    let maxActions ← assertNonNegInt (config.field (js "max_actions")) (js "velocity.config.max_actions")
    return ⟨⟨windowSeconds, maxActions⟩, .ofObjects (counters.map (fun e => (e.1, some e.2)))⟩

def decodeNonce (path : JsString) (value : JsValue) : Except JsError NonceEntry := do
  let e ← asObject value path
  match e.field (js "nonce") with
  | .str nonce =>
    let ts ← assertInt (e.field (js "ts")) (path ++ js ".ts")
    return ⟨nonce, ts⟩
  | _ => .error (invalidField (path ++ js ".nonce"))

def decodeNonces (agent : JsString) (value : JsValue) : Except JsError (List NonceEntry) :=
  let path := js "replay.nonces." ++ agent
  match value with
  | .arr xs => do
    let entries ← xs.zipIdx.mapM (fun p => decodeNonce (indexed path p.2) p.1)
    if (sortNonces entries).Nodup then return sortNonces entries
    else .error (invalidField (path ++ js " duplicate"))
  | _ => .error (invalidField path)

def deserializeReplay (payload : JsValue) : Except JsError ReplayPart :=
  if payload.isUndefined then .ok ⟨.int 1, .int 0, .empty⟩
  else do
    let obj ← asObject payload (js "replay")
    let noncesObj ← asObjectOrEmpty (obj.field (js "nonces")) (js "replay.nonces")
    let nonces ← decodeMembers noncesObj decodeNonces
    let windowSeconds ← assertPosInt (obj.field (js "window_seconds")) (js "replay.window_seconds")
    let maxNonces ← assertNonNegInt (obj.field (js "max_nonces_per_agent")) (js "replay.max_nonces_per_agent")
    return ⟨windowSeconds, maxNonces, .ofObjects nonces⟩

/-- `value ?? 0`. -/
def orZero (value : JsValue) : JsValue := if value.isNullish then .num (.int 0) else value

def decodeLease (path authId : JsString) (value : JsValue) : Except JsError Lease := do
  let path := path ++ js "." ++ authId
  let authPayload ← asObject value path
  let expiresAt ← assertInt (authPayload.field (js "expires_at")) (path ++ js ".expires_at")
  return ⟨expiresAt⟩

structure DecodedConcurrency where
  max : JsNumber
  active : JsNumber
  auths : Filled Lease

def decodeAgentConcurrency (maxObj activeObj authsObj : JsValue) (agent : JsString) :
    Except JsError DecodedConcurrency := do
  let max ← assertNonNegInt (orZero (readMember maxObj agent)) (js "concurrency.max_concurrent." ++ agent)
  let act ← assertNonNegInt (orZero (readMember activeObj agent)) (js "concurrency.active." ++ agent)
  if max.lt act then .error (invalidField (js "concurrency.active." ++ agent))
  else
    let path := js "concurrency.active_auths." ++ agent
    let agentAuthsRaw ← asObjectOrEmpty (readMember authsObj agent) path
    let agentAuths ← decodeMembers agentAuthsRaw (decodeLease path)
    return ⟨max, act, .ofObjects agentAuths⟩

def deserializeConcurrency (payload : JsValue) : Except JsError ConcurrencyPart :=
  if payload.isUndefined then .ok ⟨.empty, .empty, .empty⟩
  else do
    let obj ← asObject payload (js "concurrency")
    let maxObj ← asObjectOrEmpty (obj.field (js "max_concurrent")) (js "concurrency.max_concurrent")
    let activeObj ← asObjectOrEmpty (obj.field (js "active")) (js "concurrency.active")
    let authsObj ← asObjectOrEmpty (obj.field (js "active_auths")) (js "concurrency.active_auths")
    let keys (object : JsValue) := object.entries.map Prod.fst
    let agents := sortKeys (keys maxObj ++ keys activeObj ++ keys authsObj).dedup
    let decoded ← agents.mapM (fun agent =>
      (decodeAgentConcurrency maxObj activeObj authsObj agent).map (fun c => (agent, c)))
    return ⟨.ofPrimitives (decoded.map (fun e => (e.1, e.2.max))),
      .ofPrimitives (decoded.map (fun e => (e.1, e.2.active))),
      .ofObjects (decoded.map (fun e => (e.1, e.2.auths)))⟩

/-- Counts, each checked under the name of its key. -/
def decodeCounts (object : JsValue) (field : JsString) : Except JsError (List (JsString × JsNumber)) :=
  decodeMembers object (fun key v => assertNonNegInt v (field ++ js "." ++ key))

def someValues {α : Type} (members : List (JsString × α)) : List (JsString × Option α) :=
  members.map (fun e => (e.1, some e.2))

def deserializeRecursion (payload : JsValue) : Except JsError RecursionPart :=
  if payload.isUndefined then .ok ⟨.empty⟩
  else do
    let obj ← asObject payload (js "recursion")
    let maxObj ← asObjectOrEmpty (obj.field (js "max_depth")) (js "recursion.max_depth")
    let maxDepth ← decodeCounts maxObj (js "recursion.max_depth")
    return ⟨.ofPrimitives maxDepth⟩

def decodeTools (agent : JsString) (value : JsValue) : Except JsError (Filled (Option JsNumber)) := do
  let path := js "tool_limits.max_calls_by_tool." ++ agent
  let toolsObj ← asObjectOrEmpty value path
  let tools ← decodeCounts toolsObj path
  return .ofPrimitives (someValues tools)

/-- A tool that is null counts as none. -/
def decodeToolCall (path : JsString) (value : JsValue) : Except JsError ToolCall := do
  let e ← asObject value path
  let tool ← match e.field (js "tool") with
    | .null => pure none
    | .undefined => pure none
    | .str tool => pure (some tool)
    | _ => .error (invalidField (path ++ js ".tool"))
  let ts ← assertInt (e.field (js "ts")) (path ++ js ".ts")
  return ⟨ts, tool⟩

def decodeCalls (agent : JsString) (value : JsValue) : Except JsError (List ToolCall) :=
  let path := js "tool_limits.calls." ++ agent
  match value with
  | .arr xs => (xs.zipIdx.mapM (fun p => decodeToolCall (indexed path p.2) p.1)).map sortCalls
  | _ => .error (invalidField path)

def deserializeToolLimits (payload : JsValue) : Except JsError ToolLimitsPart :=
  if payload.isUndefined then .ok ⟨.int 1, .empty, some .empty, .empty⟩
  else do
    let obj ← asObject payload (js "tool_limits")
    let maxCallsObj ← asObjectOrEmpty (obj.field (js "max_calls")) (js "tool_limits.max_calls")
    let byToolObj ← asObjectOrEmpty (obj.field (js "max_calls_by_tool")) (js "tool_limits.max_calls_by_tool")
    let callsObj ← asObjectOrEmpty (obj.field (js "calls")) (js "tool_limits.calls")
    let maxCalls ← decodeCounts maxCallsObj (js "tool_limits.max_calls")
    let maxCallsByTool ← decodeMembers byToolObj decodeTools
    let calls ← decodeMembers callsObj decodeCalls
    let windowSeconds ← assertPosInt (obj.field (js "window_seconds")) (js "tool_limits.window_seconds")
    return ⟨windowSeconds, .ofPrimitives (someValues maxCalls), some (.ofObjects (someValues maxCallsByTool)),
      .ofObjects (someValues calls)⟩

/-- What the codec of a module assigns, or the error it throws before it assigns. -/
def deserializeState (payload : JsValue) : (id : ModuleId) → Except JsError (ModulePart id)
  | .allowlist => deserializeAllowlists payload
  | .budget => deserializeBudget payload
  | .concurrency => deserializeConcurrency payload
  | .killSwitch => deserializeKillSwitch payload
  | .recursionDepth => deserializeRecursion payload
  | .replay => deserializeReplay payload
  | .toolAmplification => deserializeToolLimits payload
  | .velocity => deserializeVelocity payload

end OxDeAI
