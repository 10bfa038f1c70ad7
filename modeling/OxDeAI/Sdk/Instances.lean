import OxDeAI.Audit.EngineLog
import OxDeAI.Engine.VerifyAuthorization
import OxDeAI.Lib.Async

/-! Clients and guards of one engine. Each instance remembers how far into the log of the engine
it has read, and hands what is new to the audit adapter they share. -/

namespace OxDeAI

open Js Async

structure GuardOptions where
  mode : Option EvalMode := none
  verifyAuthorization : Option Bool := none
  deriving DecidableEq

inductive Instance
  | client (id : ℕ)
  | guard (opts : GuardOptions) (id : ℕ)
  deriving DecidableEq

/-- The log of the engine, the cursor of every instance, and the events the adapter was given. -/
structure Desk where
  log : AuditLog
  auditCursor : Instance → ℕ
  delivered : List JsValue

def Desk.initial (P : Platform) : Desk := ⟨AuditLog.initial P, fun _ => 0, []⟩

def collectNewEvents (log : AuditLog) (cursor : ℕ) : Option (ℕ × List JsValue) :=
  log.snapshot.map (fun all => (all.length, all.drop cursor))

/-- An intent whose own timestamp is not read. -/
structure EvaluateInput where
  intent : Intent
  timestamp : Option JsNumber

/-- A timestamp of zero counts as none. -/
def EvaluateInput.intentAt (input : EvaluateInput) (now : JsNumber) : Intent :=
  { input.intent with timestamp := match input.timestamp with
    | none => now
    | some ts => if ts = .int 0 then now else ts }

/-- One without a `signature`, which would make it pass for an intent. -/
structure IntentBuilderInput where
  intentId : JsString
  agentId : JsString
  actionType : ActionType
  amount : ℤ
  target : JsString
  nonce : ℤ
  timestamp : Option JsNumber
  type : Option IntentType
  authorizationId : Option JsString
  asset : Option JsString
  metadataHash : Option JsString
  depth : Option JsNumber
  tool : Option JsString
  toolCall : Option Bool

def buildIntent (input : IntentBuilderInput) : Except JsError Intent :=
  let base : Intent := {
    intentId := input.intentId
    agentId := input.agentId
    actionType := input.actionType
    depth := input.depth
    amount := input.amount
    asset := input.asset
    target := input.target
    timestamp := input.timestamp.getD (.int 0)
    metadataHash := input.metadataHash.getD (js "0x" ++ List.replicate 64 (unit 48))
    nonce := input.nonce
    signature := js "sdk-signature-placeholder"
    type := some .execute
    authorizationId := input.authorizationId
    tool := input.tool
    toolCall := input.toolCall }
  if input.type = some .release then
    if input.authorizationId.getD [] = [] then
      .error (.error (js "authorization_id is required for RELEASE intent"))
    else .ok { base with type := some .release }
  else .ok base

inductive GuardInputIntent
  | intent (intent : Intent)
  | builder (input : IntentBuilderInput)

def GuardInputIntent.intentAt (now : JsNumber) : GuardInputIntent → Except JsError Intent
  | intent i => .ok { i with timestamp := if i.timestamp = .int 0 then now else i.timestamp }
  | builder input => buildIntent { input with timestamp := some (input.timestamp.getD now) }

inductive CallDecision
  | allow (authorization : Authorization)
  | deny (reasons : List JsString)

/-- What a call resolves to. -/
inductive CallResult
  | evaluated (output : CallDecision) (state : State) (auditEvents : List JsValue)
  | guarded (output : CallDecision) (intent : Intent) (state : State) (auditEvents : List JsValue) (executed : Bool)
  | rejected

/-- What a call awaits: a state from the state adapter of its instance, the audit adapter, the callback
of a guard, and the state adapter again. -/
inductive Request
  | load (caller : Instance)
  | append (events : List JsValue)
  | execute (intent : Intent) (authorization : Authorization) (state : State)
  | save (state : State)

/-- The clock is read in the turn that the state arrives in. Anything may reject. -/
abbrev Reply : Request → Type
  | .load _ => Option (State × JsNumber)
  | .append _ => Bool
  | .execute _ _ _ => Bool
  | .save _ => Bool

abbrev InstanceCall (α : Type) := Prog Desk Request Reply α

section

variable (P : Platform) (e : PolicyEngine) (caller : Instance)

/-- An evaluation, the collection of what is new to the caller, and the call of the adapter: one turn. -/
def evaluateTurn (evaluation : Eval EvaluatePureOutput) (desk : Desk) : Desk :=
  match evaluation desk.log with
  | (.error _, log) => { desk with log := log }
  | (.ok _, log) =>
    match collectNewEvents log (desk.auditCursor caller) with
    | none => { desk with log := log }
    | some (cursor, events) => ⟨log, Function.update desk.auditCursor caller cursor, desk.delivered ++ events⟩

/-- The outcome of such a turn. -/
def turnOutcome (evaluation : Eval EvaluatePureOutput) (desk : Desk) : Option (EvaluatePureOutput × List JsValue) :=
  match evaluation desk.log with
  | (.error _, _) => none
  | (.ok out, log) => (collectNewEvents log (desk.auditCursor caller)).map (fun emitted => (out, emitted.2))

def evaluateAndCollect (evaluation : Eval EvaluatePureOutput) :
    InstanceCall (Option (EvaluatePureOutput × List JsValue)) :=
  .act (evaluateTurn caller evaluation) (fun desk => .done (turnOutcome caller evaluation desk))

/-- What follows a collection: the adapter takes the events, then the outcome is returned. -/
def clientRest (state : State) : Option (EvaluatePureOutput × List JsValue) → InstanceCall CallResult
  | none => return .rejected
  | some (out, events) => do
    let appended : Bool ← Prog.request (Request.append events)
    if !appended then return .rejected
    match out with
    | .deny reasons => return .evaluated (.deny (reasons.map ReasonCode.text)) state events
    | .allow authorization next =>
      let saved : Bool ← Prog.request (Request.save next)
      if !saved then return .rejected
      return .evaluated (.allow authorization) next events

def evaluateAndCommit (id : ℕ) (input : EvaluateInput) : InstanceCall CallResult := do
  let loaded : Option (State × JsNumber) ← Prog.request (Request.load (.client id))
  match loaded with
  | none => return .rejected
  | some (state, now) =>
    let collected ← evaluateAndCollect (.client id)
      (evaluatePure P e (input.intentAt now) state now .failFast)
    clientRest state collected

/-- Why the engine does not take its own authorization, if it does not. -/
def bindingFailure (opts : GuardOptions) (intent : Intent) (authorization : Authorization) (next : State)
    (now : JsNumber) : Option JsString :=
  if opts.verifyAuthorization = some false then none
  else
    let check := e.verifyAuthorization P intent (authorizationValue authorization) next now (some now)
    if check.valid then none
    else some (js "AUTH_INVALID:" ++ (check.reason.map EngineVerificationReason.text).getD (js "unknown"))

/-- What a guard does once the adapter has the events of its evaluation. -/
def guardDecided (opts : GuardOptions) (intent : Intent) (state : State) (now : JsNumber) (events : List JsValue) :
    EvaluatePureOutput → InstanceCall CallResult
  | .deny reasons => return .guarded (.deny (reasons.map ReasonCode.text)) intent state events false
  | .allow authorization next =>
    match bindingFailure P e opts intent authorization next now with
    | some reason => return .guarded (.deny [reason]) intent state events false
    | none => do
      let executed : Bool ← Prog.request (Request.execute intent authorization next)
      if !executed then return .rejected
      let saved : Bool ← Prog.request (Request.save next)
      if !saved then return .rejected
      return .guarded (.allow authorization) intent next events true

def guardRest (opts : GuardOptions) (intent : Intent) (state : State) (now : JsNumber) :
    Option (EvaluatePureOutput × List JsValue) → InstanceCall CallResult
  | none => return .rejected
  | some (out, events) => do
    let appended : Bool ← Prog.request (Request.append events)
    if !appended then return .rejected
    guardDecided P e opts intent state now events out

def guardIntent (opts : GuardOptions) (id : ℕ) (state : State) (now : JsNumber) :
    Except JsError Intent → InstanceCall CallResult
  | .error _ => return .rejected
  | .ok intent => do
    let collected ← evaluateAndCollect (.guard opts id)
      (evaluatePure P e intent state now (opts.mode.getD .failFast))
    guardRest P e opts intent state now collected

def guardInstanceCall (opts : GuardOptions) (id : ℕ) (input : GuardInputIntent) : InstanceCall CallResult := do
  let loaded : Option (State × JsNumber) ← Prog.request (Request.load (.guard opts id))
  match loaded with
  | none => return .rejected
  | some (state, now) => guardIntent P e opts id state now (input.intentAt now)

/-- A call of a client or of a guard, of any instance. -/
inductive IsInstanceCall : InstanceCall CallResult → Prop
  | client (id : ℕ) (input : EvaluateInput) : IsInstanceCall (evaluateAndCommit P e id input)
  | guard (opts : GuardOptions) (id : ℕ) (input : GuardInputIntent) :
    IsInstanceCall (guardInstanceCall P e opts id input)

end

/-- The adapters answer as they like and do not touch the engine. -/
def serveDesk (desk : Desk) (i : Request) (_ : Reply i) (desk' : Desk) : Prop := desk' = desk

end OxDeAI
