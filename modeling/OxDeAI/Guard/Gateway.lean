import OxDeAI.Guard.DelegationSnapshot
import OxDeAI.Guard.Boundary
import OxDeAI.Lib.Call
import OxDeAI.Verification.Authorization

/-! The gateway before a protected upstream: it snapshots a request, verifies it,
consumes its authorization, and dispatches a copy of its action. -/

namespace OxDeAI

open Js Async

/-- The configuration as the construction resolved it; a flag says that a callback
is given. The key sets are read when they are used. -/
structure GatewayConfig where
  expectedAudience : JsString
  internalExecutorToken : JsString
  trustedAuthorizationAuthorities : List AuthorizationAuthority
  hashAction : Bool := false
  isUpstreamSuccess : Bool := false
  timeoutMs : JsNumber := .int 30000
  audience : expectedAudience ≠ []
  token : internalExecutorToken ≠ []

/-- What was thrown, as far as the gateway looks at it. It is readable when neither the
look at its code throws nor, where that is no timeout, the look at its message. It has
no text when showing it throws. -/
structure GatewayFault where
  readable : Bool := true
  code : JsValue := .undefined
  message : JsValue := .undefined
  text : Option JsString

/-- The walks that recurse on a request, and may exhaust the stack. -/
inductive GatewayWalk
  | snapshot
  | copy
  deriving DecidableEq

/-- What the upstream executor returned at once: something to wait for, or not. -/
inductive UpstreamReturn
  | promise
  | value (v : JsValue)

inductive GatewayRequest
  | stack (walk : GatewayWalk)
  | hashAction (action : JsValue)
  | clock
  | trustedKeySets
  | consumeAuthId (authId expiry : JsValue)
  | executeUpstream (action : JsValue) (token : JsString)
  | settled
  | settledWithin (timeoutMs : JsNumber)
  | isUpstreamSuccess (upstream : JsValue)
  | readUpstream (upstream : JsValue) (field : JsString)

/-- A stack suffices or does not. A promise has not settled within its time when the
timer comes first. -/
abbrev GatewayAnswer : GatewayRequest → Type
  | .stack _ => Bool
  | .hashAction _ => Except GatewayFault JsValue
  | .clock => Except GatewayFault JsNumber
  | .trustedKeySets => List KeySet
  | .consumeAuthId _ _ => Except GatewayFault JsValue
  | .executeUpstream _ _ => Except GatewayFault UpstreamReturn
  | .settled => Except GatewayFault JsValue
  | .settledWithin _ => Option (Except GatewayFault JsValue)
  | .isUpstreamSuccess _ => Except GatewayFault JsValue
  | .readUpstream _ _ => Except GatewayFault JsValue

abbrev GatewayHistory := List (Sigma GatewayAnswer)

abbrev GatewayCall (σ α : Type) := Call σ GatewayRequest GatewayAnswer PUnit GatewayFault α

inductive GatewayDecision
  | allow
  | deny
  deriving DecidableEq

inductive GatewayOutcome
  | notDispatched
  | executed
  | indeterminate
  deriving DecidableEq

structure PepGatewayResponseBody where
  ok : Bool
  decision : GatewayDecision
  outcome : GatewayOutcome
  executed : Option Bool
  reason : Option JsString := none
  authId : Option JsValue := none
  intentHash : Option JsValue := none
  upstreamResult : Option JsValue := none
  upstreamStatus : Option JsValue := none
  upstreamError : Option JsValue := none

structure PepGatewayResult where
  status : ℕ
  upstreamCalled : Bool
  body : PepGatewayResponseBody

def deny (reason : JsString) : PepGatewayResult where
  status := 403
  upstreamCalled := false
  body := { ok := false, decision := .deny, outcome := .notDispatched, executed := some false,
            reason := some reason }

section

variable {σ : Type} {ε α β : Type}

/-- The steps after a failed one are left out. -/
def andThen (m : GatewayCall σ (Except ε α)) (k : α → GatewayCall σ (Except ε β)) :
    GatewayCall σ (Except ε β) := do
  match ← m with
  | .error e => return .error e
  | .ok a => k a

def askStack (walk : GatewayWalk) : GatewayCall σ Bool := Call.request (GatewayRequest.stack walk)

def askHashAction (action : JsValue) : GatewayCall σ (Except GatewayFault JsValue) :=
  Call.request (GatewayRequest.hashAction action)

def askNow : GatewayCall σ (Except GatewayFault JsNumber) := Call.request GatewayRequest.clock

def askKeySets : GatewayCall σ (List KeySet) := Call.request GatewayRequest.trustedKeySets

def askConsume (authId expiry : JsValue) : GatewayCall σ (Except GatewayFault JsValue) :=
  Call.request (GatewayRequest.consumeAuthId authId expiry)

def askExecuteUpstream (action : JsValue) (token : JsString) :
    GatewayCall σ (Except GatewayFault UpstreamReturn) :=
  Call.request (GatewayRequest.executeUpstream action token)

def askSettled : GatewayCall σ (Except GatewayFault JsValue) := Call.request GatewayRequest.settled

def askSettledWithin (timeoutMs : JsNumber) : GatewayCall σ (Option (Except GatewayFault JsValue)) :=
  Call.request (GatewayRequest.settledWithin timeoutMs)

def askUpstreamSuccess (upstream : JsValue) : GatewayCall σ (Except GatewayFault JsValue) :=
  Call.request (GatewayRequest.isUpstreamSuccess upstream)

def askField (upstream : JsValue) (field : JsString) : GatewayCall σ (Except GatewayFault JsValue) :=
  Call.request (GatewayRequest.readUpstream upstream field)

/-- The text of what was thrown, in a denial. -/
def denied (what : JsString) (fault : GatewayFault) : GatewayCall σ (Except JsString α) :=
  match fault.text with
  | none => Call.throw fault
  | some text => return .error (what ++ text)

def faultOf (e : JsError) : GatewayFault where
  message := .str (runtimeError e).message
  text := some (runtimeError e).message

def stackExhausted : JsString := js "Maximum call stack size exceeded"

end

mutual

/-- How deep objects and arrays are nested. -/
def nesting : JsValue → ℕ
  | .arr xs => elementNesting xs + 1
  | .obj es => memberNesting es + 1
  | .instance _ => 1
  | _ => 0

def elementNesting : List JsValue → ℕ
  | [] => 0
  | x :: xs => max (nesting x) (elementNesting xs)

def memberNesting : List (JsString × JsValue) → ℕ
  | [] => 0
  | (_, v) :: es => max (nesting v) (memberNesting es)

end

mutual

def mutableCopyOfSnapshot : JsValue → JsValue
  | .arr xs => .arr (copyElements xs)
  | .obj es => .obj (copyMembers es)
  | .instance es => .obj (copyMembers es)
  | v => v

def copyElements : List JsValue → List JsValue
  | [] => []
  | x :: xs => mutableCopyOfSnapshot x :: copyElements xs

def copyMembers : List (JsString × JsValue) → List (JsString × JsValue)
  | [] => []
  | (k, v) :: es => (k, mutableCopyOfSnapshot v) :: copyMembers es

end

structure VerifiedRequest where
  action : JsValue
  authorization : JsValue
  intentHash : JsValue
  upstreamAction : JsValue

section

variable {σ : Type} (H : Host) (cfg : GatewayConfig)

/-- A limit that no value nested as deep as this one reaches: there is none. -/
def snapshotRequest (input : JsValue) : GatewayCall σ (Except JsString JsValue) := do
  match ← askStack .snapshot with
  | false => return .error (js "INVALID_REQUEST_INPUT:" ++ stackExhausted)
  | true =>
    match snapshotValue (nesting input) (js "request") 0 input with
    | .error reason => return .error (js "INVALID_REQUEST_INPUT:" ++ reason)
    | .ok body => return .ok body

def hashRequest (action : JsValue) : GatewayCall σ (Except JsString JsValue) :=
  if cfg.hashAction then do
    match ← askHashAction action with
    | .error fault => denied (js "ACTION_CANONICALIZATION_FAILED:") fault
    | .ok hash => return .ok hash
  else match sha256HexFromJson H.toPlatform action with
    | .error e => return .error (js "ACTION_CANONICALIZATION_FAILED:" ++ (runtimeError e).message)
    | .ok hash => return .ok (.str hash)

def gatewayOptions (now : JsNumber) (keySets : List KeySet) : VerifyAuthorizationOptions where
  now := some now
  mode := some .strict
  trustedKeySets := some (.many keySets)
  requireSignatureVerification := some true
  expectedAudience := some cfg.expectedAudience
  trustedAuthorizationAuthorities := some cfg.trustedAuthorizationAuthorities

/-- The codes of a failed verification. -/
def denialReason (result : VerificationResult) : JsString :=
  let codes := List.intercalate (js ",") (result.violations.map (fun v => v.code.text))
  if codes = [] then js "AUTHORIZATION_INVALID" else codes

def verifyRequest (authorization : JsValue) : GatewayCall σ (Except JsString Unit) := do
  match ← askNow with
  | .error fault => Call.throw fault
  | .ok now =>
    let keySets ← askKeySets
    match verifyAuthorization H now authorization (gatewayOptions cfg now keySets) with
    | .error e => Call.throw (faultOf e)
    | .ok result =>
      if result.status ≠ .ok then return .error (denialReason result.toVerificationResult)
      else return .ok ()

/-- The executor's own copy. -/
def copyAction (action : JsValue) : GatewayCall σ (Except JsString JsValue) := do
  match ← askStack .copy with
  | false => return .error (js "INVALID_REQUEST_INPUT:" ++ stackExhausted)
  | true => return .ok (mutableCopyOfSnapshot action)

/-- All that comes before the authorization is consumed. -/
def verifiedRequest (input : JsValue) : GatewayCall σ (Except JsString VerifiedRequest) :=
  if !input.isRecord then return .error (js "INVALID_REQUEST")
  else andThen (snapshotRequest input) fun body =>
    let action := body.field (js "action")
    let authorization := body.field (js "authorization")
    if action.isUndefined || !authorization.isTruthy then return .error (js "INVALID_REQUEST")
    else andThen (hashRequest H cfg action) fun intentHash =>
      andThen (verifyRequest H cfg authorization) fun _ =>
        if !(authorization.field (js "intent_hash")).strictEquals intentHash then
          return .error (js "INTENT_HASH_MISMATCH")
        else andThen (copyAction action) fun upstreamAction =>
          return .ok ⟨action, authorization, intentHash, upstreamAction⟩

/-- Only `true` opens the gate. -/
def consumeRequest (authorization : JsValue) : GatewayCall σ (Except JsString Unit) := do
  match ← askConsume (authorization.field (js "auth_id")) (authorization.field (js "expiry")) with
  | .error fault => denied (js "REPLAY_STORE_UNAVAILABLE:") fault
  | .ok (.bool true) => return .ok ()
  | .ok (.bool false) => return .error (js "AUTH_REPLAY")
  | .ok _ => return .error (js "REPLAY_STORE_UNAVAILABLE:INVALID_RESULT")

def isTimed (timeoutMs : JsNumber) : Bool := timeoutMs.isFinite && (JsNumber.int 0).lt timeoutMs

def upstreamTimeout : GatewayFault where
  code := .str (js "UPSTREAM_TIMEOUT")
  message := .str (js "UPSTREAM_TIMEOUT")
  text := some (js "UPSTREAM_TIMEOUT")

/-- Only a promise has the `then` that is timed. -/
def withTimeout (timeoutMs : JsNumber) : UpstreamReturn → GatewayCall σ (Except GatewayFault JsValue)
  | .value v => if isTimed timeoutMs then return .error (faultOf .typeError) else return .ok v
  | .promise =>
    if isTimed timeoutMs then do
      match ← askSettledWithin timeoutMs with
      | none => return .error upstreamTimeout
      | some answer => return answer
    else askSettled

def awaitUpstream (request : VerifiedRequest) : GatewayCall σ (Except GatewayFault JsValue) :=
  andThen (askExecuteUpstream request.upstreamAction cfg.internalExecutorToken) (withTimeout cfg.timeoutMs)

/-- `upstream.field`. -/
def readField (upstream : JsValue) (field : JsString) : GatewayCall σ (Except GatewayFault JsValue) :=
  if upstream.isNullish then return .error (faultOf .typeError) else askField upstream field

/-- `upstream?.field`. -/
def readOptionalField (upstream : JsValue) (field : JsString) : GatewayCall σ (Except GatewayFault JsValue) :=
  if upstream.isNullish then return .ok .undefined else askField upstream field

/-- An integer HTTP 2xx. -/
def isSuccessStatus : JsValue → Bool
  | .num (.int z) => 200 ≤ z && z ≤ 299
  | _ => false

def defaultUpstreamSuccess (upstream : JsValue) : GatewayCall σ (Except GatewayFault Bool) :=
  andThen (readOptionalField upstream (js "status")) fun status => return .ok (isSuccessStatus status)

def upstreamSuccess (upstream : JsValue) : GatewayCall σ (Except GatewayFault Bool) :=
  if cfg.isUpstreamSuccess then
    andThen (askUpstreamSuccess upstream) fun answer => return .ok answer.isTruthy
  else defaultUpstreamSuccess upstream

/-- A dispatched result; the gate did open, whatever came of it. -/
def dispatchedBody (request : VerifiedRequest) (outcome : GatewayOutcome) (executed : Option Bool) :
    PepGatewayResponseBody where
  ok := outcome = .executed
  decision := .allow
  outcome := outcome
  executed := executed
  authId := some (request.authorization.field (js "auth_id"))
  intentHash := some request.intentHash

def unconfirmed (request : VerifiedRequest) (upstream : JsValue) :
    GatewayCall σ (Except GatewayFault PepGatewayResult) :=
  andThen (readOptionalField upstream (js "status")) fun status =>
    andThen (readOptionalField upstream (js "body")) fun body =>
      return .ok ⟨502, true, { dispatchedBody request .indeterminate none with
        reason := some (js "UPSTREAM_ERROR"), upstreamStatus := some status, upstreamError := some body }⟩

def confirmed (request : VerifiedRequest) (upstream : JsValue) :
    GatewayCall σ (Except GatewayFault PepGatewayResult) :=
  andThen (readField upstream (js "body")) fun body =>
    return .ok ⟨200, true, { dispatchedBody request .executed (some true) with upstreamResult := some body }⟩

def attempt (request : VerifiedRequest) : GatewayCall σ (Except GatewayFault PepGatewayResult) :=
  andThen (awaitUpstream cfg request) fun upstream =>
    andThen (upstreamSuccess cfg upstream) fun success =>
      if !success then unconfirmed request upstream else confirmed request upstream

def isTimeout (fault : GatewayFault) : Bool :=
  fault.code.isText (js "UPSTREAM_TIMEOUT") || fault.message.isText (js "UPSTREAM_TIMEOUT")

/-- Dispatch began, and what came of it is unknown. A fault that cannot be looked at
is thrown on. -/
def afterFault (request : VerifiedRequest) (fault : GatewayFault) : GatewayCall σ PepGatewayResult :=
  if !fault.readable then Call.throw fault
  else if isTimeout fault then
    return ⟨504, true, { dispatchedBody request .indeterminate none with reason := some (js "UPSTREAM_TIMEOUT") }⟩
  else match fault.text with
    | none => Call.throw fault
    | some text =>
      return ⟨502, true, { dispatchedBody request .indeterminate none with
        reason := some (js "UPSTREAM_ERROR"), upstreamError := some (.str text) }⟩

def dispatch (request : VerifiedRequest) : GatewayCall σ PepGatewayResult := do
  match ← attempt cfg request with
  | .error fault => afterFault request fault
  | .ok result => return result

def executeThroughPep (input : JsValue) : GatewayCall σ PepGatewayResult := do
  match ← verifiedRequest H cfg input with
  | .error reason => return deny reason
  | .ok request =>
    match ← consumeRequest request.authorization with
    | .error reason => return deny reason
    | .ok () => dispatch cfg request

end

end OxDeAI
