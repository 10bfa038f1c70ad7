import OxDeAI.Core.IntentValue
import OxDeAI.Guard.Requests

/-! The guard's enforcement body: loading the state, normalizing the action, and the
standard path through the policy engine. -/

namespace OxDeAI

open Js Async

/-- The guard keeps the objects it is given and takes no copies: what an object reads as
once an oracle that can reach it has run. -/
structure LiveObjects where
  /-- The action, once it is normalized. -/
  normalized : JsValue → JsValue := fun action => action
  /-- The intent, once the engine has evaluated it. -/
  evaluated : JsValue → Except CallbackError JsValue := .ok
  /-- The verified authorization, when its identifier is consumed. -/
  consumed : JsValue → JsValue := fun authorization => authorization
  /-- The verified authorization, once the state is committed. -/
  committed : JsValue → JsValue := fun authorization => authorization

section

variable {σ S V : Type} (H : Host) (cfg : GuardConfig)

def loadState : GuardCall σ S V (S × V) := do
  match ← askState with
  | .error err => passOn err
  | .ok .tampered => reject .stateLoad .unclassified (.authorization
      (js "A built-in prototype defines `then` (prototype pollution); the state store's answer cannot be trusted. Execution blocked."))
  | .ok (.value none) => unclassified (runtimeError .typeError)
  | .ok (.value (some (_, none))) => reject .stateLoad .stateVersionMissing (.authorization
      (js "State store returned no version. Cannot enforce CAS invariant. Execution blocked."))
  | .ok (.value (some (state, some version))) => return (state, version)

def rejectNormalization {α : Type} (err : CallbackError) : GuardCall σ S V α :=
  match err.asking, err.error with
  | some thrown, _ => passOn thrown
  | none, .normalization _ => passOnAs err { stage := .normalization, failure := .normalizationFailure }
  | none, .provenanceConflict fields provenance => passOnAs err
      { stage := .provenance, failure := .provenanceConflict, conflictingFields := some fields,
        provenance := some provenance }
  | none, _ => shown err fun text => reject .normalization .normalizationFailure (.normalization
      (js "mapActionToIntent threw an unexpected error: " ++ text))

/-- Delegation needs an agent to hold the delegation against. -/
def normalizeAction (action delegationInput : JsValue) : GuardCall σ S V JsValue := do
  setStage .normalization
  match ← askNormalize action with
  | .error err => rejectNormalization err
  | .ok intent =>
    if delegationInput.isTruthy && !(intent.field (js "agent_id")).hasText then
      reject .normalization .normalizationFailure (.normalization
        (js "Delegation requires a non-empty normalized intent.agent_id."))
    else if intent.isNullish then unclassified (runtimeError .typeError)
    else do
      Call.modify (fun l => { l with intentId := defined (intent.field (js "intent_id")) })
      return intent

/-- The trusted key sets of this moment; under revocation only when they pass. -/
def validatedTrust (stage : GuardBoundaryStage) : GuardCall σ S V (List KeySet) := do
  let live ← askTrustedKeySets
  match cfg.revocation with
  | none => return live
  | some revocation =>
    match validatedTrustSnapshot H (krlKeyIdentities H revocation.trustedKrlKeySets) live with
    | .error message => reject stage .authorizationVerificationFailed (.configuration message)
    | .ok keySets => return keySets

def strictOptions (now : JsNumber) (keySets : List KeySet)
    (authorities : Option (List AuthorizationAuthority)) : VerifyAuthorizationOptions where
  now := some now
  mode := some .strict
  trustedKeySets := some (.many keySets)
  requireSignatureVerification := some true
  expectedAudience := some cfg.expectedAudience
  trustedAuthorizationAuthorities := authorities

def VerificationStatus.text : VerificationStatus → JsString
  | ok => js "ok"
  | invalid => js "invalid"
  | inconclusive => js "inconclusive"

/-- The codes of a failed verification, or its status where there are none. -/
def failureText (result : VerificationResult) : JsString :=
  let codes := List.intercalate (js ", ") (result.violations.map (fun v => v.code.text))
  if codes = [] then result.status.text else codes

def evaluatePolicy (intent : JsValue) (state : S) : GuardCall σ S V (EngineResult S) := do
  setStage .policyEvaluation
  let evaluationTime ← askClock
  match ← askEvaluatePure intent state evaluationTime with
  | .error err => shown err fun text => reject .policyEvaluation .engineFailure (.authorization
      (js "PolicyEngine.evaluatePure threw: " ++ text))
  | .ok answer => do
    Call.modify (fun l => { l with policyEvaluated := true })
    match answer with
    | none => unclassified (runtimeError .typeError)
    | some result => return result

/-- `none` when the value is no array of strings. -/
def denyReasons? : JsValue → Option (List JsString)
  | .arr xs => if xs.all JsValue.isString then some (xs.filterMap JsValue.text?) else none
  | _ => none

def denyPolicy {α : Type} (action : JsValue) (result : EngineResult S) : GuardCall σ S V α :=
  match denyReasons? result.reasons with
  | none => reject .policyEvaluation .engineFailure (.authorization
      (js "PolicyEngine returned DENY with malformed reasons: expected an array of strings. Execution blocked."))
  | some reasons => do
    fireDecision cfg { action := action, decision := .deny, reasons := some reasons }
    unclassified (.deny reasons)

/-- Any decision but DENY goes on, with an authorization and a next state. -/
def requireAuthorization (action : JsValue) (result : EngineResult S) : GuardCall σ S V S :=
  if result.decision.isText (js "DENY") then denyPolicy cfg action result
  else if !result.authorization.isTruthy then
    reject .policyEvaluation .authorizationMissing (.authorization
      (js "PolicyEngine returned ALLOW without an authorization artifact. Execution blocked."))
  else match result.nextState with
    | none => reject .policyEvaluation .engineFailure (.authorization
        (js "PolicyEngine returned ALLOW without a nextState. Execution blocked."))
    | some nextState => do
      Call.modify (fun l => { l with authorizationIssued := true })
      return nextState

def verifyIssued (authorization : JsValue) : GuardCall σ S V Unit := do
  setStage .authorizationVerification
  let now ← askClock
  let keySets ← validatedTrust H cfg .authorizationVerification
  let result ← returning (verifyAuthorization H now authorization (strictOptions cfg now keySets none))
  if result.status ≠ .ok then
    reject .authorizationVerification .authorizationVerificationFailed (.authorization
      (js "Authorization verification failed: " ++ failureText result.toVerificationResult ++
        js ". Execution blocked."))
  else return ()

def intentUnhashed (message : JsString) : GuardCall σ S V Unit :=
  reject .authorizationVerification .intentHashMismatch (.authorization
    (js "Intent canonicalization failed: " ++ message ++ js ". Execution blocked."))

/-- The intent is read anew, and its own code may throw at that. -/
def bindIntent (authorization : JsValue) : Except CallbackError JsValue → GuardCall σ S V Unit
  | .error err => shown err intentUnhashed
  | .ok intent =>
    match intentHashOf H.toPlatform intent with
    | .error e => intentUnhashed (runtimeError e).message
    | .ok computed =>
      if !(authorization.field (js "intent_hash")).isText computed then
        reject .authorizationVerification .intentHashMismatch (.authorization
          (js "Intent hash mismatch: computed hash does not match authorization.intent_hash. Execution blocked."))
      else return ()

def bindState (state : S) (authorization : JsValue) : GuardCall σ S V Unit :=
  if !(authorization.field (js "state_hash")).isTruthy then
    reject .authorizationVerification .stateHashMismatch (.authorization
      (js "Authorization is missing state_hash. Execution blocked."))
  else do
    match ← askComputeStateHash state with
    | .error err => shown err fun text => reject .authorizationVerification .stateHashMismatch (.authorization
        (js "State canonicalization failed: " ++ text ++ js ". Execution blocked."))
    | .ok actual =>
      if !actual.strictEquals (authorization.field (js "state_hash")) then
        reject .authorizationVerification .stateHashMismatch (.authorization
          (js "Authorization state_hash does not match the current execution-time state snapshot. Execution blocked."))
      else return ()

/-- The kind of a value that is no boolean, as the rejection names it. -/
def replayResultKind : JsValue → JsString
  | .null => js "null"
  | .arr _ => js "array"
  | .bool _ => js "boolean"
  | .str _ => js "string"
  | .num _ => js "number"
  | .bigint _ => js "bigint"
  | .undefined => js "undefined"
  | .function => js "function"
  | .symbol => js "symbol"
  | .obj _ | .instance _ => js "object"

/-- A kind of identifier that is consumed, with its texts. -/
structure ConsumeTexts where
  unavailable : JsString
  what : JsString
  failure : GuardBoundaryFailure
  replay : JsString

/-- Only `true` permits the next step. -/
def requireConsumed (texts : ConsumeTexts) : Except CallbackError JsValue → GuardCall σ S V Unit
  | .error err => shown err fun text => reject .replay .replayStoreUnavailable (.authorization
      (texts.unavailable ++ js ": " ++ text ++ js ". Execution blocked."))
  | .ok (.bool true) => return ()
  | .ok (.bool false) => reject .replay texts.failure (.authorization texts.replay)
  | .ok v => reject .replay .replayStoreUnavailable (.authorization
      (js "Replay store returned a non-boolean result (" ++ replayResultKind v ++ js ") for " ++ texts.what ++
        js "; ReplayStore must resolve to true or false. Execution blocked."))

def issuedTexts : ConsumeTexts where
  unavailable := js "Replay store unavailable"
  what := js "auth_id"
  failure := .authorizationReplay
  replay := js "Authorization replay detected: auth_id already consumed. Execution blocked."

/-- `authorization.expiry ?? 0`. -/
def consumeExpiry (authorization : JsValue) : JsValue :=
  if (authorization.field (js "expiry")).isNullish then .num (.int 0) else authorization.field (js "expiry")

def consumeIssued (authorization : JsValue) : GuardCall σ S V Unit := do
  let answer ← askConsumeAuthId (authorization.field (js "auth_id")) (consumeExpiry authorization)
  requireConsumed issuedTexts answer
  Call.modify (fun l => { l with authorizationConsumed := true })

def commitState (nextState : S) (version : V) : GuardCall σ S V Unit := do
  setStage .stateCommit
  match ← askSetState nextState version with
  | .error err => passOn err
  | .ok answer =>
    if !answer.isTruthy then
      reject .stateCommit .casConflict (.conflict
        (js "State version mismatch: concurrent modification detected. Execution blocked."))
    else Call.modify (fun l => { l with stateCommitted := true })

def passGate (action authorization : JsValue) : GuardCall σ S V Unit := do
  setStage .executionGate
  if cfg.beforeExecute then
    match ← askBeforeExecute action authorization with
    | .error err => passOn err
    | .ok () => return ()
  else return ()

/-- The call is marked as started before control enters the callback. -/
def runExecute (record : GuardDecisionRecord) : GuardCall σ S V JsValue := do
  Call.modify (fun l => { l with executionStarted := true })
  match ← askExecute with
  | .error err => passOn err
  | .ok result => do
    fireDecision cfg record
    return result

def issuedRecord (action authorization : JsValue) : GuardDecisionRecord where
  action := action
  decision := .allow
  authorization := some authorization

def standardPath (action intent : JsValue) (state : S) (version : V) (live : LiveObjects := {}) :
    GuardCall σ S V JsValue := do
  let result ← evaluatePolicy intent state
  let nextState ← requireAuthorization cfg action result
  verifyIssued H cfg result.authorization
  bindIntent H result.authorization (live.evaluated intent)
  bindState state result.authorization
  consumeIssued (live.consumed result.authorization)
  commitState nextState version
  passGate cfg action (live.committed result.authorization)
  runExecute cfg (issuedRecord action (live.committed result.authorization))

end

end OxDeAI
