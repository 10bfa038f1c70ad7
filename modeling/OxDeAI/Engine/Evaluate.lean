import OxDeAI.Engine.Audit
import OxDeAI.Policy.Decision

/-! Evaluation of one intent: the checks before it, the freshness gate, the
decision phase, and the authorization bound to the resulting state. -/

namespace OxDeAI

open Js

def validateIntent (intent : Intent) : Except ReasonCode Unit :=
  if intent.amount < 0 then .error .intentAmountInvalid
  else if intent.type = some .release ∧ intent.authorizationId.getD [] = [] then .error .stateInvalid
  else .ok ()

def validateStateForIntent (state : State) (intent : Intent) : Except ReasonCode Unit :=
  if !isRuntimeState state then .error .stateInvalid
  else match validateNumericLeaves state intent.agentId with
    | .error _ => .error .stateInvalid
    | .ok _ => .ok ()

/-- The lease map replaces the merged one, which still holds removed entries. -/
def materializeLeases (intent : Intent) (state working : State) (evaluationTime : JsNumber) : State :=
  match computeConcurrencyLeases intent state evaluationTime with
  | none => working
  | some leases =>
    { working with concurrency := { working.concurrency with
        activeAuths := working.concurrency.activeAuths.set intent.agentId leases.auths } }

def insertLease (intent : Intent) (working : State) (authId : JsString) (lease : Lease) : State :=
  { working with concurrency := { working.concurrency with
      activeAuths := working.concurrency.activeAuths.set intent.agentId
        ((residentLeases working intent.agentId).set authId lease) } }

section

variable (P : Platform) (e : PolicyEngine)

def moduleContext (evaluationTime : JsNumber) : PolicyEvaluationContext :=
  ⟨evaluationTime, some e.freshnessHorizonSeconds⟩

/-- The signed fields, under a given `auth_id`. -/
def authorizationCore (intent : Intent) (intentHash stateHash authId : JsString)
    (issuedAt expiresAt : JsNumber) : List (JsString × JsValue) :=
  [(js "auth_id", .str authId), (js "issuer", .str e.issuer), (js "audience", .str e.audience),
    (js "intent_hash", .str intentHash), (js "state_hash", .str stateHash),
    (js "policy_id", .str (computePolicyId P e)), (js "decision", .str (js "ALLOW")),
    (js "issued_at", .num issuedAt), (js "expiry", .num expiresAt),
    (js "alg", .str e.signingAlg.text), (js "kid", .str e.signingKid),
    (js "nonce", .str (decimal intent.nonce)), (js "capability", .str intent.actionType.text)]

/-- The fields the engine's own HMAC covers. -/
def engineAuthPayload (intentHash policyVersion stateSnapshotHash : JsString) (expiresAt : JsNumber) :
    JsValue :=
  .obj [(js "intent_hash", .str intentHash), (js "policy_version", .str policyVersion),
    (js "state_snapshot_hash", .str stateSnapshotHash), (js "decision", .str (js "ALLOW")),
    (js "expires_at", .num expiresAt)]

def signAuthorization (core : JsValue) : Except JsError JsString :=
  match e.signingAlg with
  | .ed25519 =>
    if e.opts.authorizationPrivateKeyPem.getD [] = [] then
      .error (.error (js "authorization_private_key_pem is required for Ed25519 signing"))
    else signEd25519 P authV1Domain core (e.opts.authorizationPrivateKeyPem.getD [])
  | .hmacSha256 => signHmacDomain P authV1Domain core e.opts.engineSecret

/-- The values an authorization is assembled from. -/
structure AuthorizationParts where
  intentHash : JsString
  stateSnapshotHash : JsString
  engineSignature : JsString
  stateHash : JsString
  authorizationId : JsString
  signature : JsString

def assembleAuthorization (intent : Intent) (state : State) (issuedAt expiresAt : JsNumber)
    (parts : AuthorizationParts) : Authorization where
  authorizationId := parts.authorizationId
  authId := parts.authorizationId
  issuer := e.issuer
  audience := e.audience
  intentHash := parts.intentHash
  stateHash := parts.stateHash
  policyId := computePolicyId P e
  policyVersion := state.policyVersion
  stateSnapshotHash := parts.stateSnapshotHash
  issuedAt := issuedAt
  expiry := expiresAt
  alg := e.signingAlg
  kid := e.signingKid
  nonce := decimal intent.nonce
  signature := parts.signature
  expiresAt := expiresAt
  engineSignature := parts.engineSignature
  capability := some intent.actionType

/-- The authorization of a permitted intent, bound to the input state and to the
state `working` that results. -/
def issueAuthorization (intent : Intent) (state working : State) (evaluationTime : JsNumber)
    (intentHash : JsString) : Except JsError Authorization := do
  let stateSnapshotHash ← computeStateHash P e working
  let expiresAt := evaluationTime.add e.authorizationTtl
  let engineSignature ← engineSignHmac P
    (engineAuthPayload intentHash state.policyVersion stateSnapshotHash expiresAt) e.opts.engineSecret
  let stateHash ← computeStateHash P e state
  let core := authorizationCore P e intent intentHash stateHash
  let authorizationId ← sha256HexFromJson P (.obj (core [] evaluationTime expiresAt ++
    [(js "engine_signature", .str engineSignature)]))
  let signature ← signAuthorization P e (.obj (core authorizationId evaluationTime expiresAt))
  return assembleAuthorization P e intent state evaluationTime expiresAt
    ⟨intentHash, stateSnapshotHash, engineSignature, stateHash, authorizationId, signature⟩

/-- The state a permitted intent leaves: an EXECUTE adds its own lease. -/
def leaseState (intent : Intent) (working : State) (authorization : Authorization) : State :=
  match intent.kind with
  | .execute => insertLease intent working authorization.authId ⟨authorization.expiry⟩
  | .release => working

/-- Audit of a refusal, and the refusal. -/
def denyAudited (intentHash : JsString) (state : State) (evaluationTime : JsNumber)
    (reasons : List ReasonCode) : Eval EvaluatePureOutput := do
  emitAudit P (.decision intentHash false reasons state.policyVersion evaluationTime
    (computePolicyId P e))
  maybeEmitCheckpoint P e (computePolicyId P e) evaluationTime state
  return .deny reasons

def allowAudited (intentHash : JsString) (state next : State) (evaluationTime : JsNumber)
    (authorization : Authorization) : Eval EvaluatePureOutput := do
  emitAudit P (.decision intentHash true [] state.policyVersion evaluationTime (computePolicyId P e))
  emitAudit P (.authEmitted authorization.authorizationId intentHash authorization.expiresAt
    evaluationTime (computePolicyId P e))
  maybeEmitCheckpoint P e (computePolicyId P e) evaluationTime next
  return .allow authorization next

/-- The body of the `try` block. -/
def evaluateGuarded (intent : Intent) (state : State) (evaluationTime : JsNumber) (mode : EvalMode) :
    Eval EvaluatePureOutput := do
  let hash ← Eval.lift (intentHash P intent)
  emitAudit P (.intentReceived hash intent.agentId evaluationTime (computePolicyId P e))
  let freshness ← Eval.lift (verifyTrustedTime intent.timestamp evaluationTime
    e.opts.maxClockSkewSeconds e.opts.maxIntentAgeSeconds)
  match freshness with
  | .deny reasons => denyAudited P e hash state evaluationTime reasons
  | .allow _ =>
    let decision ← Eval.lift (runDecisionModules intent state (moduleContext e evaluationTime) mode
      (modulesFor intent))
    match decision with
    | .deny reasons => denyAudited P e hash state evaluationTime reasons
    | .allow nextState =>
      let working := materializeLeases intent state nextState evaluationTime
      let authorization ← Eval.lift (issueAuthorization P e intent state working evaluationTime hash)
      allowAudited P e hash state (leaseState intent working authorization) evaluationTime authorization

/-- Whether `evaluationTime + ttl` stays a safe integer. -/
def ttlOverflows (evaluationTime : JsNumber) : Bool :=
  ((JsNumber.int JsNumber.maxSafeInteger).sub e.authorizationTtl).lt evaluationTime

/-- The checks before the `try` block: an early result, or a throw of the caller's
fault (a malformed clock), which nothing catches. -/
def precheck (intent : Intent) (state : State) (evaluationTime : JsNumber) :
    Except (Except JsError EvaluatePureOutput) Unit :=
  match validateIntent intent with
  | .error reason => .error (.ok (.deny [reason]))
  | .ok _ =>
    match validateStateForIntent state intent with
    | .error reason => .error (.ok (.deny [reason]))
    | .ok _ =>
      if state.policyVersion ≠ e.opts.policyVersion then .error (.ok (.deny [.policyVersionMismatch]))
      else
        match assertProtocolSeconds evaluationTime (js "evaluationTime") with
        | .error err => .error (.error err)
        | .ok _ =>
          if ttlOverflows e evaluationTime then
            .error (.error (.error (js "evaluationTime + authorization_ttl_seconds must be a safe integer (unix seconds)")))
          else .ok ()

/-- What the `catch` block makes of a throw. -/
def caught : Except JsError EvaluatePureOutput → Except JsError EvaluatePureOutput
  | .ok out => .ok out
  | .error _ => .ok (.deny [.internalError])

def evaluatePure (intent : Intent) (state : State) (evaluationTime : JsNumber) (mode : EvalMode) :
    Eval EvaluatePureOutput := fun log =>
  match precheck e intent state evaluationTime with
  | .error early => (early, log)
  | .ok _ =>
    let result := evaluateGuarded P e intent state evaluationTime mode log
    (caught result.1, result.2)

end

end OxDeAI
