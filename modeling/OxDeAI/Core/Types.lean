import OxDeAI.Core.CanonicalJson

/-! Intents, policy state, decisions and authorizations, and the host functions
the engine calls. -/

namespace OxDeAI

open Js

/-- Functions of the host: Unicode normalization, the digests of `node:crypto`,
and Ed25519 signing, which fails when the key does not load. -/
structure Platform where
  nfc : JsString → JsString
  sha256Hex : List Byte → JsString
  hmacSha256Hex : JsString → List Byte → JsString
  ed25519Signer : JsString → Option (List Byte → JsString)

inductive ReasonCode
  | killSwitch
  | allowlistAction
  | allowlistAsset
  | allowlistTarget
  | policyVersionMismatch
  | stateInvalid
  | budgetExceeded
  | perActionCapExceeded
  | velocityExceeded
  | concurrencyLimitExceeded
  | recursionDepthExceeded
  | replayNonce
  | internalError
  | concurrencyReleaseInvalid
  | toolCallLimitExceeded
  | intentAmountInvalid
  | intentFreshnessFuture
  | intentStale
  deriving DecidableEq

def ReasonCode.text : ReasonCode → JsString
  | killSwitch => js "KILL_SWITCH"
  | allowlistAction => js "ALLOWLIST_ACTION"
  | allowlistAsset => js "ALLOWLIST_ASSET"
  | allowlistTarget => js "ALLOWLIST_TARGET"
  | policyVersionMismatch => js "POLICY_VERSION_MISMATCH"
  | stateInvalid => js "STATE_INVALID"
  | budgetExceeded => js "BUDGET_EXCEEDED"
  | perActionCapExceeded => js "PER_ACTION_CAP_EXCEEDED"
  | velocityExceeded => js "VELOCITY_EXCEEDED"
  | concurrencyLimitExceeded => js "CONCURRENCY_LIMIT_EXCEEDED"
  | recursionDepthExceeded => js "RECURSION_DEPTH_EXCEEDED"
  | replayNonce => js "REPLAY_NONCE"
  | internalError => js "INTERNAL_ERROR"
  | concurrencyReleaseInvalid => js "CONCURRENCY_RELEASE_INVALID"
  | toolCallLimitExceeded => js "TOOL_CALL_LIMIT_EXCEEDED"
  | intentAmountInvalid => js "INTENT_AMOUNT_INVALID"
  | intentFreshnessFuture => js "INTENT_FRESHNESS_FUTURE"
  | intentStale => js "INTENT_STALE"

inductive ActionType
  | payment
  | purchase
  | provision
  | onchainTx
  deriving DecidableEq

def ActionType.text : ActionType → JsString
  | payment => js "PAYMENT"
  | purchase => js "PURCHASE"
  | provision => js "PROVISION"
  | onchainTx => js "ONCHAIN_TX"

inductive IntentType
  | execute
  | release
  deriving DecidableEq

def IntentType.text : IntentType → JsString
  | execute => js "EXECUTE"
  | release => js "RELEASE"

structure Intent where
  intentId : JsString
  agentId : JsString
  actionType : ActionType
  depth : Option JsNumber
  amount : ℤ
  asset : Option JsString
  target : JsString
  timestamp : JsNumber
  metadataHash : JsString
  nonce : ℤ
  signature : JsString
  type : Option IntentType
  authorizationId : Option JsString
  tool : Option JsString
  toolCall : Option Bool
  deriving DecidableEq

/-- `intent.type ?? "EXECUTE"`. -/
def Intent.kind (intent : Intent) : IntentType := intent.type.getD .execute

structure KillSwitchState where
  globalSwitch : Bool
  agents : Record Bool
  deriving DecidableEq

structure AllowLists where
  actionTypes : Option (List ActionType)
  assets : Option (List JsString)
  targets : Option (List JsString)
  deriving DecidableEq

structure BudgetState where
  budgetLimit : Record ℤ
  spentInPeriod : Record ℤ
  deriving DecidableEq

structure VelocityConfig where
  windowSeconds : JsNumber
  maxActions : JsNumber
  deriving DecidableEq

structure VelocityCounter where
  windowStart : JsNumber
  count : JsNumber
  deriving DecidableEq

structure VelocityState where
  config : VelocityConfig
  counters : Record (Option VelocityCounter)
  deriving DecidableEq

structure NonceEntry where
  nonce : JsString
  ts : JsNumber
  deriving DecidableEq

structure ReplayState where
  windowSeconds : JsNumber
  maxNoncesPerAgent : JsNumber
  nonces : Record (List NonceEntry)
  deriving DecidableEq

structure Lease where
  expiresAt : JsNumber
  deriving DecidableEq

structure ConcurrencyState where
  maxConcurrent : Record JsNumber
  active : Record JsNumber
  activeAuths : Record (Record Lease)
  deriving DecidableEq

structure RecursionState where
  maxDepth : Record JsNumber
  deriving DecidableEq

structure ToolCall where
  ts : JsNumber
  tool : Option JsString
  deriving DecidableEq

structure ToolLimitsState where
  windowSeconds : JsNumber
  maxCalls : Record (Option JsNumber)
  maxCallsByTool : Option (Record (Option (Record (Option JsNumber))))
  calls : Record (Option (List ToolCall))
  deriving DecidableEq

structure State where
  policyVersion : JsString
  periodId : JsString
  killSwitch : KillSwitchState
  allowlists : AllowLists
  budget : BudgetState
  maxAmountPerAction : Record (Option ℤ)
  velocity : VelocityState
  replay : ReplayState
  concurrency : ConcurrencyState
  recursion : RecursionState
  toolLimits : ToolLimitsState
  deriving DecidableEq

/-- The parts of the state a module may propose to change. -/
structure StateDelta where
  budget : Option BudgetState := none
  velocity : Option VelocityState := none
  replay : Option ReplayState := none
  concurrency : Option ConcurrencyState := none
  toolLimits : Option ToolLimitsState := none

inductive PolicyResult
  | allow (stateDelta : Option StateDelta)
  | deny (reasons : List ReasonCode)

structure PolicyEvaluationContext where
  evaluationTime : JsNumber
  freshnessHorizonSeconds : Option JsNumber

inductive EvalMode
  | failFast
  | collectAll
  deriving DecidableEq

inductive SigningAlg
  | ed25519
  | hmacSha256
  deriving DecidableEq

def SigningAlg.text : SigningAlg → JsString
  | ed25519 => js "Ed25519"
  | hmacSha256 => js "HMAC-SHA256"

structure Authorization where
  authorizationId : JsString
  authId : JsString
  issuer : JsString
  audience : JsString
  intentHash : JsString
  stateHash : JsString
  policyId : JsString
  policyVersion : JsString
  stateSnapshotHash : JsString
  issuedAt : JsNumber
  expiry : JsNumber
  alg : SigningAlg
  kid : JsString
  nonce : JsString
  signature : JsString
  expiresAt : JsNumber
  engineSignature : JsString
  capability : Option ActionType
  deriving DecidableEq

inductive EvaluatePureOutput
  | allow (authorization : Authorization) (nextState : State)
  | deny (reasons : List ReasonCode)
  deriving DecidableEq

/-- A finite, nonnegative, safe integer. -/
def isProtocolSeconds (n : JsNumber) : Bool := n.isSafeInteger && n.ge (.int 0)

def assertProtocolSeconds (n : JsNumber) (label : JsString) : Except JsError Unit :=
  if isProtocolSeconds n then .ok ()
  else .error (.error (label ++ js " must be a finite, non-negative safe integer (unix seconds)"))

theorem isProtocolSeconds_iff {n : JsNumber} :
    isProtocolSeconds n = true ↔ ∃ t : ℕ, n = .int t ∧ t ≤ JsNumber.maxSafeInteger := by
  constructor
  · intro h
    simp only [isProtocolSeconds, Bool.and_eq_true] at h
    obtain ⟨z, rfl, hz⟩ := JsNumber.exists_int_of_isSafeInteger h.1
    have h0 : 0 ≤ z := by simpa using h.2
    exact ⟨z.toNat, by rw [Int.toNat_of_nonneg h0], by omega⟩
  · rintro ⟨t, rfl, ht⟩
    simp [isProtocolSeconds, JsNumber.isSafeInteger, ht]

section

variable (P : Platform)

def sha256HexFromJson (v : JsValue) : Except JsError JsString :=
  (canonicalJson P.nfc v).map (fun t => P.sha256Hex (utf8Encode t))

def optionalField (k : JsString) : Option JsValue → List (JsString × JsValue)
  | some v => [(k, v)]
  | none => []

/-- The fields an intent hash covers. An undefined field is left out. -/
def intentBinding (intent : Intent) : List (JsString × JsValue) :=
  [(js "intent_id", .str intent.intentId),
    (js "agent_id", .str intent.agentId),
    (js "action_type", .str intent.actionType.text)] ++
  optionalField (js "depth") (intent.depth.map .num) ++
  [(js "amount", .bigint intent.amount)] ++
  optionalField (js "asset") (intent.asset.map .str) ++
  [(js "target", .str intent.target),
    (js "timestamp", .num intent.timestamp),
    (js "metadata_hash", .str intent.metadataHash),
    (js "nonce", .bigint intent.nonce)] ++
  optionalField (js "type") (intent.type.map (fun t => .str t.text)) ++
  optionalField (js "authorization_id") (intent.authorizationId.map .str) ++
  optionalField (js "tool") (intent.tool.map .str) ++
  optionalField (js "tool_call") (intent.toolCall.map .bool)

def intentHash (intent : Intent) : Except JsError JsString :=
  sha256HexFromJson P (.obj (intentBinding intent))

def engineSignHmac (payload : JsValue) (secret : JsString) : Except JsError JsString :=
  (canonicalJson P.nfc payload).map (fun msg => P.hmacSha256Hex secret (utf8Encode msg))

def authV1Domain : JsString := js "OXDEAI_AUTH_V1"

def signatureInput (domain : JsString) (payload : JsValue) : Except JsError (List Byte) :=
  (canonicalJson P.nfc payload).map (fun body => utf8Encode (domain ++ js "\n") ++ utf8Encode body)

def signEd25519 (domain : JsString) (payload : JsValue) (privateKeyPem : JsString) :
    Except JsError JsString :=
  match P.ed25519Signer privateKeyPem with
  | none => .error .typeError
  | some sign => (signatureInput P domain payload).map sign

def signHmacDomain (domain : JsString) (payload : JsValue) (secret : JsString) :
    Except JsError JsString :=
  (signatureInput P domain payload).map (P.hmacSha256Hex secret)

end

end OxDeAI
