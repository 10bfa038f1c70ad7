import OxDeAI.Core.Types
import OxDeAI.Js.Number
import OxDeAI.Sift.Canonical
import OxDeAI.Sift.KeyStore

/-! From a receipt to the authorization that is to be signed. -/

namespace OxDeAI.Sift

open Js

inductive SiftDecision
  | allow
  | deny
  deriving DecidableEq

def SiftDecision.text : SiftDecision → JsString
  | allow => js "ALLOW"
  | deny => js "DENY"

structure SiftReceipt where
  receiptVersion : JsString
  tenantId : JsString
  agentId : JsString
  action : JsString
  tool : JsString
  decision : SiftDecision
  riskTier : JsNumber
  timestamp : JsString
  nonce : JsString
  policyMatched : JsString
  receiptHash : JsString
  signature : JsString

/-- All of an authorization but `signature.sig`. -/
structure SigningPayload where
  authId : JsString
  issuer : JsString
  audience : JsString
  intentHash : JsString
  stateHash : JsString
  policyId : JsString
  issuedAt : JsNumber
  expiresAt : JsNumber
  kid : JsString

structure AuthorizationV1Payload extends SigningPayload where
  sig : JsString

namespace SigningPayload

variable (payload : SigningPayload)

/-- The fields before `signature`. -/
def fields : List (JsString × JsValue) :=
  [(js "version", .str (js "AuthorizationV1")), (js "auth_id", .str payload.authId),
    (js "issuer", .str payload.issuer), (js "audience", .str payload.audience),
    (js "decision", .str (js "ALLOW")), (js "intent_hash", .str payload.intentHash),
    (js "state_hash", .str payload.stateHash), (js "policy_id", .str payload.policyId),
    (js "issued_at", .num payload.issuedAt), (js "expires_at", .num payload.expiresAt)]

def signatureFields : List (JsString × JsValue) := [(js "alg", .str (js "ed25519")), (js "kid", .str payload.kid)]

def value : JsValue := .obj (payload.fields ++ [(js "signature", .obj payload.signatureFields)])

end SigningPayload

def AuthorizationV1Payload.value (authorization : AuthorizationV1Payload) : JsValue :=
  .obj (authorization.fields ++
    [(js "signature", .obj (authorization.signatureFields ++ [(js "sig", .str authorization.sig)]))])

structure ReceiptToAuthorizationInput where
  receipt : SiftReceipt
  intent : JsValue
  state : JsValue
  issuer : JsString
  audience : JsString
  keyId : JsString
  ttlSeconds : Option JsNumber := none
  now : Option Date := none

inductive ReceiptToAuthorizationErrorCode
  | invalidReceiptDecision
  | invalidBindingInput
  | invalidAudience
  | invalidIssuer
  | invalidKeyId
  | invalidPolicyId
  | invalidTimestamp
  | invalidTtl
  | intentHashFailed
  | stateHashFailed
  deriving DecidableEq

structure ReceiptToAuthorizationError where
  code : ReceiptToAuthorizationErrorCode
  message : JsString

structure ReceiptAuthorization where
  authorization : AuthorizationV1Payload
  signingPayload : SigningPayload

def defaultTtlSeconds : JsNumber := .int 30

section

variable (P : Platform)

def siftCanonicalJsonHash (value : JsValue) : Except JsString JsString :=
  (siftCanonicalJsonBytes value).map P.sha256Hex

/-- With both hashes at hand. -/
def constructAuthorization (input : ReceiptToAuthorizationInput) (intentHash stateHash : JsString)
    (issuedAt expiresAt : JsNumber) : ReceiptAuthorization :=
  let authorization : AuthorizationV1Payload := {
    authId := input.receipt.nonce
    issuer := input.issuer
    audience := input.audience
    intentHash := intentHash
    stateHash := stateHash
    policyId := input.receipt.policyMatched
    issuedAt := issuedAt
    expiresAt := expiresAt
    kid := input.keyId
    -- a placeholder until it is signed
    sig := [] }
  ⟨authorization, authorization.toSigningPayload⟩

def receiptToAuthorization (clock : Date) (input : ReceiptToAuthorizationInput) :
    Except ReceiptToAuthorizationError ReceiptAuthorization :=
  if input.receipt.decision ≠ .allow then
    .error ⟨.invalidReceiptDecision, js "Receipt decision must be ALLOW, got: " ++ input.receipt.decision.text⟩
  else if input.issuer = [] then .error ⟨.invalidIssuer, js "issuer must be a non-empty string"⟩
  else if input.audience = [] then .error ⟨.invalidAudience, js "audience must be a non-empty string"⟩
  else if input.keyId = [] then .error ⟨.invalidKeyId, js "keyId must be a non-empty string"⟩
  else if input.receipt.policyMatched = [] then
    .error ⟨.invalidPolicyId, js "receipt.policy_matched must be a non-empty string"⟩
  else if !isObjectValue input.intent then .error ⟨.invalidBindingInput, js "intent must be a non-null object"⟩
  else if !isObjectValue input.state then .error ⟨.invalidBindingInput, js "state must be a non-null object"⟩
  else
    let ttlSeconds := input.ttlSeconds.getD defaultTtlSeconds
    if !ttlSeconds.isSafeInteger || ttlSeconds.le (.int 0) then
      .error ⟨.invalidTtl, js "ttlSeconds must be a positive safe integer"⟩
    else match (input.now.getD clock).time with
      | none => .error ⟨.invalidTimestamp, js "now must be a valid Date"⟩
      | some nowMs =>
        -- a time value is too small for the quotient to be rounded up to an integer
        let issuedAt : JsNumber := .int (nowMs.val / 1000)
        match siftCanonicalJsonHash P input.intent with
        | .error message => .error ⟨.intentHashFailed, js "Failed to canonicalize intent: " ++ message⟩
        | .ok intentHash =>
          match siftCanonicalJsonHash P input.state with
          | .error message => .error ⟨.stateHashFailed, js "Failed to canonicalize state: " ++ message⟩
          | .ok stateHash =>
            .ok (constructAuthorization input intentHash stateHash issuedAt (issuedAt.add ttlSeconds))

end

section

variable {P : Platform} {clock : Date} {input : ReceiptToAuthorizationInput} {issued : ReceiptAuthorization}

/-- The inputs that are turned into an authorization, with what goes into it. -/
structure Issues (P : Platform) (clock : Date) (input : ReceiptToAuthorizationInput) (intentHash stateHash : JsString)
    (nowMs ttlSeconds : ℤ) : Prop where
  decision : input.receipt.decision = .allow
  issuer : input.issuer ≠ []
  audience : input.audience ≠ []
  keyId : input.keyId ≠ []
  policyId : input.receipt.policyMatched ≠ []
  intent : siftCanonicalJsonHash P input.intent = .ok intentHash
  state : siftCanonicalJsonHash P input.state = .ok stateHash
  time : (input.now.getD clock).getTime = .int nowMs
  timeValue : nowMs.natAbs ≤ maxTimeValue
  ttl : input.ttlSeconds.getD defaultTtlSeconds = .int ttlSeconds
  ttlPositive : 0 < ttlSeconds
  ttlSafe : ttlSeconds.natAbs ≤ JsNumber.maxSafeInteger

theorem receiptToAuthorization_ok (h : receiptToAuthorization P clock input = .ok issued) :
    ∃ intentHash stateHash nowMs ttlSeconds, Issues P clock input intentHash stateHash nowMs ttlSeconds ∧
      issued = constructAuthorization input intentHash stateHash (.int (nowMs / 1000))
        ((JsNumber.int (nowMs / 1000)).add (.int ttlSeconds)) := by
  unfold receiptToAuthorization at h
  split_ifs at h with hdecision hissuer haudience hkey hpolicy hintent hstate
  dsimp only at h
  split_ifs at h with httl
  simp only [Bool.or_eq_true, Bool.not_eq_true', not_or, Bool.not_eq_true, Bool.not_eq_false] at httl
  obtain ⟨ttl, hvalue, hsafe⟩ := JsNumber.exists_int_of_isSafeInteger httl.1
  cases htime : (input.now.getD clock).time with
  | none => simp only [htime] at h; cases h
  | some nowMs =>
    simp only [htime] at h
    cases hi : siftCanonicalJsonHash P input.intent with
    | error message => simp only [hi] at h; cases h
    | ok intentHash =>
      simp only [hi] at h
      cases hs : siftCanonicalJsonHash P input.state with
      | error message => simp only [hs] at h; cases h
      | ok stateHash =>
        simp only [hs] at h
        rw [hvalue] at h httl
        have hpositive : 0 < ttl := by simpa using httl.2
        refine ⟨intentHash, stateHash, nowMs.val, ttl, ?_, (Except.ok.inj h).symm⟩
        exact ⟨not_not.mp hdecision, hissuer, haudience, hkey, hpolicy, hi, hs, by rw [Date.getTime, htime], nowMs.property,
          hvalue, hpositive, hsafe⟩

end

end OxDeAI.Sift
