import OxDeAI.Verification.AuthorizationSound
import OxDeAI.Verification.KeyCheck
import OxDeAI.Verification.Scope

/-! `verifyDelegation` and `verifyDelegationChain`. -/

namespace OxDeAI

open Js

def delegationV1Domain : JsString := js "OXDEAI_DELEGATION_V1"

structure DelegationAuthority where
  delegator : JsString
  issuer : JsString
  deriving DecidableEq

/-- Does the pair appear as a whole? -/
def isTrustedDelegationAuthority (authorities : List DelegationAuthority) (delegator issuer : JsValue) :
    Bool :=
  delegator.hasText && issuer.hasText &&
    authorities.any (fun a => delegator.isText a.delegator && issuer.isText a.issuer)

structure VerifyDelegationOptions where
  now : Option JsNumber := none
  trustedKeySets : Option TrustedKeySets := none
  requireSignatureVerification : Option Bool := none
  expectedDelegatee : Option JsString := none
  expectedPolicyId : Option JsString := none
  parentScope : JsValue := .undefined
  consumedDelegationIds : Option (List JsString) := none
  maxFutureIssuedAtSkewSeconds : Option JsNumber := none
  trustedDelegationAuthorities : Option (List DelegationAuthority) := none

def delegationSigningPayload (delegation : JsValue) : JsValue := delegation.rest (js "signature")

def delegationTexts : List JsString :=
  [js "delegation_id", js "issuer", js "audience", js "parent_auth_hash", js "delegator",
    js "delegatee", js "policy_id", js "alg", js "kid", js "signature"]

/-- `b > a`, where both are integers. -/
def integersExceed (b a : JsValue) : Bool :=
  match a, b with
  | .num (.int x), .num (.int y) => x < y
  | _, _ => false

def expiredAt (now : JsNumber) : JsValue → Bool
  | .num n => n.isInteger && now.ge n
  | _ => false

section

variable (delegation : JsValue)

def checkDelegationTimes (now skew : JsNumber) : List VerificationViolation :=
  let issuedAt := delegation.field (js "issued_at")
  let expiry := delegation.field (js "expiry")
  check (!expiredAt now expiry) .delegationExpired (js "delegation has expired") ++
    check (!(issuedAt.isInteger && expiry.isInteger) || integersExceed expiry issuedAt)
      .delegationTemporalInvalid (js "expiry must be strictly greater than issued_at") ++
    check (!issuedAt.isInteger || isPlausible now skew issuedAt) ViolationCode.delegationIssuedAtImplausible
      (implausibleMessage skew)

def checkDelegationIdentity (nfc : JsString → JsString) (opts : VerifyDelegationOptions) :
    List VerificationViolation :=
  let id := delegation.field (js "delegation_id")
  check (meets opts.expectedDelegatee (delegation.field (js "delegatee"))) .delegationAudienceMismatch
      (js "delegatee does not match expectedDelegatee") ++
    check (meets opts.expectedPolicyId (delegation.field (js "policy_id"))) .delegationPolicyMismatch
      (js "policy_id does not match expectedPolicyId") ++
    check (!id.hasText || isNfcText nfc id) .delegationIdNoncanonical
      (js "delegation_id must be Unicode NFC-normalized") ++
    check (!id.hasText || !(opts.consumedDelegationIds.getD []).any id.isText) .delegationReplay
      (js "delegation_id has already been consumed") ++
    check (opts.trustedDelegationAuthorities.all (fun authorities =>
        !(delegation.field (js "issuer")).hasText || !(delegation.field (js "delegator")).hasText ||
          isTrustedDelegationAuthority authorities (delegation.field (js "delegator"))
            (delegation.field (js "issuer")))) .delegationSignerNotAuthorized
      (js "delegation signer (issuer) is not authorized to delegate for this delegator")

/-- The narrowing comparisons run on well-typed scopes only. -/
def checkDelegationScope (parentScope : JsValue) : Except JsError (List VerificationViolation) :=
  let scopeIssues := scopeTypeViolations (delegation.field (js "scope")) (js "scope")
  let parentIssues :=
    if parentScope.isUndefined then [] else scopeTypeViolations parentScope (js "parentScope")
  if !parentScope.isUndefined && scopeIssues.isEmpty && parentIssues.isEmpty then
    (checkScopeNarrowing (delegation.field (js "scope")) parentScope).map
      (fun narrowing => scopeIssues ++ parentIssues ++ narrowing)
  else .ok (scopeIssues ++ parentIssues)

def checkDelegationFields : List VerificationViolation :=
  delegationTexts.flatMap (fun field =>
      requireText (delegation.field field) .delegationMissingField field) ++
    check (delegation.field (js "issued_at")).isInteger .delegationMissingField
      (js "issued_at must be integer unix seconds") ++
    check (delegation.field (js "expiry")).isInteger .delegationMissingField
      (js "expiry must be integer unix seconds") ++
    check (!(delegation.field (js "alg")).hasText || (delegation.field (js "alg")).isText (js "Ed25519"))
      .delegationAlgUnsupported (js "only Ed25519 is supported for DelegationV1")

end

def delegationKeyReport : KeyReport where
  unknown := ⟨.delegationKidUnknown, js "kid not found for issuer/alg", none⟩
  inactive := ⟨.delegationKeyInactive, js "key is not active at verification time", none⟩
  invalid := ⟨.delegationSignatureInvalid, js "signature verification failed", none⟩

section

variable (H : Host) (clock : JsNumber) (delegation : JsValue)

def verifyDelegationSignature (key : KeySetKey) : Bool :=
  verifyEd25519 H delegationV1Domain (delegationSigningPayload delegation)
    ((delegation.field (js "signature")).text?.getD []) key.publicKey

/-- Algorithm, kid and signature are there to look a key up with. -/
def hasDelegationSignature : Bool :=
  (delegation.field (js "alg")).isText (js "Ed25519") && (delegation.field (js "kid")).hasText &&
    (delegation.field (js "signature")).hasText

def checkDelegationSignature (now : JsNumber) (trusted requireSig : Bool)
    (find : JsString → Option KeySetKey) : List VerificationViolation :=
  if hasDelegationSignature delegation then
    if !trusted then
      check (!requireSig) .delegationTrustMissing (js "trustedKeySets required for Ed25519 verification")
    else delegationKeyReport.violations (keyOutcome now (verifyDelegationSignature H delegation)
      (find ((delegation.field (js "kid")).text?.getD [])))
  else []

def resultOf (delegation : JsValue) (violations : List VerificationViolation) : VerificationResult where
  ok := violations = []
  status := if violations = [] then .ok else .invalid
  violations := sortViolations violations
  policyId := reported (delegation.field (js "policy_id"))

/-- Verification with the key lookup as an argument. -/
def verifyDelegationBy (opts : VerifyDelegationOptions) (find : JsString → Option KeySetKey) :
    Except JsError VerificationResult :=
  let now := opts.now.getD clock
  match resolveMaxFutureIssuedAtSkewSeconds (js "verifyDelegation") opts.maxFutureIssuedAtSkewSeconds with
  | .error e => .error e
  | .ok skew =>
    if delegation.isNullish then .error .typeError
    else
      (checkDelegationScope delegation opts.parentScope).map (fun scopeIssues =>
        resultOf delegation (checkDelegationFields delegation ++ checkDelegationTimes delegation now skew ++
          checkDelegationIdentity delegation H.nfc opts ++ scopeIssues ++
          checkDelegationSignature H delegation now (!(trustedList opts.trustedKeySets).isEmpty)
            (opts.requireSignatureVerification.getD false) find))

def findDelegationKey (opts : VerifyDelegationOptions) (kid : JsString) : Option KeySetKey :=
  findKeyInKeySets (trustedList opts.trustedKeySets) (delegation.field (js "issuer")) kid .ed25519

def verifyDelegation (opts : VerifyDelegationOptions) : Except JsError VerificationResult :=
  verifyDelegationBy H clock delegation opts (findDelegationKey delegation opts)

def delegationParentHash (parent : JsValue) : Except JsError JsString :=
  sha256HexFromJson H.toPlatform (toPublicAuthorizationV1 parent)

/-- A delegation without a hash is left to the field checks. -/
def checkParentHash (parent : JsValue) : Except JsError (List VerificationViolation) :=
  if !(delegation.field (js "parent_auth_hash")).hasText then .ok []
  else (delegationParentHash H parent).map (fun hash =>
    check ((delegation.field (js "parent_auth_hash")).isText hash) .delegationParentHashMismatch
      (js "parent_auth_hash does not match computed hash of parent authorization"))

/-- Two texts that are both there are the same. -/
def textsAgree (a b : JsValue) : Bool :=
  !a.hasText || !b.hasText || a.isText (b.text?.getD [])

def checkParentFields (now : JsNumber) (parent : JsValue) : List VerificationViolation :=
  check (!expiredAt now (parent.field (js "expiry"))) .delegationParentExpired
      (js "parent authorization has expired") ++
    check (textsAgree (delegation.field (js "delegator")) (parent.field (js "audience")))
      .delegationDelegatorMismatch (js "delegator does not match parent.audience") ++
    check (textsAgree (delegation.field (js "policy_id")) (parent.field (js "policy_id")))
      .delegationPolicyIdMismatch (js "policy_id does not match parent.policy_id") ++
    check (!integersExceed (delegation.field (js "expiry")) (parent.field (js "expiry")))
      .delegationExpiryExceedsParent (js "delegation expiry exceeds parent authorization expiry")

/-- `in` throws on a primitive. -/
def isObject : JsValue → Bool
  | .arr _ => true
  | .function => true
  | v => v.isRecord

def multihopDenied : VerificationResult where
  ok := false
  status := .invalid
  violations := [⟨.delegationMultihopDenied,
    js "parent must be AuthorizationV1 — multi-hop delegation is not permitted", none⟩]

def verifyDelegationChain (parent : JsValue) (opts : VerifyDelegationOptions) :
    Except JsError VerificationResult :=
  if !isObject parent then .error .typeError
  else if parent.has (js "delegation_id") then .ok multihopDenied
  else if delegation.isNullish then .error .typeError
  else
    (checkParentHash H delegation parent).bind (fun hashIssues =>
      let violations := hashIssues ++ checkParentFields delegation (opts.now.getD clock) parent
      if violations ≠ [] then .ok (resultOf delegation violations)
      else verifyDelegation H clock delegation opts)

end

end OxDeAI
