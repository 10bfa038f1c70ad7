import OxDeAI.Core.Types
import OxDeAI.Js.Value

/-! What a verifier reports: violations with their codes, and a verdict. -/

namespace OxDeAI

open Js

inductive ViolationCode
  | malformedEvent
  | policyIdMissing
  | policyIdMismatch
  | mixedPolicyId
  | nonMonotonicTimestamp
  | hashChainInvalid
  | noStateAnchor
  | snapshotCorrupt
  | envelopeMalformed
  | authDecisionInvalid
  | authExpired
  | authIssuedAtImplausible
  | authMissingField
  | authIssuerMismatch
  | authAudienceMismatch
  | authPolicyIdMismatch
  | authIssuerPolicyNotAuthorized
  | authReplay
  | authIdNoncanonical
  | authAlgUnsupported
  | authKidUnknown
  | authSignatureInvalid
  | authTrustMissing
  | authKeyInactive
  | envelopeSignatureMissing
  | envelopeSignatureInvalid
  | envelopeAlgUnsupported
  | envelopeKidUnknown
  | envelopeTrustMissing
  | envelopeKeyInactive
  | delegationMissingField
  | delegationAlgUnsupported
  | delegationSignatureInvalid
  | delegationKidUnknown
  | delegationTrustMissing
  | delegationKeyInactive
  | delegationExpired
  | delegationParentHashMismatch
  | delegationParentExpired
  | delegationDelegatorMismatch
  | delegationSignerNotAuthorized
  | delegationPolicyIdMismatch
  | delegationExpiryExceedsParent
  | delegationAudienceMismatch
  | delegationPolicyMismatch
  | delegationScopeViolation
  | delegationMultihopDenied
  | delegationReplay
  | delegationIdNoncanonical
  | delegationTemporalInvalid
  | delegationIssuedAtImplausible
  | trustedKeysetsRequired
  | krlMalformed
  | krlUnsupportedAlg
  | krlUnknownSigningKid
  | krlSigningKeyInactive
  | krlSigInvalid
  | krlExpired
  | krlVersionRegression
  deriving DecidableEq

def ViolationCode.text : ViolationCode → JsString
  | malformedEvent => js "MALFORMED_EVENT"
  | policyIdMissing => js "POLICY_ID_MISSING"
  | policyIdMismatch => js "POLICY_ID_MISMATCH"
  | mixedPolicyId => js "MIXED_POLICY_ID"
  | nonMonotonicTimestamp => js "NON_MONOTONIC_TIMESTAMP"
  | hashChainInvalid => js "HASH_CHAIN_INVALID"
  | noStateAnchor => js "NO_STATE_ANCHOR"
  | snapshotCorrupt => js "SNAPSHOT_CORRUPT"
  | envelopeMalformed => js "ENVELOPE_MALFORMED"
  | authDecisionInvalid => js "AUTH_DECISION_INVALID"
  | authExpired => js "AUTH_EXPIRED"
  | authIssuedAtImplausible => js "AUTH_ISSUED_AT_IMPLAUSIBLE"
  | authMissingField => js "AUTH_MISSING_FIELD"
  | authIssuerMismatch => js "AUTH_ISSUER_MISMATCH"
  | authAudienceMismatch => js "AUTH_AUDIENCE_MISMATCH"
  | authPolicyIdMismatch => js "AUTH_POLICY_ID_MISMATCH"
  | authIssuerPolicyNotAuthorized => js "AUTH_ISSUER_POLICY_NOT_AUTHORIZED"
  | authReplay => js "AUTH_REPLAY"
  | authIdNoncanonical => js "AUTH_ID_NONCANONICAL"
  | authAlgUnsupported => js "AUTH_ALG_UNSUPPORTED"
  | authKidUnknown => js "AUTH_KID_UNKNOWN"
  | authSignatureInvalid => js "AUTH_SIGNATURE_INVALID"
  | authTrustMissing => js "AUTH_TRUST_MISSING"
  | authKeyInactive => js "AUTH_KEY_INACTIVE"
  | envelopeSignatureMissing => js "ENVELOPE_SIGNATURE_MISSING"
  | envelopeSignatureInvalid => js "ENVELOPE_SIGNATURE_INVALID"
  | envelopeAlgUnsupported => js "ENVELOPE_ALG_UNSUPPORTED"
  | envelopeKidUnknown => js "ENVELOPE_KID_UNKNOWN"
  | envelopeTrustMissing => js "ENVELOPE_TRUST_MISSING"
  | envelopeKeyInactive => js "ENVELOPE_KEY_INACTIVE"
  | delegationMissingField => js "DELEGATION_MISSING_FIELD"
  | delegationAlgUnsupported => js "DELEGATION_ALG_UNSUPPORTED"
  | delegationSignatureInvalid => js "DELEGATION_SIGNATURE_INVALID"
  | delegationKidUnknown => js "DELEGATION_KID_UNKNOWN"
  | delegationTrustMissing => js "DELEGATION_TRUST_MISSING"
  | delegationKeyInactive => js "DELEGATION_KEY_INACTIVE"
  | delegationExpired => js "DELEGATION_EXPIRED"
  | delegationParentHashMismatch => js "DELEGATION_PARENT_HASH_MISMATCH"
  | delegationParentExpired => js "DELEGATION_PARENT_EXPIRED"
  | delegationDelegatorMismatch => js "DELEGATION_DELEGATOR_MISMATCH"
  | delegationSignerNotAuthorized => js "DELEGATION_SIGNER_NOT_AUTHORIZED"
  | delegationPolicyIdMismatch => js "DELEGATION_POLICY_ID_MISMATCH"
  | delegationExpiryExceedsParent => js "DELEGATION_EXPIRY_EXCEEDS_PARENT"
  | delegationAudienceMismatch => js "DELEGATION_AUDIENCE_MISMATCH"
  | delegationPolicyMismatch => js "DELEGATION_POLICY_MISMATCH"
  | delegationScopeViolation => js "DELEGATION_SCOPE_VIOLATION"
  | delegationMultihopDenied => js "DELEGATION_MULTIHOP_DENIED"
  | delegationReplay => js "DELEGATION_REPLAY"
  | delegationIdNoncanonical => js "DELEGATION_ID_NONCANONICAL"
  | delegationTemporalInvalid => js "DELEGATION_TEMPORAL_INVALID"
  | delegationIssuedAtImplausible => js "DELEGATION_ISSUED_AT_IMPLAUSIBLE"
  | trustedKeysetsRequired => js "TRUSTED_KEYSETS_REQUIRED"
  | krlMalformed => js "KRL_MALFORMED"
  | krlUnsupportedAlg => js "KRL_UNSUPPORTED_ALG"
  | krlUnknownSigningKid => js "KRL_UNKNOWN_SIGNING_KID"
  | krlSigningKeyInactive => js "KRL_SIGNING_KEY_INACTIVE"
  | krlSigInvalid => js "KRL_SIG_INVALID"
  | krlExpired => js "KRL_EXPIRED"
  | krlVersionRegression => js "KRL_VERSION_REGRESSION"

structure VerificationViolation where
  code : ViolationCode
  message : JsString
  index : Option ℕ := none

inductive VerificationStatus
  | ok
  | invalid
  | inconclusive
  deriving DecidableEq

inductive VerificationMode
  | strict
  | permissive
  deriving DecidableEq

inductive VerificationCoverage
  | authorizationV1Full
  | engineHmacSubset
  | none
  deriving DecidableEq

structure VerificationResult where
  ok : Bool
  status : VerificationStatus
  violations : List VerificationViolation
  policyId : Option JsString := none
  stateHash : Option JsString := none
  auditHeadHash : Option JsString := none

/-- By code, then by index; a stable sort. -/
def sortViolations (violations : List VerificationViolation) : List VerificationViolation :=
  violations.insertionSort (fun a b => a.code.text < b.code.text ∨
    (a.code.text = b.code.text ∧ a.index.getD 0 ≤ b.index.getD 0))

/-- The violation of a failed check. -/
def check (holds : Bool) (code : ViolationCode) (message : JsString) : List VerificationViolation :=
  if holds then [] else [⟨code, message, none⟩]

@[simp] theorem check_eq_nil {holds : Bool} {code : ViolationCode} {message : JsString} :
    check holds code message = [] ↔ holds = true := by
  cases holds <;> simp [check]

theorem mem_sortViolations {violations : List VerificationViolation} {v : VerificationViolation} :
    v ∈ sortViolations violations ↔ v ∈ violations := List.mem_insertionSort _

/-- The request option `mode`. -/
inductive VerifyMode
  | strict
  | bestEffort
  deriving DecidableEq

end OxDeAI
