import OxDeAI.Core.CanonicalFields
import OxDeAI.Crypto.Keys
import OxDeAI.Verification.Result

/-! `verifyAuthorization`: field checks, then a signature under a trusted key or
under the legacy secret. -/

namespace OxDeAI

open Js

def defaultMaxFutureIssuedAtSkewSeconds : JsNumber := .int 300

structure AuthorizationAuthority where
  issuer : JsString
  policyId : JsString
  deriving DecidableEq

/-- Does the pair appear as a whole? -/
def isTrustedAuthorizationAuthority (authorities : List AuthorizationAuthority)
    (issuer policyId : JsValue) : Bool :=
  issuer.hasText && policyId.hasText &&
    authorities.any (fun a => issuer.isText a.issuer && policyId.isText a.policyId)

structure VerifyAuthorizationOptions where
  now : Option JsNumber := none
  mode : Option VerifyMode := none
  expectedIssuer : Option JsString := none
  expectedAudience : Option JsString := none
  expectedPolicyId : Option JsString := none
  trustedAuthorizationAuthorities : Option (List AuthorizationAuthority) := none
  consumedAuthIds : Option (List JsString) := none
  trustedKeySets : Option TrustedKeySets := none
  requireSignatureVerification : Option Bool := none
  maxFutureIssuedAtSkewSeconds : Option JsNumber := none
  legacyHmacSecret : Option JsString := none

structure AuthorizationVerificationResult extends VerificationResult where
  signatureVerified : Bool
  verificationMode : VerificationMode
  verificationCoverage : VerificationCoverage

/-- Of the function named in the message. -/
def resolveMaxFutureIssuedAtSkewSeconds (caller : JsString) (value : Option JsNumber) :
    Except JsError JsNumber :=
  match value with
  | none => .ok defaultMaxFutureIssuedAtSkewSeconds
  | some n =>
    if !n.isSafeInteger || n.lt (.int 0) then
      .error (.error (caller ++
        js ": maxFutureIssuedAtSkewSeconds must be a finite, non-negative safe integer (seconds)"))
    else .ok n

structure SignatureParts where
  alg : JsValue
  kid : JsValue
  sig : JsValue
  nested : Bool

/-- A value that `!== undefined` lets through. -/
def defined (v : JsValue) : Option JsValue := if v.isUndefined then none else some v

section

variable (auth : JsValue)

def signatureParts : SignatureParts :=
  let raw := auth.field (js "signature")
  if raw.isRecord then
    ⟨raw.field (js "alg"), raw.field (js "kid"), raw.field (js "sig"), true⟩
  else
    ⟨auth.field (js "alg"), auth.field (js "kid"), if raw.isString then raw else .undefined, false⟩

def alwaysField (key : JsString) : JsString × Option JsValue := (key, some (auth.field key))

def optionalOwn (key : JsString) : JsString × Option JsValue := (key, defined (auth.field key))

/-- The fields every payload starts with. -/
def boundFields : List (JsString × Option JsValue) :=
  [alwaysField auth (js "auth_id"), alwaysField auth (js "issuer"), alwaysField auth (js "audience"),
    alwaysField auth (js "intent_hash"), alwaysField auth (js "state_hash"),
    alwaysField auth (js "policy_id"), alwaysField auth (js "decision"),
    alwaysField auth (js "issued_at")]

def trailingFields : List (JsString × Option JsValue) :=
  [optionalOwn auth (js "version"), optionalOwn auth (js "nonce"), optionalOwn auth (js "capability")]

def toPublicAuthorizationV1 : JsValue :=
  .obj (present (boundFields auth ++ [alwaysField auth (js "expiry"), alwaysField auth (js "alg"),
    alwaysField auth (js "kid"), alwaysField auth (js "signature")] ++ trailingFields auth))

def hasFlatAlgKid : Bool := (auth.field (js "alg")).hasText && (auth.field (js "kid")).hasText

/-- The fields of the payload, those that are absent included. -/
def payloadFields : List (JsString × Option JsValue) :=
  let sig := signatureParts auth
  if sig.nested then
    boundFields auth ++ [optionalOwn auth (js "expiry")] ++ trailingFields auth ++
      [(js "expires_at", (auth.field (js "expires_at")).number?.map .num)] ++
      (if hasFlatAlgKid auth then [alwaysField auth (js "alg"), alwaysField auth (js "kid")]
       else [(js "signature", some (.obj [(js "alg", sig.alg), (js "kid", sig.kid)]))])
  else
    boundFields auth ++ [alwaysField auth (js "expiry"), alwaysField auth (js "alg"),
      alwaysField auth (js "kid")] ++ trailingFields auth

def authorizationSigningPayload : JsValue := .obj (present (payloadFields auth))

/-- `expires_at` when `expiry` is no integer. -/
def effectiveExpiry : Option JsNumber :=
  if (auth.field (js "expiry")).isInteger then (auth.field (js "expiry")).number?
  else if (auth.field (js "expires_at")).isInteger then (auth.field (js "expires_at")).number?
  else none

end

def isNfcText (nfc : JsString → JsString) : JsValue → Bool
  | .str s => nfc s = s
  | _ => false

/-- Safe, and at most `skew` ahead of `now`. -/
def isPlausible (now skew : JsNumber) : JsValue → Bool
  | .num n => n.isSafeInteger && !(now.add skew).lt n
  | _ => false

def requireText (value : JsValue) (code : ViolationCode) (field : JsString) :
    List VerificationViolation :=
  check value.hasText code (field ++ js " is required")

/-- Equal to the expectation, when there is one. -/
def meets (expected : Option JsString) (value : JsValue) : Bool := expected.all value.isText

def implausibleMessage (skew : JsNumber) : JsString :=
  js "issued_at must not be more than " ++ skew.text ++ js "s ahead of verification time"

def checkAuthId (nfc : JsString → JsString) (authId : JsValue) : List VerificationViolation :=
  if !authId.hasText then requireText authId .authMissingField (js "auth_id")
  else check (isNfcText nfc authId) .authIdNoncanonical (js "auth_id must be Unicode NFC-normalized")

def checkIssuedAt (now skew : JsNumber) (issuedAt : JsValue) : List VerificationViolation :=
  if !issuedAt.isInteger then
    [⟨.authMissingField, js "issued_at must be integer unix seconds", none⟩]
  else check (isPlausible now skew issuedAt) ViolationCode.authIssuedAtImplausible (implausibleMessage skew)

def checkExpiry (now : JsNumber) : Option JsNumber → List VerificationViolation
  | none => [⟨.authMissingField, js "expiry must be integer unix seconds", none⟩]
  | some expiry => check (!now.ge expiry) .authExpired (js "authorization has expired")

/-- Everything that is checked without a key. -/
def checkFields (nfc : JsString → JsString) (now skew : JsNumber) (opts : VerifyAuthorizationOptions)
    (auth : JsValue) : List VerificationViolation :=
  let sig := signatureParts auth
  check ((auth.field (js "decision")).isText (js "ALLOW")) .authDecisionInvalid
      (js "authorization decision must be ALLOW") ++
    requireText (auth.field (js "intent_hash")) .authMissingField (js "intent_hash") ++
    requireText (auth.field (js "state_hash")) .authMissingField (js "state_hash") ++
    requireText (auth.field (js "policy_id")) .authMissingField (js "policy_id") ++
    requireText (auth.field (js "issuer")) .authMissingField (js "issuer") ++
    requireText (auth.field (js "audience")) .authMissingField (js "audience") ++
    checkAuthId nfc (auth.field (js "auth_id")) ++
    checkIssuedAt now skew (auth.field (js "issued_at")) ++
    requireText sig.alg .authMissingField (js "alg") ++
    requireText sig.kid .authMissingField (js "kid") ++
    requireText sig.sig .authMissingField (js "signature") ++
    checkExpiry now (effectiveExpiry auth) ++
    check (meets opts.expectedIssuer (auth.field (js "issuer"))) .authIssuerMismatch
      (js "issuer does not match expectedIssuer") ++
    check (meets opts.expectedAudience (auth.field (js "audience"))) .authAudienceMismatch
      (js "audience does not match expectedAudience") ++
    check (meets opts.expectedPolicyId (auth.field (js "policy_id"))) .authPolicyIdMismatch
      (js "policy_id does not match expectedPolicyId") ++
    check (opts.trustedAuthorizationAuthorities.all (fun authorities =>
        isTrustedAuthorizationAuthority authorities (auth.field (js "issuer"))
          (auth.field (js "policy_id")))) .authIssuerPolicyNotAuthorized
      (js "issuer is not authorized for this policy_id") ++
    check (!(opts.consumedAuthIds.getD []).any (auth.field (js "auth_id")).isText ||
        !(auth.field (js "auth_id")).hasText) .authReplay
      (js "auth_id has already been consumed")

/-- What the signature check adds to the verdict. -/
structure SignatureCheck where
  violations : List VerificationViolation
  signatureVerified : Bool
  verificationCoverage : VerificationCoverage

def notVerified (violations : List VerificationViolation) : SignatureCheck :=
  ⟨violations, false, .none⟩

def verdictOf (valid : Bool) (message : JsString) : SignatureCheck :=
  ⟨check valid .authSignatureInvalid message, valid, .authorizationV1Full⟩

/-- Algorithm, kid and signature, when all three have text. -/
def SignatureParts.material (sig : SignatureParts) : Option (JsString × JsString × JsString) :=
  match sig.alg, sig.kid, sig.sig with
  | .str (a :: as), .str (k :: ks), .str (s :: ss) => some (a :: as, k :: ks, s :: ss)
  | _, _, _ => none

def isEd25519Name (alg : JsString) : Bool := alg = js "Ed25519" || alg = js "ed25519"

section

variable (H : Host)

/-- In the domain of authorizations, or over the bare payload. -/
def acceptsEd25519 (payload : JsValue) (signature publicKeyPem : JsString) : Bool :=
  verifyEd25519 H authV1Domain payload signature publicKeyPem ||
    verifyEd25519Raw H payload signature publicKeyPem

def checkEd25519 (now : JsNumber) (payload : JsValue) (signature : JsString) :
    Option KeySetKey → SignatureCheck
  | none => notVerified [⟨.authKidUnknown, js "kid not found for issuer/alg", none⟩]
  | some key =>
    if !keyIsActiveAt key now then
      notVerified [⟨.authKeyInactive, js "key is not active at verification time", none⟩]
    else verdictOf (acceptsEd25519 H payload signature key.publicKey)
      (js "signature verification failed")

/-- `find` looks a kid up among the trusted keys of the issuer. -/
def checkSignature (now : JsNumber) (opts : VerifyAuthorizationOptions) (trusted : Bool)
    (find : JsString → Option KeySetKey) (requireSig : Bool) (auth : JsValue) : SignatureCheck :=
  match (signatureParts auth).material with
  | none => notVerified []
  | some (alg, kid, signature) =>
    if isEd25519Name alg then
      if !trusted then
        notVerified (check (!requireSig) .authTrustMissing
          (js "trustedKeySets required for Ed25519 verification"))
      else checkEd25519 H now (authorizationSigningPayload auth) signature (find kid)
    else if alg = js "HMAC-SHA256" then
      if opts.legacyHmacSecret.getD [] = [] then
        notVerified (check (!requireSig) .authTrustMissing
          (js "legacyHmacSecret required for HMAC verification"))
      else verdictOf (verifyHmacDomain H authV1Domain (authorizationSigningPayload auth) signature
          (opts.legacyHmacSecret.getD [])) (js "legacy HMAC signature verification failed")
    else notVerified [⟨.authAlgUnsupported, js "unsupported signature algorithm", none⟩]

def VerifyAuthorizationOptions.requireSig (opts : VerifyAuthorizationOptions) : Bool :=
  opts.mode = some .strict || opts.requireSignatureVerification.getD false

/-- `some` text that is not empty, as the result reports it. -/
def reported (v : JsValue) : Option JsString := if v.hasText then v.text? else none

def authorizationResult (opts : VerifyAuthorizationOptions) (auth : JsValue)
    (violations : List VerificationViolation) (sig : SignatureCheck) :
    AuthorizationVerificationResult where
  ok := violations = []
  status := if violations = [] then .ok else .invalid
  violations := sortViolations violations
  policyId := reported (auth.field (js "policy_id"))
  stateHash := reported (auth.field (js "state_hash"))
  signatureVerified := sig.signatureVerified
  verificationMode := if opts.mode = some .strict then .strict else .permissive
  verificationCoverage := sig.verificationCoverage

/-- The verdict of a strict verifier without keys. -/
def trustedKeySetsRequired : AuthorizationVerificationResult where
  ok := false
  status := .invalid
  violations := [⟨.trustedKeysetsRequired, js "strict mode requires trustedKeySets to be provided", none⟩]
  signatureVerified := false
  verificationMode := .strict
  verificationCoverage := .none

/-- Verification with the key lookup as an argument. -/
def verifyAuthorizationBy (clock : JsNumber) (auth : JsValue) (opts : VerifyAuthorizationOptions)
    (find : JsString → Option KeySetKey) : Except JsError AuthorizationVerificationResult :=
  let now := opts.now.getD clock
  match resolveMaxFutureIssuedAtSkewSeconds (js "verifyAuthorization") opts.maxFutureIssuedAtSkewSeconds with
  | .error e => .error e
  | .ok skew =>
    if auth.isNullish then .error .typeError
    else
      let trusted := !(trustedList opts.trustedKeySets).isEmpty
      if opts.mode = some .strict ∧ trusted = false then .ok trustedKeySetsRequired
      else
        let sig := checkSignature H now opts trusted find opts.requireSig auth
        .ok (authorizationResult opts auth (checkFields H.nfc now skew opts auth ++ sig.violations) sig)

def verifyAuthorization (clock : JsNumber) (auth : JsValue) (opts : VerifyAuthorizationOptions) :
    Except JsError AuthorizationVerificationResult :=
  verifyAuthorizationBy H clock auth opts (fun kid =>
    findKeyInKeySets (trustedList opts.trustedKeySets) (auth.field (js "issuer")) kid .ed25519)

end

end OxDeAI
