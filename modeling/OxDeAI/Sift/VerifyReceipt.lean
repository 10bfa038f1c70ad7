import OxDeAI.Crypto.Keys
import OxDeAI.Js.Except
import OxDeAI.Sift.ReceiptAuthorization

/-! `verifyReceipt`: structure, version, hash, signature, decision and age. -/

namespace OxDeAI.Sift

open Js

/-- What the verifier takes from the platform besides keys in PEM. -/
structure SiftHost extends Host where
  createPublicKeyDer : List Byte → Option PublicKey
  toLowerCase : JsString → JsString
  dateParse : JsString → Date
  toISOString : { ms : ℤ // ms.natAbs ≤ maxTimeValue } → JsString
  /-- `String(value)`, or the message of what it throws. -/
  string : JsValue → Except JsString JsString

inductive RawKey
  | text (encoded : JsString)
  | bytes (raw : List Byte)

structure VerifyReceiptOptions where
  publicKeyRaw : Option RawKey := none
  publicKeyPem : Option JsString := none
  now : Option Date := none
  maxAgeMs : Option JsNumber := none
  requireAllowDecision : Option Bool := none

inductive VerifyReceiptErrorCode
  | malformedReceipt
  | unsupportedReceiptVersion
  | invalidDecision
  | denyDecision
  | invalidTimestamp
  | staleReceipt
  | invalidReceiptHash
  | invalidSignature
  | unsupportedPublicKey
  | verificationError
  | missingKid
  | revokedKid
  | unknownKid
  | keyStore (code : KeyStoreErrorCode)
  deriving DecidableEq

structure VerifyReceiptError where
  code : VerifyReceiptErrorCode
  message : JsString

structure VerifiedReceipt where
  receipt : SiftReceipt
  verifiedAt : JsString
  receiptHash : JsString

def supportedReceiptVersions : List JsString := [js "1.0"]

def defaultMaxAgeMs : JsNumber := .int 30000

def maxFutureSkewMs : ℤ := 5000

def requiredStringFields : List JsString :=
  [js "receipt_version", js "tenant_id", js "agent_id", js "action", js "tool", js "timestamp", js "nonce",
    js "policy_matched", js "receipt_hash", js "signature"]

def fieldText (raw : JsValue) (key : JsString) : JsString := (raw.field key).text?.getD []

def decision? (v : JsValue) : Option SiftDecision :=
  if v.isText (js "ALLOW") then some .allow else if v.isText (js "DENY") then some .deny else none

def isFiniteNonNegativeInteger : JsValue → Bool
  | .num n => n.isSafeInteger && n.ge (.int 0)
  | _ => false

def receiptOf (raw : JsValue) (decision : SiftDecision) : SiftReceipt where
  receiptVersion := fieldText raw (js "receipt_version")
  tenantId := fieldText raw (js "tenant_id")
  agentId := fieldText raw (js "agent_id")
  action := fieldText raw (js "action")
  tool := fieldText raw (js "tool")
  decision := decision
  riskTier := (raw.field (js "risk_tier")).number?.getD .nan
  timestamp := fieldText raw (js "timestamp")
  nonce := fieldText raw (js "nonce")
  policyMatched := fieldText raw (js "policy_matched")
  receiptHash := fieldText raw (js "receipt_hash")
  signature := fieldText raw (js "signature")

/-- What the outermost handler makes of an exception. -/
def unexpectedError (message : JsString) : VerifyReceiptError :=
  ⟨.verificationError, js "Unexpected error during verification: " ++ message⟩

namespace SiftReceipt

variable (r : SiftReceipt)

/-- All fields but the hash and the signature. -/
def hashedFields : List (JsString × JsValue) :=
  [(js "receipt_version", .str r.receiptVersion), (js "tenant_id", .str r.tenantId), (js "agent_id", .str r.agentId),
    (js "action", .str r.action), (js "tool", .str r.tool), (js "decision", .str r.decision.text),
    (js "risk_tier", .num r.riskTier), (js "timestamp", .str r.timestamp), (js "nonce", .str r.nonce),
    (js "policy_matched", .str r.policyMatched)]

/-- All fields but the signature. -/
def signedFields : List (JsString × JsValue) := r.hashedFields ++ [(js "receipt_hash", .str r.receiptHash)]

end SiftReceipt

def normalizedSignature (s : JsString) : JsString :=
  (s.map (fun u => if u = unit 43 then unit 45 else if u = unit 47 then unit 95 else u)).filter (fun u => u ≠ unit 61)

def isBase64UrlUnit (u : CodeUnit) : Bool :=
  (65 ≤ u.val && u.val ≤ 90) || (97 ≤ u.val && u.val ≤ 122) || (48 ≤ u.val && u.val ≤ 57) || u.val = 95 || u.val = 45

/-- `/^[A-Za-z0-9_-]{86}$/`. -/
def isSignatureText (normalized : JsString) : Bool := normalized.length = 86 && normalized.all isBase64UrlUnit

def ed25519SpkiPrefix : List Byte := hexDecode (js "302a300506032b6570032100")

section

variable (H : SiftHost)

def parseReceipt (raw : JsValue) : Except VerifyReceiptError SiftReceipt :=
  if !raw.isRecord then .error ⟨.malformedReceipt, js "Receipt must be a non-null object"⟩
  else match requiredStringFields.find? (fun field => !(raw.field field).hasText) with
    | some field => .error ⟨.malformedReceipt, js "Field '" ++ field ++ js "' must be a non-empty string"⟩
    | none =>
      match decision? (raw.field (js "decision")) with
      | none =>
        match H.string (raw.field (js "decision")) with
        | .error message => .error (unexpectedError message)
        | .ok text =>
          .error ⟨.invalidDecision, js "Field 'decision' must be \"ALLOW\" or \"DENY\", got: " ++ text⟩
      | some decision =>
        if isFiniteNonNegativeInteger (raw.field (js "risk_tier")) then .ok (receiptOf raw decision)
        else .error ⟨.malformedReceipt, js "Field 'risk_tier' must be a finite non-negative integer"⟩

/-- Without the optional prefix, in lowercase. -/
def normalizeHashHex (raw : JsString) : JsString :=
  let lower := H.toLowerCase raw
  if js "sha256:" <+: lower then lower.drop 7 else lower

def computeReceiptHash (r : SiftReceipt) : Except JsString JsString :=
  siftCanonicalJsonHash H.toPlatform (.obj r.hashedFields)

def publicKeyFromRaw (rawKey : RawKey) : Option PublicKey :=
  let keyBytes := match rawKey with
    | .text encoded => b64uDecode encoded
    | .bytes raw => raw
  if keyBytes.length ≠ 32 then none else H.createPublicKeyDer (ed25519SpkiPrefix ++ keyBytes)

def checkVersion (r : SiftReceipt) : Except VerifyReceiptError Unit :=
  if supportedReceiptVersions.contains r.receiptVersion then .ok ()
  else .error ⟨.unsupportedReceiptVersion, js "Receipt version '" ++ r.receiptVersion ++ js "' is not supported"⟩

/-- The hash, recomputed, when it is the claimed one. -/
def checkReceiptHash (r : SiftReceipt) : Except VerifyReceiptError JsString :=
  match computeReceiptHash H r with
  | .error message => .error (unexpectedError message)
  | .ok recomputedHash =>
    if normalizeHashHex H r.receiptHash = recomputedHash then .ok recomputedHash
    else .error ⟨.invalidReceiptHash, js "Receipt hash does not match recomputed canonical hash"⟩

/-- The raw key goes first. -/
def resolvePublicKey (options : VerifyReceiptOptions) : Except VerifyReceiptError PublicKey :=
  match options.publicKeyRaw, options.publicKeyPem with
  | some rawKey, _ =>
    match publicKeyFromRaw H rawKey with
    | some key => .ok key
    | none => .error ⟨.unsupportedPublicKey, js "Failed to import Ed25519 public key from raw bytes"⟩
  | none, some pem =>
    match H.createPublicKey pem with
    | some key => .ok key
    | none => .error ⟨.unsupportedPublicKey, js "Failed to parse Ed25519 public key from PEM"⟩
  | none, none => .error ⟨.unsupportedPublicKey, js "Either publicKeyRaw or publicKeyPem must be provided"⟩

def checkSmallOrder (key : PublicKey) : Except VerifyReceiptError Unit :=
  if isUsableKey key then .ok ()
  else .error ⟨.unsupportedPublicKey, js "Ed25519 public key is a small-order point and cannot be trusted"⟩

def checkReceiptSignature (key : PublicKey) (r : SiftReceipt) : Except VerifyReceiptError Unit :=
  if !isSignatureText (normalizedSignature r.signature) then
    .error ⟨.invalidSignature, js "Signature must be exactly 86 base64url characters (encoding a 64-byte Ed25519 signature)"⟩
  else match siftCanonicalJsonBytes (.obj r.signedFields) with
    | .error _ => .error ⟨.verificationError, js "An error occurred during signature verification"⟩
    | .ok sigInput =>
      if key.verify sigInput (base64Decode (normalizedSignature r.signature)) then .ok ()
      else .error ⟨.invalidSignature, js "Ed25519 signature verification failed"⟩

def checkDecision (options : VerifyReceiptOptions) (r : SiftReceipt) : Except VerifyReceiptError Unit :=
  if options.requireAllowDecision ≠ some false ∧ r.decision ≠ .allow then
    .error ⟨.denyDecision, js "Receipt decision is DENY"⟩
  else .ok ()

def nowOf (clock : Date) (options : VerifyReceiptOptions) : Date := options.now.getD clock

def maxAgeOf (options : VerifyReceiptOptions) : JsNumber := options.maxAgeMs.getD defaultMaxAgeMs

/-- `nowMs - receiptMs`. -/
def receiptAge (clock : Date) (options : VerifyReceiptOptions) (r : SiftReceipt) : JsNumber :=
  (nowOf clock options).getTime.sub (H.dateParse r.timestamp).getTime

def checkFreshness (clock : Date) (options : VerifyReceiptOptions) (r : SiftReceipt) : Except VerifyReceiptError Unit :=
  let ageMs := receiptAge H clock options r
  if !(H.dateParse r.timestamp).getTime.isFinite then
    .error ⟨.invalidTimestamp, js "Cannot parse timestamp as ISO-8601: " ++ r.timestamp⟩
  else if ageMs.lt (.int (-maxFutureSkewMs)) then
    -- `ageMs` is negative here
    .error ⟨.invalidTimestamp, js "Receipt timestamp is too far in the future (delta: " ++ ageMs.neg.text ++
      js "ms, max skew: 5000ms)"⟩
  else if (maxAgeOf options).lt ageMs then
    .error ⟨.staleReceipt, js "Receipt is stale (age: " ++ ageMs.text ++ js "ms, maxAgeMs: " ++
      (maxAgeOf options).text ++ js ")"⟩
  else .ok ()

/-- `new Date(nowMs).toISOString()` throws for an invalid date. -/
def isoTime (date : Date) : Except VerifyReceiptError JsString :=
  match date.time with
  | none => .error (unexpectedError (js "Invalid time value"))
  | some ms => .ok (H.toISOString ms)

def verifyReceipt (clock : Date) (receipt : JsValue) (options : VerifyReceiptOptions) :
    Except VerifyReceiptError VerifiedReceipt := do
  let r ← parseReceipt H receipt
  checkVersion r
  let recomputedHash ← checkReceiptHash H r
  let publicKey ← resolvePublicKey H options
  checkSmallOrder publicKey
  checkReceiptSignature publicKey r
  checkDecision options r
  checkFreshness H clock options r
  let verifiedAt ← isoTime H (nowOf clock options)
  return ⟨r, verifiedAt, recomputedHash⟩

end

end OxDeAI.Sift
