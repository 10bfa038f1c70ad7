import OxDeAI.Verification.Delegation

/-! `verifySignedKrl`: signed lists of revoked keys. -/

namespace OxDeAI

open Js

def krlV1Domain : JsString := js "OXDEAI_KRL_V1"

structure VerifySignedKrlOptions where
  now : Option JsNumber := none
  trustedKeySets : Option TrustedKeySets := none
  previousKrlVersionByIssuer : Option (Record JsNumber) := none

section

variable (envelope : JsValue)

/-- The signature object without its bytes. -/
def krlSigner : JsValue :=
  let signature := envelope.field (js "signature")
  .obj [(js "alg", signature.field (js "alg")), (js "kid", signature.field (js "kid"))]

def krlPayloadFields : List (JsString × Option JsValue) :=
  [alwaysField envelope (js "version"), alwaysField envelope (js "issuer"),
    alwaysField envelope (js "krl_version"), alwaysField envelope (js "issued_at"),
    alwaysField envelope (js "not_after"), alwaysField envelope (js "revoked_kids"),
    (js "signature", some (krlSigner envelope)), optionalOwn envelope (js "nonce")]

def signedKrlSigningPayload : JsValue := .obj (present (krlPayloadFields envelope))

end

/-- A non-negative safe integer. -/
def isKrlVersion : JsValue → Bool
  | .num n => n.isSafeInteger && !n.lt (.int 0)
  | _ => false

def malformedKrl (holds : Bool) (message : JsString) : List VerificationViolation :=
  check holds .krlMalformed message

/-- The kids that are strings; on an accepted list, all of them. -/
def kidTexts : JsValue → List JsString
  | .arr kids => kids.filterMap JsValue.text?
  | _ => []

def checkRevokedKids : JsValue → List VerificationViolation
  | .arr kids =>
    if kids.all JsValue.isString then
      malformedKrl (kids.filterMap JsValue.text?).Nodup (js "duplicate entry in revoked_kids")
    else malformedKrl false (js "revoked_kids must be an array of strings")
  | _ => malformedKrl false (js "revoked_kids must be an array of strings")

def checkKrlFields (e : JsValue) : List VerificationViolation :=
  malformedKrl ((e.field (js "version")).isText (js "SignedKRLV1"))
      (js "version must equal \"SignedKRLV1\"") ++
    malformedKrl (e.field (js "issuer")).hasText (js "issuer must be a non-empty string") ++
    malformedKrl (isKrlVersion (e.field (js "krl_version")))
      (js "krl_version must be a non-negative safe integer") ++
    malformedKrl (e.field (js "issued_at")).isInteger (js "issued_at must be an integer unix timestamp") ++
    malformedKrl (e.field (js "not_after")).isInteger (js "not_after must be an integer unix timestamp") ++
    checkRevokedKids (e.field (js "revoked_kids")) ++
    malformedKrl ((e.field (js "nonce")).isUndefined || (e.field (js "nonce")).isString)
      (js "nonce must be a string when present")

def checkKrlSignature (signature : JsValue) : List VerificationViolation :=
  (if (signature.field (js "alg")).isText (js "Ed25519") then []
    else if (signature.field (js "alg")).hasText then
      [⟨.krlUnsupportedAlg, js "only Ed25519 is supported for SignedKRLV1 signing", none⟩]
    else malformedKrl false (js "signature.alg must be a non-empty string")) ++
    malformedKrl (signature.field (js "kid")).hasText (js "signature.kid must be a non-empty string") ++
    malformedKrl (signature.field (js "sig")).hasText (js "signature.sig must be a non-empty string")

/-- Structural violations, before any comparison with trusted data. -/
def checkKrlStructure (e : JsValue) : List VerificationViolation :=
  if !(e.field (js "signature")).isRecord then
    checkKrlFields e ++ malformedKrl false (js "signature must be a non-null object")
  else checkKrlFields e ++ checkKrlSignature (e.field (js "signature"))

/-- An inherited member of the table compares with no version. -/
def checkKrlVersion (previous : Option (Record JsNumber)) (issuer : JsString) (version : JsNumber) :
    List VerificationViolation :=
  match previous.bind (fun table => table.own? issuer) with
  | none => []
  | some prev => check (!version.lt prev) .krlVersionRegression
      (js "krl_version " ++ version.text ++ js " is less than the previously accepted version " ++
        prev.text ++ js " for issuer \"" ++ issuer ++ js "\"")

def krlKeyReport : KeyReport where
  unknown := ⟨.krlUnknownSigningKid, js "KRL signing kid not found in trusted key sets", none⟩
  inactive := ⟨.krlSigningKeyInactive, js "KRL signing key is not active at verification time", none⟩
  invalid := ⟨.krlSigInvalid, js "Ed25519 signature verification failed", none⟩

def krlResult (violations : List VerificationViolation) : VerificationResult where
  ok := violations = []
  status := if violations = [] then .ok else .invalid
  violations := sortViolations violations

def notKrlObject : VerificationResult where
  ok := false
  status := .invalid
  violations := [⟨.krlMalformed, js "envelope must be a non-null object", none⟩]

section

variable (H : Host) (clock : JsNumber)

def verifyKrlSignature (e : JsValue) (key : KeySetKey) : Bool :=
  verifyEd25519 H krlV1Domain (signedKrlSigningPayload e)
    (((e.field (js "signature")).field (js "sig")).text?.getD []) key.publicKey

def krlKid (e : JsValue) : JsString := ((e.field (js "signature")).field (js "kid")).text?.getD []

def checkKrlKey (now : JsNumber) (trusted : Bool) (find : JsString → Option KeySetKey) (e : JsValue) :
    List VerificationViolation :=
  if !trusted then
    [⟨.krlUnknownSigningKid, js "no trusted KRL signing key sets provided", none⟩]
  else krlKeyReport.violations (keyOutcome now (verifyKrlSignature H e) (find (krlKid e)))

/-- Verification with the key lookup as an argument. -/
def verifySignedKrlBy (envelope : JsValue) (opts : VerifySignedKrlOptions)
    (find : JsString → Option KeySetKey) : VerificationResult :=
  let now := opts.now.getD clock
  if !envelope.isRecord then notKrlObject
  else if checkKrlStructure envelope ≠ [] then krlResult (checkKrlStructure envelope)
  else krlResult
    (checkKrlVersion opts.previousKrlVersionByIssuer ((envelope.field (js "issuer")).text?.getD [])
        ((envelope.field (js "krl_version")).number?.getD .nan) ++
      check (!expiredAt now (envelope.field (js "not_after"))) .krlExpired (js "KRL has expired") ++
      checkKrlKey H now (!(trustedList opts.trustedKeySets).isEmpty) find envelope)

def findKrlKey (envelope : JsValue) (opts : VerifySignedKrlOptions) (kid : JsString) : Option KeySetKey :=
  findKeyInKeySets (trustedList opts.trustedKeySets) (envelope.field (js "issuer")) kid .ed25519

def verifySignedKrl (envelope : JsValue) (opts : VerifySignedKrlOptions) : VerificationResult :=
  verifySignedKrlBy H clock envelope opts (findKrlKey envelope opts)

end

structure KrlHolds (H : Host) (now : JsNumber) (opts : VerifySignedKrlOptions)
    (find : JsString → Option KeySetKey) (e : JsValue) : Prop where
  isRecord : e.isRecord = true
  structured : checkKrlStructure e = []
  version : checkKrlVersion opts.previousKrlVersionByIssuer ((e.field (js "issuer")).text?.getD [])
    ((e.field (js "krl_version")).number?.getD .nan) = []
  live : expiredAt now (e.field (js "not_after")) = false
  trusted : trustedList opts.trustedKeySets ≠ []
  key : ∃ key, find (krlKid e) = some key ∧ keyIsActiveAt key now = true ∧
    verifyKrlSignature H e key = true

section

variable {H : Host} {clock now : JsNumber} {opts : VerifySignedKrlOptions}
  {find : JsString → Option KeySetKey} {e : JsValue}

theorem krlResult_ok {violations : List VerificationViolation} :
    (krlResult violations).ok = true ↔ violations = [] := decide_eq_true_iff

theorem checkKrlKey_eq_nil {trusted : Bool} : checkKrlKey H now trusted find e = [] ↔
    trusted = true ∧ ∃ key, find (krlKid e) = some key ∧ keyIsActiveAt key now = true ∧
      verifyKrlSignature H e key = true := by
  unfold checkKrlKey
  cases trusted with
  | false => simp
  | true => simp [KeyReport.violations_eq_nil, keyOutcome_verified]

theorem verifySignedKrlBy_accepts : (verifySignedKrlBy H clock e opts find).ok = true ↔
    KrlHolds H (opts.now.getD clock) opts find e := by
  unfold verifySignedKrlBy
  by_cases hrec : e.isRecord = true
  · by_cases hs : checkKrlStructure e = []
    · simp only [hrec, hs, Bool.not_true, Bool.false_eq_true, if_false, ne_eq, not_true_eq_false,
        krlResult_ok, List.append_eq_nil_iff, check_eq_nil, checkKrlKey_eq_nil, Bool.not_eq_true',
        List.isEmpty_eq_false_iff]
      constructor
      · rintro ⟨⟨hv, hlive⟩, htrust, hkey⟩
        exact ⟨hrec, hs, hv, hlive, htrust, hkey⟩
      · intro h
        exact ⟨⟨h.version, h.live⟩, h.trusted, h.key⟩
    · simp only [hrec, Bool.not_true, Bool.false_eq_true, if_false, ne_eq, hs, not_false_eq_true, if_true,
        krlResult_ok, false_iff]
      intro h
      exact hs h.structured
  · simp only [hrec, Bool.not_false, if_true]
    constructor
    · intro h
      cases h
    · intro h
      exact absurd h.isRecord hrec

/-- The field checks of a structured list. -/
theorem checkKrlFields_eq_nil (h : checkKrlFields e = []) : (e.field (js "issuer")).hasText = true ∧
    (∃ z : ℤ, e.field (js "krl_version") = .num (.int z) ∧ 0 ≤ z) ∧
      (∃ kids : List JsString, e.field (js "revoked_kids") = .arr (kids.map .str) ∧ kids.Nodup) := by
  simp only [checkKrlFields, List.append_eq_nil_iff, malformedKrl, check_eq_nil] at h
  obtain ⟨⟨⟨⟨⟨⟨-, hiss⟩, hver⟩, -⟩, -⟩, hkids⟩, -⟩ := h
  refine ⟨hiss, ?_, ?_⟩
  · cases hv : e.field (js "krl_version") with
    | num n =>
      rw [hv, isKrlVersion, Bool.and_eq_true] at hver
      obtain ⟨z, rfl, -⟩ := JsNumber.exists_int_of_isSafeInteger hver.1
      exact ⟨z, rfl, by simpa using hver.2⟩
    | _ =>
      rw [hv] at hver
      cases hver
  · cases hk : e.field (js "revoked_kids") with
    | arr kids =>
      rw [hk, checkRevokedKids] at hkids
      split at hkids
      · rename_i hall
        have hlist : isToolList (.arr kids) = true := hall
        obtain ⟨ts, hts⟩ := isToolList_iff.mp hlist
        obtain rfl := JsValue.arr.inj hts
        rw [malformedKrl, check_eq_nil, decide_eq_true_eq] at hkids
        have htexts : (ts.map JsValue.str).filterMap JsValue.text? = ts := toolTexts_strings ts
        rw [htexts] at hkids
        exact ⟨ts, rfl, hkids⟩
      · cases hkids
    | _ =>
      rw [hk] at hkids
      cases hkids

theorem checkKrlFields_of_structure (h : checkKrlStructure e = []) : checkKrlFields e = [] := by
  unfold checkKrlStructure at h
  split at h
  · exact (List.append_eq_nil_iff.mp h).1
  · exact (List.append_eq_nil_iff.mp h).1

end

end OxDeAI
