import OxDeAI.Crypto.Preimages
import OxDeAI.Engine.Hashable
import OxDeAI.Js.Rounding
import OxDeAI.Sift.SigningText

/-! The authorization Sift issues before the strict verifier of the core. -/

namespace OxDeAI.Sift

open Js

/-- The authorization with its signature in place. -/
def AuthorizationV1Payload.signed (authorization : AuthorizationV1Payload) (signature : List Byte) :
    AuthorizationV1Payload :=
  { authorization with sig := base64UrlEncode signature }

def strictOptions (keySets : TrustedKeySets) : VerifyAuthorizationOptions where
  mode := some .strict
  trustedKeySets := some keySets

/-- The key that the sets hold for an issuer and a kid, which is in PEM and loads. -/
structure MatchingKey (H : Host) (keySets : TrustedKeySets) (issuer kid : JsString) (entry : KeySetKey)
    (key : PublicKey) : Prop where
  found : findKeyInKeySets (trustedList (some keySets)) (.str issuer) kid .ed25519 = some entry
  pem : js "BEGIN" <:+: entry.publicKey
  loads : H.createPublicKey entry.publicKey = some key
  usable : isUsableKey key = true

/-- The signature of these bytes, and of no others. -/
structure Signs (key : PublicKey) (bytes signature : List Byte) : Prop where
  length : signature.length = 64
  valid : ∀ message, key.verify message signature = true ↔ message = bytes

section

variable {H : Host} {keySets : TrustedKeySets} {issuer kid : JsString} {entry : KeySetKey} {key : PublicKey}
  {bytes signature : List Byte} {payload : JsValue}

theorem length_base64Encode (bytes : List Byte) : (base64Encode bytes).length = (bytes.length + 2) / 3 * 4 := by
  unfold base64Encode
  fun_induction base64With with
  | case1 a b c rest ih => simp only [List.length_cons, ih]; omega
  | case2 a b => simp
  | case3 a => simp
  | case4 => rfl

theorem length_base64UrlEncode (bytes : List Byte) : (base64UrlEncode bytes).length = (4 * bytes.length + 2) / 3 := by
  unfold base64UrlEncode
  fun_induction base64With with
  | case1 a b c rest ih => simp only [List.length_cons, ih]; omega
  | case2 a b => simp
  | case3 a => simp
  | case4 => rfl

/-- A signature without padding is refused as one in standard base64. -/
theorem not_verifyEd25519 (hlength : signature.length = 64) (domain pem : JsString) :
    verifyEd25519 H domain payload (base64UrlEncode signature) pem = false := by
  have hne : base64Encode signature ≠ base64UrlEncode signature := by
    intro h
    have hlengths := congrArg List.length h
    rw [length_base64Encode, length_base64UrlEncode, hlength] at hlengths
    omega
  simp [verifyEd25519, base64Decode_urlEncode, hne]

theorem canonicalSignatureBytes_url (hlength : signature.length = 64) :
    canonicalSignatureBytes (base64UrlEncode signature) = some signature := by
  simp only [canonicalSignatureBytes, base64Decode_urlEncode, hlength, true_and]
  split <;> rfl

theorem verifyEd25519Raw_iff (hkey : MatchingKey H keySets issuer kid entry key) (hsign : Signs key bytes signature) :
    verifyEd25519Raw H payload (base64UrlEncode signature) entry.publicKey = true ↔
      ∃ text, canonicalJson H.nfc payload = .ok text ∧ utf8Encode text = bytes := by
  have hpem : normalizePem entry.publicKey = entry.publicKey := if_pos hkey.pem
  have horder : isSmallOrderEd25519Pem H entry.publicKey = false := by
    simp [isSmallOrderEd25519Pem, hpem, hkey.loads, hkey.usable]
  rw [verifyEd25519Raw, canonicalSignatureBytes_url hsign.length]
  simp only [horder, hkey.loads, Bool.false_eq_true, if_false]
  cases hc : canonicalJson H.nfc payload with
  | error e => simp
  | ok text => simp [hsign.valid]

variable {clock t : JsNumber} {iat : ℤ}

section

variable {authorization : AuthorizationV1Payload}

theorem acceptsAt_strict : acceptsAt H clock (strictOptions keySets) authorization.value t ↔
    VerifiedAt H (strictOptions keySets) authorization.value t := acceptsAt_iff rfl rfl

end

variable (authorization : AuthorizationV1Payload)

theorem text_of_accepts (hkey : MatchingKey H keySets authorization.issuer authorization.kid entry key)
    (hsign : Signs key bytes signature)
    (h : acceptsAt H clock (strictOptions keySets) (authorization.signed signature).value t) :
    authorization.authId ≠ [] ∧ ∃ text, canonicalJson H.nfc
      (authorizationSigningPayload (authorization.signed signature).value) = .ok text ∧ utf8Encode text = bytes := by
  have hv := acceptsAt_strict.mp h
  obtain ⟨id, hid, hfield, -⟩ := hv.authId
  refine ⟨fun hnil => hid ?_, ?_⟩
  · have hvalue : (authorization.signed signature).value.field (js "auth_id") = .str authorization.authId := rfl
    rw [hvalue, hnil] at hfield
    exact (JsValue.str.inj hfield).symm
  · obtain ⟨alg, kid, sig, hmat, -, hs⟩ := hv.signature
    obtain ⟨⟨-, halg⟩, ⟨-, hkid⟩, -, hsig⟩ := material_some.mp hmat
    obtain rfl : js "ed25519" = alg := JsValue.str.inj halg
    obtain rfl : authorization.kid = kid := JsValue.str.inj hkid
    obtain rfl : base64UrlEncode signature = sig := JsValue.str.inj hsig
    cases hs with
    | ed25519 found name hfound _ hvalid =>
      have hlookup : some entry = some found := hkey.found.symm.trans hfound
      obtain rfl := Option.some.inj hlookup
      rw [acceptsEd25519, not_verifyEd25519 hsign.length, Bool.false_or] at hvalid
      exact (verifyEd25519Raw_iff hkey hsign).mp hvalid
    | hmac hname => exact absurd hname (by decide)

/-- The fields of an authorization that has everything but a signature. -/
structure Complete (nfc : JsString → JsString) (authorization : AuthorizationV1Payload) (iat exp : ℤ) : Prop where
  authId : authorization.authId ≠ []
  authIdNfc : nfc authorization.authId = authorization.authId
  issuer : authorization.issuer ≠ []
  audience : authorization.audience ≠ []
  intentHash : authorization.intentHash ≠ []
  stateHash : authorization.stateHash ≠ []
  policyId : authorization.policyId ≠ []
  kid : authorization.kid ≠ []
  issuedAt : authorization.issuedAt = .int iat
  issuedAtSafe : iat.natAbs ≤ JsNumber.maxSafeInteger
  expiresAt : authorization.expiresAt = .int exp

theorem hasText_str {s : JsString} (h : s ≠ []) : (JsValue.str s).hasText = true := JsValue.hasText_iff.mpr ⟨s, h, rfl⟩

theorem accepts_of_text {exp : ℤ} (hcomplete : Complete H.nfc authorization iat exp)
    (hkey : MatchingKey H keySets authorization.issuer authorization.kid entry key) (hsign : Signs key bytes signature)
    (hactive : keyIsActiveAt entry t = true) (hfrom : (JsNumber.int iat).le t = true) (huntil : t.lt (.int exp) = true)
    (htext : ∃ text, canonicalJson H.nfc (authorizationSigningPayload (authorization.signed signature).value) = .ok text ∧
      utf8Encode text = bytes) :
    acceptsAt H clock (strictOptions keySets) (authorization.signed signature).value t := by
  have hsig : base64UrlEncode signature ≠ [] := by
    intro h
    have hlength := congrArg List.length h
    rw [length_base64UrlEncode, hsign.length] at hlength
    cases hlength
  have hkeys : trustedList (some keySets) ≠ [] := by
    intro h
    have hfound := hkey.found
    rw [h] at hfound
    cases hfound
  have hsmall : iat.natAbs ≤ 2 ^ 53 := hcomplete.issuedAtSafe.trans (by decide)
  have hexpiry : effectiveExpiry (authorization.signed signature).value = some (.int exp) := by
    have hfield : (authorization.signed signature).value.field (js "expires_at") = .num (.int exp) :=
      congrArg JsValue.num hcomplete.expiresAt
    rw [effectiveExpiry, hfield]
    rfl
  refine acceptsAt_strict.mpr ⟨?_, rfl, fun _ => hkeys, js "ed25519", authorization.kid, base64UrlEncode signature,
    material_some.mpr ⟨⟨by decide, rfl⟩, ⟨hcomplete.kid, rfl⟩, hsig, rfl⟩, fun _ => hkeys, ?_⟩
  · constructor
    case decision => rfl
    case intentHash => exact hasText_str hcomplete.intentHash
    case stateHash => exact hasText_str hcomplete.stateHash
    case policyId => exact hasText_str hcomplete.policyId
    case issuer => exact hasText_str hcomplete.issuer
    case audience => exact hasText_str hcomplete.audience
    case authId => exact ⟨authorization.authId, hcomplete.authId, rfl, hcomplete.authIdNfc, List.not_mem_nil⟩
    case issuedAt =>
      have hfield : (authorization.signed signature).value.field (js "issued_at") = .num (.int iat) :=
        congrArg JsValue.num hcomplete.issuedAt
      have hskew : (t.add (.int 300)).ge (.int iat) = true := JsNumber.add_ge hsmall (by decide) hfrom
      exact ⟨iat, hfield, JsNumber.isSafeInteger_int.mpr hcomplete.issuedAtSafe, JsNumber.not_lt_of_ge hskew⟩
    case alg => rfl
    case kid => exact hasText_str hcomplete.kid
    case sig => exact hasText_str hsig
    case expiry =>
      refine ⟨exp, hexpiry, ?_⟩
      rw [JsNumber.ge, huntil]
      simp
    case expectedIssuer => exact fun s h => by cases h
    case expectedAudience => exact fun s h => by cases h
    case expectedPolicyId => exact fun s h => by cases h
    case authority => exact fun authorities h => by cases h
  · refine .ed25519 entry (by decide) hkey.found hactive ?_
    rw [acceptsEd25519, Bool.or_eq_true]
    exact .inr ((verifyEd25519Raw_iff hkey hsign).mpr htext)

end

section

variable {H : Host} {clock : Date} {input : ReceiptToAuthorizationInput} {issued : ReceiptAuthorization}
  {bytes : List Byte}

/-- Accepted from `issued_at` until `expires_at`, over the bytes that Sift signed. -/
def VerifiesInCore (H : Host) (clock : JsNumber) (keySets : TrustedKeySets) (authorization : AuthorizationV1Payload)
    (bytes signature : List Byte) : Prop :=
  (∀ t, authorization.issuedAt.le t = true → t.lt authorization.expiresAt = true →
    acceptsAt H clock (strictOptions keySets) (authorization.signed signature).value t) ∧
  ∃ text, canonicalJson H.nfc (authorizationSigningPayload (authorization.signed signature).value) = .ok text ∧
    utf8Encode text = bytes

/-- A nonce, plain strings throughout, and an expiry that is a safe integer. -/
structure PlainInput (nfc : JsString → JsString) (clock : Date) (input : ReceiptToAuthorizationInput) : Prop where
  nonce : input.receipt.nonce ≠ []
  plain : ∀ s ∈ [input.receipt.nonce, input.issuer, input.audience, input.receipt.policyMatched, input.keyId],
    PlainText nfc s
  expiry : ∀ nowMs ttlSeconds : ℤ, (input.now.getD clock).getTime = .int nowMs →
    input.ttlSeconds.getD defaultTtlSeconds = .int ttlSeconds → nowMs / 1000 + ttlSeconds ≤ JsNumber.maxSafeInteger

theorem isAscii_hash {P : Platform} (hhex : ∀ bytes, (P.sha256Hex bytes).all isHexUnit = true ∧ P.sha256Hex bytes ≠ [])
    {value : JsValue} {hash : JsString} (h : siftCanonicalJsonHash P value = .ok hash) :
    isAscii hash = true ∧ hash ≠ [] := by
  rw [siftCanonicalJsonHash, map_eq_ok] at h
  obtain ⟨bytes, -, rfl⟩ := h
  exact ⟨isAscii_of_hex (hhex bytes).1, (hhex bytes).2⟩

theorem siftBytes_eq {payload : SigningPayload} (hi : payload.issuedAt.isFinite = true)
    (he : payload.expiresAt.isFinite = true) (h : siftCanonicalJsonBytes payload.value = .ok bytes) :
    bytes = utf8Encode (braced (payload.sorted.map siftMember)) := by
  rw [siftCanonicalJsonBytes, SigningPayload.siftCanonicalJson_value hi he] at h
  exact (Except.ok.inj h).symm

theorem isFinite_of_safe {n : JsNumber} (h : n.isSafeInteger = true) : n.isFinite = true := by
  obtain ⟨z, rfl, -⟩ := JsNumber.exists_int_of_isSafeInteger h
  rfl

/-- The two texts, once the numbers are safe. -/
theorem text_iff_plain (authorization : AuthorizationV1Payload) {signature : List Byte} (hn : NfcLaws H.nfc)
    (hintent : isAscii authorization.intentHash = true) (hstate : isAscii authorization.stateHash = true)
    (hbytes : siftCanonicalJsonBytes authorization.toSigningPayload.value = .ok bytes) :
    (∃ text, canonicalJson H.nfc (authorizationSigningPayload (authorization.signed signature).value) = .ok text ∧
      utf8Encode text = bytes) ↔
      (authorization.issuedAt.isSafeInteger = true ∧ authorization.expiresAt.isSafeInteger = true) ∧
        ∀ s ∈ authorization.texts, PlainText H.nfc s := by
  have hcore := SigningPayload.canonicalJson_signingPayload hn (authorization.signed signature)
  have hsift := wellFormed_braced authorization.sorted
  constructor
  · intro h
    obtain ⟨text, htext, hutf8⟩ := h
    obtain ⟨hsafe, rfl⟩ := (hcore text).mp htext
    refine ⟨hsafe, (SigningPayload.texts_eq_iff hn hintent hstate hsafe.1 hsafe.2).mp ?_⟩
    rw [siftBytes_eq (isFinite_of_safe hsafe.1) (isFinite_of_safe hsafe.2) hbytes] at hutf8
    exact (utf8Encode_inj (canonicalJson_wellFormed htext) hsift hutf8).symm
  · intro h
    refine ⟨_, (hcore _).mpr ⟨h.1, rfl⟩, ?_⟩
    rw [siftBytes_eq (isFinite_of_safe h.1.1) (isFinite_of_safe h.1.2) hbytes]
    exact congrArg utf8Encode ((SigningPayload.texts_eq_iff hn hintent hstate h.1.1 h.1.2).mpr h.2).symm

/-- The sum of a time and a lifetime, which are both safe, is safe as long as it is small. -/
theorem isSafeInteger_add_iff {iat ttl : ℤ} (hiat : iat.natAbs ≤ maxTimeValue) (httl : 0 < ttl) :
    ((JsNumber.int iat).add (.int ttl)).isSafeInteger = true ↔ iat + ttl ≤ JsNumber.maxSafeInteger := by
  simp only [maxTimeValue] at hiat
  by_cases hsmall : (iat + ttl).natAbs ≤ 2 ^ 53
  · rw [JsNumber.add_int hsmall, JsNumber.isSafeInteger_int]
    simp only [JsNumber.maxSafeInteger]
    omega
  · have hlarge : (2 : ℚ) ^ 53 ≤ |((iat + ttl : ℤ) : ℚ)| := by
      rw [← Int.cast_abs, ← Nat.cast_natAbs]
      exact_mod_cast (not_le.mp hsmall).le
    refine iff_of_false ?_ ?_
    · rw [JsNumber.add, JsNumber.not_isSafeInteger_round_abs hlarge]
      exact Bool.false_ne_true
    · simp only [JsNumber.maxSafeInteger]
      omega

theorem lt_add_of_pos {iat ttl : ℤ} (hiat : iat.natAbs ≤ maxTimeValue) (httl : 0 < ttl) :
    (JsNumber.int iat).lt ((JsNumber.int iat).add (.int ttl)) = true := by
  simp only [maxTimeValue] at hiat
  have hge : ((JsNumber.int iat).add (.int ttl)).ge (.int (iat + 1)) = true :=
    JsNumber.round_ge (by omega) (by exact_mod_cast (by omega : iat + 1 ≤ iat + ttl))
  exact JsNumber.lt_of_ge_succ hge

/-- An authorization that Sift issues verifies in the core exactly if its strings are
plain, its nonce is not empty and its expiry is a safe integer. -/
theorem issued_verifies_iff {clockNow : JsNumber} {keySets : TrustedKeySets} {entry : KeySetKey} {key : PublicKey}
    {signature : List Byte} (hn : NfcLaws H.nfc)
    (hhex : ∀ bytes, (H.sha256Hex bytes).all isHexUnit = true ∧ H.sha256Hex bytes ≠ [])
    (hissued : receiptToAuthorization H.toPlatform clock input = .ok issued)
    (hbytes : siftCanonicalJsonBytes issued.signingPayload.value = .ok bytes)
    (hkey : MatchingKey H keySets input.issuer input.keyId entry key) (hsign : Signs key bytes signature)
    (hactive : ∀ t, issued.authorization.issuedAt.le t = true → t.lt issued.authorization.expiresAt = true →
      keyIsActiveAt entry t = true) :
    VerifiesInCore H clockNow keySets issued.authorization bytes signature ↔ PlainInput H.nfc clock input := by
  obtain ⟨intentHash, stateHash, nowMs, ttl, hissues, rfl⟩ := receiptToAuthorization_ok hissued
  have hintent := isAscii_hash hhex hissues.intent
  have hstate := isAscii_hash hhex hissues.state
  have hiat : (nowMs / 1000).natAbs ≤ maxTimeValue := by
    have hbound := hissues.timeValue
    simp only [maxTimeValue] at hbound ⊢
    omega
  have hiatSafe : (JsNumber.int (nowMs / 1000)).isSafeInteger = true := by
    refine JsNumber.isSafeInteger_int.mpr (hiat.trans ?_)
    decide
  have htexts := @text_iff_plain H bytes (constructAuthorization input intentHash stateHash (.int (nowMs / 1000))
    ((JsNumber.int (nowMs / 1000)).add (.int ttl))).authorization signature hn hintent.1 hstate.1 hbytes
  have hsafe := isSafeInteger_add_iff hiat hissues.ttlPositive
  have hsum := lt_add_of_pos hiat hissues.ttlPositive
  constructor
  · intro h
    have haccepted := h.1 (.int (nowMs / 1000)) (by simp [constructAuthorization]) hsum
    have hplain := htexts.mp h.2
    refine ⟨(text_of_accepts _ hkey hsign haccepted).1, hplain.2, fun nowMs' ttl' htime httl => ?_⟩
    obtain rfl : nowMs = nowMs' := JsNumber.int.inj (hissues.time.symm.trans htime)
    obtain rfl : ttl = ttl' := JsNumber.int.inj (hissues.ttl.symm.trans httl)
    exact hsafe.mp hplain.1.2
  · intro h
    have hexpiry := h.expiry nowMs ttl hissues.time hissues.ttl
    have htext := htexts.mpr ⟨⟨hiatSafe, hsafe.mpr hexpiry⟩, h.plain⟩
    refine ⟨fun t hfrom huntil => ?_, htext⟩
    obtain ⟨exp, hexp, -⟩ := JsNumber.exists_int_of_isSafeInteger (hsafe.mpr hexpiry)
    have hcomplete : Complete H.nfc (constructAuthorization input intentHash stateHash (.int (nowMs / 1000))
        ((JsNumber.int (nowMs / 1000)).add (.int ttl))).authorization (nowMs / 1000) exp :=
      ⟨h.nonce, (h.plain _ List.mem_cons_self).1, hissues.issuer, hissues.audience, hintent.2, hstate.2,
        hissues.policyId, hissues.keyId, rfl, JsNumber.isSafeInteger_int.mp hiatSafe, hexp⟩
    have huntil' : t.lt (.int exp) = true := hexp ▸ huntil
    exact accepts_of_text _ hcomplete hkey hsign (hactive t hfrom huntil) hfrom huntil' htext

end

def sampleReceipt : SiftReceipt where
  receiptVersion := js "1.0"
  tenantId := js "tenant"
  agentId := js "agent"
  action := js "pay"
  tool := js "bank"
  decision := .allow
  riskTier := .int 1
  timestamp := js "1970-01-01T00:16:40Z"
  nonce := js "n1"
  policyMatched := js "p1"
  receiptHash := js "00"
  signature := js "00"

def sampleDate : Date := ⟨some ⟨1000000, by decide⟩⟩

def sampleInput (audience : JsString) : ReceiptToAuthorizationInput where
  receipt := sampleReceipt
  intent := .obj []
  state := .obj []
  issuer := js "issuer-1"
  audience := audience
  keyId := js "k1"

/-- A key that verifies these bytes only. -/
def signerKey (bytes : List Byte) : PublicKey where
  jwkX := some (List.replicate 32 (byte 7))
  verify message _ := message = bytes

theorem signerKey_verify {bytes message signature : List Byte} :
    (signerKey bytes).verify message signature = true ↔ message = bytes := decide_eq_true_iff

theorem isUsableKey_signer (bytes : List Byte) : isUsableKey (signerKey bytes) = true :=
  isUsableKey_of_number rfl rfl (by decide)

def signerHost (bytes : List Byte) : Host where
  toPlatform := samplePlatform
  createPublicKey _ := some (signerKey bytes)

def sampleKeySets : TrustedKeySets := .one sampleKeySet

def sampleHash : JsString := samplePlatform.sha256Hex (utf8Encode (js "\x7b\x7d"))

def sampleIssued (audience : JsString) : ReceiptAuthorization :=
  constructAuthorization (sampleInput audience) sampleHash sampleHash (.int 1000) (.int 1030)

theorem issued_sample {audience : JsString} (h : audience ≠ []) :
    receiptToAuthorization samplePlatform sampleDate (sampleInput audience) = .ok (sampleIssued audience) := by
  have hissuer : js "issuer-1" ≠ [] := by decide
  have hkey : js "k1" ≠ [] := by decide
  have hpolicy : js "p1" ≠ [] := by decide
  have hadd : (JsNumber.int (1000000 / 1000)).add (.int 30) = .int 1030 := JsNumber.add_int (by decide)
  have hhash : siftCanonicalJsonHash samplePlatform (.obj []) = .ok sampleHash := rfl
  have hobject : isObjectValue (.obj []) = true := rfl
  have httl : (!defaultTtlSeconds.isSafeInteger || defaultTtlSeconds.le (.int 0)) = false := rfl
  simp only [receiptToAuthorization, sampleInput, sampleReceipt, ne_eq, not_true_eq_false, if_false, hissuer, h, hkey,
    hpolicy, hobject, hhash, Option.getD_none, httl, Bool.not_true, Bool.false_eq_true, sampleDate]
  exact congrArg (fun exp => Except.ok (constructAuthorization (sampleInput audience) sampleHash sampleHash (.int 1000) exp)) hadd

def sampleBytes (audience : JsString) : List Byte :=
  utf8Encode (braced ((sampleIssued audience).signingPayload.sorted.map siftMember))

theorem bytes_sample (audience : JsString) :
    siftCanonicalJsonBytes (sampleIssued audience).signingPayload.value = .ok (sampleBytes audience) := by
  rw [siftCanonicalJsonBytes, SigningPayload.siftCanonicalJson_value rfl rfl]
  rfl

theorem matchingKey_sample (bytes : List Byte) : MatchingKey (signerHost bytes) sampleKeySets (js "issuer-1") (js "k1")
    (sampleKey none) (signerKey bytes) := ⟨find_sampleKey, by decide, rfl, isUsableKey_signer bytes⟩

theorem signs_sample (bytes : List Byte) : Signs (signerKey bytes) bytes sampleSignatureBytes :=
  ⟨List.length_replicate .., fun _ => signerKey_verify⟩

theorem plainText_sample {s : JsString} (h : isAscii s = true) : PlainText samplePlatform.nfc s :=
  SigningPayload.plainText_of_ascii samplePlatform_laws.nfc h

theorem issued_verifies_iff_sample : ∃ bytes : List Byte,
    VerifiesInCore (signerHost bytes) (.int 0) sampleKeySets (sampleIssued (js "svc")).authorization bytes
      sampleSignatureBytes := by
  refine ⟨sampleBytes (js "svc"), ?_⟩
  have hissued : receiptToAuthorization (signerHost (sampleBytes (js "svc"))).toPlatform sampleDate
      (sampleInput (js "svc")) = .ok (sampleIssued (js "svc")) := issued_sample (by decide)
  refine (issued_verifies_iff samplePlatform_laws.nfc samplePlatform_laws.hex hissued (bytes_sample _)
    (matchingKey_sample _) (signs_sample _) fun _ _ _ => rfl).mpr ?_
  refine ⟨by decide, fun s hs => plainText_sample ?_, fun nowMs ttl htime httl => ?_⟩
  · have hall : ∀ s ∈ [js "n1", js "issuer-1", js "svc", js "p1", js "k1"], isAscii s = true := by decide
    exact hall s hs
  · obtain rfl : 1000000 = nowMs := JsNumber.int.inj htime
    obtain rfl : 30 = ttl := JsNumber.int.inj httl
    decide

/-- An audience with an accent is signed in escapes and verified without. -/
theorem accented_audience_fails : ¬ ∀ (H : Host) (clock : Date) (input : ReceiptToAuthorizationInput)
    (issued : ReceiptAuthorization) (keySets : TrustedKeySets) (entry : KeySetKey) (key : PublicKey)
    (bytes signature : List Byte), NfcLaws H.nfc →
      (∀ bytes, (H.sha256Hex bytes).all isHexUnit = true ∧ H.sha256Hex bytes ≠ []) →
      receiptToAuthorization H.toPlatform clock input = .ok issued →
      siftCanonicalJsonBytes issued.signingPayload.value = .ok bytes →
      MatchingKey H keySets input.issuer input.keyId entry key → Signs key bytes signature →
      (∀ t, keyIsActiveAt entry t = true) →
        VerifiesInCore H (.int 0) keySets issued.authorization bytes signature := by
  intro hclaim
  have hbytes := bytes_sample [unit 0xe9]
  have hverifies := hclaim (signerHost _) sampleDate (sampleInput [unit 0xe9]) (sampleIssued [unit 0xe9]) sampleKeySets
    (sampleKey none) (signerKey _) _ sampleSignatureBytes samplePlatform_laws.nfc samplePlatform_laws.hex
    (issued_sample (by decide)) hbytes (matchingKey_sample _) (signs_sample _) fun _ => rfl
  have hash : isAscii sampleHash = true := isAscii_of_hex (samplePlatform_laws.hex _).1
  have hplain := (@text_iff_plain (signerHost _) _ (sampleIssued [unit 0xe9]).authorization sampleSignatureBytes
    samplePlatform_laws.nfc hash hash hbytes).mp hverifies.2
  have haccent := (hplain.2 [unit 0xe9] (by decide)).2
  exact absurd (haccent (unit 0xe9) (by decide)) (by decide)

end OxDeAI.Sift
