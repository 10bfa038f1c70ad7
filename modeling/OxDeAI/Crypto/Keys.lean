import OxDeAI.Core.Types
import OxDeAI.Js.Base64
import OxDeAI.Js.Value

/-! Trusted key sets, and the check of a signature under one of their keys. -/

namespace OxDeAI

open Js

/-- A key the host loaded. `jwkX` is the member `x` of an Ed25519 key, decoded;
a verification that throws counts as failed. -/
structure PublicKey where
  jwkX : Option (List Byte)
  verify : List Byte → List Byte → Bool

/-- The platform with its key loader, which throws on text that is no key. -/
structure Host extends Platform where
  createPublicKey : JsString → Option PublicKey

inductive KeyStatus
  | active
  | retired
  | revoked
  deriving DecidableEq

structure KeySetKey where
  kid : JsString
  alg : SigningAlg
  publicKey : JsString
  status : Option KeyStatus := none
  notBefore : Option JsNumber := none
  notAfter : Option JsNumber := none
  deriving DecidableEq

structure KeySet where
  issuer : JsString
  version : JsString
  keys : List KeySetKey
  deriving DecidableEq

/-- The option `trustedKeySets`: one set or a list of them. -/
inductive TrustedKeySets
  | one (keySet : KeySet)
  | many (keySets : List KeySet)

def trustedList : Option TrustedKeySets → List KeySet
  | none => []
  | some (.one keySet) => [keySet]
  | some (.many keySets) => keySets

def findKeyInKeySets (keySets : List KeySet) (issuer : JsValue) (kid : JsString) (alg : SigningAlg) :
    Option KeySetKey :=
  match keySets.find? (fun ks => issuer.isText ks.issuer) with
  | none => none
  | some ks => ks.keys.find? (fun k => k.kid = kid ∧ k.alg = alg)

def keyIsActiveAt (key : KeySetKey) (now : JsNumber) : Bool :=
  if key.status = some .revoked then false
  else if key.notBefore.any (fun t => now.lt t) then false
  else if key.notAfter.any (fun t => t.lt now) then false
  else true

/-- A key of the first set of exactly this issuer, under exactly this kid. -/
theorem findKeyInKeySets_some {keySets : List KeySet} {issuer : JsValue} {kid : JsString}
    {alg : SigningAlg} {key : KeySetKey} (h : findKeyInKeySets keySets issuer kid alg = some key) :
    ∃ ks ∈ keySets, issuer = .str ks.issuer ∧ key ∈ ks.keys ∧ key.kid = kid ∧ key.alg = alg := by
  unfold findKeyInKeySets at h
  cases hks : keySets.find? (fun ks => issuer.isText ks.issuer) with
  | none => simp only [hks] at h; cases h
  | some ks =>
    simp only [hks] at h
    have hiss := List.find?_some hks
    have hkey := List.find?_some h
    simp only [decide_eq_true_eq] at hkey
    exact ⟨ks, List.mem_of_find?_eq_some hks, JsValue.isText_iff.mp hiss,
      List.mem_of_find?_eq_some h, hkey.1, hkey.2⟩

def hexEncode (bytes : List Byte) : JsString :=
  bytes.flatMap (fun b => [hexDigit (b.val / 16), hexDigit (b.val % 16)])

/-- `Buffer.from(s, "hex")` stops at the first pair that is not hexadecimal. -/
def hexDecode : JsString → List Byte
  | a :: b :: rest =>
    match hexValue? (lowByte a), hexValue? (lowByte b) with
    | some x, some y => byte (16 * x + y) :: hexDecode rest
    | _, _ => []
  | _ => []

theorem lowByte_hexDigit {n : ℕ} (h : n < 16) : lowByte (hexDigit n) = hexDigit n := by
  apply lowByte_self
  unfold hexDigit
  split <;> rw [unit_val (by omega)] <;> omega

/-- Text without a PEM header is the base64 of a PEM. -/
def normalizePem (key : JsString) : JsString :=
  if js "BEGIN" <:+: key then key else utf8Decode (base64Decode key)

/-- Every wire encoding of the eight points of the small subgroup. -/
def smallOrderEd25519 : List JsString :=
  [js "0000000000000000000000000000000000000000000000000000000000000000",
    js "0000000000000000000000000000000000000000000000000000000000000080",
    js "0100000000000000000000000000000000000000000000000000000000000000",
    js "0100000000000000000000000000000000000000000000000000000000000080",
    js "26e8958fc2b227b045c3f489f2ef98f0d5dfac05d3c63339b13802886d53fc05",
    js "26e8958fc2b227b045c3f489f2ef98f0d5dfac05d3c63339b13802886d53fc85",
    js "c7176a703d4dd84fba3c0b760d10670f2a2053fa2c39ccc64ec7fd7792ac037a",
    js "c7176a703d4dd84fba3c0b760d10670f2a2053fa2c39ccc64ec7fd7792ac03fa",
    js "ecffffffffffffffffffffffffffffffffffffffffffffffffffffffffffff7f",
    js "ecffffffffffffffffffffffffffffffffffffffffffffffffffffffffffffff",
    js "edffffffffffffffffffffffffffffffffffffffffffffffffffffffffffff7f",
    js "edffffffffffffffffffffffffffffffffffffffffffffffffffffffffffffff",
    js "eeffffffffffffffffffffffffffffffffffffffffffffffffffffffffffff7f",
    js "eeffffffffffffffffffffffffffffffffffffffffffffffffffffffffffffff"]

def ed25519WireHex (key : PublicKey) : Option JsString :=
  match key.jwkX with
  | none => none
  | some raw => if raw.length = 32 then some (hexEncode raw) else none

/-- Does the key authenticate anything? -/
def isUsableKey (key : PublicKey) : Bool :=
  match ed25519WireHex key with
  | none => false
  | some hex => !smallOrderEd25519.contains hex

section

variable (H : Host)

def isSmallOrderEd25519Pem (publicKeyPem : JsString) : Bool :=
  match H.createPublicKey (normalizePem publicKeyPem) with
  | none => true
  | some key => !isUsableKey key

/-- A standard base64 signature over the payload in its domain. -/
def verifyEd25519 (domain : JsString) (payload : JsValue) (signature publicKeyPem : JsString) : Bool :=
  let sig := base64Decode signature
  if sig.length ≠ 64 ∨ base64Encode sig ≠ signature then false
  else match H.createPublicKey (normalizePem publicKeyPem) with
    | none => false
    | some key =>
      if !isUsableKey key then false
      else match signatureInput H.toPlatform domain payload with
        | .error _ => false
        | .ok message => key.verify message sig

def canonicalSignatureBytes (encoded : JsString) : Option (List Byte) :=
  let bytes := base64Decode encoded
  if bytes.length = 64 ∧ base64Encode bytes = encoded then some bytes
  else if bytes.length = 64 ∧ base64UrlEncode bytes = encoded then some bytes
  else none

/-- A signature in either alphabet over the bare payload. The key is loaded from
its text as it stands. -/
def verifyEd25519Raw (payload : JsValue) (signature publicKeyPem : JsString) : Bool :=
  match canonicalSignatureBytes signature with
  | none => false
  | some bytes =>
    if isSmallOrderEd25519Pem H publicKeyPem then false
    else match canonicalJson H.nfc payload, H.createPublicKey publicKeyPem with
      | .ok text, some key => key.verify (utf8Encode text) bytes
      | _, _ => false

def verifyHmacDomain (domain : JsString) (payload : JsValue) (signatureHex secret : JsString) : Bool :=
  match signHmacDomain H.toPlatform domain payload secret with
  | .error _ => false
  | .ok expected =>
    let a := hexDecode expected
    let b := hexDecode signatureHex
    if a.length = 0 ∨ a.length ≠ b.length then false else a = b

end

section

variable {H : Host} {domain signature pem secret : JsString} {v w : JsValue}

theorem signatureInput_congr {P : Platform} (h : canonicalJson P.nfc v = canonicalJson P.nfc w) :
    signatureInput P domain v = signatureInput P domain w := by
  rw [signatureInput, signatureInput, h]

theorem verifyEd25519_congr (h : canonicalJson H.nfc v = canonicalJson H.nfc w) :
    verifyEd25519 H domain v signature pem = verifyEd25519 H domain w signature pem := by
  rw [verifyEd25519, verifyEd25519, signatureInput_congr h]

theorem exists_canonicalJson_of_signatureInput {P : Platform} {bytes : List Byte}
    (h : signatureInput P domain v = .ok bytes) : ∃ text, canonicalJson P.nfc v = .ok text := by
  rw [signatureInput, map_eq_ok] at h
  obtain ⟨text, htext, -⟩ := h
  exact ⟨text, htext⟩

theorem exists_canonicalJson_of_verifyEd25519 (h : verifyEd25519 H domain v signature pem = true) :
    ∃ text, canonicalJson H.nfc v = .ok text := by
  cases hm : signatureInput H.toPlatform domain v with
  | ok bytes => exact exists_canonicalJson_of_signatureInput hm
  | error e =>
    simp only [verifyEd25519, hm] at h
    split at h
    · cases h
    · split at h
      · cases h
      · split at h <;> cases h

theorem exists_canonicalJson_of_verifyEd25519Raw (h : verifyEd25519Raw H v signature pem = true) :
    ∃ text, canonicalJson H.nfc v = .ok text := by
  cases hm : canonicalJson H.nfc v with
  | ok text => exact ⟨text, rfl⟩
  | error e =>
    simp only [verifyEd25519Raw, hm] at h
    split at h
    · cases h
    · split at h <;> cases h

theorem exists_canonicalJson_of_verifyHmacDomain
    (h : verifyHmacDomain H domain v signature secret = true) :
    ∃ text, canonicalJson H.nfc v = .ok text := by
  cases hm : signatureInput H.toPlatform domain v with
  | ok bytes => exact exists_canonicalJson_of_signatureInput hm
  | error e =>
    simp only [verifyHmacDomain, signHmacDomain, hm] at h
    cases h

end

end OxDeAI
