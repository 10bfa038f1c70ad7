import OxDeAI.Core.CanonicalFields
import OxDeAI.Crypto.Keys

/-! A private key with the public key of its signatures. -/

namespace OxDeAI

open Js

/-- The private key loads, and the public key, which authenticates, accepts what
it signs. -/
structure SigningPair (H : Host) (privateKeyPem publicKeyPem : JsString) (sign : List Byte → JsString)
    (key : PublicKey) : Prop where
  signer : H.ed25519Signer privateKeyPem = some sign
  loads : H.createPublicKey (normalizePem publicKeyPem) = some key
  usable : isUsableKey key = true
  signs : ∀ message, ∃ signature, signature.length = 64 ∧ sign message = base64Encode signature ∧
    key.verify message signature = true

section

variable {H : Host} {privateKeyPem publicKeyPem domain signature : JsString} {sign : List Byte → JsString}
  {key : PublicKey} {payload payload' : JsValue}

theorem base64Encode_ne_nil {bytes : List Byte} (h : bytes.length = 64) : base64Encode bytes ≠ [] := by
  intro hnil
  have hdecoded := congrArg base64Decode hnil
  rw [base64Decode_encode] at hdecoded
  rw [hdecoded] at h
  cases h

/-- A signature is a text of its own, in the standard alphabet. -/
theorem SigningPair.signed (hpair : SigningPair H privateKeyPem publicKeyPem sign key)
    (hsign : signEd25519 H.toPlatform domain payload privateKeyPem = .ok signature) :
    ∃ message bytes, signatureInput H.toPlatform domain payload = .ok message ∧ bytes.length = 64 ∧
      signature = base64Encode bytes ∧ key.verify message bytes = true := by
  rw [signEd25519, hpair.signer] at hsign
  obtain ⟨message, hmessage, rfl⟩ := map_eq_ok.mp hsign
  obtain ⟨bytes, hlength, hbytes, hverify⟩ := hpair.signs message
  exact ⟨message, bytes, hmessage, hlength, hbytes, hverify⟩

/-- The public key accepts the signature for every payload of the same canonical text. -/
theorem SigningPair.verifies (hpair : SigningPair H privateKeyPem publicKeyPem sign key)
    (hsign : signEd25519 H.toPlatform domain payload privateKeyPem = .ok signature)
    (hsame : canonicalJson H.nfc payload' = canonicalJson H.nfc payload) :
    verifyEd25519 H domain payload' signature publicKeyPem = true := by
  obtain ⟨message, bytes, hmessage, hlength, rfl, hverify⟩ := hpair.signed hsign
  rw [verifyEd25519_congr hsame]
  simp [verifyEd25519, base64Decode_encode, hlength, hpair.loads, hpair.usable, hmessage, hverify]

end

end OxDeAI
