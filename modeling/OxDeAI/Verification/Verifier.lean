import OxDeAI.Verification.DelegationChain
import OxDeAI.Verification.KeyReports

/-! `createVerifier`: the key sets to trust are configured once, and every
verification under them is strict. -/

namespace OxDeAI

open Js

structure VerifierConfig where
  trustedKeySets : List KeySet
  expectedIssuer : Option JsString := none

/-- Each call comes with the time of the clock. -/
structure BoundVerifier where
  verifyAuthorization : JsNumber → JsValue → VerifyAuthorizationOptions →
    Except JsError AuthorizationVerificationResult
  verifyEnvelope : JsNumber → List Byte → VerifyEnvelopeOptions → VerificationResult

section

variable (config : VerifierConfig)

/-- Whatever the options of a call say of trust and mode, the configuration decides. -/
def VerifierConfig.bindAuthorization (opts : VerifyAuthorizationOptions) : VerifyAuthorizationOptions :=
  { opts with
    mode := some .strict
    trustedKeySets := some (.many config.trustedKeySets)
    expectedIssuer := opts.expectedIssuer.or config.expectedIssuer }

def VerifierConfig.bindEnvelope (opts : VerifyEnvelopeOptions) : VerifyEnvelopeOptions :=
  { opts with
    mode := some .strict
    trustedKeySets := some (.many config.trustedKeySets)
    expectedIssuer := opts.expectedIssuer.or config.expectedIssuer }

def createVerifier (H : Host) (syntaxError : JsString → JsString) : Except JsError BoundVerifier :=
  if config.trustedKeySets = [] then
    .error (.error (js "createVerifier: trustedKeySets must not be empty — provide at least one KeySet to establish a trust boundary"))
  else .ok {
    verifyAuthorization := fun clock auth opts => verifyAuthorization H clock auth (config.bindAuthorization opts)
    verifyEnvelope := fun clock bytes opts => verifyEnvelope H syntaxError clock bytes (config.bindEnvelope opts) }

end

/-- An active key that one of the sets registers for the envelope's issuer signed it. -/
structure SignedUnder (H : Host) (keySets : List KeySet) (now : JsNumber) (envelope : VerificationEnvelope) : Prop where
  signature : given envelope.signature = true
  alg : envelope.alg = some (js "Ed25519")
  key : ∃ keySet ∈ keySets, ∃ key ∈ keySet.keys, envelope.issuer = some keySet.issuer ∧
    envelope.kid = some key.kid ∧ key.alg = .ed25519 ∧ keyIsActiveAt key now = true ∧
      verifyEnvelopeSignature H envelope key = true

section

variable {H : Host} {syntaxError : JsString → JsString} {config : VerifierConfig} {clock now : JsNumber}
  {bytes : List Byte} {opts : VerifyEnvelopeOptions} {envelope : VerificationEnvelope}

theorem given_some {text : Option JsString} (h : given text = true) : text = some (text.getD []) := by
  cases text with
  | none => cases h
  | some s => rfl

theorem envelopeSigner_some {s : JsString × JsString} (h : envelopeSigner envelope = some s) :
    envelope.alg = some (js "Ed25519") ∧ envelope.issuer = some s.1 ∧ envelope.kid = some s.2 := by
  unfold envelopeSigner at h
  split at h
  · rename_i hparts
    obtain ⟨halg, hkid, hissuer⟩ := hparts
    rw [← Option.some.inj h]
    exact ⟨halg, given_some hissuer, given_some hkid⟩
  · cases h

theorem checkEnvelopeSignature_code {find : JsString → JsString → Option KeySetKey} {trusted : Bool}
    {v : VerificationViolation} (h : v ∈ checkEnvelopeSignature H envelope now trusted find) :
    v.code ≠ .noStateAnchor := by
  unfold checkEnvelopeSignature at h
  split at h
  · cases h
  · split at h
    · split at h <;>
      · obtain rfl := List.mem_singleton.mp h
        decide
    · split at h
      · obtain rfl := List.mem_singleton.mp h
        decide
      · exact envelopeKeyReport_code h

/-- A signature that adds no violation is absent, or it was checked. -/
theorem checked_of_no_violation {keySets : List KeySet}
    (h : checkEnvelopeSignature H envelope now true
      (fun issuer kid => findKeyInKeySets keySets (.str issuer) kid .ed25519) = [])
    (hsigned : given envelope.signature = true) : SignedUnder H keySets now envelope := by
  unfold checkEnvelopeSignature at h
  rw [hsigned] at h
  simp only [Bool.not_true, Bool.false_eq_true, if_false] at h
  split at h
  · split at h <;> cases h
  · rename_i issuer kid hsigner
    obtain ⟨halg, hissuer, hkid⟩ := envelopeSigner_some hsigner
    obtain ⟨key, hfind, hactive, hverify⟩ := keyOutcome_verified.mp (KeyReport.violations_eq_nil.mp h)
    obtain ⟨keySet, hset, howner, hkey, hname, hkind⟩ := findKeyInKeySets_some hfind
    refine ⟨hsigned, halg, keySet, hset, key, hkey, ?_, ?_, hkind, hactive, hverify⟩
    · rw [hissuer, JsValue.str.inj howner]
    · rw [hkid, hname]

theorem verifyEnvelope_decoded (htrust : config.trustedKeySets ≠ [])
    (hdecode : decodeEnvelope syntaxError bytes = .ok envelope) :
    (verifyEnvelope H syntaxError clock bytes (config.bindEnvelope opts)).ok = true ↔
      EnvelopeHolds H syntaxError (config.bindEnvelope opts) envelope ∧
        checkEnvelopeSignature H envelope (opts.now.getD clock) true
          (fun issuer kid => findKeyInKeySets config.trustedKeySets (.str issuer) kid .ed25519) = [] := by
  have htrusted : (trustedList (config.bindEnvelope opts).trustedKeySets).isEmpty = false := by
    cases hsets : config.trustedKeySets with
    | nil => exact absurd hsets htrust
    | cons keySet keySets => simp [VerifierConfig.bindEnvelope, trustedList, hsets]
  rw [verifyEnvelope, verifyEnvelopeBy, hdecode]
  simp only [verifyDecodedEnvelope, htrusted, Bool.not_false, Bool.true_eq_false, and_false, if_false]
  exact envelopeVerdict_accepts fun v => checkEnvelopeSignature_code

end

def plainSnapshot : CanonicalState := ⟨js "1", js "p", .obj [], rfl⟩

def plainCheckpoint : JsValue := (AuditEvent.stateCheckpoint (js "0") (.int 1000) (js "p")).value

def plainSnapshotBytes : List Byte := utf8Encode (jsonText plainSnapshot.toValue)

def plainEnvelope : VerificationEnvelope := ⟨plainSnapshotBytes, [plainCheckpoint], none, none, none, none⟩

def plainWire : JsValue :=
  .obj [(js "formatVersion", .num (.int 1)), (js "snapshot", .str (base64Encode plainSnapshotBytes)),
    (js "events", .arr [plainCheckpoint])]

theorem validate_plainCheckpoint : validateAuditEventJson plainCheckpoint = [] := by decide

end OxDeAI
