import OxDeAI.Verification.Envelope
import OxDeAI.Verification.KeyLookup
import OxDeAI.Verification.SignedKrl

/-! How the verdict of each verifier depends on the trusted key sets. -/

namespace OxDeAI

open Js

inductive SignedArtifact
  | authorization (auth : JsValue) (opts : VerifyAuthorizationOptions)
  | delegation (delegation : JsValue) (opts : VerifyDelegationOptions)
  | envelope (bytes : List Byte) (opts : VerifyEnvelopeOptions)
  | krl (envelope : JsValue) (opts : VerifySignedKrlOptions)

inductive Verdict
  | authorization (result : AuthorizationVerificationResult)
  | plain (result : VerificationResult)

def Verdict.ok : Verdict → Bool
  | .authorization result => result.ok
  | .plain result => result.ok

def Accepted (verdict : Except JsError Verdict) : Prop := ∃ v, verdict = .ok v ∧ v.ok = true

/-- The key a verifier looks up, and its check of the signature under a key. -/
structure KeyQuery where
  issuer : JsValue
  kid : JsString
  now : JsNumber
  accepts : KeySetKey → Bool

def KeyQuery.find (q : KeyQuery) (sets : List KeySet) : Option KeySetKey :=
  findKeyInKeySets sets q.issuer q.kid .ed25519

def KeyQuery.Candidate (q : KeyQuery) (sets : List KeySet) (key? : Option KeySetKey) : Prop :=
  CandidateKey sets q.issuer q.kid .ed25519 key?

def KeyQuery.outcome (q : KeyQuery) (key? : Option KeySetKey) : KeyOutcome :=
  keyOutcome q.now q.accepts key?

/-- Who signed, by the fields of the artifact. -/
structure ArtifactSigner where
  issuer : JsValue
  kid : JsString
  alg : SigningAlg

def namedAlg (alg : JsString) : Option SigningAlg :=
  if isEd25519Name alg then some .ed25519
  else if alg = js "HMAC-SHA256" then some .hmacSha256
  else none

def signerOf (issuer : JsValue) (sig : SignatureParts) : Option ArtifactSigner :=
  match sig.material with
  | none => none
  | some (alg, kid, _) => (namedAlg alg).map (fun alg => ⟨issuer, kid, alg⟩)

section

variable (H : Host) (syntaxError : JsString → JsString) (clock : JsNumber)

def verdict (sets : List KeySet) : SignedArtifact → Except JsError Verdict
  | .authorization auth opts =>
    (verifyAuthorization H clock auth { opts with trustedKeySets := some (.many sets) }).map .authorization
  | .delegation delegation opts =>
    (verifyDelegation H clock delegation { opts with trustedKeySets := some (.many sets) }).map .plain
  | .envelope bytes opts =>
    .ok (.plain (verifyEnvelope H syntaxError clock bytes { opts with trustedKeySets := some (.many sets) }))
  | .krl envelope opts =>
    .ok (.plain (verifySignedKrl H clock envelope { opts with trustedKeySets := some (.many sets) }))

def flatSignature (v : JsValue) : SignatureParts :=
  ⟨v.field (js "alg"), v.field (js "kid"), v.field (js "signature"), false⟩

def nestedSignature (v : JsValue) : SignatureParts :=
  ⟨(v.field (js "signature")).field (js "alg"), (v.field (js "signature")).field (js "kid"),
    (v.field (js "signature")).field (js "sig"), true⟩

def decodedSigner (envelope : VerificationEnvelope) : Option (JsString × JsString) :=
  if given envelope.signature then envelopeSigner envelope else none

/-- Nobody, unless the artifact is signed. -/
def signer : SignedArtifact → Option ArtifactSigner
  | .authorization auth _ => signerOf (auth.field (js "issuer")) (signatureParts auth)
  | .delegation delegation _ => signerOf (delegation.field (js "issuer")) (flatSignature delegation)
  | .envelope bytes _ =>
    match decodeEnvelope syntaxError bytes with
    | .error _ => none
    | .ok envelope => (decodedSigner envelope).map (fun s => ⟨.str s.1, s.2, .ed25519⟩)
  | .krl envelope _ => signerOf (envelope.field (js "issuer")) (nestedSignature envelope)

def authorizationQuery (auth : JsValue) (opts : VerifyAuthorizationOptions) : Option KeyQuery :=
  match resolveMaxFutureIssuedAtSkewSeconds (js "verifyAuthorization") opts.maxFutureIssuedAtSkewSeconds,
      (signatureParts auth).material with
  | .ok _, some (alg, kid, signature) =>
    if isEd25519Name alg then
      some ⟨auth.field (js "issuer"), kid, opts.now.getD clock,
        fun key => acceptsEd25519 H (authorizationSigningPayload auth) signature key.publicKey⟩
    else none
  | _, _ => none

def delegationQuery (delegation : JsValue) (opts : VerifyDelegationOptions) : Option KeyQuery :=
  match resolveMaxFutureIssuedAtSkewSeconds (js "verifyDelegation") opts.maxFutureIssuedAtSkewSeconds,
      checkDelegationScope delegation opts.parentScope with
  | .ok _, .ok _ =>
    if hasDelegationSignature delegation then
      some ⟨delegation.field (js "issuer"), (delegation.field (js "kid")).text?.getD [],
        opts.now.getD clock, verifyDelegationSignature H delegation⟩
    else none
  | _, _ => none

def envelopeQuery (bytes : List Byte) (opts : VerifyEnvelopeOptions) : Option KeyQuery :=
  match decodeEnvelope syntaxError bytes with
  | .error _ => none
  | .ok envelope => (decodedSigner envelope).map (fun s =>
      ⟨.str s.1, s.2, opts.now.getD clock, verifyEnvelopeSignature H envelope⟩)

def krlQuery (envelope : JsValue) (opts : VerifySignedKrlOptions) : Option KeyQuery :=
  if envelope.isRecord = true ∧ checkKrlStructure envelope = [] then
    some ⟨envelope.field (js "issuer"), krlKid envelope, opts.now.getD clock, verifyKrlSignature H envelope⟩
  else none

/-- The lookup the verifier makes when key sets are configured, unless it decides
without one. -/
def keyQuery : SignedArtifact → Option KeyQuery
  | .authorization auth opts => authorizationQuery H clock auth opts
  | .delegation delegation opts => delegationQuery H clock delegation opts
  | .envelope bytes opts => envelopeQuery H syntaxError clock bytes opts
  | .krl envelope opts => krlQuery H clock envelope opts

/-- The checks of an authorization that use no trusted key: its fields, and the
legacy signature. -/
def AuthorizationOthersHold (auth : JsValue) (opts : VerifyAuthorizationOptions) : Prop :=
  ∃ skew, resolveMaxFutureIssuedAtSkewSeconds (js "verifyAuthorization")
      opts.maxFutureIssuedAtSkewSeconds = .ok skew ∧
    checkFields H.nfc (opts.now.getD clock) skew opts auth = [] ∧
    ∀ alg kid signature, (signatureParts auth).material = some (alg, kid, signature) →
      isEd25519Name alg = false →
        (checkSignature H (opts.now.getD clock) opts true (fun _ => none) opts.requireSig auth).violations = []

def DelegationOthersHold (delegation : JsValue) (opts : VerifyDelegationOptions) : Prop :=
  ∃ skew, resolveMaxFutureIssuedAtSkewSeconds (js "verifyDelegation")
      opts.maxFutureIssuedAtSkewSeconds = .ok skew ∧
    checkDelegationScope delegation opts.parentScope = .ok [] ∧
    checkDelegationFields delegation = [] ∧
    checkDelegationTimes delegation (opts.now.getD clock) skew = [] ∧
    checkDelegationIdentity delegation H.nfc opts = []

def EnvelopeOthersHold (bytes : List Byte) (opts : VerifyEnvelopeOptions) : Prop :=
  ∃ envelope, decodeEnvelope syntaxError bytes = .ok envelope ∧
    EnvelopeHolds H syntaxError opts envelope

def KrlOthersHold (envelope : JsValue) (opts : VerifySignedKrlOptions) : Prop :=
  envelope.isRecord = true ∧ checkKrlStructure envelope = [] ∧
    checkKrlVersion opts.previousKrlVersionByIssuer ((envelope.field (js "issuer")).text?.getD [])
      ((envelope.field (js "krl_version")).number?.getD .nan) = [] ∧
    expiredAt (opts.now.getD clock) (envelope.field (js "not_after")) = false

/-- Every check passes that does not depend on the trusted keys. -/
def OthersHold : SignedArtifact → Prop
  | .authorization auth opts => AuthorizationOthersHold H clock auth opts
  | .delegation delegation opts => DelegationOthersHold H clock delegation opts
  | .envelope bytes opts => EnvelopeOthersHold H syntaxError bytes opts
  | .krl envelope opts => KrlOthersHold clock envelope opts

/-- The verdict over some key sets is a report of the outcome of the lookup, and
different outcomes are reported differently. -/
structure ReportsOutcome (a : SignedArtifact) (q : KeyQuery)
    (report : KeyOutcome → Except JsError Verdict) : Prop where
  verdict_eq : ∀ sets, sets ≠ [] → verdict H syntaxError clock sets a = report (q.outcome (q.find sets))
  injective : Function.Injective report
  accepted : ∀ o, Accepted (report o) ↔ OthersHold H syntaxError clock a ∧ o = .verified

/-- The verdict over some key sets is the same for all of them. -/
structure IgnoresKeys (a : SignedArtifact) : Prop where
  verdict_eq : ∀ sets sets', sets ≠ [] → sets' ≠ [] →
    verdict H syntaxError clock sets a = verdict H syntaxError clock sets' a
  accepted : ∀ s, signer syntaxError a = some s → ∀ sets, sets ≠ [] →
    (Accepted (verdict H syntaxError clock sets a) ↔ OthersHold H syntaxError clock a)

end

end OxDeAI
