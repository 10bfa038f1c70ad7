import OxDeAI.Crypto.Preimages
import OxDeAI.Verification.KeyReports

/-! A signature of one class of artifacts is no signature of another. -/

namespace OxDeAI

open Js

inductive ArtifactClass
  | authorization
  | delegation
  | envelope
  | krl
  deriving DecidableEq

def ArtifactClass.domain : ArtifactClass → SigningDomain
  | .authorization => .authV1
  | .delegation => .delegationV1
  | .envelope => .envelopeV1
  | .krl => .krlV1

theorem ArtifactClass.domain_inj {c c' : ArtifactClass} (h : c.domain = c'.domain) : c = c' := by
  revert h
  cases c <;> cases c' <;> decide

def SignedArtifact.cls : SignedArtifact → ArtifactClass
  | .authorization _ _ => .authorization
  | .delegation _ _ => .delegation
  | .envelope _ _ => .envelope
  | .krl _ _ => .krl

section

variable (H : Host) (syntaxError : JsString → JsString)

/-- The texts of a public key that a check does not turn down, with the key it verifies under. -/
def Host.Checks (publicKeyPem : JsString) (key : PublicKey) : Prop :=
  isSmallOrderEd25519Pem H publicKeyPem = false ∧
    (H.createPublicKey (normalizePem publicKeyPem) = some key ∨ H.createPublicKey publicKeyPem = some key)

/-- Some private key makes this signature for the message, or some public key
finds it valid for the message. -/
def Host.Signs (signature message : List Byte) : Prop :=
  (∃ pem sign, H.ed25519Signer pem = some sign ∧ base64Decode (sign message) = signature) ∨
    ∃ pem key, H.Checks pem key ∧ key.verify message signature = true

/-- The signature is valid for one message only. -/
def Host.OneMessage (signature : List Byte) : Prop :=
  ∀ m m', H.Signs signature m → H.Signs signature m' → m = m'

/-- The text of the signature an artifact carries. -/
def carriedSignature : SignedArtifact → JsString
  | .authorization auth _ => (signatureParts auth).sig.text?.getD []
  | .delegation delegation _ => (delegation.field (js "signature")).text?.getD []
  | .envelope bytes _ =>
    match decodeEnvelope syntaxError bytes with
    | .error _ => []
    | .ok envelope => envelope.signature.getD []
  | .krl envelope _ => ((envelope.field (js "signature")).field (js "sig")).text?.getD []

/-- What a signature of the artifact is made or checked over; of an authorization, in two ways. -/
def preimages : SignedArtifact → List (Except JsError (List Byte))
  | .authorization auth _ =>
    [signatureInput H.toPlatform SigningDomain.authV1.text (authorizationSigningPayload auth),
      rawInput H.toPlatform (authorizationSigningPayload auth)]
  | .delegation delegation _ =>
    [signatureInput H.toPlatform SigningDomain.delegationV1.text (delegationSigningPayload delegation)]
  | .envelope bytes _ =>
    match decodeEnvelope syntaxError bytes with
    | .error _ => []
    | .ok envelope =>
      [signatureInput H.toPlatform SigningDomain.envelopeV1.text (envelopeSigningPayload envelope)]
  | .krl envelope _ =>
    [signatureInput H.toPlatform SigningDomain.krlV1.text (signedKrlSigningPayload envelope)]

/-- Made over a preimage of the artifact, or valid for one. -/
def SignatureOf (a : SignedArtifact) (signature : List Byte) : Prop :=
  ∃ message, .ok message ∈ preimages H syntaxError a ∧ H.Signs signature message

end

section

variable {H : Host} {syntaxError : JsString → JsString} {clock : JsNumber} {a b : SignedArtifact}
  {q : KeyQuery} {m : List Byte}

theorem signatureInput_of_mem (h : .ok m ∈ preimages H syntaxError a) :
    (∃ payload, signatureInput H.toPlatform a.cls.domain.text payload = .ok m) ∨
      a.cls = .authorization ∧ ∃ es, rawInput H.toPlatform (.obj es) = .ok m := by
  cases a with
  | authorization auth opts =>
    rcases List.mem_cons.mp h with h | h
    · exact .inl ⟨_, h.symm⟩
    · exact .inr ⟨rfl, present (payloadFields auth), (List.mem_singleton.mp h).symm⟩
  | delegation delegation opts => exact .inl ⟨_, (List.mem_singleton.mp h).symm⟩
  | envelope bytes opts =>
    rw [preimages] at h
    split at h
    · cases h
    · exact .inl ⟨_, (List.mem_singleton.mp h).symm⟩
  | krl envelope opts => exact .inl ⟨_, (List.mem_singleton.mp h).symm⟩

/-- Artifacts of different classes have no preimage in common. -/
theorem cls_of_preimage (ha : .ok m ∈ preimages H syntaxError a) (hb : .ok m ∈ preimages H syntaxError b) :
    a.cls = b.cls := by
  rcases signatureInput_of_mem ha with ⟨v, hv⟩ | ⟨hacls, es, hes⟩
  · rcases signatureInput_of_mem hb with ⟨w, hw⟩ | ⟨-, fs, hfs⟩
    · exact ArtifactClass.domain_inj (signatureInput_inj hv hw).1
    · exact absurd hfs (signatureInput_ne_rawInput hv)
  · rcases signatureInput_of_mem hb with ⟨w, hw⟩ | ⟨hbcls, -⟩
    · exact absurd hes (signatureInput_ne_rawInput hw)
    · rw [hacls, hbcls]

theorem signs_of_verifyEd25519 {domain signature pem : JsString} {payload : JsValue}
    (h : verifyEd25519 H domain payload signature pem = true) :
    ∃ m, signatureInput H.toPlatform domain payload = .ok m ∧ H.Signs (base64Decode signature) m := by
  unfold verifyEd25519 at h
  dsimp only at h
  split at h
  · cases h
  · split at h
    · cases h
    · rename_i key hkey
      split at h
      · cases h
      · rename_i husable
        split at h
        · cases h
        · rename_i m hm
          have hsmall : isSmallOrderEd25519Pem H pem = false := by
            rw [isSmallOrderEd25519Pem, hkey]
            simpa using husable
          exact ⟨m, hm, .inr ⟨pem, key, ⟨hsmall, .inl hkey⟩, h⟩⟩

theorem canonicalSignatureBytes_some {signature : JsString} {bytes : List Byte}
    (h : canonicalSignatureBytes signature = some bytes) : base64Decode signature = bytes := by
  unfold canonicalSignatureBytes at h
  dsimp only at h
  split at h
  · exact Option.some.inj h
  · split at h
    · exact Option.some.inj h
    · cases h

theorem signs_of_verifyEd25519Raw {signature pem : JsString} {payload : JsValue}
    (h : verifyEd25519Raw H payload signature pem = true) :
    ∃ m, rawInput H.toPlatform payload = .ok m ∧ H.Signs (base64Decode signature) m := by
  unfold verifyEd25519Raw at h
  split at h
  · cases h
  · rename_i bytes hbytes
    split at h
    · cases h
    · rename_i hsmall
      split at h
      · rename_i text key htext hkey
        rw [canonicalSignatureBytes_some hbytes]
        refine ⟨utf8Encode text, rawInput_eq_ok.mpr ⟨text, htext, rfl⟩, .inr ⟨pem, key, ⟨?_, .inr hkey⟩, h⟩⟩
        simpa using hsmall
      · cases h

/-- A signature that the check of an artifact finds valid is one over a preimage of it. -/
theorem signatureOf_of_accepts (hq : keyQuery H syntaxError clock b = some q) {key : KeySetKey}
    (h : q.accepts key = true) : SignatureOf H syntaxError b (base64Decode (carriedSignature syntaxError b)) := by
  cases b with
  | authorization auth opts =>
    obtain ⟨-, alg, kid, signature, -, hmat, -, rfl⟩ := authorizationQuery_some hq
    obtain ⟨-, -, -, hsignature⟩ := material_some.mp hmat
    have hcarried : carriedSignature syntaxError (.authorization auth opts) = signature := by
      rw [carriedSignature, hsignature]
      rfl
    rw [hcarried]
    rcases Bool.or_eq_true_iff.mp h with h | h
    · obtain ⟨m, hm, hsigns⟩ := signs_of_verifyEd25519 h
      exact ⟨m, List.mem_cons.mpr (.inl hm.symm), hsigns⟩
    · obtain ⟨m, hm, hsigns⟩ := signs_of_verifyEd25519Raw h
      exact ⟨m, List.mem_cons.mpr (.inr (List.mem_singleton.mpr hm.symm)), hsigns⟩
  | delegation delegation opts =>
    obtain ⟨-, -, -, -, -, rfl⟩ := delegationQuery_some hq
    obtain ⟨m, hm, hsigns⟩ := signs_of_verifyEd25519 h
    exact ⟨m, List.mem_singleton.mpr hm.symm, hsigns⟩
  | envelope bytes opts =>
    rw [keyQuery, envelopeQuery] at hq
    split at hq
    · cases hq
    · rename_i envelope hdec
      obtain ⟨s, -, rfl⟩ := Option.map_eq_some_iff.mp hq
      obtain ⟨m, hm, hsigns⟩ := signs_of_verifyEd25519 h
      refine ⟨m, ?_, ?_⟩
      · rw [preimages, hdec]
        exact List.mem_singleton.mpr hm.symm
      · rw [carriedSignature, hdec]
        exact hsigns
  | krl envelope opts =>
    rw [keyQuery, krlQuery] at hq
    split at hq
    · obtain rfl := Option.some.inj hq
      obtain ⟨m, hm, hsigns⟩ := signs_of_verifyEd25519 h
      exact ⟨m, List.mem_singleton.mpr hm.symm, hsigns⟩
    · cases hq

theorem outcome_verified {key? : Option KeySetKey} (h : q.outcome key? = .verified) :
    ∃ key, q.accepts key = true := by
  obtain ⟨key, -, -, hkey⟩ := keyOutcome_verified.mp h
  exact ⟨key, hkey⟩

theorem exists_report (hq : keyQuery H syntaxError clock b = some q) :
    ∃ report, ReportsOutcome H syntaxError clock b q report := by
  cases b with
  | authorization auth opts => exact authorization_reports hq
  | delegation delegation opts => exact delegation_reports hq
  | envelope bytes opts => exact envelope_reports hq
  | krl envelope opts => exact krl_reports hq

/-- A verifier accepts the artifact only if it finds the signature valid. -/
theorem not_accepted_of_invalid (hq : keyQuery H syntaxError clock b = some q)
    (h : ∀ key, q.accepts key = false) {sets : List KeySet} (hs : sets ≠ []) :
    ¬ Accepted (verdict H syntaxError clock sets b) := by
  intro hacc
  obtain ⟨report, hreport⟩ := exists_report hq
  rw [hreport.verdict_eq sets hs, hreport.accepted] at hacc
  obtain ⟨key, hkey⟩ := outcome_verified hacc.2
  rw [h key] at hkey
  cases hkey

end

section

variable (H : Host) (syntaxError : JsString → JsString) (clock : JsNumber)

/-- No key makes the verifier find the signature valid, and no trusted key set
makes it accept the artifact. -/
def NeverAccepted (a : SignedArtifact) : Prop :=
  ∀ q, keyQuery H syntaxError clock a = some q →
    (∀ key, q.accepts key = false) ∧ ∀ sets, sets ≠ [] → ¬ Accepted (verdict H syntaxError clock sets a)

end

/-- Domain and payload are told from the bytes that are signed, a bare payload is
never a payload in a domain, and a signature of one class is refused by the
verifiers of the others. -/
theorem signing_preimages_separated (H : Host) (syntaxError : JsString → JsString) (clock : JsNumber) :
    (∀ (d d' : SigningDomain) (v w : JsValue) (s t : JsString), canonicalJson H.nfc v = .ok s →
      canonicalJson H.nfc w = .ok t →
        signatureInput H.toPlatform d.text v = signatureInput H.toPlatform d'.text w → d = d' ∧ s = t) ∧
    (∀ (auth : JsValue) (d : SigningDomain) (v : JsValue) (s : JsString),
      canonicalJson H.nfc (authorizationSigningPayload auth) = .ok s →
        signatureInput H.toPlatform d.text v ≠ .ok (utf8Encode s)) ∧
    ∀ (a b : SignedArtifact) (signature : List Byte), a.cls ≠ b.cls → H.OneMessage signature →
      SignatureOf H syntaxError a signature → base64Decode (carriedSignature syntaxError b) = signature →
        NeverAccepted H syntaxError clock b := by
  refine ⟨?_, ?_, ?_⟩
  · intro d d' v w s t hs ht heq
    have hm : signatureInput H.toPlatform d.text v = .ok _ := signatureInput_eq_ok.mpr ⟨s, hs, rfl⟩
    obtain ⟨hdomain, htext⟩ := signatureInput_inj hm (heq ▸ hm)
    rw [hs, ht] at htext
    exact ⟨hdomain, Except.ok.inj htext⟩
  · intro auth d v s hs hm
    exact signatureInput_ne_rawInput hm (rawInput_eq_ok.mpr ⟨s, hs, rfl⟩)
  · intro a b signature hne hone ⟨m, hm, hsigns⟩ hcarried q hq
    have hinvalid : ∀ key, q.accepts key = false := by
      intro key
      by_contra haccepts
      rw [Bool.not_eq_false] at haccepts
      obtain ⟨m', hm', hsigns'⟩ := signatureOf_of_accepts hq haccepts
      rw [hcarried] at hsigns'
      obtain rfl := hone m m' hsigns hsigns'
      exact hne (cls_of_preimage hm hm')
    exact ⟨hinvalid, fun sets hs => not_accepted_of_invalid hq hinvalid hs⟩

/-- The bytes that a signature of the sample delegation is made over. -/
def delegationPreimage : List Byte :=
  utf8Encode (SigningDomain.delegationV1.text ++ js "\n") ++ utf8Encode (jsonText (normalForm sampleNfc
    (delegationSigningPayload (sampleDelegation (js "aa") (.obj [])))))

/-- A key that finds the sample signature valid for the sample delegation only. -/
def delegationKey : PublicKey where
  jwkX := samplePublicKey.jwkX
  verify message sig := message = delegationPreimage ∧ sig = sampleSignatureBytes

def delegatingHost : Host where
  toPlatform := samplePlatform
  createPublicKey _ := some delegationKey

theorem oneMessage_sample : delegatingHost.OneMessage sampleSignatureBytes := by
  have hmessage : ∀ m, delegatingHost.Signs sampleSignatureBytes m → m = delegationPreimage := by
    intro m hm
    rcases hm with ⟨pem, sign, hsign, -⟩ | ⟨pem, key, ⟨-, hkey⟩, hverify⟩
    · cases hsign
    · obtain rfl : delegationKey = key := Option.some.inj (hkey.elim id id)
      rw [delegationKey, decide_eq_true_eq] at hverify
      exact hverify.1
  intro m m' hm hm'
  rw [hmessage m hm, hmessage m' hm']

theorem signatureOf_sample : SignatureOf delegatingHost id (.delegation (sampleDelegation (js "aa") (.obj []))
    (sampleDelegationOptions .undefined)) sampleSignatureBytes := by
  have hsmall : isSmallOrderEd25519Pem delegatingHost [] = false := by
    have husable : isUsableKey delegationKey = true := isUsableKey_sample
    have hkey : delegatingHost.createPublicKey (normalizePem []) = some delegationKey := rfl
    rw [isSmallOrderEd25519Pem, hkey]
    simp [husable]
  have hinput : signatureInput samplePlatform SigningDomain.delegationV1.text
      (delegationSigningPayload (sampleDelegation (js "aa") (.obj []))) = .ok delegationPreimage :=
    map_eq_ok.mpr ⟨_, canonicalJson_ok (P := samplePlatform) (canonical_sampleDelegation (js "aa")), rfl⟩
  have hvalid : delegationKey.verify delegationPreimage sampleSignatureBytes = true := by
    simp [delegationKey]
  exact ⟨delegationPreimage, List.mem_singleton.mpr hinput.symm,
    .inr ⟨[], delegationKey, ⟨hsmall, .inr rfl⟩, hvalid⟩⟩

theorem signing_preimages_separated_sample : NeverAccepted delegatingHost id (.int 1000)
    (.authorization (sampleAuthorization (.num (.int 1060)) (js "Ed25519") sampleSignature [])
      (sampleOptions 1000)) := by
  refine (signing_preimages_separated delegatingHost id (.int 1000)).2.2 _ _ sampleSignatureBytes ?_
    oneMessage_sample signatureOf_sample ?_
  · decide
  · exact base64Decode_encode sampleSignatureBytes

end OxDeAI
