import OxDeAI.Audit.EngineLog
import OxDeAI.Verification.EnvelopeRoundTrip
import OxDeAI.Verification.SnapshotHash

/-! What a configured verifier accepts without a signature: for every header that no
option refuses there is an envelope that passes everything else. -/

namespace OxDeAI

open Js

/-- What an envelope says of its signer. -/
structure EnvelopeHeader where
  issuer : Option JsString
  alg : Option JsString
  kid : Option JsString
  signature : Option JsString

def VerificationEnvelope.header (envelope : VerificationEnvelope) : EnvelopeHeader :=
  ⟨envelope.issuer, envelope.alg, envelope.kid, envelope.signature⟩

/-- The options that let no unsigned envelope of an issuer pass. No event is of the
empty policy that is expected. -/
def RefusesUnsigned (config : VerifierConfig) (opts : VerifyEnvelopeOptions) (issuer : Option JsString) : Prop :=
  opts.requireSignatureVerification = some true ∨ opts.expectedPolicyId = some [] ∨
    ∃ expected, opts.expectedIssuer.or config.expectedIssuer = some expected ∧ issuer ≠ some expected

section

variable {syntaxError : JsString → JsString} {bytes : List Byte} {envelope : VerificationEnvelope}

/-- The header is read from its fields. -/
theorem header_of_assertEnvelope {value : JsValue} (h : assertEnvelope value = .ok envelope) :
    envelope.header = ⟨(value.field (js "issuer")).text?,
      if (value.field (js "alg")).isText (js "Ed25519") then some (js "Ed25519") else none,
      (value.field (js "kid")).text?, (value.field (js "signature")).text?⟩ := by
  unfold assertEnvelope at h
  split at h
  · cases h
  · split at h
    · cases h
    · split at h
      · split at h
        · cases h
        · rw [← Except.ok.inj h]
          rfl
      · cases h
      · cases h

theorem given_text? {value : JsValue} (h : value.hasText = true) : given value.text? = true := by
  cases value with
  | str s =>
    cases s with
    | nil => cases h
    | cons u us => rfl
  | _ => cases h

/-- What the schema lets through is an envelope of its type. -/
theorem consistent_of_decode (h : decodeEnvelope syntaxError bytes = .ok envelope) : Consistent envelope := by
  unfold decodeEnvelope at h
  obtain ⟨value, -, hvalue⟩ := bind_eq_ok.mp h
  split at hvalue
  · cases hvalue
  · rename_i hissues
    unfold validateVerificationEnvelopeWireJson at hissues
    split at hissues
    · cases hissues
    · have hsigned : signedIssues value = [] := (List.append_eq_nil_iff.mp (sortedIssues_eq_nil.mp hissues)).2
      have hheader := header_of_assertEnvelope hvalue
      obtain ⟨hissuer, halg, hkid, hsignature⟩ := EnvelopeHeader.mk.inj hheader
      refine ⟨?_, fun hpresent => ?_⟩
      · rw [halg]
        split
        · exact .inr rfl
        · exact .inl rfl
      · have hstring : (value.field (js "signature")).isString = true := by
          rw [hsignature] at hpresent
          cases hfield : value.field (js "signature") with
          | str s => rfl
          | _ =>
            rw [hfield] at hpresent
            exact absurd rfl hpresent
        rw [signedIssues, if_pos hstring] at hsigned
        simp only [requiredWithSignature, List.append_eq_nil_iff, issueUnless_eq_nil] at hsigned
        obtain ⟨⟨hissuerText, halgText⟩, hkidText⟩ := hsigned
        rw [hissuer, halg, hkid, if_pos halgText]
        exact ⟨given_text? hissuerText, rfl, given_text? hkidText⟩

end

theorem isRecord_nil : (JsValue.obj []).isRecord = true := rfl

def bareSnapshot (policyId : JsString) : CanonicalState := ⟨js "1", policyId, .obj [], isRecord_nil⟩

def bareSnapshotBytes (policyId : JsString) : List Byte := utf8Encode (jsonText (bareSnapshot policyId).toValue)

def bareCheckpoint (policyId : JsString) : JsValue :=
  normalForm id (AuditEvent.stateCheckpoint (js "0") (.int 1000) policyId).value

def bareEnvelope (policyId : JsString) (header : EnvelopeHeader) : VerificationEnvelope :=
  ⟨bareSnapshotBytes policyId, [bareCheckpoint policyId], header.issuer, header.alg, header.kid, header.signature⟩

def bareBytes (policyId : JsString) (header : EnvelopeHeader) : List Byte :=
  utf8Encode (jsonText (normalForm id (toWire (bareEnvelope policyId header))))

section

variable {policyId : JsString} {header : EnvelopeHeader} {H : Host} {syntaxError : JsString → JsString}
  {opts : VerifyEnvelopeOptions}

theorem bareCheckpoint_eq : bareCheckpoint policyId = .obj [(js "policyId", .str policyId),
    (js "stateHash", .str (js "0")), (js "timestamp", .num (.int 1000)), (js "type", .str (js "STATE_CHECKPOINT"))] :=
  rfl

theorem keepsText_id : KeepsText id := fun _ h => h

theorem nfcLaws_id : NfcLaws id := ⟨fun _ _ => rfl, fun _ => rfl⟩

/-- Four members of plain keys. -/
theorem canonical_bareCheckpoint {nfc : JsString → JsString} (hn : NfcLaws nfc) :
    Canonical nfc (bareCheckpoint policyId) := by
  have hplain : [js "policyId", js "stateHash", js "timestamp", js "type"].all isPlainKey = true := by decide
  have hnodup : [js "policyId", js "stateHash", js "timestamp", js "type"].Nodup := by decide
  rw [bareCheckpoint_eq]
  refine (canonical_plain hn ?_ ?_).mpr fun e he => ?_
  · exact hplain
  · exact hnodup
  · simp only [List.mem_cons, List.not_mem_nil, or_false] at he
    rcases he with rfl | rfl | rfl | rfl
    · exact .str _
    · exact .str _
    · exact .int (by decide)
    · exact .str _

theorem validate_bareCheckpoint : validateAuditEventJson (bareCheckpoint policyId) = [] := by
  rfl

theorem readBack_bareEnvelope (halg : header.alg = none ∨ header.alg = some (js "Ed25519")) :
    readBack id (bareEnvelope policyId header) = bareEnvelope policyId header := by
  have halgorithm : (if header.alg = some (js "Ed25519") then some (js "Ed25519") else none) = header.alg := by
    rcases halg with h | h <;> simp [h]
  simp only [readBack, bareEnvelope, Option.map_id, id, halgorithm]
  rfl

theorem isJson_bareSnapshot : IsJson (bareSnapshot policyId).toValue := by
  have hnodup : canonicalStateKeys.Nodup := by decide
  refine .obj hnodup fun e he => ?_
  simp only [List.mem_cons, List.not_mem_nil, or_false] at he
  rcases he with rfl | rfl | rfl | rfl
  · exact .int (by decide)
  · exact .str _
  · exact .str _
  · exact .obj List.nodup_nil fun e he => absurd he List.not_mem_nil

theorem decode_bareSnapshot (syntaxError : JsString → JsString) :
    decodeCanonicalState syntaxError (bareSnapshotBytes policyId) = .ok (bareSnapshot policyId) := by
  rw [decodeCanonicalState, parseBytes, bareSnapshotBytes, textDecode_jsonText isJson_bareSnapshot,
    parseJson_jsonText isJson_bareSnapshot]
  rfl

theorem bareSnapshotBytes_ne_nil : bareSnapshotBytes policyId ≠ [] := by
  intro h
  have hempty : (decodeCanonicalState id []).toOption.isSome = false := by decide
  have hread : decodeCanonicalState id (bareSnapshotBytes policyId) = .ok (bareSnapshot policyId) :=
    decode_bareSnapshot id
  rw [h] at hread
  rw [hread] at hempty
  cases hempty

/-- The bytes are read as the bare envelope, for a header that an envelope may carry. -/
theorem decode_bareEnvelope (syntaxError : JsString → JsString) (hconsistent : Consistent (bareEnvelope policyId header)) :
    decodeEnvelope syntaxError (bareBytes policyId header) = .ok (bareEnvelope policyId header) := by
  have hevents : ∀ event ∈ (bareEnvelope policyId header).events, event = bareCheckpoint policyId :=
    fun event hevent => List.mem_singleton.mp hevent
  have hcanonical : Canonical id (toWire (bareEnvelope policyId header)) := by
    refine canonical_wire nfcLaws_id fun event hevent => ?_
    rw [hevents event hevent]
    exact canonical_bareCheckpoint nfcLaws_id
  have hcloneable : areCloneable (bareEnvelope policyId header).events = true := rfl
  have hencode : encodeEnvelope { samplePlatform with nfc := id } (bareEnvelope policyId header) =
      .ok (bareBytes policyId header) := by
    rw [encodeEnvelope, hcloneable]
    exact map_eq_ok.mpr ⟨_, canonicalJson_ok hcanonical, rfl⟩
  have hvalid : ∀ event ∈ (bareEnvelope policyId header).events, validateAuditEventJson event = [] := by
    intro event hevent
    rw [hevents event hevent]
    exact validate_bareCheckpoint
  rw [decodeEnvelope_encoded nfcLaws_id keepsText_id hconsistent hvalid bareSnapshotBytes_ne_nil hencode]
  exact congrArg Except.ok (readBack_bareEnvelope hconsistent.alg)

theorem snapshotStateHash_bare {P : Platform} (hn : NfcLaws P.nfc) :
    ∃ hash, snapshotStateHash P (bareSnapshot policyId) = .ok hash := by
  have hplain : canonicalStateKeys.all isPlainKey = true := by decide
  have hnodup : canonicalStateKeys.Nodup := by decide
  have hc : Canonical P.nfc (bareSnapshot policyId).toValue := by
    refine (canonical_plain hn ?_ ?_).mpr fun e he => ?_
    · exact hplain
    · exact hnodup
    · simp only [List.mem_cons, List.not_mem_nil, or_false] at he
      rcases he with rfl | rfl | rfl | rfl
      · exact .int (by decide)
      · exact .str _
      · exact .str _
      · exact .obj ⟨List.nodup_nil, fun e he => absurd he List.not_mem_nil⟩ fun e he => absurd he List.not_mem_nil
  exact ⟨_, sha256HexFromJson_ok.mpr ⟨hc, rfl⟩⟩

/-- The policy that is expected, if one is. -/
def ExpectsPolicy (opts : VerifyEnvelopeOptions) (policyId : JsString) : Prop :=
  opts.expectedPolicyId = none ∨ opts.expectedPolicyId = some policyId

theorem snapshot_bareEnvelope (hn : NfcLaws H.nfc) (hpolicy : policyId ≠ []) (hexpected : ExpectsPolicy opts policyId) :
    ∃ hash, envelopeSnapshotResult H (bareEnvelope policyId header) syntaxError opts =
      { ok := true, status := .ok, violations := [], stateHash := some hash, policyId := some policyId } := by
  obtain ⟨hash, hhash⟩ : ∃ hash, snapshotStateHash H.toPlatform (bareSnapshot policyId) = .ok hash :=
    snapshotStateHash_bare hn
  have hother : ¬ (opts.expectedPolicyId.getD [] ≠ [] ∧ opts.expectedPolicyId ≠ some policyId) := by
    rcases hexpected with h | h <;> simp [h]
  refine ⟨hash, ?_⟩
  rw [envelopeSnapshotResult, verifySnapshot, bareEnvelope, decode_bareSnapshot]
  have hpolicyId : (bareSnapshot policyId).policyId = policyId := rfl
  have hissues : validateCanonicalStateJson (bareSnapshot policyId).toValue = [] :=
    validateCanonicalStateJson_toValue (by rwa [hpolicyId])
  simp only [verifyDecodedSnapshot, hissues, hpolicyId, hpolicy, if_neg hother, hhash, ne_eq, not_true, if_false]

theorem audit_bareEnvelope (hn : NfcLaws H.nfc) (hpolicy : policyId ≠ []) (hmode : opts.mode = some .strict)
    (hexpected : ExpectsPolicy opts policyId) :
    ∃ head, envelopeAuditResult H (bareEnvelope policyId header) opts =
      { ok := true, status := .ok, violations := [], policyId := some policyId, auditHeadHash := some head } := by
  have hlink : chainHash H.toPlatform (auditGenesisHash H.toPlatform) (bareCheckpoint policyId) = .ok _ :=
    map_eq_ok.mpr ⟨_, canonicalJson_ok (canonical_bareCheckpoint hn), rfl⟩
  obtain ⟨u, us, rfl⟩ := List.exists_cons_of_ne_nil hpolicy
  have hrecord : (bareCheckpoint (u :: us)).isRecord = true := rfl
  have hfield : (bareCheckpoint (u :: us)).field (js "policyId") = .str (u :: us) := rfl
  have htimestamp : (bareCheckpoint (u :: us)).field (js "timestamp") = .num (.int 1000) := rfl
  have hmatches : policyIdViolations { expectedPolicyId := opts.expectedPolicyId, mode := some .strict }
      (bareCheckpoint (u :: us)) 0 = [] := by
    rcases hexpected with h | h <;> simp [policyIdViolations, h, hfield]
  simp only [envelopeAuditResult, bareEnvelope, verifyAuditEvents, scanEvents, scanEvent, hrecord,
    validate_bareCheckpoint, htimestamp, hmode, hmatches, hlink]
  exact ⟨_, rfl⟩

theorem policy_bareEnvelope (hpolicy : policyId ≠ []) : checkEnvelopePolicy (some policyId) (some policyId) = [] := by
  simp [checkEnvelopePolicy, given, hpolicy, check]

/-- The bare envelope of the expected policy passes all that needs no key. -/
theorem holds_bareEnvelope (hn : NfcLaws H.nfc) (hpolicy : policyId ≠ []) (hmode : opts.mode = some .strict)
    (hexpected : ExpectsPolicy opts policyId) (horigin : checkEnvelopeOrigin (bareEnvelope policyId header) opts = []) :
    EnvelopeHolds H syntaxError opts (bareEnvelope policyId header) := by
  obtain ⟨hash, hsnapshot⟩ : ∃ hash, envelopeSnapshotResult H (bareEnvelope policyId header) syntaxError opts =
      { ok := true, status := .ok, violations := [], stateHash := some hash, policyId := some policyId } :=
    snapshot_bareEnvelope hn hpolicy hexpected
  obtain ⟨head, haudit⟩ : ∃ head, envelopeAuditResult H (bareEnvelope policyId header) opts =
      { ok := true, status := .ok, violations := [], policyId := some policyId, auditHeadHash := some head } :=
    audit_bareEnvelope hn hpolicy hmode hexpected
  refine ⟨by rw [hsnapshot], by rw [haudit], horigin, ?_⟩
  rw [hsnapshot, haudit]
  exact policy_bareEnvelope hpolicy

/-- No list of events is of the empty policy, and none is not enough. -/
theorem not_audit_emptyPolicy {P : Platform} {events : List JsValue} {auditOpts : VerifyAuditOptions}
    (hstrict : anchorsRequired auditOpts = true) (hexpected : auditOpts.expectedPolicyId = some []) :
    (verifyAuditEvents P (.arr events) auditOpts).status ≠ .ok := by
  intro hok
  have hnone := verifyAuditEvents_violations hok
  simp only [verifyAuditEvents, violations_auditVerdict] at hnone
  have hall := fun v hv => List.eq_nil_iff_forall_not_mem.mp hnone v (mem_sortViolations.mpr hv)
  cases events with
  | nil =>
    rw [← anchorsRequired, hstrict] at hall
    exact hall _ (List.mem_append_right _ (List.mem_singleton_self _))
  | cons event events =>
    rw [scanEvents] at hall
    obtain ⟨vs, hvs⟩ := scanEvents_violations P auditOpts
      (scanEvent P auditOpts ⟨[], [], false, auditGenesisHash P, none⟩ 0 event) 1 events
    have hfirst : (scanEvent P auditOpts ⟨[], [], false, auditGenesisHash P, none⟩ 0 event).violations = [] := by
      refine List.eq_nil_iff_forall_not_mem.mpr fun v hv => hall v ?_
      rw [hvs]
      exact List.mem_append_left _ (List.mem_append_left _ (List.mem_append_left _ hv))
    have hunbroken : Unbroken (scanEvent P auditOpts ⟨[], [], false, auditGenesisHash P, none⟩ 0 event).violations := by
      simp [hfirst, Unbroken]
    obtain ⟨hvalid, hhash⟩ := scanEvent_accepted hunbroken
    obtain ⟨-, -, ⟨t, ht⟩, -⟩ := validateAuditEventJson_eq_nil hvalid
    rw [scanEvent_valid auditOpts 0 hvalid ht hhash] at hfirst
    have hpolicy := (List.append_eq_nil_iff.mp hfirst).2
    unfold policyIdViolations at hpolicy
    rw [hexpected] at hpolicy
    dsimp only at hpolicy
    split at hpolicy
    · simp at hpolicy
    · cases hpolicy

/-- An option that refuses an unsigned envelope keeps it from passing. -/
theorem given_of_refuses {config : VerifierConfig} {envelope : VerificationEnvelope}
    (hrefuses : RefusesUnsigned config opts envelope.issuer)
    (hholds : EnvelopeHolds H syntaxError (config.bindEnvelope opts) envelope) : given envelope.signature = true := by
  have horigin := hholds.origin
  unfold checkEnvelopeOrigin at horigin
  obtain ⟨hissuer, hsigned⟩ := List.append_eq_nil_iff.mp horigin
  rw [check_eq_nil] at hissuer hsigned
  rcases hrefuses with hrequire | hpolicy | ⟨expected, hexpected, hother⟩
  · have hbound : (config.bindEnvelope opts).requireSignatureVerification = some true := hrequire
    rw [hbound] at hsigned
    exact hsigned
  · exact absurd hholds.audit (not_audit_emptyPolicy rfl hpolicy)
  · have hbound : (config.bindEnvelope opts).expectedIssuer = some expected := hexpected
    rw [hbound] at hissuer
    exact absurd (of_decide_eq_true hissuer) hother

/-- Nothing else asks for a signature or for another issuer. -/
theorem origin_of_not_refuses {config : VerifierConfig} {envelope : VerificationEnvelope}
    (hrefuses : ¬ RefusesUnsigned config opts envelope.issuer) :
    checkEnvelopeOrigin envelope (config.bindEnvelope opts) = [] := by
  simp only [RefusesUnsigned, not_or, not_exists, not_and, not_not] at hrefuses
  obtain ⟨hrequire, -, hissuer⟩ := hrefuses
  rw [checkEnvelopeOrigin, List.append_eq_nil_iff, check_eq_nil, check_eq_nil]
  constructor
  · cases hexpected : opts.expectedIssuer.or config.expectedIssuer with
    | none => simp [VerifierConfig.bindEnvelope, hexpected]
    | some expected => simp [VerifierConfig.bindEnvelope, hexpected, hissuer expected hexpected]
  · cases hrequired : opts.requireSignatureVerification with
    | none => simp [VerifierConfig.bindEnvelope, hrequired]
    | some required =>
      cases required with
      | false => simp [VerifierConfig.bindEnvelope, hrequired]
      | true => exact absurd hrequired hrequire

end

section

variable {H : Host} {syntaxError : JsString → JsString} {config : VerifierConfig} {clock : JsNumber}
  {opts : VerifyEnvelopeOptions} {header : EnvelopeHeader}

theorem createVerifier_ok {verifier : BoundVerifier} (h : createVerifier config H syntaxError = .ok verifier) :
    config.trustedKeySets ≠ [] ∧ verifier.verifyEnvelope =
      fun clock bytes opts => verifyEnvelope H syntaxError clock bytes (config.bindEnvelope opts) := by
  unfold createVerifier at h
  split at h
  · cases h
  · rename_i hne
    rw [← Except.ok.inj h]
    exact ⟨hne, rfl⟩

/-- Some policy is not refused. -/
theorem exists_expectsPolicy {issuer : Option JsString} (hrefuses : ¬ RefusesUnsigned config opts issuer) :
    ∃ policyId, policyId ≠ [] ∧ ExpectsPolicy opts policyId := by
  cases hexpected : opts.expectedPolicyId with
  | none => exact ⟨js "p", by decide, .inl hexpected⟩
  | some policyId => exact ⟨policyId, fun hnil => hrefuses (.inr (.inl (hnil ▸ hexpected))), .inr hexpected⟩

/-- Without a signature the bare envelope is accepted, under a header that no option
refuses. -/
theorem accepts_bareEnvelope {policyId : JsString} (hn : NfcLaws H.nfc) (htrust : config.trustedKeySets ≠ [])
    (hconsistent : Consistent (bareEnvelope policyId header)) (hunsigned : given header.signature = false)
    (hpolicy : policyId ≠ []) (hexpected : ExpectsPolicy opts policyId)
    (hrefuses : ¬ RefusesUnsigned config opts header.issuer) :
    (verifyEnvelope H syntaxError clock (bareBytes policyId header) (config.bindEnvelope opts)).ok = true := by
  have habsent : given (bareEnvelope policyId header).signature = false := hunsigned
  refine (verifyEnvelope_decoded htrust (decode_bareEnvelope syntaxError hconsistent)).mpr ⟨?_, ?_⟩
  · exact holds_bareEnvelope hn hpolicy rfl hexpected (origin_of_not_refuses hrefuses)
  · simp [checkEnvelopeSignature, habsent]

end

/-- Whatever is accepted under a header is signed exactly if the header carries a
signature or an option refuses it without one. -/
theorem accepts_only_signed_iff (H : Host) (hn : NfcLaws H.nfc) (syntaxError : JsString → JsString)
    (config : VerifierConfig) {verifier : BoundVerifier} (hverifier : createVerifier config H syntaxError = .ok verifier)
    (clock : JsNumber) (opts : VerifyEnvelopeOptions) {header : EnvelopeHeader}
    (hheader : ∃ bytes envelope, decodeEnvelope syntaxError bytes = .ok envelope ∧ envelope.header = header) :
    (∀ bytes, (∀ envelope, decodeEnvelope syntaxError bytes = .ok envelope → envelope.header = header) →
      (verifier.verifyEnvelope clock bytes opts).ok = true → ∃ envelope,
        decodeEnvelope syntaxError bytes = .ok envelope ∧
          SignedUnder H config.trustedKeySets (opts.now.getD clock) envelope) ↔
      given header.signature = true ∨ RefusesUnsigned config opts header.issuer := by
  obtain ⟨htrust, hverify⟩ := createVerifier_ok hverifier
  rw [hverify]
  dsimp only
  constructor
  · intro hsigned
    by_contra hneither
    rw [not_or, Bool.not_eq_true] at hneither
    obtain ⟨hunsigned, hrefuses⟩ := hneither
    obtain ⟨policyId, hpolicy, hexpected⟩ := exists_expectsPolicy hrefuses
    have hconsistent : Consistent (bareEnvelope policyId header) := by
      obtain ⟨bytes, envelope, hdecode, rfl⟩ := hheader
      exact ⟨(consistent_of_decode hdecode).alg, (consistent_of_decode hdecode).signed⟩
    have hbare := decode_bareEnvelope syntaxError hconsistent
    have hsame : ∀ envelope, decodeEnvelope syntaxError (bareBytes policyId header) = .ok envelope →
        envelope.header = header := by
      intro envelope hdecode
      rw [← Except.ok.inj (hbare.symm.trans hdecode)]
      rfl
    obtain ⟨envelope, hdecode, hunder⟩ := hsigned (bareBytes policyId header) hsame
      (accepts_bareEnvelope hn htrust hconsistent hunsigned hpolicy hexpected hrefuses)
    have hgiven : given header.signature = true := by
      rw [← hsame envelope hdecode]
      exact hunder.signature
    rw [hgiven] at hunsigned
    cases hunsigned
  · intro hcondition bytes hbytes haccepted
    cases hdecode : decodeEnvelope syntaxError bytes with
    | error e =>
      rw [verifyEnvelope, verifyEnvelopeBy, hdecode] at haccepted
      simp [malformedEnvelope_ok] at haccepted
    | ok envelope =>
      obtain ⟨hholds, hquiet⟩ := (verifyEnvelope_decoded htrust hdecode).mp haccepted
      refine ⟨envelope, rfl, checked_of_no_violation hquiet ?_⟩
      have hheader := hbytes envelope hdecode
      rcases hcondition with hgiven | hrefuses
      · rw [← hheader] at hgiven
        exact hgiven
      · rw [← hheader] at hrefuses
        exact given_of_refuses hrefuses hholds

def emptyHeader : EnvelopeHeader := ⟨none, none, none, none⟩

def signedHeader : EnvelopeHeader := ⟨some (js "issuer-1"), some (js "Ed25519"), some (js "k1"), some (js "AA==")⟩

theorem consistent_emptyHeader : Consistent (bareEnvelope (js "p") emptyHeader) := ⟨.inl rfl, fun h => absurd rfl h⟩

theorem consistent_signedHeader : Consistent (bareEnvelope (js "p") signedHeader) := ⟨.inr rfl, fun _ => by decide⟩

/-- A bare snapshot and a checkpoint of its policy are accepted. -/
theorem verifier_accepts_unsigned : ¬ ∀ (H : Host) (syntaxError : JsString → JsString) (config : VerifierConfig)
    (verifier : BoundVerifier) (clock : JsNumber) (bytes : List Byte) (opts : VerifyEnvelopeOptions), NfcLaws H.nfc →
    createVerifier config H syntaxError = .ok verifier → (verifier.verifyEnvelope clock bytes opts).ok = true →
      ∃ envelope, decodeEnvelope syntaxError bytes = .ok envelope ∧
        SignedUnder H config.trustedKeySets (opts.now.getD clock) envelope := by
  intro hclaim
  have hrefuses : ¬ RefusesUnsigned ⟨[sampleKeySet], none⟩ {} emptyHeader.issuer := by
    simp [RefusesUnsigned, emptyHeader]
  have haccepted : (verifyEnvelope sampleHost id (.int 1000) (bareBytes (js "p") emptyHeader)
      (VerifierConfig.bindEnvelope ⟨[sampleKeySet], none⟩ {})).ok = true :=
    accepts_bareEnvelope samplePlatform_laws.nfc (List.cons_ne_nil _ _) consistent_emptyHeader rfl (by decide)
      (.inl rfl) hrefuses
  obtain ⟨envelope, hdecode, hsigned⟩ := hclaim sampleHost id ⟨[sampleKeySet], none⟩ _ (.int 1000)
    (bareBytes (js "p") emptyHeader) {} samplePlatform_laws.nfc rfl haccepted
  have hsignature := hsigned.signature
  rw [← Except.ok.inj ((decode_bareEnvelope id consistent_emptyHeader).symm.trans hdecode)] at hsignature
  cases hsignature

/-- Of the signed header all that is accepted is signed, of the empty one only under a
verifier that demands it. -/
theorem accepts_only_signed_iff_sample :
    (∀ bytes, (∀ envelope, decodeEnvelope id bytes = .ok envelope → envelope.header = signedHeader) →
      (verifyEnvelope sampleHost id (.int 1000) bytes (VerifierConfig.bindEnvelope ⟨[sampleKeySet], none⟩ {})).ok = true →
        ∃ envelope, decodeEnvelope id bytes = .ok envelope ∧
          SignedUnder sampleHost [sampleKeySet] (.int 1000) envelope) ∧
    (∀ bytes, (∀ envelope, decodeEnvelope id bytes = .ok envelope → envelope.header = emptyHeader) →
      (verifyEnvelope sampleHost id (.int 1000) bytes
        (VerifierConfig.bindEnvelope ⟨[sampleKeySet], none⟩ { requireSignatureVerification := some true })).ok = true →
        ∃ envelope, decodeEnvelope id bytes = .ok envelope ∧
          SignedUnder sampleHost [sampleKeySet] (.int 1000) envelope) := by
  have hn : NfcLaws sampleHost.nfc := samplePlatform_laws.nfc
  constructor
  · exact (accepts_only_signed_iff sampleHost hn id ⟨[sampleKeySet], none⟩ rfl (.int 1000) {}
      ⟨_, _, decode_bareEnvelope id consistent_signedHeader, rfl⟩).mpr (.inl rfl)
  · exact (accepts_only_signed_iff sampleHost hn id ⟨[sampleKeySet], none⟩ rfl (.int 1000)
      { requireSignatureVerification := some true }
      ⟨_, _, decode_bareEnvelope id consistent_emptyHeader, rfl⟩).mpr (.inr (.inl rfl))

end OxDeAI
