import OxDeAI.Crypto.KeyPair
import OxDeAI.Verification.EncodeEnvelope
import OxDeAI.Verification.Verifier

/-! An envelope is read as it was written, up to the normal form of its strings, and
its signature holds for what is read. -/

namespace OxDeAI

open Js

/-- An envelope of its type: the algorithm is the one there is, and a signature comes
with the names of its key. -/
structure Consistent (envelope : VerificationEnvelope) : Prop where
  alg : envelope.alg = none ∨ envelope.alg = some (js "Ed25519")
  signed : envelope.signature ≠ none →
    given envelope.issuer = true ∧ envelope.alg = some (js "Ed25519") ∧ given envelope.kid = true

/-- The same fields, each string in normal form. -/
def ReadsEvent (nfc : JsString → JsString) (event event' : JsValue) : Prop :=
  event'.isRecord = true ∧
    ∀ key, ownEntry key event'.entries = (ownEntry key event.entries).map (normalTexts nfc)

/-- The same envelope up to the normal form of strings. -/
structure ReadsEnvelope (nfc : JsString → JsString) (envelope envelope' : VerificationEnvelope) : Prop where
  snapshot : envelope'.snapshot = envelope.snapshot
  events : List.Forall₂ (ReadsEvent nfc) envelope.events envelope'.events
  issuer : envelope'.issuer = envelope.issuer.map nfc
  alg : envelope'.alg = envelope.alg
  kid : envelope'.kid = envelope.kid.map nfc
  signature : envelope'.signature = envelope.signature.map nfc

section

variable {P : Platform} {envelope : VerificationEnvelope} {bytes : List Byte}

theorem encodeEnvelope_ok (h : encodeEnvelope P envelope = .ok bytes) :
    Canonical P.nfc (toWire envelope) ∧ bytes = utf8Encode (jsonText (normalForm P.nfc (toWire envelope))) := by
  unfold encodeEnvelope at h
  split at h
  · cases h
  · obtain ⟨text, htext, rfl⟩ := map_eq_ok.mp h
    obtain ⟨hc, rfl⟩ := (canonicalizeToJson_ok _ _).mp htext
    exact ⟨hc, rfl⟩

theorem parseBytes_encoded (syntaxError : JsString → JsString) (h : encodeEnvelope P envelope = .ok bytes) :
    parseBytes syntaxError bytes = .ok (normalForm P.nfc (toWire envelope)) := by
  obtain ⟨hc, rfl⟩ := encodeEnvelope_ok h
  have hjson := isJson_normalForm hc
  rw [parseBytes, textDecode_jsonText hjson, parseJson_jsonText hjson]

theorem canonical_events (hc : Canonical P.nfc (toWire envelope)) :
    ∀ event ∈ envelope.events, Canonical P.nfc event := by
  intro event hevent
  have hmember : (js "events", JsValue.arr (envelope.events.map toPlain)) ∈ present (wireFields envelope) :=
    List.mem_filterMap.mpr ⟨(js "events", some _), by simp [wireFields], rfl⟩
  cases hc with
  | obj _ h =>
    cases h _ hmember with
    | arr h => exact canonical_of_toPlain (h _ (List.mem_map_of_mem hevent))

end

section

variable {nfc : JsString → JsString} {envelope : VerificationEnvelope}

theorem field_snapshot (hn : NfcLaws nfc) :
    (normalForm nfc (toWire envelope)).field (js "snapshot") = .str (base64Encode envelope.snapshot) := by
  rw [field_wire hn (v := some (.str (base64Encode envelope.snapshot))) (by simp [wireFields]), Option.map_some,
    normalForm, hn.ascii _ (isAscii_base64Encode _)]
  rfl

theorem field_events (hn : NfcLaws nfc) :
    (normalForm nfc (toWire envelope)).field (js "events") = .arr (envelope.events.map (normalForm nfc)) := by
  rw [field_wire hn (v := some (.arr (envelope.events.map toPlain))) (by simp [wireFields]), Option.map_some,
    normalForm, normalElements_eq_map, List.map_map]
  have hplain : normalForm nfc ∘ toPlain = normalForm nfc := funext normalForm_toPlain
  rw [hplain]
  rfl

theorem isOne_wire (hn : NfcLaws nfc) :
    isOne ((normalForm nfc (toWire envelope)).field (js "formatVersion")) = true := by
  rw [field_wire hn (v := some (.num (.int 1))) (by simp [wireFields])]
  rfl

theorem field_issuer (hn : NfcLaws nfc) : (normalForm nfc (toWire envelope)).field (js "issuer") =
    ((envelope.issuer.map nfc).map JsValue.str).getD .undefined := field_wire_text hn (by simp [wireFields])

theorem field_alg (hn : NfcLaws nfc) : (normalForm nfc (toWire envelope)).field (js "alg") =
    ((envelope.alg.map nfc).map JsValue.str).getD .undefined := field_wire_text hn (by simp [wireFields])

theorem field_kid (hn : NfcLaws nfc) : (normalForm nfc (toWire envelope)).field (js "kid") =
    ((envelope.kid.map nfc).map JsValue.str).getD .undefined := field_wire_text hn (by simp [wireFields])

theorem field_signature (hn : NfcLaws nfc) : (normalForm nfc (toWire envelope)).field (js "signature") =
    ((envelope.signature.map nfc).map JsValue.str).getD .undefined := field_wire_text hn (by simp [wireFields])

theorem text?_getD (text : Option JsString) : ((text.map JsValue.str).getD .undefined).text? = text := by
  cases text <;> rfl

theorem isText_getD {text : Option JsString} {s : JsString} :
    ((text.map JsValue.str).getD .undefined).isText s = true ↔ text = some s := by
  cases text <;> simp [JsValue.isText]

/-- What passes the schema is read as the envelope written. -/
theorem assertEnvelope_wire (hn : NfcLaws nfc) {envelope' : VerificationEnvelope}
    (h : assertEnvelope (normalForm nfc (toWire envelope)) = .ok envelope') : envelope' = readBack nfc envelope := by
  have hrecord : (normalForm nfc (toWire envelope)).isRecord = true := rfl
  unfold assertEnvelope at h
  rw [if_neg (by simp [hrecord]), if_neg (by simp [isOne_wire hn]), field_snapshot hn, field_events hn] at h
  dsimp only at h
  split at h
  · cases h
  · rw [← Except.ok.inj h, field_issuer hn, field_alg hn, field_kid hn, field_signature hn]
    simp only [text?_getD, isText_getD, base64Decode_encode, List.map_map]
    rfl

theorem exists_assertEnvelope (hn : NfcLaws nfc)
    (hrecords : ∀ event ∈ envelope.events, (normalForm nfc event).isRecord = true) :
    assertEnvelope (normalForm nfc (toWire envelope)) = .ok (readBack nfc envelope) := by
  have hrecord : (normalForm nfc (toWire envelope)).isRecord = true := rfl
  have hfind : (envelope.events.map (normalForm nfc)).findIdx? (fun event => !event.isRecord) = none := by
    rw [List.findIdx?_eq_none_iff]
    intro event hevent
    obtain ⟨x, hx, rfl⟩ := List.mem_map.mp hevent
    simp [hrecords x hx]
  have hsome : ∃ envelope', assertEnvelope (normalForm nfc (toWire envelope)) = .ok envelope' := by
    rw [assertEnvelope, if_neg (by simp [hrecord]), if_neg (by simp [isOne_wire hn]), field_snapshot hn,
      field_events hn]
    simp only [hfind]
    exact ⟨_, rfl⟩
  obtain ⟨envelope', henvelope⟩ := hsome
  rw [henvelope, assertEnvelope_wire hn henvelope]

theorem isString_getD {text : Option JsString} :
    ((text.map JsValue.str).getD .undefined).isString = text.isSome := by
  cases text <;> rfl

theorem hasText_getD {text : Option JsString} :
    ((text.map JsValue.str).getD .undefined).hasText = given text := by
  cases text with
  | none => rfl
  | some s => cases s <;> rfl

theorem given_map (hkeeps : KeepsText nfc) {text : Option JsString} (h : given text = true) :
    given (text.map nfc) = true := by
  cases text with
  | none => cases h
  | some s =>
    have hs : s ≠ [] := by simpa [given] using h
    have hnfc : nfc s ≠ [] := fun hnil => hs (hkeeps s hnil)
    simpa [given] using hnfc

/-- A text that is there passes the check of its type. -/
theorem whenPresent_text (hn : NfcLaws nfc) {key : JsString} {text : Option JsString} {code : IssueCode}
    {message : JsString} (hf : (key, text.map JsValue.str) ∈ wireFields envelope) :
    whenPresent (normalForm nfc (toWire envelope)) key
      ((normalForm nfc (toWire envelope)).field key).isString code message = [] := by
  rw [whenPresent, issueUnless_eq_nil, has_wire hn hf, field_wire_text hn hf, isString_getD]
  cases text <;> rfl

theorem eventListIssues_wire (hn : NfcLaws nfc)
    (hvalid : ∀ event ∈ envelope.events, validateAuditEventJson (normalForm nfc event) = []) :
    eventListIssues (normalForm nfc (toWire envelope)) = [] := by
  rw [eventListIssues, field_events hn]
  dsimp only
  rw [List.flatMap_eq_nil_iff]
  intro e he
  obtain ⟨event, hevent, hform⟩ := List.mem_map.mp (List.fst_mem_of_mem_zipIdx he)
  rw [eventIssues, ← hform, hvalid event hevent]
  rfl

theorem signedIssues_wire (hn : NfcLaws nfc) (hkeeps : KeepsText nfc) (hconsistent : Consistent envelope) :
    signedIssues (normalForm nfc (toWire envelope)) = [] := by
  unfold signedIssues
  rw [field_signature hn, isString_getD, Option.isSome_map]
  split
  · rename_i hsigned
    obtain ⟨hissuer, halg, hkid⟩ := hconsistent.signed (Option.isSome_iff_ne_none.mp hsigned)
    have hname : nfc (js "Ed25519") = js "Ed25519" := hn.ascii _ (by decide)
    simp only [requiredWithSignature, List.append_eq_nil_iff, issueUnless_eq_nil, field_issuer hn, field_alg hn,
      field_kid hn, hasText_getD, isText_getD]
    refine ⟨⟨given_map hkeeps hissuer, ?_⟩, given_map hkeeps hkid⟩
    rw [halg, Option.map_some, hname]
  · rfl

theorem missingKeys_wire (hn : NfcLaws nfc) :
    missingKeys (normalForm nfc (toWire envelope)) envelopeRequiredKeys = [] := by
  have hhas : ∀ {key : JsString} {v : JsValue}, (key, some v) ∈ wireFields envelope →
      (normalForm nfc (toWire envelope)).has key = true := fun hf => has_wire hn hf
  simp only [missingKeys, List.flatMap_eq_nil_iff, issueUnless_eq_nil]
  intro key hkey
  rcases List.mem_cons.mp hkey with rfl | hkey
  · exact hhas (v := .num (.int 1)) (by simp [wireFields])
  · rcases List.mem_cons.mp hkey with rfl | hkey
    · exact hhas (v := .str (base64Encode envelope.snapshot)) (by simp [wireFields])
    · rw [List.mem_singleton.mp hkey]
      exact hhas (v := .arr (envelope.events.map toPlain)) (by simp [wireFields])

/-- What is written passes the schema of the wire. -/
theorem validate_wire (hn : NfcLaws nfc) (hkeeps : KeepsText nfc) (hconsistent : Consistent envelope)
    (hsnapshot : envelope.snapshot ≠ [])
    (hvalid : ∀ event ∈ envelope.events, validateAuditEventJson (normalForm nfc event) = []) :
    validateVerificationEnvelopeWireJson (normalForm nfc (toWire envelope)) = [] := by
  have hrecord : (normalForm nfc (toWire envelope)).isRecord = true := rfl
  have halg : whenPresent (normalForm nfc (toWire envelope)) (js "alg")
      (((normalForm nfc (toWire envelope)).field (js "alg")).isText (js "Ed25519")) .enum (js "must be Ed25519") = [] := by
    have hhas : (normalForm nfc (toWire envelope)).has (js "alg") = (envelope.alg.map JsValue.str).isSome :=
      has_wire hn (by simp [wireFields])
    rw [whenPresent, issueUnless_eq_nil, hhas, Option.isSome_map, field_alg hn, Bool.or_eq_true, isText_getD]
    rcases hconsistent.alg with hnone | hsome
    · rw [hnone]
      exact .inl rfl
    · rw [hsome, Option.map_some, hn.ascii _ (by decide)]
      exact .inr rfl
  have hversion : whenPresent (normalForm nfc (toWire envelope)) (js "formatVersion")
      (isOne ((normalForm nfc (toWire envelope)).field (js "formatVersion"))) .value (js "must equal 1") = [] := by
    rw [whenPresent, issueUnless_eq_nil, isOne_wire hn, Bool.or_true]
  have hbase64 : whenPresent (normalForm nfc (toWire envelope)) (js "snapshot")
      (isBase64Text ((normalForm nfc (toWire envelope)).field (js "snapshot"))) .format
      (js "must be base64 string") = [] := by
    rw [whenPresent, issueUnless_eq_nil, field_snapshot hn, isBase64Text_encode hsnapshot, Bool.or_true]
  have hissuer : (js "issuer", envelope.issuer.map JsValue.str) ∈ wireFields envelope := by simp [wireFields]
  have hkid : (js "kid", envelope.kid.map JsValue.str) ∈ wireFields envelope := by simp [wireFields]
  have hsignature : (js "signature", envelope.signature.map JsValue.str) ∈ wireFields envelope := by
    simp [wireFields]
  rw [validateVerificationEnvelopeWireJson, if_neg (by simp [hrecord]), sortedIssues_eq_nil]
  simp only [List.append_eq_nil_iff]
  exact ⟨⟨⟨⟨⟨⟨⟨⟨⟨missingKeys_wire hn, pushAdditional_eq_nil.mpr (mem_envelopeKeys_wire hn)⟩, hversion⟩, hbase64⟩,
    eventListIssues_wire hn hvalid⟩, whenPresent_text hn hissuer⟩, halg⟩, whenPresent_text hn hkid⟩,
    whenPresent_text hn hsignature⟩, signedIssues_wire hn hkeeps hconsistent⟩

end

section

variable {P : Platform} {envelope envelope' : VerificationEnvelope} {bytes : List Byte}
  {syntaxError : JsString → JsString}

theorem decodeEnvelope_encoded (hn : NfcLaws P.nfc) (hkeeps : KeepsText P.nfc) (hconsistent : Consistent envelope)
    (hevents : ∀ event ∈ envelope.events, validateAuditEventJson event = []) (hsnapshot : envelope.snapshot ≠ [])
    (h : encodeEnvelope P envelope = .ok bytes) :
    decodeEnvelope syntaxError bytes = .ok (readBack P.nfc envelope) := by
  have hcanonical := canonical_events (encodeEnvelope_ok h).1
  have hvalid : ∀ event ∈ envelope.events, validateAuditEventJson (normalForm P.nfc event) = [] :=
    fun event hevent => validate_event hn hkeeps (hevents event hevent) (hcanonical event hevent)
  have hrecords : ∀ event ∈ envelope.events, (normalForm P.nfc event).isRecord = true :=
    fun event hevent => (validateAuditEventJson_eq_nil (hvalid event hevent)).1
  rw [decodeEnvelope, parseBytes_encoded syntaxError h]
  simp only [Except.bind, validate_wire hn hkeeps hconsistent hsnapshot hvalid, exists_assertEnvelope hn hrecords]

/-- Whatever decodes is the envelope read back. -/
theorem eq_readBack (hn : NfcLaws P.nfc) (h : encodeEnvelope P envelope = .ok bytes)
    (hdecode : decodeEnvelope syntaxError bytes = .ok envelope') : envelope' = readBack P.nfc envelope := by
  rw [decodeEnvelope, parseBytes_encoded syntaxError h] at hdecode
  simp only [Except.bind] at hdecode
  split at hdecode
  · cases hdecode
  · exact assertEnvelope_wire hn hdecode

theorem readsEvent_readBack (hn : NfcLaws P.nfc) {event : JsValue} (hv : validateAuditEventJson event = [])
    (hc : Canonical P.nfc event) : ReadsEvent P.nfc event (toPlain (normalForm P.nfc event)) := by
  constructor
  · obtain ⟨es, hform, -, -⟩ := normalForm_record (validateAuditEventJson_eq_nil hv).1 hc
    rw [isRecord_toPlain, hform]
    rfl
  · intro key
    rw [entries_toPlain, ownEntry_plainMembers, ownEntry_event hn hv hc, Option.map_map]
    cases hown : ownEntry key event.entries with
    | none => rfl
    | some v =>
      have hfield := (validateAuditEventJson_field hv hown).2
      rw [Option.map_some, Option.map_some, Function.comp_apply, hfield.normalForm_eq]
      congr 1
      cases hfield with
      | text s => rfl
      | number n => rfl
      | texts h =>
        rw [normalTexts, toPlain, plainElements_eq_map, normalTextElements_eq_map, List.map_map]
        congr 1
        refine List.map_congr_left fun x hx => ?_
        cases x with
        | str s => rfl
        | _ => cases h _ hx

theorem readsEnvelope_readBack (hn : NfcLaws P.nfc) (hconsistent : Consistent envelope)
    (hevents : ∀ event ∈ envelope.events, validateAuditEventJson event = [])
    (hcanonical : ∀ event ∈ envelope.events, Canonical P.nfc event) :
    ReadsEnvelope P.nfc envelope (readBack P.nfc envelope) := by
  refine ⟨rfl, ?_, rfl, ?_, rfl, rfl⟩
  · rw [readBack, List.forall₂_map_right_iff, List.forall₂_same]
    exact fun event hevent => readsEvent_readBack hn (hevents event hevent) (hcanonical event hevent)
  · rw [readBack]
    rcases hconsistent.alg with hnone | hsome
    · rw [hnone]
      rfl
    · rw [hsome, Option.map_some, hn.ascii _ (by decide), if_pos rfl]

end

section

variable {H : Host} {envelope signed : VerificationEnvelope} {opts : EnvelopeSigningOptions}
  {sign : List Byte → JsString} {key : PublicKey} {bytes : List Byte} {publicKeyPem : JsString}

def envelopeSigningFields (envelope : VerificationEnvelope) : List (JsString × Option JsValue) :=
  [(js "formatVersion", some (.num (.int 1))),
    (js "snapshot", some (.str (base64Encode envelope.snapshot))),
    (js "events", some (.arr (envelope.events.map toPlain))),
    (js "issuer", envelope.issuer.map .str), (js "alg", envelope.alg.map .str), (js "kid", envelope.kid.map .str)]

theorem envelopeSigningPayload_eq : envelopeSigningPayload envelope = .obj (present (envelopeSigningFields envelope)) := rfl

theorem isPlainKey_signingFields : ((envelopeSigningFields envelope).map Prod.fst).all isPlainKey = true := by
  have hall : [js "formatVersion", js "snapshot", js "events", js "issuer", js "alg", js "kid"].all isPlainKey =
    true := by decide
  exact hall

theorem nodup_signingFields : ((envelopeSigningFields envelope).map Prod.fst).Nodup := by
  have hnodup : [js "formatVersion", js "snapshot", js "events", js "issuer", js "alg", js "kid"].Nodup := by decide
  exact hnodup

/-- The fields are canonical when the events are. -/
theorem canonical_wireField {nfc : JsString → JsString} (hc : ∀ event ∈ envelope.events, Canonical nfc event)
    {f : JsString × Option JsValue} (hf : f ∈ wireFields envelope) {v : JsValue} (hvalue : f.2 = some v) :
    Canonical nfc v := by
  have htext : ∀ {key : JsString} {text : Option JsString}, f = (key, text.map JsValue.str) → Canonical nfc v := by
    intro key text hfield
    rw [hfield] at hvalue
    cases text with
    | none => cases hvalue
    | some s =>
      rw [← Option.some.inj hvalue]
      exact .str s
  simp only [wireFields, List.mem_cons, List.not_mem_nil, or_false] at hf
  rcases hf with rfl | rfl | rfl | hf | hf | hf | hf
  · rw [← Option.some.inj hvalue]
    exact .int (by decide)
  · rw [← Option.some.inj hvalue]
    exact .str _
  · rw [← Option.some.inj hvalue]
    refine .arr fun x hx => ?_
    obtain ⟨event, hevent, rfl⟩ := List.mem_map.mp hx
    exact canonical_toPlain (hc event hevent)
  · exact htext hf
  · exact htext hf
  · exact htext hf
  · exact htext hf

theorem canonical_wire {nfc : JsString → JsString} (hn : NfcLaws nfc)
    (hc : ∀ event ∈ envelope.events, Canonical nfc event) : Canonical nfc (toWire envelope) := by
  refine .obj (canonicalMembers_present hn isPlainKey_wireFields nodup_wireFields) fun e he => ?_
  obtain ⟨f, hf, hmember⟩ := List.mem_filterMap.mp he
  obtain ⟨v, hvalue, rfl⟩ := Option.map_eq_some_iff.mp hmember
  exact canonical_wireField hc hf hvalue

theorem canonical_payload (hn : NfcLaws H.nfc) (hc : ∀ event ∈ envelope.events, Canonical H.nfc event) :
    Canonical H.nfc (envelopeSigningPayload envelope) := by
  have hsub : envelopeSigningFields envelope ⊆ wireFields envelope := List.subset_append_left _ [_]
  refine .obj (canonicalMembers_present hn isPlainKey_signingFields nodup_signingFields) fun e he => ?_
  obtain ⟨f, hf, hmember⟩ := List.mem_filterMap.mp he
  obtain ⟨v, hvalue, rfl⟩ := Option.map_eq_some_iff.mp hmember
  exact canonical_wireField hc (hsub hf) hvalue

/-- The payload is signed as it is read. -/
theorem canonicalJson_readBack (hn : NfcLaws H.nfc) (hc : ∀ event ∈ envelope.events, Canonical H.nfc event)
    (halg : envelope.alg = some (js "Ed25519")) :
    canonicalJson H.nfc (envelopeSigningPayload (readBack H.nfc envelope)) =
      canonicalJson H.nfc (envelopeSigningPayload envelope) := by
  have hread : ∀ event ∈ (readBack H.nfc envelope).events, Canonical H.nfc event := by
    intro event hevent
    obtain ⟨x, hx, rfl⟩ := List.mem_map.mp hevent
    exact canonical_toPlain (normalForm_fixed hn (hc x hx)).1
  have hevents : (((readBack H.nfc envelope).events.map toPlain).map (normalForm H.nfc)) =
      (envelope.events.map toPlain).map (normalForm H.nfc) := by
    simp only [readBack, List.map_map]
    refine List.map_congr_left fun event hevent => ?_
    simp only [Function.comp_apply, normalForm_toPlain, (normalForm_fixed hn (hc event hevent)).2]
  have htext : ∀ text : Option JsString, ((text.map H.nfc).map JsValue.str).map (normalForm H.nfc) =
      (text.map JsValue.str).map (normalForm H.nfc) := by
    intro text
    cases text with
    | none => rfl
    | some s => simp only [Option.map_some, normalForm, hn.idem]
  have halg' : (readBack H.nfc envelope).alg = envelope.alg := by
    rw [readBack, halg, Option.map_some, hn.ascii _ (by decide), if_pos rfl]
  have hform : normalForm H.nfc (envelopeSigningPayload (readBack H.nfc envelope)) =
      normalForm H.nfc (envelopeSigningPayload envelope) := by
    rw [envelopeSigningPayload_eq, envelopeSigningPayload_eq]
    refine (normalForm_present_eq_iff hn isPlainKey_signingFields nodup_signingFields (by rfl)).mpr ?_
    simp only [envelopeSigningFields, List.map_cons, List.map_nil, halg', Option.map_some, normalForm,
      normalElements_eq_map, hevents]
    simp only [readBack, htext]
  have hleft : canonicalJson H.nfc (envelopeSigningPayload (readBack H.nfc envelope)) = .ok _ :=
    canonicalJson_ok (P := H.toPlatform) (canonical_payload hn hread)
  have hright : canonicalJson H.nfc (envelopeSigningPayload envelope) = .ok _ :=
    canonicalJson_ok (P := H.toPlatform) (canonical_payload hn hc)
  rw [hleft, hright, hform]

theorem signEnvelopeEd25519_ok (h : signEnvelopeEd25519 H.toPlatform envelope opts = .ok signed) :
    ∃ signature, signed = { unsignedEnvelope envelope opts with signature := some signature } ∧
      signEd25519 H.toPlatform envelopeV1Domain (envelopeSigningPayload signed) opts.privateKeyPem =
        .ok signature := by
  unfold signEnvelopeEd25519 at h
  dsimp only at h
  split at h
  · cases h
  · obtain ⟨signature, hsign, rfl⟩ := map_eq_ok.mp h
    exact ⟨signature, rfl, hsign⟩

/-- Under the key of the names that the envelope carries there is nothing to report. -/
theorem checkEnvelopeSignature_signed (hn : NfcLaws H.nfc) (hkeeps : KeepsText H.nfc) {entry : KeySetKey}
    (hpair : SigningPair H opts.privateKeyPem entry.publicKey sign key) (hissuer : opts.issuer ≠ [])
    (hkid : opts.kid ≠ []) (hsign : signEnvelopeEd25519 H.toPlatform envelope opts = .ok signed)
    (hcanonical : ∀ event ∈ signed.events, Canonical H.nfc event) (find : JsString → JsString → Option KeySetKey)
    (hfind : find (H.nfc opts.issuer) (H.nfc opts.kid) = some entry) {now : JsNumber}
    (hactive : keyIsActiveAt entry now = true) :
    given (readBack H.nfc signed).signature = true ∧ (readBack H.nfc signed).issuer = some (H.nfc opts.issuer) ∧
      checkEnvelopeSignature H (readBack H.nfc signed) now true find = [] := by
  obtain ⟨signature, hsigned, hed25519⟩ := signEnvelopeEd25519_ok hsign
  obtain ⟨message, sigBytes, -, hlength, hbytes, -⟩ := hpair.signed hed25519
  have halg : signed.alg = some (js "Ed25519") := by rw [hsigned]; rfl
  have hsignature : (readBack H.nfc signed).signature = some signature := by
    rw [hsigned, readBack, Option.map_some, hbytes, hn.ascii _ (isAscii_base64Encode _)]
  have hgiven : given (readBack H.nfc signed).signature = true := by
    rw [hsignature, hbytes]
    simpa [given] using base64Encode_ne_nil hlength
  have hnames : (readBack H.nfc signed).issuer = some (H.nfc opts.issuer) ∧
      (readBack H.nfc signed).kid = some (H.nfc opts.kid) := by
    rw [hsigned]
    exact ⟨rfl, rfl⟩
  have hread : (readBack H.nfc signed).alg = some (js "Ed25519") := by
    rw [readBack, halg, Option.map_some, hn.ascii _ (by decide), if_pos rfl]
  have hne : H.nfc opts.issuer ≠ [] ∧ H.nfc opts.kid ≠ [] :=
    ⟨fun hnil => hissuer (hkeeps _ hnil), fun hnil => hkid (hkeeps _ hnil)⟩
  have hsigner : envelopeSigner (readBack H.nfc signed) = some (H.nfc opts.issuer, H.nfc opts.kid) := by
    rw [envelopeSigner, hread, hnames.1, hnames.2]
    simp [given, hne]
  have hverify : verifyEnvelopeSignature H (readBack H.nfc signed) entry = true := by
    rw [verifyEnvelopeSignature, hsignature]
    exact hpair.verifies hed25519 (canonicalJson_readBack hn hcanonical halg)
  refine ⟨hgiven, hnames.1, ?_⟩
  have houtcome : keyOutcome now (verifyEnvelopeSignature H (readBack H.nfc signed)) (some entry) = .verified :=
    keyOutcome_verified.mpr ⟨entry, rfl, hactive, hverify⟩
  simp only [checkEnvelopeSignature, hgiven, hsigner, hfind, houtcome, Bool.not_true, Bool.false_eq_true, if_false]
  rfl

end

/-- What is reported of a signature or of the trust in its key. -/
def signatureCodes : List ViolationCode :=
  [.envelopeSignatureMissing, .envelopeSignatureInvalid, .envelopeAlgUnsupported, .envelopeKidUnknown,
    .envelopeTrustMissing, .envelopeKeyInactive, .trustedKeysetsRequired]

def NoSignatureViolation (violations : List VerificationViolation) : Prop :=
  ∀ v ∈ violations, v.code ∉ signatureCodes

section

variable {P : Platform} {syntaxError : JsString → JsString} {bytes : List Byte}
  {expected : Option JsString} {events : List JsValue} {auditOpts : VerifyAuditOptions}

theorem OfCodes.noSignature {codes : List ViolationCode} {vs : List VerificationViolation} (h : OfCodes codes vs)
    (hcodes : ∀ c ∈ codes, c ∉ signatureCodes) : NoSignatureViolation vs := fun v hv => hcodes _ (h v hv)

theorem verifySnapshot_noSignature : NoSignatureViolation (verifySnapshot P syntaxError bytes expected).violations := by
  have hcorrupt : ∀ message policyId, NoSignatureViolation (corruptSnapshot message policyId).violations :=
    fun _ _ => OfCodes.noSignature (ofCodes_singleton (List.mem_singleton_self _)) (by decide)
  unfold verifySnapshot
  split
  · exact hcorrupt _ _
  · unfold verifyDecodedSnapshot
    dsimp only
    split
    · intro v hv
      obtain ⟨issue, -, rfl⟩ := List.mem_map.mp (mem_sortViolations.mp hv)
      have hcode : ViolationCode.snapshotCorrupt ∉ signatureCodes := by decide
      exact hcode
    · split
      · exact OfCodes.noSignature (ofCodes_singleton (List.mem_singleton_self _)) (by decide)
      · split
        · exact OfCodes.noSignature (ofCodes_singleton (List.mem_singleton_self _)) (by decide)
        · split
          · exact hcorrupt _ _
          · exact nofun

theorem auditVerdict_mem {violations : List VerificationViolation} {policyId : Option JsString} {head : JsString}
    {v : VerificationViolation} (h : v ∈ (auditVerdict violations policyId head).violations) : v ∈ violations := by
  unfold auditVerdict at h
  split at h
  · exact h
  · split at h
    · exact h
    · cases h

theorem envelopeVerdict_mem {snapshot audit : VerificationResult} {violations : List VerificationViolation}
    {v : VerificationViolation} (h : v ∈ (envelopeVerdict snapshot audit violations).violations) :
    v ∈ violations := by
  unfold envelopeVerdict at h
  split at h
  · exact h
  · split at h
    · exact h
    · cases h

theorem verifyAuditEvents_noSignature :
    NoSignatureViolation (verifyAuditEvents P (.arr events) auditOpts).violations := by
  intro v hv
  have hmem := mem_sortViolations.mp (auditVerdict_mem hv)
  have hnil : OfCodes eventCodes [] := fun v hv => absurd hv List.not_mem_nil
  rcases List.mem_append.mp hmem with hmem | hmem
  · rcases List.mem_append.mp hmem with hmem | hmem
    · exact (scanEvents_codes ⟨_, _, _, _, _⟩ 0 hnil).noSignature (by decide) v hmem
    · split at hmem
      · rw [List.mem_singleton.mp hmem]
        decide
      · cases hmem
  · split at hmem
    · rw [List.mem_singleton.mp hmem]
      decide
    · cases hmem

theorem checkEnvelopePolicy_noSignature (a b : Option JsString) :
    NoSignatureViolation (checkEnvelopePolicy a b) := by
  unfold checkEnvelopePolicy check
  split
  · exact OfCodes.noSignature (ofCodes_singleton (List.mem_singleton_self _)) (by decide)
  · split
    · exact nofun
    · exact OfCodes.noSignature (ofCodes_singleton (List.mem_singleton_self _)) (by decide)

end

/-- An empty snapshot is written as an empty text, which the schema refuses. -/
theorem not_decodeEnvelope_empty {P : Platform} (hn : NfcLaws P.nfc) {syntaxError : JsString → JsString}
    {envelope : VerificationEnvelope} {bytes : List Byte} (h : encodeEnvelope P envelope = .ok bytes)
    (hempty : envelope.snapshot = []) : ¬ ∃ envelope', decodeEnvelope syntaxError bytes = .ok envelope' := by
  rintro ⟨envelope', hdecode⟩
  rw [decodeEnvelope, parseBytes_encoded syntaxError h] at hdecode
  simp only [Except.bind] at hdecode
  split at hdecode
  · cases hdecode
  · rename_i hissues
    have hrecord : (normalForm P.nfc (toWire envelope)).isRecord = true := rfl
    have hhas : (normalForm P.nfc (toWire envelope)).has (js "snapshot") = true :=
      has_wire hn (v := some (.str (base64Encode envelope.snapshot))) (by simp [wireFields])
    rw [validateVerificationEnvelopeWireJson, if_neg (by simp [hrecord]), sortedIssues_eq_nil] at hissues
    simp only [List.append_eq_nil_iff] at hissues
    obtain ⟨⟨⟨⟨⟨⟨⟨-, hsnapshot⟩, -⟩, -⟩, -⟩, -⟩, -⟩, -⟩ := hissues
    rw [whenPresent, issueUnless_eq_nil, hhas, field_snapshot hn, hempty] at hsnapshot
    exact absurd hsnapshot (by decide)

/-- An envelope of valid events is read back, up to the normal form of its strings,
exactly if it has a snapshot. No signature made for it is reported under the key
that is registered for the normal forms of its issuer and kid. -/
theorem envelope_round_trip {H : Host} (hn : NfcLaws H.nfc) (hkeeps : KeepsText H.nfc)
    (syntaxError : JsString → JsString) :
    (∀ (envelope : VerificationEnvelope) (bytes : List Byte), Consistent envelope →
      (∀ event ∈ envelope.events, validateAuditEventJson event = []) →
      encodeEnvelope H.toPlatform envelope = .ok bytes →
      ((∃ envelope', decodeEnvelope syntaxError bytes = .ok envelope' ∧ ReadsEnvelope H.nfc envelope envelope') ↔
        envelope.snapshot ≠ [])) ∧
    ∀ (envelope signed : VerificationEnvelope) (opts : EnvelopeSigningOptions) (bytes : List Byte)
      (entry : KeySetKey) (sign : List Byte → JsString) (key : PublicKey) (clock : JsNumber)
      (vopts : VerifyEnvelopeOptions), opts.issuer ≠ [] → opts.kid ≠ [] →
      signEnvelopeEd25519 H.toPlatform envelope opts = .ok signed → encodeEnvelope H.toPlatform signed = .ok bytes →
      SigningPair H opts.privateKeyPem entry.publicKey sign key →
      findKeyInKeySets (trustedList vopts.trustedKeySets) (.str (H.nfc opts.issuer)) (H.nfc opts.kid) .ed25519 =
        some entry →
      keyIsActiveAt entry (vopts.now.getD clock) = true →
      (∀ issuer, vopts.expectedIssuer = some issuer → issuer = H.nfc opts.issuer) →
      NoSignatureViolation (verifyEnvelope H syntaxError clock bytes vopts).violations := by
  constructor
  · intro envelope bytes hconsistent hevents hencode
    constructor
    · rintro ⟨envelope', hdecode, -⟩ hempty
      exact not_decodeEnvelope_empty hn hencode hempty ⟨envelope', hdecode⟩
    · intro hsnapshot
      exact ⟨_, decodeEnvelope_encoded hn hkeeps hconsistent hevents hsnapshot hencode,
        readsEnvelope_readBack hn hconsistent hevents (canonical_events (encodeEnvelope_ok hencode).1)⟩
  · intro envelope signed opts bytes entry sign key clock vopts hissuer hkid hsign hencode hpair hfind hactive
      hexpected
    cases hdecode : decodeEnvelope syntaxError bytes with
    | error e =>
      have hmalformed : NoSignatureViolation (malformedEnvelope e).violations := by
        cases e <;> exact OfCodes.noSignature (ofCodes_singleton (List.mem_singleton_self _)) (by decide)
      rw [verifyEnvelope, verifyEnvelopeBy, hdecode]
      exact hmalformed
    | ok envelope' =>
      obtain rfl := eq_readBack hn hencode hdecode
      obtain ⟨hgiven, hname, hquiet⟩ := checkEnvelopeSignature_signed hn hkeeps hpair hissuer hkid hsign
        (canonical_events (encodeEnvelope_ok hencode).1)
        (fun issuer kid => findKeyInKeySets (trustedList vopts.trustedKeySets) (.str issuer) kid .ed25519)
        hfind hactive
      have htrusted : (trustedList vopts.trustedKeySets).isEmpty = false := by
        cases hsets : trustedList vopts.trustedKeySets with
        | nil =>
          rw [hsets] at hfind
          cases hfind
        | cons keySet keySets => rfl
      have horigin : checkEnvelopeOrigin (readBack H.nfc signed) vopts = [] := by
        rw [checkEnvelopeOrigin, List.append_eq_nil_iff, check_eq_nil, check_eq_nil, hgiven, Bool.or_true, hname]
        cases hopt : vopts.expectedIssuer with
        | none => simp
        | some issuer => simp [hexpected issuer hopt]
      rw [verifyEnvelope, verifyEnvelopeBy, hdecode]
      simp only [verifyDecodedEnvelope, htrusted, Bool.not_false, Bool.true_eq_false, and_false, if_false]
      intro v hv
      have hmem := mem_sortViolations.mp (envelopeVerdict_mem hv)
      rw [envelopeViolations, horigin, hquiet] at hmem
      simp only [List.nil_append, List.mem_append] at hmem
      rcases hmem with (hmem | hmem) | hmem
      · exact verifySnapshot_noSignature v hmem
      · exact verifyAuditEvents_noSignature v hmem
      · exact checkEnvelopePolicy_noSignature _ _ v hmem

/-- The sample host with the private key of its only signature. -/
def envelopeHost : Host := { sampleHost with ed25519Signer := fun _ => some (fun _ => sampleSignature) }

theorem signingPair_envelopeHost (pem publicPem : JsString) :
    SigningPair envelopeHost pem publicPem (fun _ => sampleSignature) samplePublicKey where
  signer := rfl
  loads := rfl
  usable := isUsableKey_sample
  signs _ := ⟨sampleSignatureBytes, List.length_replicate .., rfl, by simp [samplePublicKey]⟩

theorem keepsText_sample : KeepsText sampleNfc := by
  intro s h
  cases s with
  | nil => rfl
  | cons u us => cases h

/-- What becomes of an envelope that is signed and encoded. -/
def signedViolations (H : Host) (envelope : VerificationEnvelope) (opts : EnvelopeSigningOptions)
    (clock : JsNumber) (vopts : VerifyEnvelopeOptions) : Option (List VerificationViolation) :=
  match signEnvelopeEd25519 H.toPlatform envelope opts with
  | .error _ => none
  | .ok signed =>
    match encodeEnvelope H.toPlatform signed with
    | .error _ => none
    | .ok bytes => some (verifyEnvelope H id clock bytes vopts).violations

def sampleSigner : EnvelopeSigningOptions := ⟨js "issuer-1", js "k1", []⟩

/-- An issuer with the Kelvin sign, whose normal form is a letter. -/
def kelvinSigner : EnvelopeSigningOptions := ⟨[unit 8490], js "k1", []⟩

def kelvinKeySet : KeySet := { sampleKeySet with issuer := [unit 8490] }

def emptyEnvelope : VerificationEnvelope := { plainEnvelope with snapshot := [] }

theorem exists_of_signedViolations (H : Host) (envelope : VerificationEnvelope) (opts : EnvelopeSigningOptions)
    (clock : JsNumber) (vopts : VerifyEnvelopeOptions) (h : (signedViolations H envelope opts clock vopts).isSome = true) :
    ∃ signed bytes, signEnvelopeEd25519 H.toPlatform envelope opts = .ok signed ∧
      encodeEnvelope H.toPlatform signed = .ok bytes ∧
        signedViolations H envelope opts clock vopts = some (verifyEnvelope H id clock bytes vopts).violations := by
  unfold signedViolations at h ⊢
  cases hsign : signEnvelopeEd25519 H.toPlatform envelope opts with
  | error e =>
    rw [hsign] at h
    cases h
  | ok signed =>
    rw [hsign] at h
    dsimp only at h ⊢
    cases hencode : encodeEnvelope H.toPlatform signed with
    | error e =>
      rw [hencode] at h
      cases h
    | ok bytes => exact ⟨signed, bytes, rfl, hencode, rfl⟩

theorem exists_encoded (P : Platform) (envelope : VerificationEnvelope)
    (h : (encodeEnvelope P envelope).toOption.isSome = true) : ∃ bytes, encodeEnvelope P envelope = .ok bytes := by
  cases hencode : encodeEnvelope P envelope with
  | error e =>
    rw [hencode] at h
    cases h
  | ok bytes => exact ⟨bytes, rfl⟩

theorem consistent_plain {envelope : VerificationEnvelope} (halg : envelope.alg = none)
    (hsignature : envelope.signature = none) : Consistent envelope :=
  ⟨.inl halg, fun h => absurd hsignature h⟩

theorem valid_plainEvents : ∀ event ∈ plainEnvelope.events, validateAuditEventJson event = [] := by
  intro event hevent
  rw [List.mem_singleton.mp hevent]
  exact validate_plainCheckpoint

/-- An empty snapshot is not read back. An issuer that is not in normal form is not
found, though its own key is registered for it and active. -/
theorem envelope_not_read :
    (Consistent emptyEnvelope ∧ (∀ event ∈ emptyEnvelope.events, validateAuditEventJson event = []) ∧
      ∃ bytes, encodeEnvelope samplePlatform emptyEnvelope = .ok bytes ∧
        ¬ ∃ envelope', decodeEnvelope id bytes = .ok envelope') ∧
    findKeyInKeySets [kelvinKeySet] (.str kelvinSigner.issuer) kelvinSigner.kid .ed25519 = some (sampleKey none) ∧
    keyIsActiveAt (sampleKey none) (.int 1000) = true ∧
    ∃ signed bytes, signEnvelopeEd25519 envelopeHost.toPlatform plainEnvelope kelvinSigner = .ok signed ∧
      encodeEnvelope envelopeHost.toPlatform signed = .ok bytes ∧
        (verifyEnvelope envelopeHost id (.int 1000) bytes { trustedKeySets := some (.one kelvinKeySet) }).violations.any
          (fun v => v.code = .envelopeKidUnknown) = true := by
  refine ⟨⟨consistent_plain rfl rfl, valid_plainEvents, ?_⟩, by decide, by decide, ?_⟩
  · obtain ⟨bytes, hencode⟩ := exists_encoded samplePlatform emptyEnvelope (by decide +kernel)
    exact ⟨bytes, hencode, not_decodeEnvelope_empty samplePlatform_laws.nfc hencode rfl⟩
  · have hreported : (signedViolations envelopeHost plainEnvelope kelvinSigner (.int 1000)
        { trustedKeySets := some (.one kelvinKeySet) }).any
          (fun vs => vs.any (fun v => v.code = .envelopeKidUnknown)) = true := by decide +kernel
    obtain ⟨signed, bytes, hsign, hencode, hviolations⟩ := exists_of_signedViolations envelopeHost plainEnvelope
      kelvinSigner (.int 1000) { trustedKeySets := some (.one kelvinKeySet) } (by decide +kernel)
    rw [hviolations] at hreported
    exact ⟨signed, bytes, hsign, hencode, hreported⟩

/-- The unsigned sample is read back, and the sample signature is found. -/
theorem envelope_round_trip_sample :
    (∃ bytes envelope', encodeEnvelope samplePlatform plainEnvelope = .ok bytes ∧
      decodeEnvelope id bytes = .ok envelope' ∧ ReadsEnvelope sampleNfc plainEnvelope envelope') ∧
    ∃ signed bytes, signEnvelopeEd25519 envelopeHost.toPlatform plainEnvelope sampleSigner = .ok signed ∧
      encodeEnvelope envelopeHost.toPlatform signed = .ok bytes ∧ NoSignatureViolation
        (verifyEnvelope envelopeHost id (.int 1000) bytes { trustedKeySets := some (.one sampleKeySet) }).violations := by
  have hlaws : NfcLaws envelopeHost.nfc := samplePlatform_laws.nfc
  constructor
  · obtain ⟨bytes, hencode⟩ := exists_encoded samplePlatform plainEnvelope (by decide +kernel)
    obtain ⟨envelope', hdecode, hreads⟩ := ((envelope_round_trip hlaws keepsText_sample id).1 plainEnvelope bytes
      (consistent_plain rfl rfl) valid_plainEvents hencode).mpr (by decide)
    exact ⟨bytes, envelope', hencode, hdecode, hreads⟩
  · obtain ⟨signed, bytes, hsign, hencode, -⟩ := exists_of_signedViolations envelopeHost plainEnvelope
      sampleSigner (.int 1000) { trustedKeySets := some (.one sampleKeySet) } (by decide +kernel)
    exact ⟨signed, bytes, hsign, hencode, (envelope_round_trip hlaws keepsText_sample id).2 plainEnvelope signed
      sampleSigner bytes (sampleKey none) _ _ (.int 1000) { trustedKeySets := some (.one sampleKeySet) } (by decide)
      (by decide) hsign hencode (signingPair_envelopeHost _ _) (by decide) (by decide) nofun⟩

end OxDeAI
