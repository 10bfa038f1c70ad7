import OxDeAI.Audit.Acceptance
import OxDeAI.Audit.TamperEvidence
import OxDeAI.Verification.KeyReports

/-! Envelopes as they are written and signed, and what the decoder reads of them. -/

namespace OxDeAI

open Js

/-- The wire object of an envelope. The events are cloned, which a function or a
symbol prevents. -/
def wireFields (envelope : VerificationEnvelope) : List (JsString × Option JsValue) :=
  [(js "formatVersion", some (.num (.int 1))),
    (js "snapshot", some (.str (base64Encode envelope.snapshot))),
    (js "events", some (.arr (envelope.events.map toPlain))),
    (js "issuer", envelope.issuer.map .str), (js "alg", envelope.alg.map .str),
    (js "kid", envelope.kid.map .str), (js "signature", envelope.signature.map .str)]

def toWire (envelope : VerificationEnvelope) : JsValue := .obj (present (wireFields envelope))

/-- `structuredClone` throws an error of the host, without a text of the program. -/
def dataCloneError : JsError := .typeError

/-- The format version and the types of snapshot and events are those of the
envelope type. -/
def encodeEnvelope (P : Platform) (envelope : VerificationEnvelope) : Except JsError (List Byte) :=
  if !areCloneable envelope.events then .error dataCloneError
  else (canonicalJson P.nfc (toWire envelope)).map utf8Encode

structure EnvelopeSigningOptions where
  issuer : JsString
  kid : JsString
  privateKeyPem : JsString

/-- The envelope under the signer's names, without a signature. -/
def unsignedEnvelope (envelope : VerificationEnvelope) (opts : EnvelopeSigningOptions) : VerificationEnvelope :=
  { envelope with issuer := some opts.issuer, alg := some (js "Ed25519"), kid := some opts.kid, signature := none }

def signEnvelopeEd25519 (P : Platform) (envelope : VerificationEnvelope) (opts : EnvelopeSigningOptions) :
    Except JsError VerificationEnvelope :=
  let unsigned := unsignedEnvelope envelope opts
  if !areCloneable envelope.events then .error dataCloneError
  else (signEd25519 P envelopeV1Domain (envelopeSigningPayload unsigned) opts.privateKeyPem).map
    (fun sig => { unsigned with signature := some sig })

theorem isBase64Unit_alphabetUnit {n : ℕ} (h : n < 64) : isBase64Unit (alphabetUnit (unit 43, unit 47) n) = true := by
  unfold alphabetUnit
  split_ifs
  · simp only [isBase64Unit, unit_val (show 65 + n < 65536 by omega), Bool.or_eq_true, Bool.and_eq_true,
      decide_eq_true_eq]
    omega
  · simp only [isBase64Unit, unit_val (show 71 + n < 65536 by omega), Bool.or_eq_true, Bool.and_eq_true,
      decide_eq_true_eq]
    omega
  · simp only [isBase64Unit, unit_val (show n - 4 < 65536 by omega), Bool.or_eq_true, Bool.and_eq_true,
      decide_eq_true_eq]
    omega
  · decide
  · decide

/-- Letters of the alphabet, then padding. -/
theorem base64Encode_parts (bytes : List Byte) : ∃ body pad, base64Encode bytes = body ++ pad ∧
    body.all isBase64Unit = true ∧ (pad = [] ∨ pad = js "=" ∨ pad = js "==") ∧ (bytes ≠ [] → body ≠ []) := by
  unfold base64Encode
  fun_induction base64With with
  | case1 a b c rest ih =>
    obtain ⟨body, pad, htext, hbody, hpad, -⟩ := ih
    refine ⟨_ :: _ :: _ :: _ :: body, pad, by rw [htext]; rfl, ?_, hpad, fun _ => List.cons_ne_nil _ _⟩
    simp only [List.all_cons, hbody, Bool.and_true, Bool.and_eq_true]
    exact ⟨isBase64Unit_alphabetUnit (by omega), isBase64Unit_alphabetUnit (by omega),
      isBase64Unit_alphabetUnit (by omega), isBase64Unit_alphabetUnit (by omega)⟩
  | case2 a b =>
    refine ⟨[_, _, _], js "=", rfl, ?_, .inr (.inl rfl), fun _ => List.cons_ne_nil _ _⟩
    simp only [List.all_cons, List.all_nil, Bool.and_true, Bool.and_eq_true]
    exact ⟨isBase64Unit_alphabetUnit (by omega), isBase64Unit_alphabetUnit (by omega),
      isBase64Unit_alphabetUnit (by omega)⟩
  | case3 a =>
    refine ⟨[_, _], js "==", rfl, ?_, .inr (.inr rfl), fun _ => List.cons_ne_nil _ _⟩
    simp only [List.all_cons, List.all_nil, Bool.and_true, Bool.and_eq_true]
    exact ⟨isBase64Unit_alphabetUnit (by omega), isBase64Unit_alphabetUnit (by omega)⟩
  | case4 => exact ⟨[], [], rfl, rfl, .inl rfl, fun h => absurd rfl h⟩

/-- Only the empty snapshot is written as a text that is not read. -/
theorem isBase64Text_encode {bytes : List Byte} (h : bytes ≠ []) :
    isBase64Text (.str (base64Encode bytes)) = true := by
  obtain ⟨body, pad, htext, hbody, hpad, hne⟩ := base64Encode_parts bytes
  rw [List.all_eq_true] at hbody
  have hend : pad.takeWhile isBase64Unit = [] ∧ pad.dropWhile isBase64Unit = pad := by
    rcases hpad with rfl | rfl | rfl <;> decide
  rw [isBase64Text, htext]
  simp only [List.takeWhile_append_of_pos hbody, List.dropWhile_append_of_pos hbody, hend.1, hend.2, List.append_nil]
  rcases hpad with rfl | rfl | rfl <;> simp [hne h]

theorem isAscii_base64Encode (bytes : List Byte) : isAscii (base64Encode bytes) = true := by
  obtain ⟨body, pad, htext, hbody, hpad, -⟩ := base64Encode_parts bytes
  have hascii : isAscii pad = true := by rcases hpad with rfl | rfl | rfl <;> decide
  rw [htext, isAscii, List.all_append, ← isAscii, ← isAscii, hascii, Bool.and_true, isAscii, List.all_eq_true]
  intro u hu
  have hunit := List.all_eq_true.mp hbody u hu
  simp only [isBase64Unit, Bool.or_eq_true, Bool.and_eq_true, decide_eq_true_eq] at hunit ⊢
  omega

/-- The envelope that the decoder makes of the written one. -/
def readBack (nfc : JsString → JsString) (envelope : VerificationEnvelope) : VerificationEnvelope where
  snapshot := envelope.snapshot
  events := envelope.events.map (fun event => toPlain (normalForm nfc event))
  issuer := envelope.issuer.map nfc
  alg := if envelope.alg.map nfc = some (js "Ed25519") then some (js "Ed25519") else none
  kid := envelope.kid.map nfc
  signature := envelope.signature.map nfc

section

variable {nfc : JsString → JsString} {envelope : VerificationEnvelope}

theorem keys_wireFields : (wireFields envelope).map Prod.fst = envelopeKeys := rfl

theorem isPlainKey_wireFields : ((wireFields envelope).map Prod.fst).all isPlainKey = true := by
  rw [keys_wireFields]
  decide

theorem nodup_wireFields : ((wireFields envelope).map Prod.fst).Nodup := by
  rw [keys_wireFields]
  decide

theorem ownEntry_wire (hn : NfcLaws nfc) {f : JsString × Option JsValue} (hf : f ∈ wireFields envelope) :
    ownEntry f.1 (normalForm nfc (toWire envelope)).entries = f.2.map (normalForm nfc) := by
  have hnd : ((normalMembers nfc (present (wireFields envelope))).map Prod.fst).Nodup := by
    rw [normalMembers_eq_map, List.map_map]
    exact (canonicalMembers_present hn isPlainKey_wireFields nodup_wireFields).nodup
  rw [toWire, normalForm, JsValue.entries, ownEntry_sortMembers hnd]
  exact ownEntry_normalMembers_present hn isPlainKey_wireFields nodup_wireFields hf

theorem field_wire (hn : NfcLaws nfc) {key : JsString} {v : Option JsValue} (hf : (key, v) ∈ wireFields envelope) :
    (normalForm nfc (toWire envelope)).field key = (v.map (normalForm nfc)).getD .undefined := by
  have hown : ownEntry key (normalForm nfc (toWire envelope)).entries = v.map (normalForm nfc) := ownEntry_wire hn hf
  rw [JsValue.field, hown]

theorem has_wire (hn : NfcLaws nfc) {key : JsString} {v : Option JsValue} (hf : (key, v) ∈ wireFields envelope) :
    (normalForm nfc (toWire envelope)).has key = v.isSome := by
  have hown : ownEntry key (normalForm nfc (toWire envelope)).entries = v.map (normalForm nfc) := ownEntry_wire hn hf
  rw [JsValue.has, hown, Option.isSome_map]

theorem mem_envelopeKeys_wire (hn : NfcLaws nfc) :
    ∀ e ∈ (normalForm nfc (toWire envelope)).entries, e.1 ∈ envelopeKeys := by
  intro e he
  have hkey := List.mem_map_of_mem (f := Prod.fst) he
  rw [toWire, normalForm, JsValue.entries, keys_sortMembers, mem_sortUtf8Lex, normalMembers_keys] at hkey
  obtain ⟨m, hm, hnfc⟩ := List.mem_map.mp hkey
  have hmem : m.1 ∈ envelopeKeys := keys_wireFields ▸ (keys_present (wireFields envelope)).subset (List.mem_map_of_mem hm)
  have hascii : ∀ k ∈ envelopeKeys, isAscii k = true := by decide
  rw [← hnfc, hn.ascii _ (hascii _ hmem)]
  exact hmem

theorem field_wire_text (hn : NfcLaws nfc) {key : JsString} {text : Option JsString}
    (hf : (key, text.map JsValue.str) ∈ wireFields envelope) :
    (normalForm nfc (toWire envelope)).field key = ((text.map nfc).map JsValue.str).getD .undefined := by
  rw [field_wire hn hf]
  cases text <;> rfl

end

/-- Normalization leaves no text empty that is not. -/
def KeepsText (nfc : JsString → JsString) : Prop := ∀ s, nfc s = [] → s = []

section

variable {nfc : JsString → JsString} {v : JsValue}

theorem hasText_normalForm (hkeeps : KeepsText nfc) (h : v.hasText = true) : (normalForm nfc v).hasText = true := by
  obtain ⟨s, hs, rfl⟩ := JsValue.hasText_iff.mp h
  exact JsValue.hasText_iff.mpr ⟨nfc s, fun hnil => hs (hkeeps s hnil), rfl⟩

theorem isString_normalForm (h : v.isString = true) : (normalForm nfc v).isString = true := by
  cases v with
  | str s => rfl
  | _ => cases h

theorem isText_normalForm (hn : NfcLaws nfc) {s : JsString} (hs : isAscii s = true) (h : v.isText s = true) :
    (normalForm nfc v).isText s = true := by
  rw [JsValue.isText_iff.mp h, normalForm, hn.ascii s hs]
  exact JsValue.isText_iff.mpr rfl

theorem intNonNegative_normalForm (h : intNonNegative v = true) : intNonNegative (normalForm nfc v) = true := by
  cases v with
  | num n => exact h
  | _ => cases h

end

section

variable {nfc : JsString → JsString} {value w : JsValue} {field type : JsString}

/-- `w` is read where `value` was written. -/
structure ReadAs (nfc : JsString → JsString) (value w : JsValue) : Prop where
  field : ∀ key, w.field key = normalForm nfc (value.field key)
  has : ∀ key, w.has key = value.has key

theorem ReadAs.nonEmptyString (h : ReadAs nfc value w) (hkeeps : KeepsText nfc)
    (hv : nonEmptyString value field = []) : nonEmptyString w field = [] := by
  rw [OxDeAI.nonEmptyString, issueUnless_eq_nil] at hv ⊢
  rw [h.field]
  exact hasText_normalForm hkeeps hv

theorem ReadAs.anyString (h : ReadAs nfc value w) (hv : anyString value field = []) : anyString w field = [] := by
  rw [OxDeAI.anyString, issueUnless_eq_nil] at hv ⊢
  rw [h.field]
  exact isString_normalForm hv

theorem ReadAs.stringArrayField (h : ReadAs nfc value w) (hv : stringArrayField value field = []) :
    stringArrayField w field = [] := by
  rw [OxDeAI.stringArrayField, issueUnless_eq_nil] at hv ⊢
  rw [h.field]
  cases hfield : value.field field with
  | arr xs =>
    rw [hfield] at hv
    have hall : (xs.map (normalForm nfc)).all JsValue.isString = true := by
      rw [List.all_map, List.all_eq_true]
      intro x hx
      exact isString_normalForm (List.all_eq_true.mp hv x hx)
    rw [normalForm, normalElements_eq_map]
    exact hall
  | _ =>
    rw [hfield] at hv
    cases hv

theorem ReadAs.pushAdditional (h : ReadAs nfc value w) {allowed : List JsString}
    (hv : pushAdditional value allowed = []) : pushAdditional w allowed = [] := by
  rw [pushAdditional_eq_nil] at hv ⊢
  intro e he
  have hhas : w.has e.1 = true := ownEntry_isSome.mpr (List.mem_map_of_mem he)
  rw [h.has] at hhas
  obtain ⟨m, hm, hkey⟩ := List.mem_map.mp (ownEntry_isSome.mp hhas)
  rw [← hkey]
  exact hv m hm

theorem ReadAs.eventTypeIssues (h : ReadAs nfc value w) (hn : NfcLaws nfc) (hkeeps : KeepsText nfc)
    (hv : eventTypeIssues value type = []) : eventTypeIssues w type = [] := by
  unfold OxDeAI.eventTypeIssues at hv ⊢
  split at hv
  · rename_i ht
    rw [if_pos ht]
    simp only [List.append_eq_nil_iff] at hv ⊢
    exact ⟨⟨h.nonEmptyString hkeeps hv.1.1, h.anyString hv.1.2⟩, h.pushAdditional hv.2⟩
  · rename_i h₁
    rw [if_neg h₁]
    split at hv
    · rename_i ht
      rw [if_pos ht]
      simp only [List.append_eq_nil_iff, issueUnless_eq_nil, Bool.or_eq_true] at hv ⊢
      obtain ⟨⟨⟨⟨hhash, hdecision⟩, hreasons⟩, hversion⟩, hkeys⟩ := hv
      refine ⟨⟨⟨⟨h.nonEmptyString hkeeps hhash, ?_⟩, h.stringArrayField hreasons⟩, h.anyString hversion⟩,
        h.pushAdditional hkeys⟩
      rw [h.field]
      exact hdecision.imp (isText_normalForm hn (by decide)) (isText_normalForm hn (by decide))
    · rename_i h₂
      rw [if_neg h₂]
      split at hv
      · rename_i ht
        rw [if_pos ht]
        simp only [List.append_eq_nil_iff, issueUnless_eq_nil] at hv ⊢
        obtain ⟨⟨⟨hid, hhash⟩, hexpires⟩, hkeys⟩ := hv
        refine ⟨⟨⟨h.nonEmptyString hkeeps hid, h.nonEmptyString hkeeps hhash⟩, ?_⟩, h.pushAdditional hkeys⟩
        rw [h.field]
        exact intNonNegative_normalForm hexpires
      · rename_i h₃
        rw [if_neg h₃]
        split at hv
        · rename_i ht
          rw [if_pos ht]
          simp only [List.append_eq_nil_iff] at hv ⊢
          exact ⟨⟨h.nonEmptyString hkeeps hv.1.1, h.anyString hv.1.2⟩, h.pushAdditional hv.2⟩
        · rename_i h₄
          rw [if_neg h₄]
          split at hv
          · rename_i ht
            rw [if_pos ht]
            rw [List.append_eq_nil_iff] at hv ⊢
            exact ⟨h.nonEmptyString hkeeps hv.1, h.pushAdditional hv.2⟩
          · cases hv

/-- The type of a valid event is one of five texts. -/
theorem isAscii_of_eventTypeIssues (hv : eventTypeIssues value type = []) : isAscii type = true := by
  unfold eventTypeIssues at hv
  split at hv
  · rename_i ht
    rw [ht]
    decide
  · split at hv
    · rename_i ht
      rw [ht]
      decide
    · split at hv
      · rename_i ht
        rw [ht]
        decide
      · split at hv
        · rename_i ht
          rw [ht]
          decide
        · split at hv
          · rename_i ht
            rw [ht]
            decide
          · cases hv

theorem ReadAs.validateAuditEventJson (h : ReadAs nfc value w) (hn : NfcLaws nfc) (hkeeps : KeepsText nfc)
    (hrecord : w.isRecord = true) (hv : validateAuditEventJson value = []) : validateAuditEventJson w = [] := by
  unfold OxDeAI.validateAuditEventJson at hv ⊢
  rw [if_neg (by simp [hrecord])]
  split at hv
  · cases hv
  · split at hv
    · rename_i type htype
      simp only [sortedIssues_eq_nil, List.append_eq_nil_iff, issueUnless_eq_nil, Bool.or_eq_true,
        Bool.not_eq_true'] at hv
      obtain ⟨⟨htime, hpolicy⟩, htypes⟩ := hv
      have hread : w.field (js "type") = .str type := by
        rw [h.field, htype, normalForm, hn.ascii _ (isAscii_of_eventTypeIssues htypes)]
      rw [hread]
      simp only [sortedIssues_eq_nil, List.append_eq_nil_iff, issueUnless_eq_nil, Bool.or_eq_true,
        Bool.not_eq_true']
      refine ⟨⟨?_, ?_⟩, h.eventTypeIssues hn hkeeps htypes⟩
      · rw [h.field]
        exact intNonNegative_normalForm htime
      · rw [h.has, h.field]
        exact hpolicy.imp_right isString_normalForm
    · cases hv

end

section

variable {nfc : JsString → JsString} {event : JsValue}

theorem normalForm_record (h : event.isRecord = true) (hc : Canonical nfc event) :
    ∃ es, normalForm nfc event = normalForm nfc (.obj es) ∧ event.entries = es ∧ Canonical nfc (.obj es) := by
  cases hc with
  | obj hm hes => exact ⟨_, rfl, rfl, .obj hm hes⟩
  | inst hm hes => exact ⟨_, rfl, rfl, .obj hm hes⟩
  | _ => cases h

/-- The fields of a written event, each in its normal form. -/
theorem ownEntry_event (hn : NfcLaws nfc) (hv : validateAuditEventJson event = []) (hc : Canonical nfc event)
    (key : JsString) :
    ownEntry key (normalForm nfc event).entries = (ownEntry key event.entries).map (normalForm nfc) := by
  obtain ⟨es, hform, hentries, hobj⟩ := normalForm_record (validateAuditEventJson_eq_nil hv).1 hc
  have hascii : ∀ e ∈ es, isAscii e.1 = true := by
    intro e he
    have hsome : (ownEntry e.1 event.entries).isSome = true := by
      rw [hentries]
      exact ownEntry_isSome.mpr (List.mem_map_of_mem he)
    obtain ⟨v, hown⟩ := Option.isSome_iff_exists.mp hsome
    exact (validateAuditEventJson_field hv hown).1
  rw [hform, hentries]
  exact ownEntry_normalForm hn hobj hascii key

theorem readAs_event (hn : NfcLaws nfc) (hv : validateAuditEventJson event = []) (hc : Canonical nfc event) :
    ReadAs nfc event (normalForm nfc event) := by
  constructor
  · intro key
    rw [JsValue.field, JsValue.field, ownEntry_event hn hv hc]
    cases ownEntry key event.entries <;> rfl
  · intro key
    rw [JsValue.has, JsValue.has, ownEntry_event hn hv hc, Option.isSome_map]

theorem validate_event (hn : NfcLaws nfc) (hkeeps : KeepsText nfc) (hv : validateAuditEventJson event = [])
    (hc : Canonical nfc event) : validateAuditEventJson (normalForm nfc event) = [] := by
  have hrecord : (normalForm nfc event).isRecord = true := by
    obtain ⟨es, hform, -, -⟩ := normalForm_record (validateAuditEventJson_eq_nil hv).1 hc
    rw [hform]
    rfl
  exact (readAs_event hn hv hc).validateAuditEventJson hn hkeeps hrecord hv

end

end OxDeAI
