import OxDeAI.Js.JsonMembers
import OxDeAI.Verification.Verifier

/-! Byte strings that do not say one thing: ill-formed UTF-8, and objects that
give a member twice. Which of them the decoders take. -/

namespace OxDeAI

open Js Json

def ValidUtf8 (bytes : List Byte) : Prop := ∃ s : List Char, utf8Text s = bytes

/-- Not valid UTF-8, or a text in which one object has two members of one name. -/
def Ambiguous (bytes : List Byte) : Prop :=
  ¬ ValidUtf8 bytes ∨ ∃ t, parseTree (textDecode bytes) = some t ∧ RepeatsKey t

/-- The last member of each field of a state is of its type. -/
structure StateMembers (es : List (JsString × JsonDocument)) : Prop where
  version : lastMember (js "formatVersion") es = some (.num (.int 1))
  engineVersion : ∃ s, lastMember (js "engineVersion") es = some (.str s)
  policyId : ∃ s, lastMember (js "policyId") es = some (.str s)
  modules : ∃ ms, lastMember (js "modules") es = some (.obj ms)

def StateDocument (t : JsonDocument) : Prop := ∃ es, t = .obj es ∧ StateMembers es

/-- Every member is known, and the last of each name is of its type. -/
structure EnvelopeMembers (es : List (JsString × JsonDocument)) : Prop where
  known : ∀ e ∈ es, e.1 ∈ envelopeKeys
  version : lastMember (js "formatVersion") es = some (.num (.int 1))
  snapshot : ∃ s, lastMember (js "snapshot") es = some (.str s) ∧ isBase64Text (.str s) = true
  events : ∃ xs, lastMember (js "events") es = some (.arr xs) ∧ ∀ x ∈ xs, validateAuditEventJson x.read = []
  issuer : ∀ t, lastMember (js "issuer") es = some t → ∃ s, t = .str s
  alg : ∀ t, lastMember (js "alg") es = some t → t = .str (js "Ed25519")
  kid : ∀ t, lastMember (js "kid") es = some t → ∃ s, t = .str s
  signature : ∀ t, lastMember (js "signature") es = some t → ∃ s, t = .str s
  signed : ∀ s, lastMember (js "signature") es = some (.str s) →
    (∃ issuer, issuer ≠ [] ∧ lastMember (js "issuer") es = some (.str issuer)) ∧
      lastMember (js "alg") es = some (.str (js "Ed25519")) ∧
        ∃ kid, kid ≠ [] ∧ lastMember (js "kid") es = some (.str kid)

def EnvelopeDocument (t : JsonDocument) : Prop := ∃ es, t = .obj es ∧ EnvelopeMembers es

section

variable {es : List (JsString × JsonDocument)} {key : JsString}

theorem field_str {s : JsString} : (read (.obj es)).field key = .str s ↔ lastMember key es = some (.str s) := by
  rw [field_read]
  cases lastMember key es with
  | none => simp
  | some t => simpa using read_eq_str

theorem isString_field :
    ((read (.obj es)).field key).isString = true ↔ ∃ s, lastMember key es = some (.str s) := by
  rw [field_read]
  cases lastMember key es with
  | none => simp [JsValue.isString]
  | some t => simpa using read_isString

theorem hasText_field :
    ((read (.obj es)).field key).hasText = true ↔ ∃ s, s ≠ [] ∧ lastMember key es = some (.str s) := by
  rw [JsValue.hasText_iff]
  simp only [field_str]

theorem isText_field {s : JsString} :
    ((read (.obj es)).field key).isText s = true ↔ lastMember key es = some (.str s) := by
  rw [JsValue.isText_iff, field_str]

theorem isOne_iff {v : JsValue} : isOne v = true ↔ v = .num (.int 1) := by
  cases v <;> simp [isOne]

theorem isOne_field :
    isOne ((read (.obj es)).field key) = true ↔ lastMember key es = some (.num (.int 1)) := by
  rw [isOne_iff, field_read]
  cases lastMember key es with
  | none => simp
  | some t => simpa using read_eq_num

theorem isRecord_field :
    ((read (.obj es)).field key).isRecord = true ↔ ∃ ms, lastMember key es = some (.obj ms) := by
  rw [field_read]
  cases lastMember key es with
  | none => simp [JsValue.isRecord]
  | some t => simpa using read_isRecord

theorem read_eq_arr {t : JsonDocument} {xs : List JsValue} (h : t.read = .arr xs) :
    ∃ ts, t = .arr ts ∧ xs = ts.map read := by
  cases t with
  | arr ts =>
    rw [read_arr] at h
    exact ⟨ts, rfl, (JsValue.arr.inj h).symm⟩
  | _ => simp [read_obj] at h

theorem field_arr {xs : List JsValue} (h : (read (.obj es)).field key = .arr xs) :
    ∃ ts, lastMember key es = some (.arr ts) ∧ xs = ts.map read := by
  rw [field_read] at h
  cases hlast : lastMember key es with
  | none =>
    rw [hlast] at h
    cases h
  | some t =>
    rw [hlast] at h
    obtain ⟨ts, rfl, hxs⟩ := read_eq_arr h
    exact ⟨ts, rfl, hxs⟩

theorem field_of_last {t : JsonDocument} (h : lastMember key es = some t) :
    (read (.obj es)).field key = t.read := by
  rw [field_read, h]
  rfl

/-- The check of a member binds it when it is there. -/
theorem memberIssues_eq_nil (holds : JsValue → Bool) {code : IssueCode} {message : JsString} :
    whenPresent (read (.obj es)) key (holds ((read (.obj es)).field key)) code message = [] ↔
      ∀ t, lastMember key es = some t → holds t.read = true := by
  rw [whenPresent, issueUnless_eq_nil, has_read]
  cases hlast : lastMember key es with
  | none => simp
  | some t =>
    rw [field_of_last hlast]
    simp

theorem missingKeys_eq_nil {keys : List JsString} :
    missingKeys (read (.obj es)) keys = [] ↔ ∀ key ∈ keys, ∃ t, lastMember key es = some t := by
  simp only [missingKeys, List.flatMap_eq_nil_iff, issueUnless_eq_nil, has_read, Option.isSome_iff_exists]

theorem pushAdditional_read {keys : List JsString} :
    pushAdditional (read (.obj es)) keys = [] ↔ ∀ e ∈ es, e.1 ∈ keys := by
  rw [pushAdditional_eq_nil]
  have hentries : (∀ e ∈ (read (.obj es)).entries, e.1 ∈ keys) ↔
      ∀ key ∈ (read (.obj es)).entries.map Prod.fst, key ∈ keys := by simp
  have hmembers : (∀ e ∈ es, e.1 ∈ keys) ↔ ∀ key ∈ es.map Prod.fst, key ∈ keys := by simp
  rw [hentries, hmembers]
  simp only [mem_keys_read]

end

theorem parseBytes_eq_ok {syntaxError : JsString → JsString} {bytes : List Byte} {v : JsValue} :
    parseBytes syntaxError bytes = .ok v ↔ ∃ t, parseTree (textDecode bytes) = some t ∧ t.read = v := by
  rw [parseBytes, parseJson_eq_read]
  cases parseTree (textDecode bytes) <;> simp

theorem assertCanonicalState_read {t : JsonDocument} :
    (∃ state, assertCanonicalState t.read = .ok state) ↔ StateDocument t := by
  constructor
  · rintro ⟨state, h⟩
    unfold assertCanonicalState at h
    split at h
    · cases h
    · rename_i hrecord
      obtain ⟨es, rfl⟩ := read_isRecord.mp (by simpa using hrecord)
      refine ⟨es, rfl, ?_⟩
      split at h
      · cases h
      · split at h
        · cases h
        · rename_i hversion
          split at h
          · rename_i engineVersion policyId hengine hpolicy
            split at h
            · rename_i hmodules
              exact ⟨isOne_field.mp (by simpa using hversion), ⟨engineVersion, field_str.mp hengine⟩,
                ⟨policyId, field_str.mp hpolicy⟩, isRecord_field.mp hmodules⟩
            · cases h
          · cases h
          · cases h
  · rintro ⟨es, rfl, h⟩
    have hrecord : (read (.obj es)).isRecord = true := read_isRecord.mpr ⟨es, rfl⟩
    have hversion : isOne ((read (.obj es)).field (js "formatVersion")) = true := isOne_field.mpr h.version
    have hhas : (read (.obj es)).has (js "formatVersion") = true := by rw [has_read, h.version]; rfl
    obtain ⟨engineVersion, hengine⟩ := h.engineVersion
    obtain ⟨policyId, hpolicy⟩ := h.policyId
    have hmodules : ((read (.obj es)).field (js "modules")).isRecord = true := isRecord_field.mpr h.modules
    unfold assertCanonicalState
    rw [if_neg (by simp [hrecord]), if_neg (by simp [hhas]), if_neg (by simp [hversion]),
      field_str.mpr hengine, field_str.mpr hpolicy]
    exact ⟨_, dif_pos hmodules⟩

theorem decodeCanonicalState_ok_iff {syntaxError : JsString → JsString} {bytes : List Byte} :
    (∃ state, decodeCanonicalState syntaxError bytes = .ok state) ↔
      ∃ t, parseTree (textDecode bytes) = some t ∧ StateDocument t := by
  constructor
  · rintro ⟨state, h⟩
    obtain ⟨v, hparse, hassert⟩ := bind_eq_ok.mp h
    obtain ⟨t, htree, rfl⟩ := parseBytes_eq_ok.mp hparse
    exact ⟨t, htree, assertCanonicalState_read.mp ⟨state, hassert⟩⟩
  · rintro ⟨t, htree, hdocument⟩
    obtain ⟨state, hassert⟩ := assertCanonicalState_read.mpr hdocument
    exact ⟨state, bind_eq_ok.mpr ⟨t.read, parseBytes_eq_ok.mpr ⟨t, htree, rfl⟩, hassert⟩⟩

theorem eventListIssues_eq_nil {es : List (JsString × JsonDocument)} :
    eventListIssues (read (.obj es)) = [] ∧ (∃ t, lastMember (js "events") es = some t) ↔
      ∃ xs, lastMember (js "events") es = some (.arr xs) ∧ ∀ x ∈ xs, validateAuditEventJson x.read = [] := by
  have hevents : ∀ xs : List JsonDocument, (xs.map read).zipIdx.flatMap (fun e => eventIssues e.1 e.2) = [] ↔
      ∀ x ∈ xs, validateAuditEventJson x.read = [] := by
    intro xs
    rw [List.flatMap_eq_nil_iff]
    simp only [eventIssues, List.map_eq_nil_iff]
    constructor
    · intro h x hx
      obtain ⟨i, hi⟩ := List.mem_iff_getElem?.mp (List.mem_map_of_mem (f := read) hx)
      exact h (x.read, i) (List.mk_mem_zipIdx_iff_getElem?.mpr hi)
    · intro h e he
      obtain ⟨x, hx, hread⟩ := List.mem_map.mp (List.fst_mem_of_mem_zipIdx he)
      rw [← hread]
      exact h x hx
  constructor
  · rintro ⟨hissues, t, hlast⟩
    unfold eventListIssues at hissues
    split at hissues
    · rename_i xs hfield
      obtain ⟨ts, hts, rfl⟩ := field_arr hfield
      exact ⟨ts, hts, (hevents ts).mp hissues⟩
    · simp [has_read, hlast] at hissues
  · rintro ⟨xs, hlast, hvalid⟩
    refine ⟨?_, _, hlast⟩
    have hfield : (read (.obj es)).field (js "events") = .arr (xs.map read) := by
      rw [field_of_last hlast, read_arr]
    rw [eventListIssues, hfield]
    exact (hevents xs).mpr hvalid

theorem signedIssues_eq_nil {es : List (JsString × JsonDocument)} :
    signedIssues (read (.obj es)) = [] ↔ ∀ s, lastMember (js "signature") es = some (.str s) →
      (∃ issuer, issuer ≠ [] ∧ lastMember (js "issuer") es = some (.str issuer)) ∧
        lastMember (js "alg") es = some (.str (js "Ed25519")) ∧
          ∃ kid, kid ≠ [] ∧ lastMember (js "kid") es = some (.str kid) := by
  unfold signedIssues requiredWithSignature
  split
  · rename_i hsigned
    obtain ⟨s, hs⟩ := isString_field.mp hsigned
    simp only [List.append_eq_nil_iff, issueUnless_eq_nil, hasText_field, isText_field, hs, Option.some.injEq,
      Json.str.injEq, forall_eq', and_assoc]
  · rename_i hunsigned
    refine iff_of_true rfl fun s hs => absurd ?_ hunsigned
    exact isString_field.mpr ⟨s, hs⟩

theorem exists_str_of_isBase64Text {t : JsonDocument} (h : isBase64Text t.read = true) : ∃ s, t = .str s := by
  cases t with
  | str s => exact ⟨s, rfl⟩
  | obj es =>
    rw [read_obj] at h
    cases h
  | arr xs =>
    rw [read_arr] at h
    cases h
  | _ => cases h

theorem validateVerificationEnvelopeWireJson_read {t : JsonDocument} :
    validateVerificationEnvelopeWireJson t.read = [] ↔ EnvelopeDocument t := by
  by_cases hrecord : t.read.isRecord = true
  · obtain ⟨es, rfl⟩ := read_isRecord.mp hrecord
    have hdocument : EnvelopeDocument (.obj es) ↔ EnvelopeMembers es := by simp [EnvelopeDocument]
    rw [hdocument, validateVerificationEnvelopeWireJson, if_neg (by simp [hrecord]), sortedIssues_eq_nil]
    simp only [List.append_eq_nil_iff, missingKeys_eq_nil, pushAdditional_read, signedIssues_eq_nil,
      memberIssues_eq_nil isOne, memberIssues_eq_nil isBase64Text, memberIssues_eq_nil JsValue.isString,
      memberIssues_eq_nil (fun v => v.isText (js "Ed25519")), isOne_iff, read_eq_num, read_isString,
      JsValue.isText_iff, read_eq_str, and_assoc]
    constructor
    · rintro ⟨hrequired, hknown, hversion, hsnapshot, hevents, hissuer, halg, hkid, hsignature, hsigned⟩
      obtain ⟨version, hv⟩ := hrequired (js "formatVersion") (by simp [envelopeRequiredKeys])
      obtain ⟨snapshot, hs⟩ := hrequired (js "snapshot") (by simp [envelopeRequiredKeys])
      have hbase64 : isBase64Text snapshot.read = true := hsnapshot _ hs
      obtain ⟨text, rfl⟩ := exists_str_of_isBase64Text hbase64
      exact ⟨hknown, hversion _ hv ▸ hv, ⟨text, hs, hbase64⟩,
        eventListIssues_eq_nil.mp ⟨hevents, hrequired _ (by simp [envelopeRequiredKeys])⟩, hissuer, halg, hkid,
        hsignature, hsigned⟩
    · intro h
      obtain ⟨text, hs, hbase64⟩ := h.snapshot
      obtain ⟨hevents, hlist⟩ := eventListIssues_eq_nil.mpr h.events
      have hrequired : ∀ key ∈ envelopeRequiredKeys, ∃ t, lastMember key es = some t := by
        intro key hkey
        rcases List.mem_cons.mp hkey with rfl | hkey
        · exact ⟨_, h.version⟩
        · rcases List.mem_cons.mp hkey with rfl | hkey
          · exact ⟨_, hs⟩
          · rw [List.mem_singleton.mp hkey]
            exact hlist
      have hversion : ∀ t, lastMember (js "formatVersion") es = some t → t = .num (.int 1) :=
        fun t ht => Option.some.inj (ht.symm.trans h.version)
      have hsnapshot : ∀ t, lastMember (js "snapshot") es = some t → isBase64Text t.read = true := by
        intro t ht
        obtain rfl := Option.some.inj (ht.symm.trans hs)
        exact hbase64
      exact ⟨hrequired, h.known, hversion, hsnapshot, hevents, h.issuer, h.alg, h.kid, h.signature, h.signed⟩
  · have hdocument : ¬ EnvelopeDocument t := by
      intro h
      obtain ⟨es, hes, -⟩ := h
      exact hrecord (read_isRecord.mpr ⟨es, hes⟩)
    rw [validateVerificationEnvelopeWireJson, if_pos (by simpa using hrecord)]
    exact iff_of_false (List.cons_ne_nil _ _) hdocument

/-- Nothing is left to refuse after the schema. -/
theorem assertEnvelope_of_document {t : JsonDocument} (h : EnvelopeDocument t) :
    ∃ envelope, assertEnvelope t.read = .ok envelope := by
  obtain ⟨es, rfl, h⟩ := h
  obtain ⟨snapshot, hs, -⟩ := h.snapshot
  obtain ⟨xs, hxs, hvalid⟩ := h.events
  have hrecord : (read (.obj es)).isRecord = true := read_isRecord.mpr ⟨es, rfl⟩
  have hversion : isOne ((read (.obj es)).field (js "formatVersion")) = true := isOne_field.mpr h.version
  have hevents : (read (.obj es)).field (js "events") = .arr (xs.map read) := by rw [field_of_last hxs, read_arr]
  have hrecords : (xs.map read).findIdx? (fun event => !event.isRecord) = none := by
    rw [List.findIdx?_eq_none_iff]
    intro event hevent
    obtain ⟨x, hx, rfl⟩ := List.mem_map.mp hevent
    simp [(validateAuditEventJson_eq_nil (hvalid x hx)).1]
  rw [assertEnvelope, if_neg (by simp [hrecord]), if_neg (by simp [hversion]), field_str.mpr hs, hevents]
  simp only [hrecords]
  exact ⟨_, rfl⟩

theorem decodeEnvelope_ok_iff {syntaxError : JsString → JsString} {bytes : List Byte} :
    (∃ envelope, decodeEnvelope syntaxError bytes = .ok envelope) ↔
      ∃ t, parseTree (textDecode bytes) = some t ∧ EnvelopeDocument t := by
  constructor
  · rintro ⟨envelope, h⟩
    obtain ⟨v, hparse, hvalidate⟩ := bind_eq_ok.mp h
    obtain ⟨t, htree, rfl⟩ := parseBytes_eq_ok.mp hparse
    refine ⟨t, htree, validateVerificationEnvelopeWireJson_read.mp ?_⟩
    cases hissues : validateVerificationEnvelopeWireJson t.read with
    | nil => rfl
    | cons first rest =>
      rw [hissues] at hvalidate
      cases hvalidate
  · rintro ⟨t, htree, hdocument⟩
    obtain ⟨envelope, hassert⟩ := assertEnvelope_of_document hdocument
    refine ⟨envelope, bind_eq_ok.mpr ⟨t.read, parseBytes_eq_ok.mpr ⟨t, htree, rfl⟩, ?_⟩⟩
    rw [validateVerificationEnvelopeWireJson_read.mpr hdocument]
    exact hassert

theorem exists_error_iff {ε α : Type} {r : Except ε α} : (∃ e, r = .error e) ↔ ¬ ∃ a, r = .ok a := by
  cases r <;> simp

section

variable (H : Host) (syntaxError : JsString → JsString) (bytes : List Byte)

/-- The two decoders refuse ambiguous bytes exactly when the text, each
ill-formed sequence replaced, is no document by its last members. -/
theorem ambiguous_refused_iff :
    ((Ambiguous bytes → (∃ e, decodeCanonicalState syntaxError bytes = .error e) ∧
        ∀ expected, (verifySnapshot H.toPlatform syntaxError bytes expected).ok = false) ↔
      (Ambiguous bytes → ∀ t, parseTree (textDecode bytes) = some t → ¬ StateDocument t)) ∧
    ((Ambiguous bytes → (∃ e, decodeEnvelope syntaxError bytes = .error e) ∧
        ∀ clock opts, (verifyEnvelope H syntaxError clock bytes opts).ok = false) ↔
      (Ambiguous bytes → ∀ t, parseTree (textDecode bytes) = some t → ¬ EnvelopeDocument t)) := by
  constructor
  · refine imp_congr_right fun _ => ?_
    have hthrows : (∃ e, decodeCanonicalState syntaxError bytes = .error e) ↔
        ∀ t, parseTree (textDecode bytes) = some t → ¬ StateDocument t := by
      rw [exists_error_iff, decodeCanonicalState_ok_iff]
      simp
    rw [← hthrows]
    refine and_iff_left_of_imp fun h expected => ?_
    obtain ⟨e, he⟩ := h
    rw [verifySnapshot, he]
    rfl
  · refine imp_congr_right fun _ => ?_
    have hthrows : (∃ e, decodeEnvelope syntaxError bytes = .error e) ↔
        ∀ t, parseTree (textDecode bytes) = some t → ¬ EnvelopeDocument t := by
      rw [exists_error_iff, decodeEnvelope_ok_iff]
      simp
    rw [← hthrows]
    refine and_iff_left_of_imp fun h clock opts => ?_
    obtain ⟨e, he⟩ := h
    rw [verifyEnvelope, verifyEnvelopeBy, he]
    cases e <;> rfl

end

theorem utf8Scalar_lt {cp : ℕ} (h : cp < 0x110000) {b : Byte} (hb : b ∈ utf8Scalar cp) : b.val < 0xF8 := by
  unfold utf8Scalar at hb
  split_ifs at hb <;> simp only [List.mem_cons, List.not_mem_nil, or_false] at hb
  · rw [hb, byte_val (by omega)]
    omega
  · rcases hb with rfl | rfl <;> rw [byte_val (by omega)] <;> omega
  · rcases hb with rfl | rfl | rfl <;> rw [byte_val (by omega)] <;> omega
  · rcases hb with rfl | rfl | rfl | rfl <;> rw [byte_val (by omega)] <;> omega

theorem not_validUtf8 {bytes : List Byte} {b : Byte} (hb : b ∈ bytes) (hlarge : 0xF8 ≤ b.val) :
    ¬ ValidUtf8 bytes := by
  rintro ⟨s, rfl⟩
  obtain ⟨c, -, hc⟩ := List.mem_flatMap.mp hb
  have hscalar : c.toNat < 0x110000 := by
    have hvalid : c.toNat < 0xD800 ∨ 0xDFFF < c.toNat ∧ c.toNat < 0x110000 := c.valid
    omega
  have hsmall : b.val < 0xF8 := utf8Scalar_lt hscalar hc
  omega

/-- The names of the outermost object, repeated ones included. -/
def memberNames (bytes : List Byte) : List JsString :=
  match parseTree (textDecode bytes) with
  | some (.obj es) => es.map Prod.fst
  | _ => []

theorem ambiguous_of_memberNames {bytes : List Byte} (h : ¬ (memberNames bytes).Nodup) : Ambiguous bytes := by
  unfold memberNames at h
  split at h
  · rename_i es htree
    exact .inr ⟨_, htree, es, .self _, h⟩
  · exact absurd List.nodup_nil h

def repeatedState : List Byte :=
  utf8Encode (js "\x7b\"formatVersion\":1,\"engineVersion\":\"1\"," ++
    js "\"policyId\":\"q\",\"policyId\":\"p\",\"modules\":\x7b\x7d\x7d")

def illFormedState : List Byte :=
  utf8Encode (js "\x7b\"formatVersion\":1,\"engineVersion\":\"1") ++ byte 0xFF ::
    utf8Encode (js "\",\"policyId\":\"p\",\"modules\":\x7b\x7d\x7d")

def repeatedEnvelope : List Byte := utf8Encode (js "\x7b\"events\":[]," ++ (jsonText plainWire).drop 1)

theorem ambiguous_illFormedState : Ambiguous illFormedState := by
  have hmem : byte 0xFF ∈ illFormedState := List.mem_append_right _ List.mem_cons_self
  exact .inl (not_validUtf8 hmem (by decide))

theorem decoded_of_ok {P : Platform} {syntaxError : JsString → JsString} {bytes : List Byte}
    {expected : Option JsString} (h : (verifySnapshot P syntaxError bytes expected).ok = true) :
    ¬ ∃ e, decodeCanonicalState syntaxError bytes = .error e := by
  rintro ⟨e, he⟩
  rw [verifySnapshot, he] at h
  cases h

/-- The last policy counts, an ill-formed byte is replaced, the last list of
events is checked. -/
theorem ambiguous_accepted :
    (Ambiguous repeatedState ∧ ¬ (∃ e, decodeCanonicalState id repeatedState = .error e) ∧
      (verifySnapshot samplePlatform id repeatedState none).ok = true) ∧
    (Ambiguous illFormedState ∧ ¬ (∃ e, decodeCanonicalState id illFormedState = .error e) ∧
      (verifySnapshot samplePlatform id illFormedState none).ok = true) ∧
    (Ambiguous repeatedEnvelope ∧ ¬ (∃ e, decodeEnvelope id repeatedEnvelope = .error e) ∧
      (verifyEnvelope sampleHost id (.int 1000) repeatedEnvelope {}).ok = true) := by
  have hrepeated : (verifySnapshot samplePlatform id repeatedState none).ok = true := by decide +kernel
  have hillFormed : (verifySnapshot samplePlatform id illFormedState none).ok = true := by decide +kernel
  have henvelope : (verifyEnvelope sampleHost id (.int 1000) repeatedEnvelope {}).ok = true := by decide +kernel
  have hdecoded : ¬ ∃ e, decodeEnvelope id repeatedEnvelope = .error e := by
    rintro ⟨e, he⟩
    rw [verifyEnvelope, verifyEnvelopeBy, he] at henvelope
    cases e <;> cases henvelope
  exact ⟨⟨ambiguous_of_memberNames (by decide +kernel), decoded_of_ok hrepeated, hrepeated⟩,
    ⟨ambiguous_illFormedState, decoded_of_ok hillFormed, hillFormed⟩,
    ⟨ambiguous_of_memberNames (by decide +kernel), hdecoded, henvelope⟩⟩

end OxDeAI
