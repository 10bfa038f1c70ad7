import OxDeAI.Sift.MemberText
import OxDeAI.Sift.ReceiptAuthorization
import OxDeAI.Verification.SignedContent

/-! A signing payload in the two canonical texts: the one Sift signs and the one
`verifyAuthorization` rebuilds. -/

namespace OxDeAI.Sift

open Js FirstDifference

theorem sortMembers_table {keys sorted : List JsString} (value : JsString → JsValue)
    (hnd : keys.Nodup) (h : sortUtf8Lex keys = sorted) :
    sortMembers (keys.map (fun k => (k, value k))) = sorted.map (fun k => (k, value k)) := by
  have hkeys : (keys.map (fun k => (k, value k))).map Prod.fst = keys := by
    rw [List.map_map]
    exact List.map_id keys
  have hlookup : ∀ k ∈ sorted, (ownEntry k (keys.map (fun k => (k, value k)))).map (fun v => (k, v)) = some (k, value k) := by
    intro k hk
    have hmem : (k, value k) ∈ keys.map (fun k => (k, value k)) :=
      List.mem_map.mpr ⟨k, mem_sortUtf8Lex.mp (h ▸ hk), rfl⟩
    rw [ownEntry_of_mem (hkeys.symm ▸ hnd) hmem, Option.map_some]
  rw [sortMembers, hkeys, h, List.filterMap_congr hlookup, List.filterMap_eq_map']

section

variable {nfc : JsString → JsString}

/-- The text of a value, as the verifier writes it. -/
def coreText (nfc : JsString → JsString) (v : JsValue) : JsString := jsonText (normalForm nfc v)

def coreMember (nfc : JsString → JsString) (e : JsString × JsValue) : JsString := memberText (e.1, normalForm nfc e.2)

/-- In normal form, and without a character beyond ASCII that JSON would not escape. -/
def PlainText (nfc : JsString → JsString) (s : JsString) : Prop := nfc s = s ∧ IsAscii (quote s)

theorem same_str (s : JsString) : SameOrDiffer (signedText (.str s)) (coreText nfc (.str s)) := by
  rw [signedText_str]
  exact sameOrDiffer_of_append fun us vs h => (siftQuote_quote_append_inj h).2

theorem text_str_eq_iff (s : JsString) : signedText (.str s) = coreText nfc (.str s) ↔ PlainText nfc s := by
  rw [signedText_str]
  constructor
  · intro h
    have hstop : siftQuote s ++ [] = quote (nfc s) ++ [] := congrArg (· ++ []) h
    have hnfc : s = nfc s := (siftQuote_quote_append_inj hstop).1
    refine ⟨hnfc.symm, ?_⟩
    have hquote : quote s = siftQuote s := by
      rw [h, coreText, normalForm, jsonText, ← hnfc]
    rw [hquote, ← applyEnsureAscii_quote]
    exact isAscii_of_applyEnsureAscii _
  · intro h
    rw [coreText, normalForm, jsonText, h.1, ← applyEnsureAscii_quote]
    exact applyEnsureAscii_of_ascii h.2

theorem coreMember_eq (e : JsString × JsValue) :
    coreMember nfc e = (quote e.1 ++ [unit 58]) ++ coreText nfc e.2 := by
  simp [coreMember, memberText, coreText]

/-- Objects with the same members: their texts are one exactly if those of the values are. -/
theorem members_same {es : List (JsString × JsValue)} (hkeys : (es.map Prod.fst).all isAscii = true)
    (h : ∀ e ∈ es, SameOrDiffer (signedText e.2) (coreText nfc e.2)) :
    SameOrDiffer (braced (es.map siftMember)) (braced (es.map (coreMember nfc))) ∧
      (braced (es.map siftMember) = braced (es.map (coreMember nfc)) ↔
        ∀ e ∈ es, signedText e.2 = coreText nfc e.2) := by
  have hascii : ∀ e ∈ es, isAscii e.1 = true := fun e he =>
    List.all_eq_true.mp hkeys e.1 (List.mem_map.mpr ⟨e, he, rfl⟩)
  have hmember : ∀ e ∈ es, SameOrDiffer (siftMember e) (coreMember nfc e) := by
    intro e he
    rw [siftMember_eq (hascii e he), coreMember_eq]
    exact SameOrDiffer.append (.inl rfl) (h e he)
  have hforall : List.Forall₂ SameOrDiffer (es.map siftMember) (es.map (coreMember nfc)) := by
    rw [List.forall₂_map_left_iff, List.forall₂_map_right_iff, List.forall₂_same]
    exact hmember
  constructor
  · rw [braced, braced, join_eq_intercalate, join_eq_intercalate]
    have hopen : SameOrDiffer [unit 123] [unit 123] := .inl rfl
    exact hopen.append ((intercalate_sameOrDiffer _ hforall).append (.inl rfl))
  · have hjoin := intercalate_map_eq_iff [comma] hmember
    rw [← join_eq_intercalate, ← join_eq_intercalate] at hjoin
    have hbraced : braced (es.map siftMember) = braced (es.map (coreMember nfc)) ↔
        join comma (es.map siftMember) = join comma (es.map (coreMember nfc)) :=
      ⟨braced_inj, fun heq => by rw [braced, braced, heq]⟩
    rw [hbraced, hjoin]
    refine forall₂_congr fun e he => ?_
    rw [siftMember_eq (hascii e he), coreMember_eq]
    exact List.append_right_inj _

end

namespace SigningPayload

variable (payload : SigningPayload)

def keys : List JsString :=
  [js "version", js "auth_id", js "issuer", js "audience", js "decision", js "intent_hash", js "state_hash",
    js "policy_id", js "issued_at", js "expires_at", js "signature"]

def sortedKeys : List JsString :=
  [js "audience", js "auth_id", js "decision", js "expires_at", js "intent_hash", js "issued_at", js "issuer",
    js "policy_id", js "signature", js "state_hash", js "version"]

/-- The keys in the order of `authorizationSigningPayload`. -/
def verifierKeys : List JsString :=
  [js "auth_id", js "issuer", js "audience", js "intent_hash", js "state_hash", js "policy_id", js "decision",
    js "issued_at", js "version", js "expires_at", js "signature"]

def entry (key : JsString) : JsValue := payload.value.field key

def sorted : List (JsString × JsValue) := sortedKeys.map (fun k => (k, payload.entry k))

theorem sorted_eq : payload.sorted = [(js "audience", .str payload.audience), (js "auth_id", .str payload.authId),
    (js "decision", .str (js "ALLOW")), (js "expires_at", .num payload.expiresAt),
    (js "intent_hash", .str payload.intentHash), (js "issued_at", .num payload.issuedAt),
    (js "issuer", .str payload.issuer), (js "policy_id", .str payload.policyId),
    (js "signature", .obj payload.signatureFields), (js "state_hash", .str payload.stateHash),
    (js "version", .str (js "AuthorizationV1"))] := rfl

theorem value_eq : payload.value = .obj (keys.map (fun k => (k, payload.entry k))) := rfl

theorem siftOrder_keys : siftOrder (keys.map (fun k => (k, k))) = sortedKeys.map (fun k => (k, k)) := by decide

theorem sortUtf8Lex_verifierKeys : sortUtf8Lex verifierKeys = sortedKeys := by decide

theorem verifierKeys_plain : verifierKeys.all isPlainKey = true ∧ verifierKeys.Nodup := by decide

theorem signatureKeys_plain : [js "alg", js "kid"].all isPlainKey = true ∧ [js "alg", js "kid"].Nodup := by decide

theorem sortedKeys_ascii : sortedKeys.all isAscii = true := by decide

variable {payload}

/-- What Sift signs. -/
theorem siftCanonicalJson_value (hi : payload.issuedAt.isFinite = true) (he : payload.expiresAt.isFinite = true) :
    siftCanonicalJson payload.value = .ok (braced (payload.sorted.map siftMember)) := by
  rw [payload.value_eq, SigningPayload.sorted]
  refine siftCanonicalJson_table payload.entry siftOrder_keys ?_
  have hsig : siftCanonicalize (.obj payload.signatureFields) = .ok (.obj payload.signatureFields) := rfl
  have hissued : siftCanonicalize (.num payload.issuedAt) = .ok (.num payload.issuedAt) := by
    rw [siftCanonicalize, if_pos hi]
  have hexpires : siftCanonicalize (.num payload.expiresAt) = .ok (.num payload.expiresAt) := by
    rw [siftCanonicalize, if_pos he]
  simp only [keys, List.forall_mem_cons]
  exact ⟨rfl, rfl, rfl, rfl, rfl, rfl, rfl, rfl, hissued, hexpires, hsig, fun e he => absurd he List.not_mem_nil⟩

theorem canonical_num {nfc : JsString → JsString} {n : JsNumber} : Canonical nfc (.num n) ↔ n.isSafeInteger = true := by
  constructor
  · intro h
    cases h with
    | int hz => exact JsNumber.isSafeInteger_int.mpr hz
  · intro h
    obtain ⟨z, rfl, hz⟩ := JsNumber.exists_int_of_isSafeInteger h
    exact .int hz

theorem authorizationSigningPayload_value (authorization : AuthorizationV1Payload) :
    authorizationSigningPayload authorization.value =
      .obj (verifierKeys.map (fun k => (k, authorization.toSigningPayload.entry k))) := rfl

/-- What `verifyAuthorization` checks the signature over. -/
theorem canonicalJson_signingPayload {nfc : JsString → JsString} (hn : NfcLaws nfc)
    (authorization : AuthorizationV1Payload) (text : JsString) :
    canonicalJson nfc (authorizationSigningPayload authorization.value) = .ok text ↔
      (authorization.issuedAt.isSafeInteger = true ∧ authorization.expiresAt.isSafeInteger = true) ∧
        text = braced (authorization.sorted.map (coreMember nfc)) := by
  have hkeys : (verifierKeys.map (fun k => (k, authorization.entry k))).map Prod.fst = verifierKeys := by
    rw [List.map_map]
    exact List.map_id verifierKeys
  have hplain := verifierKeys_plain
  rw [← hkeys] at hplain
  have hcanonical : Canonical nfc (.obj (verifierKeys.map (fun k => (k, authorization.entry k)))) ↔
      authorization.issuedAt.isSafeInteger = true ∧ authorization.expiresAt.isSafeInteger = true := by
    have hsig : Canonical nfc (.obj authorization.signatureFields) := by
      have hsigkeys : authorization.signatureFields.map Prod.fst = [js "alg", js "kid"] := rfl
      have hsigplain := signatureKeys_plain
      rw [← hsigkeys] at hsigplain
      refine (canonical_plain hn hsigplain.1 hsigplain.2).mpr fun e he => ?_
      simp only [signatureFields, List.mem_cons, List.not_mem_nil, or_false] at he
      rcases he with rfl | rfl <;> exact .str _
    rw [canonical_plain hn hplain.1 hplain.2, ← @canonical_num nfc, ← @canonical_num nfc]
    simp only [verifierKeys, List.map_cons, List.map_nil, List.forall_mem_cons]
    constructor
    · intro h
      exact ⟨h.2.2.2.2.2.2.2.1, h.2.2.2.2.2.2.2.2.2.1⟩
    · intro h
      exact ⟨.str _, .str _, .str _, .str _, .str _, .str _, .str _, h.1, .str _, h.2, hsig,
        fun e he => absurd he List.not_mem_nil⟩
  have hmembers : normalMembers nfc (verifierKeys.map (fun k => (k, authorization.entry k))) =
      verifierKeys.map (fun k => (k, normalForm nfc (authorization.entry k))) := by
    rw [normalMembers_eq_map, List.map_map]
    refine List.map_congr_left fun k hk => ?_
    have hascii := List.all_eq_true.mp verifierKeys_plain.1 k hk
    rw [isPlainKey, Bool.and_eq_true] at hascii
    exact congrArg (fun s => (s, normalForm nfc (authorization.entry k))) (hn.ascii k hascii.1)
  rw [authorizationSigningPayload_value]
  refine (canonicalizeToJson_ok _ text).trans (and_congr hcanonical ?_)
  rw [normalForm, hmembers, sortMembers_table _ verifierKeys_plain.2 sortUtf8Lex_verifierKeys, jsonText,
    jsonMembers_eq_map, List.map_map, sorted, List.map_map]
  rfl

/-- The strings of a payload that are not fixed by the program. -/
def texts (payload : SigningPayload) : List JsString :=
  [payload.authId, payload.issuer, payload.audience, payload.policyId, payload.kid]

theorem plainText_of_ascii {nfc : JsString → JsString} (hn : NfcLaws nfc) {s : JsString} (h : isAscii s = true) :
    PlainText nfc s := ⟨hn.ascii s h, isAscii_quote h⟩

theorem text_num {nfc : JsString → JsString} {n : JsNumber} (h : n.isSafeInteger = true) :
    signedText (.num n) = coreText nfc (.num n) := by
  obtain ⟨z, rfl, hz⟩ := JsNumber.exists_int_of_isSafeInteger h
  rw [signedText_int hz]
  rfl

theorem coreText_signature {nfc : JsString → JsString} (hn : NfcLaws nfc) :
    coreText nfc (.obj payload.signatureFields) = braced (payload.signatureFields.map (coreMember nfc)) := by
  have hkeys : sortUtf8Lex [js "alg", js "kid"] = [js "alg", js "kid"] := by decide
  have halg : nfc (js "alg") = js "alg" := hn.ascii _ (by decide)
  have hkid : nfc (js "kid") = js "kid" := hn.ascii _ (by decide)
  have hsorted : sortMembers (normalMembers nfc payload.signatureFields) =
      payload.signatureFields.map (fun e => (e.1, normalForm nfc e.2)) := by
    rw [signatureFields, normalMembers, normalMembers, normalMembers, halg, hkid]
    exact sortMembers_table (fun k => normalForm nfc ((ownEntry k payload.signatureFields).getD .undefined))
      signatureKeys_plain.2 hkeys
  rw [coreText, normalForm, hsorted, jsonText, jsonMembers_eq_map, List.map_map]
  rfl

theorem signature_same {nfc : JsString → JsString} (hn : NfcLaws nfc) :
    SameOrDiffer (signedText (.obj payload.signatureFields)) (coreText nfc (.obj payload.signatureFields)) ∧
      (signedText (.obj payload.signatureFields) = coreText nfc (.obj payload.signatureFields) ↔
        PlainText nfc payload.kid) := by
  have hkeys : [js "alg", js "kid"].all isAscii = true := by decide
  have hsame := @members_same nfc payload.signatureFields hkeys fun e he => by
    simp only [signatureFields, List.mem_cons, List.not_mem_nil, or_false] at he
    rcases he with rfl | rfl <;> exact same_str _
  rw [signedText_obj, coreText_signature hn]
  refine ⟨hsame.1, hsame.2.trans ?_⟩
  simp only [signatureFields, List.forall_mem_cons, text_str_eq_iff]
  constructor
  · intro h
    exact h.2.1
  · intro h
    exact ⟨plainText_of_ascii hn (by decide), h, fun e he => absurd he List.not_mem_nil⟩

/-- The bytes that are signed are the bytes that are verified exactly if every string
is plain text. -/
theorem texts_eq_iff {nfc : JsString → JsString} (hn : NfcLaws nfc) (hintent : isAscii payload.intentHash = true)
    (hstate : isAscii payload.stateHash = true) (hi : payload.issuedAt.isSafeInteger = true)
    (he : payload.expiresAt.isSafeInteger = true) :
    braced (payload.sorted.map siftMember) = braced (payload.sorted.map (coreMember nfc)) ↔
      ∀ s ∈ payload.texts, PlainText nfc s := by
  have hkeys : payload.sorted.map Prod.fst = sortedKeys := rfl
  have hsame : ∀ e ∈ payload.sorted, SameOrDiffer (signedText e.2) (coreText nfc e.2) := by
    rw [sorted_eq]
    simp only [List.forall_mem_cons]
    exact ⟨same_str _, same_str _, same_str _, .inl (text_num he), same_str _, .inl (text_num hi), same_str _,
      same_str _, (signature_same hn).1, same_str _, same_str _, fun e he => absurd he List.not_mem_nil⟩
  rw [(members_same (hkeys ▸ sortedKeys_ascii) hsame).2, sorted_eq]
  simp only [List.forall_mem_cons, texts, text_str_eq_iff, (signature_same hn).2]
  constructor
  · intro h
    exact ⟨h.2.1, h.2.2.2.2.2.2.1, h.1, h.2.2.2.2.2.2.2.1, h.2.2.2.2.2.2.2.2.1, fun e he => absurd he List.not_mem_nil⟩
  · intro h
    exact ⟨h.2.2.1, h.1, plainText_of_ascii hn (by decide), text_num he, plainText_of_ascii hn hintent, text_num hi,
      h.2.1, h.2.2.2.1, h.2.2.2.2.1, plainText_of_ascii hn hstate, plainText_of_ascii hn (by decide),
      fun e he => absurd he List.not_mem_nil⟩

end SigningPayload

end OxDeAI.Sift
