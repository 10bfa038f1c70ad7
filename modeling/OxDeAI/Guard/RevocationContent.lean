import OxDeAI.Guard.Revocation

/-! Two lists under one signature. The signature covers the normalized kids, and
membership compares the kids as they are written. -/

namespace OxDeAI

open Js

section

variable {H : Host} {now : JsNumber} {keySets : List KeySet} {e e' : JsValue}

theorem filterMap_text?_toPlain (kids : List JsValue) :
    (kids.map toPlain).filterMap JsValue.text? = kids.filterMap JsValue.text? := by
  rw [List.filterMap_map]
  exact List.filterMap_congr fun _ _ => text?_toPlain

theorem kidTexts_toPlain (v : JsValue) : kidTexts (toPlain v) = kidTexts v := by
  cases v with
  | arr kids => rw [toPlain, plainElements_eq_map, kidTexts, kidTexts, filterMap_text?_toPlain]
  | _ => rfl

theorem checkRevokedKids_toPlain (v : JsValue) : checkRevokedKids (toPlain v) = checkRevokedKids v := by
  cases v with
  | arr kids =>
    have hall : (kids.map toPlain).all JsValue.isString = kids.all JsValue.isString := by
      rw [List.all_map]
      congr 1
      funext x
      exact isString_toPlain
    rw [toPlain, plainElements_eq_map, checkRevokedKids, checkRevokedKids, hall, filterMap_text?_toPlain]
  | _ => rfl

theorem isKrlVersion_toPlain (v : JsValue) : isKrlVersion (toPlain v) = isKrlVersion v := by
  cases v <;> rfl

theorem checkKrlStructure_toPlain (e : JsValue) : checkKrlStructure (toPlain e) = checkKrlStructure e := by
  simp only [checkKrlStructure, checkKrlFields, checkKrlSignature, field_toPlain, isRecord_toPlain,
    isText_toPlain, hasText_toPlain, isInteger_toPlain, isUndefined_toPlain, isString_toPlain,
    isKrlVersion_toPlain, checkRevokedKids_toPlain]

theorem expiredAt_toPlain (v : JsValue) : expiredAt now (toPlain v) = expiredAt now v := by
  cases v <;> rfl

theorem defined_toPlain (v : JsValue) : defined (toPlain v) = (defined v).map toPlain := by
  rw [defined, defined, isUndefined_toPlain]
  split <;> rfl

theorem signedKrlSigningPayload_toPlain (e : JsValue) :
    signedKrlSigningPayload (toPlain e) = toPlain (signedKrlSigningPayload e) := by
  rw [signedKrlSigningPayload, signedKrlSigningPayload, toPlain_present]
  simp [krlPayloadFields, alwaysField, optionalOwn, krlSigner, defined_toPlain, toPlain, plainMembers]

theorem findKeyInKeySets_toPlain (issuer : JsValue) (kid : JsString) (alg : SigningAlg) :
    findKeyInKeySets keySets (toPlain issuer) kid alg = findKeyInKeySets keySets issuer kid alg := by
  simp only [findKeyInKeySets, isText_toPlain]

theorem krlKid_toPlain (e : JsValue) : krlKid (toPlain e) = krlKid e := by
  simp only [krlKid, field_toPlain, text?_toPlain]

/-- What an accepted list passed under the options of the guard. -/
abbrev GuardKrl (H : Host) (keySets : List KeySet) (now : JsNumber) (e : JsValue) : Prop :=
  KrlHolds H now (krlOptions keySets now) (findKrlKey e (krlOptions keySets now)) e

theorem acceptsKrl_iff : acceptsKrl H keySets now e = true ↔ GuardKrl H keySets now e :=
  verifySignedKrlBy_accepts

theorem GuardKrl.exists_canonicalJson (h : GuardKrl H keySets now e) :
    ∃ text, canonicalJson H.nfc (signedKrlSigningPayload e) = .ok text := by
  obtain ⟨key, -, -, hverify⟩ := h.key
  exact exists_canonicalJson_of_verifyEd25519 hverify

theorem GuardKrl.toPlain (h : GuardKrl H keySets now e) : GuardKrl H keySets now (toPlain e) := by
  obtain ⟨key, hfind, hactive, hverify⟩ := h.key
  obtain ⟨text, htext⟩ := h.exists_canonicalJson
  refine ⟨by rw [isRecord_toPlain, h.isRecord], by rw [checkKrlStructure_toPlain, h.structured], rfl, ?_,
    h.trusted, key, ?_, hactive, ?_⟩
  · rw [field_toPlain, expiredAt_toPlain]
    exact h.live
  · rw [krlKid_toPlain, findKrlKey, field_toPlain, findKeyInKeySets_toPlain]
    exact hfind
  · have hpayload : canonicalJson H.nfc (signedKrlSigningPayload (OxDeAI.toPlain e)) =
        canonicalJson H.nfc (signedKrlSigningPayload e) := by
      rw [signedKrlSigningPayload_toPlain, canonicalJson_toPlain htext, htext]
    rw [verifyKrlSignature, verifyEd25519_congr hpayload, field_toPlain, field_toPlain, text?_toPlain]
    exact hverify

/-- The watermark of an accepted list. -/
def krlWatermark (H : Host) (e : JsValue) : GuardKrlWatermark :=
  ⟨(e.field (js "krl_version")).number?.getD .nan, digest H.toPlatform (signedKrlSigningPayload e)⟩

def appliedKrl (H : Host) (scope : GuardRevocationScope) (e : JsValue) : AppliedKrl where
  krlIssuer := scope.krlIssuer
  keyIssuers := scope.keyIssuers
  revoked := kidTexts (e.field (js "revoked_kids"))
  watermark := krlWatermark H e

theorem GuardKrl.applyKrl (h : GuardKrl H keySets now e) (scope : GuardRevocationScope) :
    applyKrl H keySets now scope (OxDeAI.toPlain e) = .ok (appliedKrl H scope e) := by
  obtain ⟨text, htext⟩ := h.exists_canonicalJson
  have hok : (verifySignedKrl H now (OxDeAI.toPlain e) (krlOptions keySets now)).ok = true :=
    acceptsKrl_iff.mpr h.toPlain
  have hc := ((canonicalizeToJson_ok _ _).mp htext).1
  have hdigest : sha256HexFromJson H.toPlatform (signedKrlSigningPayload (OxDeAI.toPlain e)) =
      .ok (digest H.toPlatform (signedKrlSigningPayload e)) := by
    rw [signedKrlSigningPayload_toPlain]
    refine sha256HexFromJson_ok.mpr ⟨canonical_toPlain hc, ?_⟩
    rw [digest, digest, normalForm_toPlain]
  rw [OxDeAI.applyKrl]
  simp only [hok, Bool.not_true, Bool.false_eq_true, if_false, hdigest, field_toPlain, kidTexts_toPlain,
    number?_toPlain]
  rfl

/-- The same publisher's signature over the same bytes. -/
structure SameSignedKrl (H : Host) (e e' : JsValue) : Prop where
  issuer : e.field (js "issuer") = e'.field (js "issuer")
  sig : (e.field (js "signature")).field (js "sig") = (e'.field (js "signature")).field (js "sig")
  payload : canonicalJson H.nfc (signedKrlSigningPayload e) = canonicalJson H.nfc (signedKrlSigningPayload e')

theorem krlPayloadFields_plain (e : JsValue) :
    ((krlPayloadFields e).map Prod.fst).all isPlainKey = true ∧ ((krlPayloadFields e).map Prod.fst).Nodup := by
  have hkeys : (krlPayloadFields e).map Prod.fst = [js "version", js "issuer", js "krl_version",
      js "issued_at", js "not_after", js "revoked_kids", js "signature", js "nonce"] := rfl
  rw [hkeys]
  decide

theorem SameSignedKrl.watermark_eq (hn : NfcLaws H.nfc) (hsame : SameSignedKrl H e e')
    (h : GuardKrl H keySets now e) (h' : GuardKrl H keySets now e') :
    krlWatermark H e = krlWatermark H e' := by
  obtain ⟨text, htext⟩ := h.exists_canonicalJson
  have hnf := normalForm_eq_of_canonicalJson_eq htext (hsame.payload ▸ htext)
  obtain ⟨-, ⟨z, hz, -⟩, -⟩ := checkKrlFields_eq_nil (checkKrlFields_of_structure h.structured)
  obtain ⟨-, ⟨z', hz', -⟩, -⟩ := checkKrlFields_eq_nil (checkKrlFields_of_structure h'.structured)
  have hmem : ∀ e : JsValue, alwaysField e (js "krl_version") ∈ krlPayloadFields e := by
    intro e
    simp [krlPayloadFields]
  have hfield := present_field_eq hn (krlPayloadFields_plain e).1 (krlPayloadFields_plain e).2
    (krlPayloadFields_plain e').1 (krlPayloadFields_plain e').2 hnf (hmem e) (hmem e')
  rw [hz, hz'] at hfield
  have hzz : z = z' := by simpa [normalForm] using hfield
  rw [krlWatermark, krlWatermark, hz, hz', hzz, digest, digest, hnf]

theorem SameSignedKrl.sameKrl (hn : NfcLaws H.nfc) (hsame : SameSignedKrl H e e')
    (h : GuardKrl H keySets now e) (h' : GuardKrl H keySets now e')
    (hclone : isCloneable e = isCloneable e')
    (hkids : ∀ kid, kid ∈ kidTexts (e.field (js "revoked_kids")) ↔
      kid ∈ kidTexts (e'.field (js "revoked_kids"))) : SameKrl H keySets now e e' where
  cloneable := hclone
  isRecord := h.isRecord.trans h'.isRecord.symm
  issuer := hsame.issuer
  applied scope := by
    rw [h.applyKrl scope, h'.applyKrl scope]
    exact .ok ⟨rfl, rfl, hsame.watermark_eq hn h h', hkids⟩

/-- A configuration with one publisher, authoritative for one issuer. -/
def onePublisher (keySets : List KeySet) (hne : keySets ≠ []) {issuer owner : JsString} (hi : issuer ≠ [])
    (ho : owner ≠ []) : ResolvedRevocation where
  trustedKrlKeySets := keySets
  scopes := [⟨issuer, [owner]⟩]
  keySets := hne
  configured := by simp
  distinct := by simp
  named := by
    intro s hs
    obtain rfl := List.mem_singleton.mp hs
    exact ⟨hi, by simp, by simpa using ho⟩

def acceptingStore : KrlWatermarkStore := fun _ _ _ => .accepted

section

variable {issuer owner : JsString} {keys : List CheckedKey}

theorem fileKrl_onePublisher (h : GuardKrl H keySets now e) (hi : issuer ≠ [])
    (hissuer : e.field (js "issuer") = .str issuer) (hclone : isCloneable e = true) :
    fileKrl [⟨issuer, [owner]⟩] [] (OxDeAI.toPlain e) = .ok [(issuer, OxDeAI.toPlain e)] := by
  have hfield : (OxDeAI.toPlain e).field (js "issuer") = .str issuer := by
    rw [field_toPlain, hissuer]
    rfl
  have htext : (JsValue.str issuer).hasText = true := JsValue.hasText_iff.mpr ⟨issuer, hi, rfl⟩
  simp only [fileKrl, structuredClone_toPlain hclone, hfield, isRecord_toPlain, h.isRecord, htext,
    reported, JsValue.text?]
  simp [ownEntry]

theorem applyScope_onePublisher (h : GuardKrl H keySets now e) :
    applyScope H keySets now [(issuer, OxDeAI.toPlain e)] ⟨issuer, [owner]⟩ =
      .ok (appliedKrl H ⟨issuer, [owner]⟩ e) := by
  rw [applyScope, ownEntry, if_pos rfl]
  exact h.applyKrl _

theorem checkCoverage_onePublisher (hkeys : ∀ key ∈ keys, key.issuer = owner) :
    checkCoverage [appliedKrl H ⟨issuer, [owner]⟩ e] keys = .ok () := by
  have hfind : keys.find? (fun key =>
      !(List.any [appliedKrl H ⟨issuer, [owner]⟩ e] (fun a => a.keyIssuers.contains key.issuer))) = none := by
    rw [List.find?_eq_none]
    intro key hkey
    simp [appliedKrl, hkeys key hkey]
  rw [checkCoverage, hfind]

theorem areCloneable_singleton (hclone : isCloneable e = true) : areCloneable [e] = true := by
  rw [areCloneable, areCloneable, hclone]
  rfl

theorem evaluate_onePublisher (h : GuardKrl H keySets now e) (hi : issuer ≠ []) (ho : owner ≠ [])
    (hissuer : e.field (js "issuer") = .str issuer) (hclone : isCloneable e = true)
    (hkeys : ∀ key ∈ keys, key.issuer = owner) :
    evaluateRevocation H (onePublisher keySets h.trusted hi ho) now keys acceptingStore
      (.value (.arr [e])) = denialOf (checkRevoked [appliedKrl H ⟨issuer, [owner]⟩ e] keys) := by
  rw [evaluateRevocation, areCloneable_singleton hclone, if_pos rfl, applyKrls]
  simp only [onePublisher, plainElements, List.foldlM_cons, List.foldlM_nil,
    fileKrl_onePublisher h hi hissuer hclone, List.mapM_cons, List.mapM_nil, bind, Except.bind, pure,
    Except.pure, applyScope_onePublisher h, checkCoverage_onePublisher hkeys, acceptWatermark, acceptingStore]

end

theorem checkRevoked_single {scope : GuardRevocationScope} {owner kid : JsString}
    (hscope : scope.keyIssuers = [owner]) :
    denialOf (checkRevoked [appliedKrl H scope e] [⟨.parent, owner, kid⟩]) =
      if kid ∈ kidTexts (e.field (js "revoked_kids")) then some (.revoked .parent owner kid) else none := by
  by_cases hmem : kid ∈ kidTexts (e.field (js "revoked_kids"))
  · simp [checkRevoked, isRevokedBy, appliedKrl, hscope, hmem, denialOf]
  · simp [checkRevoked, isRevokedBy, appliedKrl, hscope, hmem, denialOf]

/-- The verdict of the guard with one list or the other in the provider's answer. -/
def SameVerdicts (H : Host) (keySets : List KeySet) (now : JsNumber) (e e' : JsValue) : Prop :=
  ∀ (cfg : ResolvedRevocation) (keys : List CheckedKey) (store : KrlWatermarkStore) (pre post : List JsValue),
    cfg.trustedKrlKeySets = keySets →
      evaluateRevocation H cfg now keys store (.value (.arr (pre ++ e :: post))) =
        evaluateRevocation H cfg now keys store (.value (.arr (pre ++ e' :: post)))

theorem areCloneable_append (xs ys : List JsValue) :
    areCloneable (xs ++ ys) = (areCloneable xs && areCloneable ys) := by
  rw [Bool.eq_iff_iff, Bool.and_eq_true, areCloneable_iff, areCloneable_iff, areCloneable_iff,
    List.forall_mem_append]

theorem SameKrl.sameVerdicts (h : SameKrl H keySets now e e') : SameVerdicts H keySets now e e' := by
  intro cfg keys store pre post hsets
  subst hsets
  have hclone : areCloneable (pre ++ e :: post) = areCloneable (pre ++ e' :: post) := by
    rw [areCloneable_append, areCloneable_append, areCloneable, areCloneable, h.cloneable]
  rw [evaluateRevocation, evaluateRevocation, ← hclone]
  by_cases hall : areCloneable (pre ++ e :: post) = true
  · rw [if_pos hall, if_pos hall]
    have hmem := areCloneable_iff.mp hall
    have hrefl : ∀ xs : List JsValue, (∀ x ∈ xs, isCloneable x = true) → List.Forall₂
        (fun x y => isCloneable x = true ∧ SameKrl H cfg.trustedKrlKeySets now x y) xs xs := by
      intro xs hxs
      rw [List.forall₂_same]
      exact fun x hx => ⟨hxs x hx, .refl x⟩
    rw [applyKrls_same]
    refine List.rel_append (hrefl pre fun x hx => hmem x (by simp [hx])) (.cons ⟨hmem e (by simp), h⟩ ?_)
    exact hrefl post fun x hx => hmem x (by simp [hx])
  · rw [if_neg hall, if_neg hall]

/-- Two accepted lists under one signature lead to the same verdicts exactly when
they revoke the same written kids. -/
theorem revocation_signed_content (H : Host) (hn : NfcLaws H.nfc) (keySets : List KeySet) (now : JsNumber)
    (e e' : JsValue) (he : acceptsKrl H keySets now e = true) (he' : acceptsKrl H keySets now e' = true)
    (hsame : SameSignedKrl H e e') :
    SameVerdicts H keySets now e e' ↔ isCloneable e = isCloneable e' ∧ (isCloneable e = true →
      ∀ kid, kid ∈ kidTexts (e.field (js "revoked_kids")) ↔ kid ∈ kidTexts (e'.field (js "revoked_kids"))) := by
  have h := acceptsKrl_iff.mp he
  have h' := acceptsKrl_iff.mp he'
  constructor
  · intro hverdicts
    obtain ⟨hitext, -, -⟩ := checkKrlFields_eq_nil (checkKrlFields_of_structure h.structured)
    obtain ⟨issuer, hi, hissuer⟩ := JsValue.hasText_iff.mp hitext
    have hissuer' : e'.field (js "issuer") = .str issuer := hsame.issuer ▸ hissuer
    have ho : js "owner" ≠ [] := by decide
    have hone : ∀ keys, evaluateRevocation H (onePublisher keySets h.trusted hi ho) now keys acceptingStore
        (.value (.arr [e])) = evaluateRevocation H (onePublisher keySets h.trusted hi ho) now keys
          acceptingStore (.value (.arr [e'])) := fun keys => hverdicts _ keys acceptingStore [] [] rfl
    have hunclone : ∀ (x : JsValue) (keys : List CheckedKey), isCloneable x = false →
        evaluateRevocation H (onePublisher keySets h.trusted hi ho) now keys acceptingStore (.value (.arr [x])) =
          some (.invalid (js "KRL provider returned a non-cloneable list")) := by
      intro x keys hx
      have hfalse : areCloneable [x] = false := by simp [areCloneable, hx]
      rw [evaluateRevocation, hfalse]
      rfl
    have hnone : ∀ (x : JsValue), GuardKrl H keySets now x → x.field (js "issuer") = .str issuer →
        isCloneable x = true → evaluateRevocation H (onePublisher keySets h.trusted hi ho) now [] acceptingStore
          (.value (.arr [x])) = none := by
      intro x hx hxi hxc
      rw [evaluate_onePublisher hx hi ho hxi hxc (by simp)]
      rfl
    have hclone : isCloneable e = isCloneable e' := by
      cases hc : isCloneable e with
      | true =>
        cases hc' : isCloneable e' with
        | true => rfl
        | false =>
          have hv := hone []
          rw [hnone e h hissuer hc, hunclone e' [] hc'] at hv
          cases hv
      | false =>
        cases hc' : isCloneable e' with
        | false => rfl
        | true =>
          have hv := hone []
          rw [hunclone e [] hc, hnone e' h' hissuer' hc'] at hv
          cases hv
    refine ⟨hclone, fun hc kid => ?_⟩
    have hv := hone [⟨.parent, js "owner", kid⟩]
    rw [evaluate_onePublisher h hi ho hissuer hc (by simp),
      evaluate_onePublisher h' hi ho hissuer' (hclone ▸ hc) (by simp), checkRevoked_single rfl,
      checkRevoked_single rfl] at hv
    by_cases hmem : kid ∈ kidTexts (e.field (js "revoked_kids"))
    · by_cases hmem' : kid ∈ kidTexts (e'.field (js "revoked_kids"))
      · exact ⟨fun _ => hmem', fun _ => hmem⟩
      · rw [if_pos hmem, if_neg hmem'] at hv
        cases hv
    · by_cases hmem' : kid ∈ kidTexts (e'.field (js "revoked_kids"))
      · rw [if_neg hmem, if_pos hmem'] at hv
        cases hv
      · exact ⟨fun hk => absurd hk hmem, fun hk => absurd hk hmem'⟩
  · rintro ⟨hclone, hkids⟩
    by_cases hc : isCloneable e = true
    · exact (hsame.sameKrl hn h h' hclone (hkids hc)).sameVerdicts
    · intro cfg keys store pre post _
      have hfalse : ∀ x : JsValue, isCloneable x = false → areCloneable (pre ++ x :: post) = false := by
        intro x hx
        rw [areCloneable_append, areCloneable, hx, Bool.false_and, Bool.and_false]
      rw [evaluateRevocation, evaluateRevocation, hfalse e (by simpa using hc),
        hfalse e' (by simpa [← hclone] using hc)]
      rfl

end

/-- A list that revokes one kid, signed by the sample key. -/
def sampleKrl (kid : JsString) : JsValue :=
  .obj [(js "version", .str (js "SignedKRLV1")), (js "issuer", .str (js "issuer-1")),
    (js "krl_version", .num (.int 1)), (js "issued_at", .num (.int 900)),
    (js "not_after", .num (.int 2000)), (js "revoked_kids", .arr [.str kid]),
    (js "signature", .obj [(js "alg", .str (js "Ed25519")), (js "kid", .str (js "k1")),
      (js "sig", .str sampleSignature)])]

theorem acceptsKrl_sample (kid : JsString) :
    acceptsKrl sampleHost [sampleKeySet] (.int 1000) (sampleKrl kid) = true := by
  have hc : Canonical sampleHost.nfc (signedKrlSigningPayload (sampleKrl kid)) :=
    (isCanonical_iff _).mp rfl
  have hsig : (JsValue.str sampleSignature).hasText = true :=
    JsValue.hasText_iff.mpr ⟨_, sampleSignature_ne_nil, rfl⟩
  refine acceptsKrl_iff.mpr ⟨rfl, ?_, rfl, rfl, by simp [krlOptions, trustedList], sampleKey none, find_sampleKey,
    rfl, verifyEd25519_sample hc⟩
  have hfield : (sampleKrl kid).field (js "signature") = .obj [(js "alg", .str (js "Ed25519")),
      (js "kid", .str (js "k1")), (js "sig", .str sampleSignature)] := rfl
  have hkids : checkRevokedKids (.arr [.str kid]) = [] := by
    simp [checkRevokedKids, JsValue.isString, malformedKrl, JsValue.text?]
  have hfields : checkKrlFields (sampleKrl kid) = [] := by
    have hrevoked : (sampleKrl kid).field (js "revoked_kids") = .arr [.str kid] := rfl
    rw [checkKrlFields, hrevoked, hkids]
    rfl
  rw [checkKrlStructure, hfields, hfield]
  rfl

theorem sameSigned_sampleKrl {kid kid' : JsString} (h : sampleNfc kid = sampleNfc kid') :
    SameSignedKrl sampleHost (sampleKrl kid) (sampleKrl kid') := by
  refine ⟨rfl, rfl, ?_⟩
  have hc : ∀ kid : JsString, Canonical sampleHost.nfc (signedKrlSigningPayload (sampleKrl kid)) :=
    fun kid => (isCanonical_iff _).mp rfl
  have hfields : ∀ kid : JsString, signedKrlSigningPayload (sampleKrl kid) =
      .obj [(js "version", .str (js "SignedKRLV1")), (js "issuer", .str (js "issuer-1")),
        (js "krl_version", .num (.int 1)), (js "issued_at", .num (.int 900)),
        (js "not_after", .num (.int 2000)), (js "revoked_kids", .arr [.str kid]),
        (js "signature", .obj [(js "alg", .str (js "Ed25519")), (js "kid", .str (js "k1"))])] :=
    fun _ => rfl
  have hkid : normalForm sampleHost.nfc (.arr [.str kid]) = normalForm sampleHost.nfc (.arr [.str kid']) := by
    simp only [normalForm, normalElements]
    exact congrArg (fun s => JsValue.arr [.str s]) h
  have hnf : normalForm sampleHost.nfc (signedKrlSigningPayload (sampleKrl kid)) =
      normalForm sampleHost.nfc (signedKrlSigningPayload (sampleKrl kid')) := by
    rw [hfields, hfields]
    simp only [normalForm, normalMembers] at hkid ⊢
    rw [hkid]
  rw [canonicalJson_ok (P := sampleHost.toPlatform) (hc kid),
    canonicalJson_ok (P := sampleHost.toPlatform) (hc kid'), hnf]

theorem rewritten_kid_unrevoked : ¬ ∀ e e' : JsValue,
    acceptsKrl sampleHost [sampleKeySet] (.int 1000) e = true →
      acceptsKrl sampleHost [sampleKeySet] (.int 1000) e' = true → SameSignedKrl sampleHost e e' →
        SameVerdicts sampleHost [sampleKeySet] (.int 1000) e e' := by
  intro hclaim
  have hsame : SameSignedKrl sampleHost (sampleKrl (js "K")) (sampleKrl [unit 8490]) :=
    sameSigned_sampleKrl (by decide)
  have hi : js "issuer-1" ≠ [] := by decide
  have ho : js "owner" ≠ [] := by decide
  have h := fun kid => acceptsKrl_iff.mp (acceptsKrl_sample kid)
  have hv := hclaim _ _ (acceptsKrl_sample _) (acceptsKrl_sample _) hsame
    (onePublisher [sampleKeySet] (by simp) hi ho) [⟨.parent, js "owner", js "K"⟩] acceptingStore [] [] rfl
  rw [List.nil_append, List.nil_append, evaluate_onePublisher (h _) hi ho rfl rfl (by simp),
    evaluate_onePublisher (h _) hi ho rfl rfl (by simp), checkRevoked_single rfl, checkRevoked_single rfl] at hv
  have hin : js "K" ∈ kidTexts ((sampleKrl (js "K")).field (js "revoked_kids")) := by decide
  have hout : js "K" ∉ kidTexts ((sampleKrl [unit 8490]).field (js "revoked_kids")) := by decide
  rw [if_pos hin, if_neg hout] at hv
  cases hv

/-- The same list with a member that no signature covers. -/
def annotatedKrl (kid note : JsString) : JsValue :=
  .obj [(js "version", .str (js "SignedKRLV1")), (js "issuer", .str (js "issuer-1")),
    (js "krl_version", .num (.int 1)), (js "issued_at", .num (.int 900)),
    (js "not_after", .num (.int 2000)), (js "revoked_kids", .arr [.str kid]),
    (js "signature", .obj [(js "alg", .str (js "Ed25519")), (js "kid", .str (js "k1")),
      (js "sig", .str sampleSignature)]), (js "note", .str note)]

theorem acceptsKrl_annotated (kid note : JsString) :
    acceptsKrl sampleHost [sampleKeySet] (.int 1000) (annotatedKrl kid note) = true :=
  acceptsKrl_sample kid

theorem revocation_signed_content_sample : SameVerdicts sampleHost [sampleKeySet] (.int 1000)
    (annotatedKrl (js "K") (js "a")) (annotatedKrl (js "K") (js "b")) := by
  have hsame : SameSignedKrl sampleHost (annotatedKrl (js "K") (js "a")) (annotatedKrl (js "K") (js "b")) :=
    ⟨rfl, rfl, rfl⟩
  exact (revocation_signed_content sampleHost samplePlatform_laws.nfc [sampleKeySet] (.int 1000) _ _
    (acceptsKrl_annotated _ _) (acceptsKrl_annotated _ _) hsame).mpr ⟨rfl, fun _ _ => Iff.rfl⟩

end OxDeAI
