import OxDeAI.Crypto.SmallOrder
import OxDeAI.Engine.Issue
import OxDeAI.Verification.Authorization

/-! What an accepted authorization passed: its fields, and a signature under a
registered key that is active, or under the legacy secret. -/

namespace OxDeAI

open Js

@[simp] theorem requireText_eq_nil {v : JsValue} {code : ViolationCode} {field : JsString} :
    requireText v code field = [] ↔ v.hasText = true := check_eq_nil

theorem meets_iff {expected : Option JsString} {v : JsValue} :
    meets expected v = true ↔ ∀ s, expected = some s → v = .str s := by
  cases expected with
  | none => simp [meets]
  | some s => simp [meets, JsValue.isText_iff]

theorem isTrustedAuthorizationAuthority_iff {authorities : List AuthorizationAuthority}
    {issuer policyId : JsValue} :
    isTrustedAuthorizationAuthority authorities issuer policyId = true ↔
      issuer.hasText = true ∧ policyId.hasText = true ∧
        ∃ a ∈ authorities, issuer = .str a.issuer ∧ policyId = .str a.policyId := by
  simp only [isTrustedAuthorizationAuthority, Bool.and_eq_true, List.any_eq_true,
    JsValue.isText_iff, and_assoc]

/-- The fields of an authorization that pass every check made without a key. -/
structure FieldsHold (nfc : JsString → JsString) (now skew : JsNumber)
    (opts : VerifyAuthorizationOptions) (auth : JsValue) : Prop where
  decision : auth.field (js "decision") = .str (js "ALLOW")
  intentHash : (auth.field (js "intent_hash")).hasText = true
  stateHash : (auth.field (js "state_hash")).hasText = true
  policyId : (auth.field (js "policy_id")).hasText = true
  issuer : (auth.field (js "issuer")).hasText = true
  audience : (auth.field (js "audience")).hasText = true
  authId : ∃ id, id ≠ [] ∧ auth.field (js "auth_id") = .str id ∧ nfc id = id ∧
    id ∉ opts.consumedAuthIds.getD []
  issuedAt : ∃ z : ℤ, auth.field (js "issued_at") = .num (.int z) ∧
    (JsNumber.int z).isSafeInteger = true ∧ (now.add skew).lt (.int z) = false
  alg : (signatureParts auth).alg.hasText = true
  kid : (signatureParts auth).kid.hasText = true
  sig : (signatureParts auth).sig.hasText = true
  expiry : ∃ z : ℤ, effectiveExpiry auth = some (.int z) ∧ now.ge (.int z) = false
  expectedIssuer : ∀ s, opts.expectedIssuer = some s → auth.field (js "issuer") = .str s
  expectedAudience : ∀ s, opts.expectedAudience = some s → auth.field (js "audience") = .str s
  expectedPolicyId : ∀ s, opts.expectedPolicyId = some s → auth.field (js "policy_id") = .str s
  authority : ∀ authorities, opts.trustedAuthorizationAuthorities = some authorities →
    ∃ a ∈ authorities, auth.field (js "issuer") = .str a.issuer ∧
      auth.field (js "policy_id") = .str a.policyId

section

variable {nfc : JsString → JsString} {now skew : JsNumber} {opts : VerifyAuthorizationOptions}
  {auth : JsValue}

theorem checkIssuedAt_eq_nil {v : JsValue} : checkIssuedAt now skew v = [] ↔
    ∃ z : ℤ, v = .num (.int z) ∧ (JsNumber.int z).isSafeInteger = true ∧
      (now.add skew).lt (.int z) = false := by
  unfold checkIssuedAt
  by_cases hint : v.isInteger = true
  · obtain ⟨z, rfl⟩ := JsValue.isInteger_iff.mp hint
    simp [hint, isPlausible]
  · constructor
    · intro h
      simp [hint] at h
    · rintro ⟨z, rfl, -⟩
      exact absurd rfl hint

theorem effectiveExpiry_some {n : JsNumber} (h : effectiveExpiry auth = some n) :
    ∃ z : ℤ, n = .int z := by
  have hint : ∀ {v : JsValue}, v.isInteger = true → v.number? = some n → ∃ z : ℤ, n = .int z := by
    intro v hv hn
    obtain ⟨z, rfl⟩ := JsValue.isInteger_iff.mp hv
    exact ⟨z, (Option.some.inj hn).symm⟩
  unfold effectiveExpiry at h
  by_cases h1 : (auth.field (js "expiry")).isInteger = true
  · rw [if_pos h1] at h
    exact hint h1 h
  · rw [if_neg h1] at h
    by_cases h2 : (auth.field (js "expires_at")).isInteger = true
    · rw [if_pos h2] at h
      exact hint h2 h
    · rw [if_neg h2] at h
      cases h

theorem checkExpiry_eq_nil : checkExpiry now (effectiveExpiry auth) = [] ↔
    ∃ z : ℤ, effectiveExpiry auth = some (.int z) ∧ now.ge (.int z) = false := by
  cases he : effectiveExpiry auth with
  | none => simp [checkExpiry]
  | some n =>
    obtain ⟨z, rfl⟩ := effectiveExpiry_some he
    simp [checkExpiry]

theorem checkAuthId_eq_nil {v : JsValue} : checkAuthId nfc v = [] ↔
    ∃ id, id ≠ [] ∧ v = .str id ∧ nfc id = id := by
  unfold checkAuthId
  by_cases ht : v.hasText = true
  · obtain ⟨s, hs, rfl⟩ := JsValue.hasText_iff.mp ht
    simp [ht, isNfcText, hs]
  · constructor
    · intro h
      simp [ht] at h
    · rintro ⟨id, hid, rfl, -⟩
      exact absurd (JsValue.hasText_iff.mpr ⟨id, hid, rfl⟩) ht

theorem notConsumed_iff {ids : List JsString} {v : JsValue} :
    (!ids.any v.isText || !v.hasText) = true ↔ ∀ id, id ≠ [] → v = .str id → id ∉ ids := by
  rw [Bool.or_eq_true, Bool.not_eq_true', Bool.not_eq_true']
  constructor
  · intro h id hid hv hmem
    rcases h with h | h
    · rw [List.any_eq_false] at h
      exact h id hmem (JsValue.isText_iff.mpr hv)
    · rw [JsValue.hasText_iff.mpr ⟨id, hid, hv⟩] at h
      cases h
  · intro h
    by_cases ht : v.hasText = true
    · obtain ⟨s, hs, rfl⟩ := JsValue.hasText_iff.mp ht
      left
      rw [List.any_eq_false]
      intro id hid htext
      obtain rfl := JsValue.str.inj (JsValue.isText_iff.mp htext)
      exact h _ hs rfl hid
    · exact .inr (by simpa using ht)

theorem authorities_iff : opts.trustedAuthorizationAuthorities.all (fun authorities =>
      isTrustedAuthorizationAuthority authorities (auth.field (js "issuer"))
        (auth.field (js "policy_id"))) = true ↔
    ∀ authorities, opts.trustedAuthorizationAuthorities = some authorities →
      isTrustedAuthorizationAuthority authorities (auth.field (js "issuer"))
        (auth.field (js "policy_id")) = true := by
  cases opts.trustedAuthorizationAuthorities <;> simp

theorem checkFields_eq_nil :
    checkFields nfc now skew opts auth = [] ↔ FieldsHold nfc now skew opts auth := by
  simp only [checkFields, List.append_eq_nil_iff, check_eq_nil, requireText_eq_nil,
    checkAuthId_eq_nil, checkIssuedAt_eq_nil, checkExpiry_eq_nil, notConsumed_iff, meets_iff,
    authorities_iff, JsValue.isText_iff, and_assoc]
  constructor
  · rintro ⟨hdec, hih, hsh, hpol, hiss, haud, ⟨id, hne, hid, hnfc⟩, hat, halg, hkid, hsig, hexp, hei, hea, hep,
      hauth, hcons⟩
    refine ⟨hdec, hih, hsh, hpol, hiss, haud, ⟨id, hne, hid, hnfc, hcons id hne hid⟩, hat, halg, hkid,
      hsig, hexp, hei, hea, hep, ?_⟩
    intro authorities h
    exact (isTrustedAuthorizationAuthority_iff.mp (hauth authorities h)).2.2
  · intro h
    obtain ⟨id, hne, hid, hnfc, hcons⟩ := h.authId
    refine ⟨h.decision, h.intentHash, h.stateHash, h.policyId, h.issuer, h.audience, ⟨id, hne, hid, hnfc⟩,
      h.issuedAt, h.alg, h.kid, h.sig, h.expiry, h.expectedIssuer, h.expectedAudience, h.expectedPolicyId, ?_, ?_⟩
    · intro authorities ha
      exact isTrustedAuthorizationAuthority_iff.mpr ⟨h.issuer, h.policyId, h.authority authorities ha⟩
    · intro id' _ hid'
      rw [hid] at hid'
      obtain rfl := JsValue.str.inj hid'
      exact hcons

end

theorem material_some {sig : SignatureParts} {alg kid signature : JsString} :
    sig.material = some (alg, kid, signature) ↔ (alg ≠ [] ∧ sig.alg = .str alg) ∧
      (kid ≠ [] ∧ sig.kid = .str kid) ∧ signature ≠ [] ∧ sig.sig = .str signature := by
  constructor
  · intro h
    unfold SignatureParts.material at h
    split at h
    · rename_i ha hk hs
      cases h
      exact ⟨⟨by simp, ha⟩, ⟨by simp, hk⟩, by simp, hs⟩
    · cases h
  · rintro ⟨⟨ha, halg⟩, ⟨hk, hkid⟩, hs, hsig⟩
    obtain ⟨a, as, rfl⟩ := List.exists_cons_of_ne_nil ha
    obtain ⟨k, ks, rfl⟩ := List.exists_cons_of_ne_nil hk
    obtain ⟨s, ss, rfl⟩ := List.exists_cons_of_ne_nil hs
    rw [SignatureParts.material, halg, hkid, hsig]

theorem exists_material {sig : SignatureParts} (ha : sig.alg.hasText = true)
    (hk : sig.kid.hasText = true) (hs : sig.sig.hasText = true) :
    ∃ alg kid signature, sig.material = some (alg, kid, signature) := by
  obtain ⟨alg, hne, halg⟩ := JsValue.hasText_iff.mp ha
  obtain ⟨kid, hne', hkid⟩ := JsValue.hasText_iff.mp hk
  obtain ⟨s, hne'', hsig⟩ := JsValue.hasText_iff.mp hs
  exact ⟨alg, kid, s, material_some.mpr ⟨⟨hne, halg⟩, ⟨hne', hkid⟩, hne'', hsig⟩⟩

section

variable {H : Host} {now skew : JsNumber} {opts : VerifyAuthorizationOptions} {trusted requireSig : Bool}
  {find : JsString → Option KeySetKey} {auth : JsValue} {alg kid signature : JsString}

/-- The signature verifies: under a key the lookup found, active now, or under
the legacy secret. -/
inductive SignatureHolds (H : Host) (now : JsNumber) (opts : VerifyAuthorizationOptions)
    (find : JsString → Option KeySetKey) (auth : JsValue) (alg kid signature : JsString) : Prop
  | ed25519 (key : KeySetKey) (name : isEd25519Name alg = true) (found : find kid = some key)
      (active : keyIsActiveAt key now = true)
      (valid : acceptsEd25519 H (authorizationSigningPayload auth) signature key.publicKey = true)
  | hmac (name : alg = js "HMAC-SHA256") (secret : opts.legacyHmacSecret.getD [] ≠ [])
      (valid : verifyHmacDomain H authV1Domain (authorizationSigningPayload auth) signature
        (opts.legacyHmacSecret.getD []) = true)

theorem not_isEd25519Name_hmac : isEd25519Name (js "HMAC-SHA256") = false := by decide

theorem checkEd25519_passes {payload : JsValue} {key? : Option KeySetKey} :
    (checkEd25519 H now payload signature key?).violations = [] ↔
      ∃ key, key? = some key ∧ keyIsActiveAt key now = true ∧
        acceptsEd25519 H payload signature key.publicKey = true := by
  cases key? with
  | none => simp [checkEd25519, notVerified]
  | some key =>
    by_cases hactive : keyIsActiveAt key now = true
    · simp [checkEd25519, hactive, verdictOf]
    · simp [checkEd25519, hactive, notVerified]

theorem checkSignature_passes (hmat : (signatureParts auth).material = some (alg, kid, signature)) :
    (checkSignature H now opts trusted find true auth).violations = [] ↔
      (isEd25519Name alg = true → trusted = true) ∧
        SignatureHolds H now opts find auth alg kid signature := by
  rw [checkSignature, hmat]
  simp only
  by_cases hed : isEd25519Name alg = true
  · rw [if_pos hed]
    by_cases ht : trusted = true
    · rw [if_neg (by simp [ht]), checkEd25519_passes]
      constructor
      · rintro ⟨key, hf, ha, hv⟩
        exact ⟨fun _ => ht, .ed25519 key hed hf ha hv⟩
      · rintro ⟨-, h⟩
        cases h with
        | ed25519 key _ hf ha hv => exact ⟨key, hf, ha, hv⟩
        | hmac hname =>
          rw [hname, not_isEd25519Name_hmac] at hed
          cases hed
    · simp [hed, ht, notVerified, check]
  · rw [if_neg hed]
    by_cases hh : alg = js "HMAC-SHA256"
    · rw [if_pos hh]
      by_cases hs : opts.legacyHmacSecret.getD [] = []
      · rw [if_pos hs]
        constructor
        · intro h
          simp [notVerified, check] at h
        · rintro ⟨-, h⟩
          cases h with
          | ed25519 _ hname => exact absurd hname hed
          | hmac _ hne => exact absurd hs hne
      · rw [if_neg hs, verdictOf, check_eq_nil]
        constructor
        · intro hv
          exact ⟨fun h => absurd h hed, .hmac hh hs hv⟩
        · rintro ⟨-, h⟩
          cases h with
          | ed25519 _ hname => exact absurd hname hed
          | hmac _ _ hv => exact hv
    · rw [if_neg hh]
      constructor
      · intro h
        simp [notVerified] at h
      · rintro ⟨-, h⟩
        cases h with
        | ed25519 _ hname => exact absurd hname hed
        | hmac hname => exact absurd hname hh

/-- A check that had to verify the signature and found nothing wrong did verify it. -/
theorem signatureVerified_of_passes (hmat : (signatureParts auth).material = some (alg, kid, signature))
    (h : (checkSignature H now opts trusted find true auth).violations = []) :
    (checkSignature H now opts trusted find true auth).signatureVerified = true := by
  have hpass := (checkSignature_passes hmat).mp h
  rw [checkSignature, hmat]
  simp only
  cases hpass.2 with
  | ed25519 key hname hf ha hv =>
    simp [hname, hpass.1 hname, hf, checkEd25519, ha, verdictOf, hv]
  | hmac hname hs hv =>
    subst hname
    simp [not_isEd25519Name_hmac, hs, verdictOf, hv]

/-- What a verifier that demands a signature accepts. -/
structure Verified (H : Host) (now skew : JsNumber) (opts : VerifyAuthorizationOptions)
    (find : JsString → Option KeySetKey) (auth : JsValue) : Prop extends
    FieldsHold H.nfc now skew opts auth where
  notNullish : auth.isNullish = false
  trustedKeys : opts.mode = some .strict → trustedList opts.trustedKeySets ≠ []
  signature : ∃ alg kid signature, (signatureParts auth).material = some (alg, kid, signature) ∧
    (isEd25519Name alg = true → trustedList opts.trustedKeySets ≠ []) ∧
    SignatureHolds H now opts find auth alg kid signature

def Accepts (verdict : Except JsError AuthorizationVerificationResult) : Prop :=
  ∃ r, verdict = .ok r ∧ r.ok = true

theorem not_isEmpty_iff {α : Type*} {l : List α} : (!l.isEmpty) = true ↔ l ≠ [] := by
  cases l <;> simp

theorem authorizationResult_ok {violations : List VerificationViolation} {sig : SignatureCheck} :
    (authorizationResult opts auth violations sig).ok = true ↔ violations = [] := decide_eq_true_iff

theorem verifyAuthorizationBy_accepts {clock : JsNumber} (hreq : opts.requireSig = true)
    (hskew : resolveMaxFutureIssuedAtSkewSeconds (js "verifyAuthorization")
      opts.maxFutureIssuedAtSkewSeconds = .ok skew) :
    Accepts (verifyAuthorizationBy H clock auth opts find) ↔
      Verified H (opts.now.getD clock) skew opts find auth := by
  rw [Accepts, verifyAuthorizationBy, hskew]
  simp only
  by_cases hnull : auth.isNullish = true
  · rw [if_pos hnull]
    constructor
    · rintro ⟨r, h, -⟩
      cases h
    · intro h
      rw [h.notNullish] at hnull
      cases hnull
  · rw [if_neg hnull]
    by_cases hstrict : opts.mode = some .strict ∧ (!(trustedList opts.trustedKeySets).isEmpty) = false
    · rw [if_pos hstrict]
      constructor
      · rintro ⟨r, h, hok⟩
        cases h
        cases hok
      · intro h
        have := not_isEmpty_iff.mpr (h.trustedKeys hstrict.1)
        rw [hstrict.2] at this
        cases this
    · rw [if_neg hstrict, hreq]
      have hkeys : opts.mode = some .strict → trustedList opts.trustedKeySets ≠ [] := by
        intro hmode
        apply not_isEmpty_iff.mp
        by_contra hempty
        exact hstrict ⟨hmode, by simpa using hempty⟩
      constructor
      · rintro ⟨r, h, hok⟩
        rw [← Except.ok.inj h, authorizationResult_ok, List.append_eq_nil_iff] at hok
        have hf := checkFields_eq_nil.mp hok.1
        obtain ⟨alg, kid, signature, hmat⟩ := exists_material hf.alg hf.kid hf.sig
        have hs := (checkSignature_passes hmat).mp hok.2
        exact ⟨hf, by simpa using hnull, hkeys, alg, kid, signature, hmat,
          fun hname => not_isEmpty_iff.mp (hs.1 hname), hs.2⟩
      · intro h
        obtain ⟨alg, kid, signature, hmat, htrust, hs⟩ := h.signature
        refine ⟨_, rfl, ?_⟩
        rw [authorizationResult_ok, List.append_eq_nil_iff]
        exact ⟨checkFields_eq_nil.mpr h.toFieldsHold, (checkSignature_passes hmat).mpr
          ⟨fun hname => not_isEmpty_iff.mpr (htrust hname), hs⟩⟩

theorem verified_signatureVerified {clock : JsNumber} {r : AuthorizationVerificationResult}
    (hreq : opts.requireSig = true) (hskew : resolveMaxFutureIssuedAtSkewSeconds
      (js "verifyAuthorization") opts.maxFutureIssuedAtSkewSeconds = .ok skew)
    (h : verifyAuthorizationBy H clock auth opts find = .ok r) (hok : r.ok = true) :
    r.signatureVerified = true := by
  have hv := (verifyAuthorizationBy_accepts hreq hskew).mp ⟨r, h, hok⟩
  obtain ⟨alg, kid, signature, hmat, htrust, hs⟩ := hv.signature
  have hstrict : ¬ (opts.mode = some .strict ∧ (!(trustedList opts.trustedKeySets).isEmpty) = false) := by
    rintro ⟨hmode, hempty⟩
    rw [not_isEmpty_iff.mpr (hv.trustedKeys hmode)] at hempty
    cases hempty
  rw [verifyAuthorizationBy, hskew] at h
  simp only at h
  rw [hv.notNullish, if_neg (by simp), if_neg hstrict, hreq] at h
  rw [← Except.ok.inj h]
  exact signatureVerified_of_passes hmat ((checkSignature_passes hmat).mpr
    ⟨fun hname => not_isEmpty_iff.mpr (htrust hname), hs⟩)

end

/-- A signature accepted under a key registered for exactly this issuer and kid
that is active now. -/
def RegisteredSignature (H : Host) (now : JsNumber) (keySets : List KeySet) (auth : JsValue) : Prop :=
  ∃ ks ∈ keySets, ∃ key ∈ ks.keys, auth.field (js "issuer") = .str ks.issuer ∧
    (signatureParts auth).kid = .str key.kid ∧ key.alg = .ed25519 ∧ keyIsActiveAt key now = true ∧
      ∃ signature, (signatureParts auth).sig = .str signature ∧
        acceptsEd25519 H (authorizationSigningPayload auth) signature key.publicKey = true

/-- A signature accepted under the configured legacy secret. -/
def LegacySignature (H : Host) (opts : VerifyAuthorizationOptions) (auth : JsValue) : Prop :=
  (signatureParts auth).alg = .str (js "HMAC-SHA256") ∧ ∃ secret, opts.legacyHmacSecret = some secret ∧
    secret ≠ [] ∧ ∃ signature, (signatureParts auth).sig = .str signature ∧
      verifyHmacDomain H authV1Domain (authorizationSigningPayload auth) signature secret = true

/-- What a positive verdict vouches for. A time that is not a number passes both
comparisons. -/
structure Vouched (H : Host) (now skew : JsNumber) (opts : VerifyAuthorizationOptions)
    (auth : JsValue) : Prop where
  decision : auth.field (js "decision") = .str (js "ALLOW")
  intentHash : (auth.field (js "intent_hash")).hasText = true
  stateHash : (auth.field (js "state_hash")).hasText = true
  policyId : (auth.field (js "policy_id")).hasText = true
  issuer : (auth.field (js "issuer")).hasText = true
  audience : (auth.field (js "audience")).hasText = true
  authId : ∃ id, id ≠ [] ∧ auth.field (js "auth_id") = .str id ∧ H.nfc id = id ∧
    id ∉ opts.consumedAuthIds.getD []
  expiry : ∃ z : ℤ, effectiveExpiry auth = some (.int z) ∧
    (now.isNaN = false → now.lt (.int z) = true)
  issuedAt : ∃ z : ℤ, auth.field (js "issued_at") = .num (.int z) ∧
    (JsNumber.int z).isSafeInteger = true ∧
    (now.isNaN = false → (JsNumber.int z).le (now.add skew) = true)
  expectedIssuer : ∀ s, opts.expectedIssuer = some s → auth.field (js "issuer") = .str s
  expectedAudience : ∀ s, opts.expectedAudience = some s → auth.field (js "audience") = .str s
  expectedPolicyId : ∀ s, opts.expectedPolicyId = some s → auth.field (js "policy_id") = .str s
  authority : ∀ authorities, opts.trustedAuthorizationAuthorities = some authorities →
    ∃ a ∈ authorities, auth.field (js "issuer") = .str a.issuer ∧
      auth.field (js "policy_id") = .str a.policyId
  signature : RegisteredSignature H now (trustedList opts.trustedKeySets) auth ∨
    LegacySignature H opts auth

section

variable {H : Host} {clock now skew : JsNumber} {opts : VerifyAuthorizationOptions} {auth : JsValue}

theorem resolveMaxFutureIssuedAtSkewSeconds_ok {caller : JsString} {value : Option JsNumber}
    (h : resolveMaxFutureIssuedAtSkewSeconds caller value = .ok skew) : ∃ z : ℤ, skew = .int z := by
  cases value with
  | none =>
    cases h
    exact ⟨300, rfl⟩
  | some n =>
    simp only [resolveMaxFutureIssuedAtSkewSeconds] at h
    split at h
    · cases h
    · rename_i hn
      cases h
      rw [Bool.or_eq_true, not_or, Bool.not_eq_true', Bool.not_eq_false] at hn
      obtain ⟨z, hz, -⟩ := JsNumber.exists_int_of_isSafeInteger hn.1
      exact ⟨z, hz⟩

theorem signatureHolds_lookup {alg kid signature : JsString}
    (hmat : (signatureParts auth).material = some (alg, kid, signature))
    (h : SignatureHolds H now opts (fun kid => findKeyInKeySets (trustedList opts.trustedKeySets)
      (auth.field (js "issuer")) kid .ed25519) auth alg kid signature) :
    RegisteredSignature H now (trustedList opts.trustedKeySets) auth ∨ LegacySignature H opts auth := by
  obtain ⟨⟨-, halg⟩, ⟨-, hkid⟩, -, hsig⟩ := material_some.mp hmat
  cases h with
  | ed25519 key _ hf ha hv =>
    left
    obtain ⟨ks, hks, hiss, hmem, rfl, hkalg⟩ := findKeyInKeySets_some hf
    exact ⟨ks, hks, key, hmem, hiss, hkid, hkalg, ha, signature, hsig, hv⟩
  | hmac hname hs hv =>
    right
    subst hname
    cases hsec : opts.legacyHmacSecret with
    | none =>
      rw [hsec] at hs
      exact absurd rfl hs
    | some secret =>
      rw [hsec] at hs hv
      exact ⟨halg, secret, hsec, hs, signature, hsig, hv⟩

theorem Verified.vouched (hskew : ∃ z : ℤ, skew = .int z)
    (h : Verified H now skew opts (fun kid => findKeyInKeySets (trustedList opts.trustedKeySets)
      (auth.field (js "issuer")) kid .ed25519) auth) : Vouched H now skew opts auth := by
  obtain ⟨k, rfl⟩ := hskew
  obtain ⟨exp, hexp, hlive⟩ := h.expiry
  obtain ⟨iat, hiat, hsafe, hle⟩ := h.issuedAt
  obtain ⟨alg, kid, signature, hmat, -, hs⟩ := h.signature
  refine ⟨h.decision, h.intentHash, h.stateHash, h.policyId, h.issuer, h.audience, h.authId,
    ⟨exp, hexp, fun hnow => JsNumber.lt_of_not_ge hnow rfl hlive⟩, ⟨iat, hiat, hsafe, ?_⟩,
    h.expectedIssuer, h.expectedAudience, h.expectedPolicyId, h.authority, signatureHolds_lookup hmat hs⟩
  intro hnow
  rw [JsNumber.le, JsNumber.ge, JsNumber.isNaN_add_int hnow, hle]
  rfl

/-- A verifier that demands a signature vouches for what it accepts. -/
theorem verifyAuthorization_sound (H : Host) (clock : JsNumber) (auth : JsValue)
    (opts : VerifyAuthorizationOptions)
    (hreq : opts.mode = some .strict ∨ opts.requireSignatureVerification = some true)
    {r : AuthorizationVerificationResult}
    (h : verifyAuthorization H clock auth opts = .ok r) (hok : r.ok = true) :
    r.signatureVerified = true ∧ ∃ skew,
      resolveMaxFutureIssuedAtSkewSeconds (js "verifyAuthorization")
        opts.maxFutureIssuedAtSkewSeconds = .ok skew ∧
      Vouched H (opts.now.getD clock) skew opts auth := by
  have hsig : opts.requireSig = true := by
    rcases hreq with hm | hr
    · simp [VerifyAuthorizationOptions.requireSig, hm]
    · simp [VerifyAuthorizationOptions.requireSig, hr]
  cases hskew : resolveMaxFutureIssuedAtSkewSeconds (js "verifyAuthorization")
      opts.maxFutureIssuedAtSkewSeconds with
  | error e =>
    rw [verifyAuthorization, verifyAuthorizationBy, hskew] at h
    cases h
  | ok skew =>
    have hv := (verifyAuthorizationBy_accepts hsig hskew).mp ⟨r, h, hok⟩
    have hver := verified_signatureVerified hsig hskew h hok
    exact ⟨hver, skew, rfl, hv.vouched (resolveMaxFutureIssuedAtSkewSeconds_ok hskew)⟩

theorem status_of_ok {clock : JsNumber} {auth : JsValue} {opts : VerifyAuthorizationOptions}
    {r : AuthorizationVerificationResult} (h : verifyAuthorization H clock auth opts = .ok r)
    (hok : r.ok = true) : r.status = .ok := by
  unfold verifyAuthorization verifyAuthorizationBy at h
  dsimp only at h
  split at h
  · cases h
  · split at h
    · cases h
    · split at h
      · obtain rfl := Except.ok.inj h
        cases hok
      · obtain rfl := Except.ok.inj h
        have hnil := authorizationResult_ok.mp hok
        simp only [authorizationResult, hnil, if_true]

/-- The status says what `ok` says. -/
theorem ok_of_status {clock : JsNumber} {auth : JsValue} {opts : VerifyAuthorizationOptions}
    {r : AuthorizationVerificationResult} (h : verifyAuthorization H clock auth opts = .ok r)
    (hstatus : r.status = .ok) : r.ok = true := by
  unfold verifyAuthorization verifyAuthorizationBy at h
  dsimp only at h
  split at h
  · cases h
  · split at h
    · cases h
    · split at h
      · obtain rfl := Except.ok.inj h
        cases hstatus
      · obtain rfl := Except.ok.inj h
        simp only [authorizationResult] at hstatus ⊢
        split at hstatus
        · rename_i hnil
          exact decide_eq_true hnil
        · cases hstatus

end

def sampleSignatureBytes : List Byte := List.replicate 64 (byte 9)

def sampleSignature : JsString := base64Encode sampleSignatureBytes

def samplePublicKey : PublicKey where
  jwkX := some (List.replicate 32 (byte 7))
  verify _ sig := sig = sampleSignatureBytes

def sampleHost : Host where
  toPlatform := samplePlatform
  createPublicKey _ := some samplePublicKey

def sampleKey (status : Option KeyStatus) : KeySetKey where
  kid := js "k1"
  alg := .ed25519
  publicKey := js "-----BEGIN PUBLIC KEY-----"
  status := status

def sampleKeySet : KeySet where
  issuer := js "issuer-1"
  version := js "1"
  keys := [sampleKey none]

theorem isUsableKey_sample : isUsableKey samplePublicKey = true := isUsableKey_of_number rfl rfl (by decide)

theorem verifyEd25519_sample {domain pem : JsString} {payload : JsValue}
    (h : Canonical sampleHost.nfc payload) :
    verifyEd25519 sampleHost domain payload sampleSignature pem = true := by
  have hlen : sampleSignatureBytes.length = 64 := List.length_replicate ..
  have hm : signatureInput sampleHost.toPlatform domain payload = .ok _ :=
    map_eq_ok.mpr ⟨_, canonicalJson_ok (P := sampleHost.toPlatform) h, rfl⟩
  have hkey : sampleHost.createPublicKey (normalizePem pem) = some samplePublicKey := rfl
  simp only [verifyEd25519, sampleSignature, base64Decode_encode, hlen, hkey, isUsableKey_sample, hm]
  simp [samplePublicKey]

/-- An authorization with flat signature fields. -/
def sampleAuthorization (expiry : JsValue) (alg signature : JsString) (more : List (JsString × JsValue)) :
    JsValue :=
  .obj ([(js "auth_id", .str (js "a1")), (js "issuer", .str (js "issuer-1")),
    (js "audience", .str (js "svc")), (js "intent_hash", .str (js "11")),
    (js "state_hash", .str (js "22")), (js "policy_id", .str (js "p1")),
    (js "decision", .str (js "ALLOW")), (js "issued_at", .num (.int 1000)), (js "expiry", expiry),
    (js "alg", .str alg), (js "kid", .str (js "k1")), (js "signature", .str signature)] ++ more)

def sampleOptions (now : ℤ) : VerifyAuthorizationOptions where
  now := some (.int now)
  mode := some .strict
  trustedKeySets := some (.one sampleKeySet)
  legacyHmacSecret := some (js "secret")

theorem sampleOptions_skew : resolveMaxFutureIssuedAtSkewSeconds (js "verifyAuthorization") none =
    .ok (.int 300) := rfl

theorem find_sampleKey : findKeyInKeySets [sampleKeySet] (.str (js "issuer-1")) (js "k1") .ed25519 =
    some (sampleKey none) := by decide

theorem fieldsHold_sample {now : ℤ} {expiry : JsValue} {alg signature : JsString}
    {more : List (JsString × JsValue)} (halg : alg ≠ []) (hsig : signature ≠ [])
    (hiat : 1000 ≤ now + 300) (hsmall : (now + 300).natAbs ≤ 2 ^ 53)
    (hexp : ∃ z : ℤ, effectiveExpiry (sampleAuthorization expiry alg signature more) = some (.int z) ∧
      now < z) :
    FieldsHold sampleHost.nfc (.int now) (.int 300) (sampleOptions now)
      (sampleAuthorization expiry alg signature more) where
  decision := rfl
  intentHash := rfl
  stateHash := rfl
  policyId := rfl
  issuer := rfl
  audience := rfl
  authId := ⟨js "a1", by decide, rfl, by decide, by simp [sampleOptions]⟩
  issuedAt := by
    refine ⟨1000, rfl, by decide, ?_⟩
    rw [JsNumber.add_int hsmall]
    simpa using hiat
  alg := JsValue.hasText_iff.mpr ⟨alg, halg, rfl⟩
  kid := rfl
  sig := JsValue.hasText_iff.mpr ⟨signature, hsig, rfl⟩
  expiry := by
    obtain ⟨z, hz, hlt⟩ := hexp
    exact ⟨z, hz, by simpa using hlt⟩
  expectedIssuer := nofun
  expectedAudience := nofun
  expectedPolicyId := nofun
  authority := nofun

theorem sampleSignature_ne_nil : sampleSignature ≠ [] := nofun

theorem material_sample {expiry : JsValue} {alg signature : JsString} {more : List (JsString × JsValue)}
    (halg : alg ≠ []) (hsig : signature ≠ []) :
    (signatureParts (sampleAuthorization expiry alg signature more)).material =
      some (alg, js "k1", signature) :=
  material_some.mpr ⟨⟨halg, rfl⟩, ⟨by decide, rfl⟩, hsig, rfl⟩

/-- Accepted under the sample key, whatever the time before its expiry. -/
theorem accepts_sample (now : ℤ) {expiry : JsValue} {more : List (JsString × JsValue)}
    (hiat : 1000 ≤ now + 300) (hsmall : (now + 300).natAbs ≤ 2 ^ 53)
    (hexp : ∃ z : ℤ, effectiveExpiry
      (sampleAuthorization expiry (js "Ed25519") sampleSignature more) = some (.int z) ∧ now < z)
    (hc : Canonical sampleHost.nfc (authorizationSigningPayload
      (sampleAuthorization expiry (js "Ed25519") sampleSignature more))) :
    Accepts (verifyAuthorization sampleHost (.int 0)
      (sampleAuthorization expiry (js "Ed25519") sampleSignature more) (sampleOptions now)) := by
  have halg : js "Ed25519" ≠ [] := by decide
  refine (verifyAuthorizationBy_accepts rfl sampleOptions_skew).mpr
    ⟨fieldsHold_sample halg sampleSignature_ne_nil hiat hsmall hexp, rfl, fun _ => by simp [sampleOptions, trustedList], _, _, _,
      material_sample halg sampleSignature_ne_nil, fun _ => by simp [sampleOptions, trustedList], ?_⟩
  refine .ed25519 (sampleKey none) (by decide) find_sampleKey rfl ?_
  rw [acceptsEd25519, verifyEd25519_sample hc, Bool.true_or]

theorem verifyAuthorization_sound_sample : ∃ r, r.signatureVerified = true ∧
    verifyAuthorization sampleHost (.int 0) (sampleAuthorization (.num (.int 1060)) (js "Ed25519")
      sampleSignature []) (sampleOptions 1000) = .ok r := by
  have hc : Canonical sampleHost.nfc (authorizationSigningPayload
      (sampleAuthorization (.num (.int 1060)) (js "Ed25519") sampleSignature [])) :=
    (isCanonical_iff _).mp (by decide)
  obtain ⟨r, hr, hok⟩ := accepts_sample 1000 (by decide) (by decide) ⟨1060, rfl, by decide⟩ hc
  exact ⟨r, (verifyAuthorization_sound sampleHost (.int 0) _ (sampleOptions 1000) (.inl rfl) hr hok).1, hr⟩

theorem verifyHmacDomain_self {H : Host} {domain signature secret : JsString} {payload : JsValue}
    (h : signHmacDomain H.toPlatform domain payload secret = .ok signature)
    (hne : hexDecode signature ≠ []) : verifyHmacDomain H domain payload signature secret = true := by
  have hlen : (hexDecode signature).length ≠ 0 := fun h0 => hne (List.length_eq_zero_iff.mp h0)
  simp [verifyHmacDomain, h, hlen]

theorem hexDecode_sampleHex {bytes : List Byte} (h : bytes ≠ []) : hexDecode (sampleHex bytes) ≠ [] := by
  obtain ⟨b, bs, rfl⟩ := List.exists_cons_of_ne_nil h
  have h0 : hexValue? (lowByte (unit 48)) = some 0 := by decide
  have hb : hexValue? (lowByte (hexDigit (b.val / 16))) = some (b.val / 16) := by
    rw [lowByte_hexDigit (by omega), hexValue?_hexDigit (by omega)]
  simp [sampleHex, hexDecode, h0, hb]

def otherKeySet : KeySet := { sampleKeySet with issuer := js "issuer-2" }

def legacyOptions : VerifyAuthorizationOptions :=
  { sampleOptions 1000 with trustedKeySets := some (.one otherKeySet) }

/-- The signing payload of a flat authorization leaves its signature out. -/
theorem payload_sampleAuthorization (expiry : JsValue) (alg signature signature' : JsString)
    (more : List (JsString × JsValue)) :
    authorizationSigningPayload (sampleAuthorization expiry alg signature more) =
      authorizationSigningPayload (sampleAuthorization expiry alg signature' more) := rfl

theorem legacy_accepted_without_key : ¬ ∀ (auth : JsValue) (opts : VerifyAuthorizationOptions)
    (r : AuthorizationVerificationResult), opts.mode = some .strict →
      verifyAuthorization sampleHost (.int 0) auth opts = .ok r → r.ok = true →
        RegisteredSignature sampleHost (opts.now.getD (.int 0)) (trustedList opts.trustedKeySets) auth := by
  intro hclaim
  have hc : Canonical sampleHost.nfc (authorizationSigningPayload
      (sampleAuthorization (.num (.int 1060)) (js "HMAC-SHA256") (js "00") [])) :=
    (isCanonical_iff _).mp (by decide)
  have hsign : signHmacDomain sampleHost.toPlatform authV1Domain (authorizationSigningPayload
      (sampleAuthorization (.num (.int 1060)) (js "HMAC-SHA256") (js "00") [])) (js "secret") = .ok _ :=
    map_eq_ok.mpr ⟨_, map_eq_ok.mpr ⟨_, canonicalJson_ok (P := sampleHost.toPlatform) hc, rfl⟩, rfl⟩
  generalize hs : sampleHost.hmacSha256Hex (js "secret") _ = signature at hsign
  have hdec : hexDecode signature ≠ [] := by
    rw [← hs]
    apply hexDecode_sampleHex
    have hdomain : utf8Encode (authV1Domain ++ js "\n") ≠ [] := by decide
    exact List.append_ne_nil_of_left_ne_nil hdomain _
  have hne : signature ≠ [] := by
    rintro rfl
    exact hdec rfl
  have halg : js "HMAC-SHA256" ≠ [] := by decide
  have hacc : Accepts (verifyAuthorization sampleHost (.int 0)
      (sampleAuthorization (.num (.int 1060)) (js "HMAC-SHA256") signature []) legacyOptions) := by
    have hf : FieldsHold sampleHost.nfc (.int 1000) (.int 300) (sampleOptions 1000)
        (sampleAuthorization (.num (.int 1060)) (js "HMAC-SHA256") signature []) :=
      fieldsHold_sample halg hne (by decide) (by decide) ⟨1060, rfl, by decide⟩
    refine (verifyAuthorizationBy_accepts rfl sampleOptions_skew).mpr
      ⟨⟨hf.decision, hf.intentHash, hf.stateHash, hf.policyId, hf.issuer, hf.audience, hf.authId, hf.issuedAt,
        hf.alg, hf.kid, hf.sig, hf.expiry, nofun, nofun, nofun, nofun⟩, rfl,
        fun _ => by simp [legacyOptions, trustedList], _, _, _, material_sample halg hne,
        fun h => absurd h (by decide), ?_⟩
    refine .hmac rfl (by decide) (verifyHmacDomain_self ?_ hdec)
    rw [payload_sampleAuthorization _ _ signature (js "00")]
    exact hsign
  obtain ⟨r, hr, hok⟩ := hacc
  obtain ⟨ks, hks, -, -, hiss, -⟩ := hclaim _ _ r rfl hr hok
  have hother : ks = otherKeySet := List.mem_singleton.mp hks
  subst hother
  exact absurd (JsValue.str.inj hiss) (by decide)

end OxDeAI
