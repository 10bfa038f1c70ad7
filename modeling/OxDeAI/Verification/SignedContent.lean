import OxDeAI.Verification.AuthorizationSound

/-! Two authorizations under one signature. The replay id is signed; the expiry is
signed unless the flat encoding falls back to `expires_at`. -/

namespace OxDeAI

open Js

section

variable {H : Host} {clock t u skew : JsNumber} {opts : VerifyAuthorizationOptions} {a b : JsValue}

/-- Verification at a given time. -/
def acceptsAt (H : Host) (clock : JsNumber) (opts : VerifyAuthorizationOptions) (auth : JsValue)
    (t : JsNumber) : Prop :=
  Accepts (verifyAuthorization H clock auth { opts with now := some t })

/-- The same signature by the same signer over the same bytes. -/
structure SameSigned (H : Host) (a b : JsValue) : Prop where
  issuer : a.field (js "issuer") = b.field (js "issuer")
  kid : (signatureParts a).kid = (signatureParts b).kid
  sig : (signatureParts a).sig = (signatureParts b).sig
  payload : canonicalJson H.nfc (authorizationSigningPayload a) =
    canonicalJson H.nfc (authorizationSigningPayload b)

/-- The same replay id and the same lifetime. -/
structure SameAuthority (H : Host) (clock : JsNumber) (opts : VerifyAuthorizationOptions)
    (a b : JsValue) : Prop where
  authId : a.field (js "auth_id") = b.field (js "auth_id")
  expiry : effectiveExpiry a = effectiveExpiry b
  accepted : ∀ t, acceptsAt H clock opts a t ↔ acceptsAt H clock opts b t

/-- Neither is flat with a signed `expiry` that is no integer, or the unsigned
`expires_at` is the same. -/
def ExpirySigned (a b : JsValue) : Prop :=
  (signatureParts a).nested = false → (signatureParts b).nested = false →
    (a.field (js "expiry")).isInteger = false → a.field (js "expires_at") = b.field (js "expires_at")

def usesEd25519 (auth : JsValue) : Bool :=
  match (signatureParts auth).alg with
  | .str alg => isEd25519Name alg
  | _ => false

def skewOf (opts : VerifyAuthorizationOptions) : JsNumber :=
  opts.maxFutureIssuedAtSkewSeconds.getD defaultMaxFutureIssuedAtSkewSeconds

/-- Plausibly issued and not expired. -/
def Live (skew : JsNumber) (auth : JsValue) (t : JsNumber) : Prop :=
  (∃ z : ℤ, auth.field (js "issued_at") = .num (.int z) ∧ (t.add skew).lt (.int z) = false) ∧
    ∃ z : ℤ, effectiveExpiry auth = some (.int z) ∧ t.ge (.int z) = false

/-- The key that the trusted sets hold for the signer. -/
def signerKey (opts : VerifyAuthorizationOptions) (auth : JsValue) : Option KeySetKey :=
  findKeyInKeySets (trustedList opts.trustedKeySets) (auth.field (js "issuer"))
    ((signatureParts auth).kid.text?.getD []) .ed25519

def signerActive (opts : VerifyAuthorizationOptions) (auth : JsValue) (t : JsNumber) : Bool :=
  (signerKey opts auth).any (fun key => keyIsActiveAt key t)

/-- Both are of one algorithm, or the signer's key is active whenever the
authorization is live. -/
def SameLifetime (opts : VerifyAuthorizationOptions) (a b : JsValue) : Prop :=
  usesEd25519 a = usesEd25519 b ∨ ∀ t, Live (skewOf opts) a t → signerActive opts a t = true

theorem skewOf_eq (h : resolveMaxFutureIssuedAtSkewSeconds (js "verifyAuthorization")
    opts.maxFutureIssuedAtSkewSeconds = .ok skew) : skew = skewOf opts := by
  unfold skewOf
  cases hv : opts.maxFutureIssuedAtSkewSeconds with
  | none =>
    rw [hv] at h
    exact (Except.ok.inj h).symm
  | some n =>
    rw [hv] at h
    simp only [resolveMaxFutureIssuedAtSkewSeconds] at h
    split at h
    · cases h
    · exact (Except.ok.inj h).symm

theorem exists_skew_of_accepts (h : acceptsAt H clock opts a t) :
    resolveMaxFutureIssuedAtSkewSeconds (js "verifyAuthorization")
      opts.maxFutureIssuedAtSkewSeconds = .ok (skewOf opts) := by
  cases hskew : resolveMaxFutureIssuedAtSkewSeconds (js "verifyAuthorization")
      opts.maxFutureIssuedAtSkewSeconds with
  | ok skew => rw [skewOf_eq hskew]
  | error e =>
    obtain ⟨r, hr, -⟩ := h
    rw [verifyAuthorization, verifyAuthorizationBy, hskew] at hr
    cases hr

/-- What the verifier checks of an authorization at a time. -/
abbrev VerifiedAt (H : Host) (opts : VerifyAuthorizationOptions) (auth : JsValue) (t : JsNumber) : Prop :=
  Verified H t (skewOf opts) { opts with now := some t }
    (fun kid => findKeyInKeySets (trustedList opts.trustedKeySets) (auth.field (js "issuer")) kid .ed25519)
    auth

theorem acceptsAt_iff (hstrict : opts.mode = some .strict)
    (hskew : resolveMaxFutureIssuedAtSkewSeconds (js "verifyAuthorization")
      opts.maxFutureIssuedAtSkewSeconds = .ok (skewOf opts)) :
    acceptsAt H clock opts a t ↔ VerifiedAt H opts a t := by
  have hreq : ({ opts with now := some t } : VerifyAuthorizationOptions).requireSig = true := by
    simp [VerifyAuthorizationOptions.requireSig, hstrict]
  exact verifyAuthorizationBy_accepts hreq hskew

theorem Verified.live {find : JsString → Option KeySetKey} (h : Verified H t skew opts find a) :
    Live skew a t := by
  obtain ⟨z, hz, -, hle⟩ := h.issuedAt
  exact ⟨⟨z, hz, hle⟩, h.expiry⟩

/-- The signature of an accepted authorization verifies at another time exactly
when its key is active then. -/
theorem signature_at_iff {alg kid signature : JsString}
    (hmat : (signatureParts a).material = some (alg, kid, signature)) {find : JsString → Option KeySetKey}
    (hfind : find kid = signerKey opts a)
    (h : SignatureHolds H t { opts with now := some t } find a alg kid signature) :
    SignatureHolds H u { opts with now := some u } find a alg kid signature ↔
      (usesEd25519 a = true → signerActive opts a u = true) := by
  have halg : usesEd25519 a = isEd25519Name alg := by
    rw [usesEd25519, (material_some.mp hmat).1.2]
  rw [halg, signerActive, ← hfind]
  cases h with
  | ed25519 key hname hf _ hv =>
    rw [hf]
    constructor
    · rintro (⟨key', _, hf', ha', -⟩ | ⟨hname', -, -⟩)
      · rw [hf] at hf'
        intro _
        rw [Option.some.inj hf']
        exact ha'
      · rw [hname', not_isEd25519Name_hmac] at hname
        cases hname
    · intro ha
      exact .ed25519 key hname hf (ha hname) hv
  | hmac hname hs hv =>
    constructor
    · intro _ hed
      rw [hname, not_isEd25519Name_hmac] at hed
      cases hed
    · intro _
      exact .hmac hname hs hv

theorem verifiedAt_iff (h : VerifiedAt H opts a t) : VerifiedAt H opts a u ↔
    Live (skewOf opts) a u ∧ (usesEd25519 a = true → signerActive opts a u = true) := by
  obtain ⟨alg, kid, signature, hmat, htrust, hs⟩ := h.signature
  have hkid : signerKey opts a = findKeyInKeySets (trustedList opts.trustedKeySets)
      (a.field (js "issuer")) kid .ed25519 := by
    rw [signerKey, (material_some.mp hmat).2.1.2]
    rfl
  constructor
  · intro hu
    obtain ⟨alg', kid', signature', hmat', -, hs'⟩ := hu.signature
    rw [hmat] at hmat'
    obtain ⟨rfl, rfl, rfl⟩ : alg = alg' ∧ kid = kid' ∧ signature = signature' := by
      simpa using hmat'
    exact ⟨hu.live, (signature_at_iff hmat hkid.symm hs).mp hs'⟩
  · rintro ⟨⟨⟨z, hz, hle⟩, hexp⟩, hactive⟩
    obtain ⟨z', hz', hsafe, -⟩ := h.issuedAt
    have hzz : z' = z := by
      rw [hz] at hz'
      simpa using hz'.symm
    subst hzz
    exact ⟨⟨h.decision, h.intentHash, h.stateHash, h.policyId, h.issuer, h.audience, h.authId,
      ⟨z', hz, hsafe, hle⟩, h.alg, h.kid, h.sig, hexp, h.expectedIssuer, h.expectedAudience,
      h.expectedPolicyId, h.authority⟩, h.notNullish, h.trustedKeys,
      alg, kid, signature, hmat, htrust, (signature_at_iff hmat hkid.symm hs).mpr hactive⟩

theorem exists_canonicalJson_of_signatureHolds {alg kid signature : JsString}
    {find : JsString → Option KeySetKey} (h : SignatureHolds H t opts find a alg kid signature) :
    ∃ text, canonicalJson H.nfc (authorizationSigningPayload a) = .ok text := by
  cases h with
  | ed25519 key _ _ _ hv =>
    rcases Bool.or_eq_true _ _ ▸ hv with hv | hv
    · exact exists_canonicalJson_of_verifyEd25519 hv
    · exact exists_canonicalJson_of_verifyEd25519Raw hv
  | hmac _ _ hv => exact exists_canonicalJson_of_verifyHmacDomain hv

def payloadKeys (nested flatAlgKid : Bool) : List JsString :=
  [js "auth_id", js "issuer", js "audience", js "intent_hash", js "state_hash", js "policy_id",
    js "decision", js "issued_at", js "expiry"] ++
  (if nested then [js "version", js "nonce", js "capability", js "expires_at"] ++
      (if flatAlgKid then [js "alg", js "kid"] else [js "signature"])
    else [js "alg", js "kid", js "version", js "nonce", js "capability"])

theorem payloadFields_flat {auth : JsValue} (h : (signatureParts auth).nested = false) :
    payloadFields auth = boundFields auth ++ [alwaysField auth (js "expiry"), alwaysField auth (js "alg"),
      alwaysField auth (js "kid")] ++ trailingFields auth := by
  rw [payloadFields, h]
  rfl

theorem payloadFields_nested {auth : JsValue} (h : (signatureParts auth).nested = true) :
    payloadFields auth = boundFields auth ++ [optionalOwn auth (js "expiry")] ++ trailingFields auth ++
      [(js "expires_at", (auth.field (js "expires_at")).number?.map .num)] ++
      (if hasFlatAlgKid auth then [alwaysField auth (js "alg"), alwaysField auth (js "kid")]
       else [(js "signature", some (.obj [(js "alg", (signatureParts auth).alg),
         (js "kid", (signatureParts auth).kid)]))]) := by
  rw [payloadFields, h]
  rfl

theorem keys_payloadFields (auth : JsValue) : (payloadFields auth).map Prod.fst =
    payloadKeys (signatureParts auth).nested (hasFlatAlgKid auth) := by
  cases h : (signatureParts auth).nested with
  | false =>
    rw [payloadFields_flat h]
    rfl
  | true =>
    rw [payloadFields_nested h]
    cases hasFlatAlgKid auth <;> rfl

theorem payloadFields_plain (auth : JsValue) :
    ((payloadFields auth).map Prod.fst).all isPlainKey = true ∧
      ((payloadFields auth).map Prod.fst).Nodup := by
  have hall : ∀ nested flatAlgKid, (payloadKeys nested flatAlgKid).all isPlainKey = true ∧
      (payloadKeys nested flatAlgKid).Nodup := by decide
  rw [keys_payloadFields]
  exact hall _ _

theorem mem_boundFields {auth : JsValue} {f : JsString × Option JsValue} (h : f ∈ boundFields auth) :
    f ∈ payloadFields auth := by
  cases hnest : (signatureParts auth).nested with
  | false =>
    rw [payloadFields_flat hnest]
    exact List.mem_append_left _ (List.mem_append_left _ h)
  | true =>
    rw [payloadFields_nested hnest]
    exact List.mem_append_left _ (List.mem_append_left _ (List.mem_append_left _ (List.mem_append_left _ h)))

/-- The signed `expiry`: the flat payload carries it even when it is absent. -/
def signedExpiry (auth : JsValue) : Option JsValue :=
  if (signatureParts auth).nested then defined (auth.field (js "expiry"))
  else some (auth.field (js "expiry"))

theorem mem_signedExpiry (auth : JsValue) : (js "expiry", signedExpiry auth) ∈ payloadFields auth := by
  unfold signedExpiry
  cases h : (signatureParts auth).nested with
  | false =>
    rw [payloadFields_flat h]
    exact List.mem_append_left _ (List.mem_append_right _ List.mem_cons_self)
  | true =>
    rw [payloadFields_nested h]
    exact List.mem_append_left _ (List.mem_append_left _ (List.mem_append_left _
      (List.mem_append_right _ List.mem_cons_self)))

theorem mem_expiresAt {auth : JsValue} (h : (signatureParts auth).nested = true) :
    (js "expires_at", (auth.field (js "expires_at")).number?.map .num) ∈ payloadFields auth := by
  rw [payloadFields_nested h]
  exact List.mem_append_left _ (List.mem_append_right _ List.mem_cons_self)

theorem normalForm_eq_num {nfc : JsString → JsString} {v : JsValue} {n : JsNumber} :
    normalForm nfc v = .num n ↔ v = .num n := by
  cases v <;> simp [normalForm]

theorem signedExpiry_integer {auth : JsValue} {z : ℤ} :
    signedExpiry auth = some (.num (.int z)) ↔ auth.field (js "expiry") = .num (.int z) := by
  unfold signedExpiry defined
  cases auth.field (js "expiry") <;> cases (signatureParts auth).nested <;> simp [JsValue.isUndefined]

/-- The integer that a field holds. -/
def integer? : JsValue → Option ℤ
  | .num (.int z) => some z
  | _ => none

theorem integer?_eq_some {v : JsValue} {z : ℤ} : integer? v = some z ↔ v = .num (.int z) := by
  unfold integer?
  split
  · rename_i z'
    simp
  · rename_i hne
    constructor
    · intro h
      cases h
    · rintro rfl
      exact absurd rfl (hne z)

theorem effectiveExpiry_eq (auth : JsValue) : effectiveExpiry auth =
    ((integer? (auth.field (js "expiry"))).or (integer? (auth.field (js "expires_at")))).map .int := by
  have hint : ∀ v : JsValue, (if v.isInteger then v.number? else none) = (integer? v).map .int := by
    intro v
    cases v with
    | num n => cases n <;> rfl
    | _ => rfl
  unfold effectiveExpiry
  by_cases h : (auth.field (js "expiry")).isInteger = true
  · obtain ⟨z, hz⟩ := JsValue.isInteger_iff.mp h
    rw [hz]
    rfl
  · have hnone : integer? (auth.field (js "expiry")) = none := by
      cases hv : integer? (auth.field (js "expiry")) with
      | none => rfl
      | some z => exact absurd (JsValue.isInteger_iff.mpr ⟨z, integer?_eq_some.mp hv⟩) h
    rw [if_neg h, hint, hnone, Option.none_or]

variable (hn : NfcLaws H.nfc)
  (hp : normalForm H.nfc (authorizationSigningPayload a) = normalForm H.nfc (authorizationSigningPayload b))

include hn hp

theorem payload_field_eq {k : JsString} {v w : Option JsValue} (hv : (k, v) ∈ payloadFields a)
    (hw : (k, w) ∈ payloadFields b) : v.map (normalForm H.nfc) = w.map (normalForm H.nfc) :=
  present_field_eq hn (payloadFields_plain a).1 (payloadFields_plain a).2 (payloadFields_plain b).1
    (payloadFields_plain b).2 hp hv hw

theorem payload_field_none {k : JsString} {v : Option JsValue} (hv : (k, v) ∈ payloadFields a)
    (hk : k ∉ (payloadFields b).map Prod.fst) : v = none :=
  present_field_none hn (payloadFields_plain a).1 (payloadFields_plain a).2 (payloadFields_plain b).1
    (payloadFields_plain b).2 hp hv hk

theorem authId_eq {id id' : JsString} (ha : a.field (js "auth_id") = .str id)
    (hb : b.field (js "auth_id") = .str id') (hid : H.nfc id = id) (hid' : H.nfc id' = id') : id = id' := by
  have h := payload_field_eq hn hp (mem_boundFields (f := alwaysField a (js "auth_id")) List.mem_cons_self)
    (mem_boundFields (f := alwaysField b (js "auth_id")) List.mem_cons_self)
  rw [ha, hb] at h
  simpa [normalForm, hid, hid'] using h

theorem issuedAt_eq {z z' : ℤ} (ha : a.field (js "issued_at") = .num (.int z))
    (hb : b.field (js "issued_at") = .num (.int z')) : z = z' := by
  have h := payload_field_eq hn hp
    (mem_boundFields (f := alwaysField a (js "issued_at")) (by simp [boundFields]))
    (mem_boundFields (f := alwaysField b (js "issued_at")) (by simp [boundFields]))
  rw [ha, hb] at h
  simpa [normalForm] using h

/-- An integral `expiry` is signed in both encodings. -/
theorem integer_expiry_eq :
    integer? (a.field (js "expiry")) = integer? (b.field (js "expiry")) := by
  have h := payload_field_eq hn hp (mem_signedExpiry a) (mem_signedExpiry b)
  apply Option.ext
  intro z
  rw [integer?_eq_some, integer?_eq_some, ← signedExpiry_integer, ← signedExpiry_integer]
  have hmap : ∀ v : Option JsValue, v = some (.num (.int z)) ↔
      v.map (normalForm H.nfc) = some (.num (.int z)) := by
    intro v
    cases v with
    | none => simp
    | some v => simp [normalForm_eq_num]
  rw [hmap, hmap (signedExpiry b), h]

/-- `expires_at` is signed in the nested encoding. -/
theorem integer_expiresAt_eq (ha : (signatureParts a).nested = true) (hb : (signatureParts b).nested = true) :
    integer? (a.field (js "expires_at")) = integer? (b.field (js "expires_at")) := by
  have h := payload_field_eq hn hp (mem_expiresAt ha) (mem_expiresAt hb)
  have hnum : ∀ v : JsValue, (v.number?.map JsValue.num).map (normalForm H.nfc) = v.number?.map .num := by
    intro v
    cases v <;> rfl
  rw [hnum, hnum] at h
  have hint : ∀ v : JsValue, integer? v = (v.number?.map JsValue.num).bind integer? := by
    intro v
    cases v <;> rfl
  rw [hint, hint (b.field (js "expires_at")), h]

/-- A flat payload holds no `expires_at`, so a nested one of the same bytes has none. -/
theorem integer_expiresAt_none (ha : (signatureParts a).nested = true)
    (hb : (signatureParts b).nested = false) : integer? (a.field (js "expires_at")) = none := by
  have habsent : js "expires_at" ∉ (payloadFields b).map Prod.fst := by
    rw [keys_payloadFields, hb]
    cases hasFlatAlgKid b <;> decide
  have h := payload_field_none hn hp (mem_expiresAt ha) habsent
  cases hv : a.field (js "expires_at") with
  | num n =>
    rw [hv] at h
    cases h
  | _ => rfl

theorem effectiveExpiry_eq_of_signed (ha : ∃ z, effectiveExpiry a = some (.int z))
    (hb : ∃ z, effectiveExpiry b = some (.int z)) (h : ExpirySigned a b) :
    effectiveExpiry a = effectiveExpiry b := by
  have hexp := integer_expiry_eq hn hp
  obtain ⟨x, hx⟩ := ha
  obtain ⟨y, hy⟩ := hb
  rw [effectiveExpiry_eq] at hx hy ⊢
  rw [effectiveExpiry_eq]
  cases he : integer? (a.field (js "expiry")) with
  | some z => rw [← hexp, he, Option.some_or, Option.some_or]
  | none =>
    rw [← hexp]
    rw [he, Option.none_or] at hx
    rw [← hexp, he, Option.none_or] at hy
    rw [he, Option.none_or, Option.none_or]
    cases hna : (signatureParts a).nested with
    | true =>
      cases hnb : (signatureParts b).nested with
      | true => rw [integer_expiresAt_eq hn hp hna hnb]
      | false =>
        rw [integer_expiresAt_none hn hp hna hnb] at hx
        cases hx
    | false =>
      cases hnb : (signatureParts b).nested with
      | true =>
        rw [integer_expiresAt_none hn hp.symm hnb hna] at hy
        cases hy
      | false =>
        have hint : (a.field (js "expiry")).isInteger = false := by
          cases hv : (a.field (js "expiry")).isInteger with
          | false => rfl
          | true =>
            obtain ⟨z, hz⟩ := JsValue.isInteger_iff.mp hv
            rw [integer?_eq_some.mpr hz] at he
            cases he
        rw [h hna hnb hint]

theorem expirySigned_of_effectiveExpiry_eq (ha : ∃ z, effectiveExpiry a = some (.int z))
    (h : effectiveExpiry a = effectiveExpiry b) : ExpirySigned a b := by
  intro hna hnb hint
  have hexp := integer_expiry_eq hn hp
  obtain ⟨z, hz⟩ := ha
  have he : integer? (a.field (js "expiry")) = none := by
    cases hv : integer? (a.field (js "expiry")) with
    | none => rfl
    | some z =>
      rw [integer?_eq_some.mp hv] at hint
      cases hint
  have hzb := h ▸ hz
  rw [effectiveExpiry_eq, ← hexp, he, Option.none_or] at hzb
  rw [effectiveExpiry_eq, he, Option.none_or] at hz
  obtain ⟨x, hx, hxz⟩ := Option.map_eq_some_iff.mp hz
  obtain ⟨y, hy, hyz⟩ := Option.map_eq_some_iff.mp hzb
  have hxy : x = y := JsNumber.int.inj (hxz.trans hyz.symm)
  rw [integer?_eq_some.mp hx, integer?_eq_some.mp hy, hxy]

end

section

variable {H : Host} {clock t u : JsNumber} {opts : VerifyAuthorizationOptions} {a b : JsValue}

theorem SameSigned.normalForm_eq (hsame : SameSigned H a b) (ha : VerifiedAt H opts a t) :
    normalForm H.nfc (authorizationSigningPayload a) = normalForm H.nfc (authorizationSigningPayload b) := by
  obtain ⟨alg, kid, signature, -, -, hs⟩ := ha.signature
  obtain ⟨text, htext⟩ := exists_canonicalJson_of_signatureHolds hs
  exact normalForm_eq_of_canonicalJson_eq htext (hsame.payload ▸ htext)

theorem SameSigned.signerActive_eq (hsame : SameSigned H a b) (t : JsNumber) :
    signerActive opts a t = signerActive opts b t := by
  rw [signerActive, signerActive, signerKey, signerKey, hsame.issuer, hsame.kid]

theorem live_iff {skew : JsNumber} (hiat : ∀ z : ℤ, a.field (js "issued_at") = .num (.int z) ↔
      b.field (js "issued_at") = .num (.int z)) (hexp : effectiveExpiry a = effectiveExpiry b) :
    Live skew a t ↔ Live skew b t := by
  simp only [Live, hiat, hexp]

/-- Two accepted authorizations under one signature have the same replay id and
lifetime exactly when the expiry is signed and the algorithm cannot outlive the key. -/
theorem acceptance_signed_content (H : Host) (hn : NfcLaws H.nfc) (clock : JsNumber)
    (opts : VerifyAuthorizationOptions) (hstrict : opts.mode = some .strict) {a b : JsValue}
    {t u : JsNumber} (ha : acceptsAt H clock opts a t) (hb : acceptsAt H clock opts b u)
    (hsame : SameSigned H a b) :
    SameAuthority H clock opts a b ↔ ExpirySigned a b ∧ SameLifetime opts a b := by
  have hskew := exists_skew_of_accepts ha
  have hva := (acceptsAt_iff hstrict hskew).mp ha
  have hvb := (acceptsAt_iff hstrict hskew).mp hb
  have hp := hsame.normalForm_eq hva
  have hexpA : ∃ z, effectiveExpiry a = some (.int z) := hva.expiry.imp fun _ h => h.1
  have hexpB : ∃ z, effectiveExpiry b = some (.int z) := hvb.expiry.imp fun _ h => h.1
  have hlive : effectiveExpiry a = effectiveExpiry b → ∀ t, Live (skewOf opts) a t ↔ Live (skewOf opts) b t := by
    intro hexp t
    obtain ⟨x, hx, -⟩ := hva.issuedAt
    obtain ⟨y, hy, -⟩ := hvb.issuedAt
    have hxy := issuedAt_eq hn hp hx hy
    exact live_iff (fun z => by rw [hx, hy, hxy]) hexp
  have hat : ∀ t, (acceptsAt H clock opts a t ↔ acceptsAt H clock opts b t) ↔
      (Live (skewOf opts) a t ∧ (usesEd25519 a = true → signerActive opts a t = true) ↔
        Live (skewOf opts) b t ∧ (usesEd25519 b = true → signerActive opts a t = true)) := by
    intro t
    rw [acceptsAt_iff hstrict hskew, acceptsAt_iff hstrict hskew, verifiedAt_iff hva, verifiedAt_iff hvb,
      hsame.signerActive_eq]
  constructor
  · intro h
    refine ⟨expirySigned_of_effectiveExpiry_eq hn hp hexpA h.expiry, ?_⟩
    by_cases halg : usesEd25519 a = usesEd25519 b
    · exact .inl halg
    · right
      intro t ht
      have hiff := (hat t).mp (h.accepted t)
      rw [← hlive h.expiry t] at hiff
      cases hua : usesEd25519 a with
      | true =>
        have hub : usesEd25519 b = false := by simpa [hua] using halg
        rw [hua, hub] at hiff
        exact (hiff.mpr ⟨ht, nofun⟩).2 rfl
      | false =>
        have hub : usesEd25519 b = true := by simpa [hua] using halg
        rw [hua, hub] at hiff
        exact (hiff.mp ⟨ht, nofun⟩).2 rfl
  · rintro ⟨hexp, hlife⟩
    have heq := effectiveExpiry_eq_of_signed hn hp hexpA hexpB hexp
    refine ⟨?_, heq, ?_⟩
    · obtain ⟨id, -, hid, hnfc, -⟩ := hva.authId
      obtain ⟨id', -, hid', hnfc', -⟩ := hvb.authId
      rw [hid, hid', authId_eq hn hp hid hid' hnfc hnfc']
    · intro t
      rw [hat t, ← hlive heq t]
      rcases hlife with halg | hactive
      · rw [halg]
      · constructor
        · rintro ⟨ht, -⟩
          exact ⟨ht, fun _ => hactive t ht⟩
        · rintro ⟨ht, -⟩
          exact ⟨ht, fun _ => hactive t ht⟩

end

def unsignedExpiry (expiresAt : ℤ) : JsValue :=
  sampleAuthorization (.str (js "later")) (js "Ed25519") sampleSignature
    [(js "expires_at", .num (.int expiresAt))]

theorem acceptsAt_unsignedExpiry {expiresAt : ℤ} (h : 1000 < expiresAt) :
    acceptsAt sampleHost (.int 0) (sampleOptions 0) (unsignedExpiry expiresAt) (.int 1000) := by
  have hc : Canonical sampleHost.nfc (authorizationSigningPayload (unsignedExpiry 0)) :=
    (isCanonical_iff _).mp (by decide)
  exact accepts_sample 1000 (by decide) (by decide) ⟨expiresAt, rfl, h⟩ hc

theorem sameSigned_unsignedExpiry (x y : ℤ) :
    SameSigned sampleHost (unsignedExpiry x) (unsignedExpiry y) := ⟨rfl, rfl, rfl, rfl⟩

theorem unsigned_expiry_extends : ¬ ∀ (a b : JsValue) (t u : JsNumber),
    acceptsAt sampleHost (.int 0) (sampleOptions 0) a t →
      acceptsAt sampleHost (.int 0) (sampleOptions 0) b u → SameSigned sampleHost a b →
        SameAuthority sampleHost (.int 0) (sampleOptions 0) a b := by
  intro hclaim
  have h := hclaim (unsignedExpiry 1060) (unsignedExpiry 9000) (.int 1000) (.int 1000)
    (acceptsAt_unsignedExpiry (by decide)) (acceptsAt_unsignedExpiry (by decide))
    (sameSigned_unsignedExpiry 1060 9000)
  have hexp : some (JsNumber.int 1060) = some (JsNumber.int 9000) := h.expiry
  cases hexp

/-- A signed expiry, next to members that no signature covers. -/
def annotatedAuthorization (expiresAt : ℤ) (note : JsString) : JsValue :=
  sampleAuthorization (.num (.int 1060)) (js "Ed25519") sampleSignature
    [(js "expires_at", .num (.int expiresAt)), (js "note", .str note)]

theorem acceptsAt_annotated (expiresAt : ℤ) (note : JsString) :
    acceptsAt sampleHost (.int 0) (sampleOptions 0) (annotatedAuthorization expiresAt note) (.int 1000) := by
  have hc : Canonical sampleHost.nfc (authorizationSigningPayload (annotatedAuthorization 0 [])) :=
    (isCanonical_iff _).mp (by decide)
  exact accepts_sample 1000 (by decide) (by decide) ⟨1060, rfl, by decide⟩ hc

theorem acceptance_signed_content_sample : SameAuthority sampleHost (.int 0) (sampleOptions 0)
    (annotatedAuthorization 1060 (js "a")) (annotatedAuthorization 9000 (js "b")) := by
  have hsame : SameSigned sampleHost (annotatedAuthorization 1060 (js "a")) (annotatedAuthorization 9000 (js "b")) := ⟨rfl, rfl, rfl, rfl⟩
  have hsigned : ExpirySigned (annotatedAuthorization 1060 (js "a")) (annotatedAuthorization 9000 (js "b")) := fun _ _ h => by cases h
  exact (acceptance_signed_content sampleHost samplePlatform_laws.nfc (.int 0) (sampleOptions 0) rfl
    (acceptsAt_annotated 1060 (js "a")) (acceptsAt_annotated 9000 (js "b")) hsame).mpr ⟨hsigned, .inl rfl⟩

end OxDeAI
