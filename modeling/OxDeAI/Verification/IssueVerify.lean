import OxDeAI.Crypto.KeyPair
import OxDeAI.Engine.VerifyAuthorization
import OxDeAI.Verification.EnvelopeRoundTrip
import OxDeAI.Verification.SignedContent

/-! What an engine issues is accepted by its own check and by a strict relying party of it,
each over the lifetime of the authorization. -/

namespace OxDeAI

open Js

/-- The engine signs with the private key of a registered key, under names of its own. -/
structure SignsWith (H : Host) (e : PolicyEngine) (key : KeySetKey) : Prop where
  alg : e.signingAlg = .ed25519
  issuer : e.issuer ≠ []
  audience : e.audience ≠ []
  kid : e.signingKid ≠ []
  pair : ∃ sign publicKey, SigningPair H (e.opts.authorizationPrivateKeyPem.getD []) key.publicKey sign publicKey

/-- A strict verifier that expects this engine's issuer, audience and policy. -/
structure RelyingParty (H : Host) (e : PolicyEngine) (key : KeySetKey) (opts : VerifyAuthorizationOptions) : Prop where
  strict : opts.mode = some .strict
  issuer : opts.expectedIssuer = some e.issuer
  audience : opts.expectedAudience = some e.audience
  policyId : opts.expectedPolicyId = some (computePolicyId H.toPlatform e)
  authority : ∀ authorities, opts.trustedAuthorizationAuthorities = some authorities →
    ∃ a ∈ authorities, a.issuer = e.issuer ∧ a.policyId = computePolicyId H.toPlatform e
  skew : resolveMaxFutureIssuedAtSkewSeconds (js "verifyAuthorization") opts.maxFutureIssuedAtSkewSeconds =
    .ok (skewOf opts)
  registered : findKeyInKeySets (trustedList opts.trustedKeySets) (.str e.issuer) e.signingKid .ed25519 = some key

section

variable {H : Host} {e : PolicyEngine} {key : KeySetKey} {opts : VerifyAuthorizationOptions} {intent : Intent}
  {state working : State} {t : JsNumber} {c : Charge} {parts : AuthorizationParts}

theorem hash_ne_nil (hhex : ∀ bytes, H.sha256Hex bytes ≠ []) {v : JsValue} {hash : JsString}
    (h : sha256HexFromJson H.toPlatform v = .ok hash) : hash ≠ [] := by
  obtain ⟨-, rfl⟩ := sha256HexFromJson_ok.mp h
  exact hhex _

theorem stateHash_ne_nil (hhex : ∀ bytes, H.sha256Hex bytes ≠ []) {hash : JsString}
    (h : computeStateHash H.toPlatform e state = .ok hash) : hash ≠ [] := by
  rw [computeStateHash, bind_eq_ok] at h
  obtain ⟨hashes, -, h⟩ := h
  exact hash_ne_nil hhex h

/-- An identifier is hexadecimal text, which is normalized. -/
theorem authorizationId_stable (hn : NfcLaws H.nfc) (hhex : ∀ bytes, (H.sha256Hex bytes).all isHexUnit = true)
    {v : JsValue} {id : JsString} (h : sha256HexFromJson H.toPlatform v = .ok id) : H.nfc id = id := by
  obtain ⟨-, rfl⟩ := sha256HexFromJson_ok.mp h
  exact hn.ascii _ (isAscii_of_hex (hhex _))

/-- The digest of a host is text of hexadecimal digits. -/
def HexDigests (H : Host) : Prop := ∀ bytes, (H.sha256Hex bytes).all isHexUnit = true ∧ H.sha256Hex bytes ≠ []

theorem signed_issued (hsigns : SignsWith H e key) (h : Permitted H.toPlatform e intent state t c parts) :
    signEd25519 H.toPlatform authV1Domain (authorizationSigningPayload
      (authorizationValue (authorizationFor H.toPlatform e intent state t parts)))
      (e.opts.authorizationPrivateKeyPem.getD []) = .ok parts.signature := by
  have hsigned := h.issued.signature
  simp only [signAuthorization, hsigns.alg] at hsigned
  by_cases hpem : e.opts.authorizationPrivateKeyPem.getD [] = []
  · rw [if_pos hpem] at hsigned
    cases hsigned
  · rw [if_neg hpem] at hsigned
    exact hsigned

theorem effectiveExpiry_issued {expiry : ℕ} (hexpiry : t.add e.authorizationTtl = .int expiry) :
    effectiveExpiry (authorizationValue (authorizationFor H.toPlatform e intent state t parts)) =
      some (.int expiry) := by
  have hfield : effectiveExpiry (authorizationValue (authorizationFor H.toPlatform e intent state t parts)) =
      if (t.add e.authorizationTtl).isInteger then some (t.add e.authorizationTtl)
      else if (t.add e.authorizationTtl).isInteger then some (t.add e.authorizationTtl) else none := rfl
  rw [hfield, hexpiry]
  rfl

theorem RelyingParty.trusts (h : RelyingParty H e key opts) : trustedList opts.trustedKeySets ≠ [] := by
  intro hempty
  have hregistered := h.registered
  rw [hempty] at hregistered
  cases hregistered

theorem fieldsHold_issued (hn : NfcLaws H.nfc) (hhex : HexDigests H) (hsigns : SignsWith H e key)
    (hrelies : RelyingParty H e key opts) (h : Permitted H.toPlatform e intent state t c parts)
    (hid : parts.authorizationId ∉ opts.consumedAuthIds.getD []) {now : JsNumber} {issued expiry : ℕ}
    (hissued : t = .int issued) (hexpiry : t.add e.authorizationTtl = .int expiry)
    (hbelievable : (now.add (skewOf opts)).lt (.int issued) = false) (hlive : now.ge (.int expiry) = false) :
    FieldsHold H.nfc now (skewOf opts) { opts with now := some now }
      (authorizationValue (authorizationFor H.toPlatform e intent state t parts)) := by
  have htext {s : JsString} (hs : s ≠ []) : (JsValue.str s).hasText = true := JsValue.hasText_iff.mpr ⟨s, hs, rfl⟩
  have hnonempty := fun bytes => (hhex bytes).2
  have hintent := hash_ne_nil hnonempty h.hash
  have hstate := stateHash_ne_nil hnonempty h.issued.stateHash
  have hidText := hash_ne_nil hnonempty h.issued.authorizationId
  have hsafe : (JsNumber.int issued).isSafeInteger = true := by
    obtain ⟨n, hn', hle⟩ := isProtocolSeconds_iff.mp h.clock.seconds
    rw [← hissued, hn']
    exact JsNumber.isSafeInteger_int.mpr hle
  refine {
    decision := rfl
    intentHash := htext hintent
    stateHash := htext hstate
    policyId := htext (computePolicyId_ne_nil hnonempty)
    issuer := htext hsigns.issuer
    audience := htext hsigns.audience
    authId := ⟨parts.authorizationId, hidText, rfl,
      authorizationId_stable hn (fun bytes => (hhex bytes).1) h.issued.authorizationId, hid⟩
    issuedAt := ⟨issued, by rw [← hissued]; rfl, hsafe, hbelievable⟩
    alg := ?_
    kid := htext hsigns.kid
    sig := ?_
    expiry := ⟨expiry, ?_, hlive⟩
    expectedIssuer := ?_
    expectedAudience := ?_
    expectedPolicyId := ?_
    authority := ?_ }
  · have halg : e.signingAlg.text ≠ [] := by
      rw [hsigns.alg]
      decide
    exact htext halg
  · obtain ⟨sign, publicKey, hpair⟩ := hsigns.pair
    obtain ⟨message, bytes, -, hlength, hsignature, -⟩ := hpair.signed (signed_issued hsigns h)
    have hne : parts.signature ≠ [] := hsignature ▸ base64Encode_ne_nil hlength
    exact htext hne
  · exact effectiveExpiry_issued hexpiry
  · intro s hs
    rw [hrelies.issuer] at hs
    cases hs
    rfl
  · intro s hs
    rw [hrelies.audience] at hs
    cases hs
    rfl
  · intro s hs
    rw [hrelies.policyId] at hs
    cases hs
    rfl
  · intro authorities hauthorities
    obtain ⟨a, ha, hissuer, hpolicy⟩ := hrelies.authority authorities hauthorities
    exact ⟨a, ha, by rw [hissuer]; rfl, by rw [hpolicy]; rfl⟩

theorem signatureHolds_issued (hsigns : SignsWith H e key) (hrelies : RelyingParty H e key opts)
    (h : Permitted H.toPlatform e intent state t c parts) {now : JsNumber} (hactive : keyIsActiveAt key now = true) :
    ∃ alg kid signature,
      (signatureParts (authorizationValue (authorizationFor H.toPlatform e intent state t parts))).material =
        some (alg, kid, signature) ∧
      (isEd25519Name alg = true → trustedList opts.trustedKeySets ≠ []) ∧
      SignatureHolds H now { opts with now := some now }
        (fun kid => findKeyInKeySets (trustedList opts.trustedKeySets) ((authorizationValue
          (authorizationFor H.toPlatform e intent state t parts)).field (js "issuer")) kid .ed25519)
        (authorizationValue (authorizationFor H.toPlatform e intent state t parts)) alg kid signature := by
  obtain ⟨sign, publicKey, hpair⟩ := hsigns.pair
  have hsigned := signed_issued hsigns h
  obtain ⟨message, bytes, -, hlength, hsignature, -⟩ := hpair.signed hsigned
  have hne : parts.signature ≠ [] := hsignature ▸ base64Encode_ne_nil hlength
  have halg : e.signingAlg.text = js "Ed25519" := by rw [hsigns.alg]; rfl
  have hnamed : isEd25519Name (js "Ed25519") = true := by decide
  refine ⟨js "Ed25519", e.signingKid, parts.signature, material_some.mpr ⟨⟨by decide, ?_⟩, ⟨hsigns.kid, rfl⟩, hne, rfl⟩,
    ?_, .ed25519 key hnamed hrelies.registered hactive ?_⟩
  · rw [← halg]
    rfl
  · exact fun _ => hrelies.trusts
  · rw [acceptsEd25519, hpair.verifies hsigned rfl, Bool.true_or]

/-- A strict relying party accepts what was issued exactly while it is plausible and not expired. -/
theorem acceptsAt_issued (hn : NfcLaws H.nfc) (hhex : HexDigests H) (hsigns : SignsWith H e key)
    (hrelies : RelyingParty H e key opts) (h : Permitted H.toPlatform e intent state t c parts)
    (hid : parts.authorizationId ∉ opts.consumedAuthIds.getD []) {clock now : JsNumber} {issued expiry : ℕ}
    (hissued : t = .int issued) (hexpiry : t.add e.authorizationTtl = .int expiry)
    (hactive : keyIsActiveAt key now = true) :
    acceptsAt H clock opts (authorizationValue (authorizationFor H.toPlatform e intent state t parts)) now ↔
      (now.add (skewOf opts)).lt (.int issued) = false ∧ now.ge (.int expiry) = false := by
  rw [acceptsAt_iff hrelies.strict hrelies.skew]
  constructor
  · intro hverified
    obtain ⟨z, hz, -, hbelievable⟩ := hverified.issuedAt
    obtain ⟨y, hy, hlive⟩ := hverified.expiry
    have hz' : JsValue.num t = .num (.int z) := hz
    rw [effectiveExpiry_issued hexpiry] at hy
    rw [hissued] at hz'
    rw [JsValue.num.inj hz', Option.some.inj hy]
    exact ⟨hbelievable, hlive⟩
  · intro hlife
    have hfields := fieldsHold_issued hn hhex hsigns hrelies h hid hissued hexpiry hlife.1 hlife.2
    exact ⟨hfields, rfl, fun _ => hrelies.trusts, signatureHolds_issued hsigns hrelies h hactive⟩

theorem lt_of_int_ge {x : JsNumber} {a b : ℤ} (h : (JsNumber.int a).ge x = true) (hab : a < b) :
    x.lt (.int b) = true := by
  cases x with
  | int z =>
    rw [JsNumber.ge_int, decide_eq_true_eq] at h
    rw [JsNumber.lt_int, decide_eq_true_eq]
    omega
  | frac q hq =>
    have hle : q ≤ a := by simpa [JsNumber.ge, JsNumber.isNaN, JsNumber.lt] using h
    have hcast : (a : ℚ) < b := by exact_mod_cast hab
    exact decide_eq_true (hle.trans_lt hcast)
  | nan => cases h
  | posInf => cases h
  | negInf => rfl

/-- Rounding the sum of a time and a skew moves it across no safe time. -/
theorem add_lt_int_iff {z k n : ℤ} (hn : 0 ≤ n) (hsafe : n ≤ 2 ^ 53) :
    ((JsNumber.int z).add (.int k)).lt (.int n) = false ↔ n ≤ z + k := by
  by_cases hexact : (z + k).natAbs ≤ 2 ^ 53
  · rw [JsNumber.add_int hexact, JsNumber.lt_int, decide_eq_false_iff_not, not_lt]
  · have hround : (JsNumber.int z).add (.int k) = JsNumber.round ((z + k : ℤ) : ℚ) := rfl
    rw [hround]
    constructor
    · intro hlt
      by_contra hless
      have hle : ((z + k : ℤ) : ℚ) ≤ ((-1 : ℤ) : ℚ) := by
        have hneg : z + k ≤ -1 := by omega
        exact_mod_cast hneg
      have hge := JsNumber.ge_round (by decide) hle
      rw [lt_of_int_ge hge (by omega)] at hlt
      cases hlt
    · intro hle
      have hcast : (n : ℚ) ≤ ((z + k : ℤ) : ℚ) := by exact_mod_cast hle
      exact JsNumber.not_lt_of_ge (JsNumber.round_ge (by omega) hcast)

theorem exists_skew (hrelies : RelyingParty H e key opts) : ∃ skew : ℕ, skewOf opts = .int skew := by
  have hskew := hrelies.skew
  unfold skewOf at hskew ⊢
  cases hv : opts.maxFutureIssuedAtSkewSeconds with
  | none => exact ⟨300, rfl⟩
  | some n =>
    rw [hv] at hskew
    simp only [resolveMaxFutureIssuedAtSkewSeconds] at hskew
    split at hskew
    · cases hskew
    · rename_i hvalid
      rw [Bool.or_eq_true, not_or, Bool.not_eq_true', Bool.not_eq_false, Bool.not_eq_true] at hvalid
      obtain ⟨z, rfl, -⟩ := JsNumber.exists_int_of_isSafeInteger hvalid.1
      have hpos : 0 ≤ z := by simpa using hvalid.2
      exact ⟨z.toNat, congrArg JsNumber.int (Int.toNat_of_nonneg hpos).symm⟩

/-- What an engine issues at `issued` for `ttl` seconds lives in its own check until `issued + ttl`,
and for a strict relying party from `issued` less the skew, at every time at which the key is active. -/
theorem issue_verify_agreement (H : Host) (hn : NfcLaws H.nfc) (hhex : HexDigests H) (e : PolicyEngine)
    (key : KeySetKey) (opts : VerifyAuthorizationOptions) (hsigns : SignsWith H e key)
    (hrelies : RelyingParty H e key opts) (intent : Intent) (state next : State) (t : JsNumber) (mode : EvalMode)
    (log : AuditLog) (auth : Authorization)
    (hallow : (evaluatePure H.toPlatform e intent state t mode log).1 = .ok (.allow auth next))
    (hunused : auth.authId ∉ opts.consumedAuthIds.getD []) :
    ∃ issued ttl skew : ℕ, auth.issuedAt = .int issued ∧ e.authorizationTtl = .int ttl ∧ skewOf opts = .int skew ∧
      (∀ clock now : JsNumber, now.lt (.int (issued + ttl)) = true →
        e.verifyAuthorization H.toPlatform intent (authorizationValue auth) next clock (some now) = hmacVerdict true) ∧
      (∀ clock now : JsNumber, now.ge (.int (issued + ttl)) = true →
        e.verifyAuthorization H.toPlatform intent (authorizationValue auth) next clock (some now) =
          refusedUnchecked .authExpired) ∧
      (∀ clock now : JsNumber, keyIsActiveAt key now = true →
        (acceptsAt H clock opts (authorizationValue auth) now ↔
          (now.add (.int skew)).lt (.int issued) = false ∧ now.ge (.int (issued + ttl)) = false)) ∧
      ∀ (clock : JsNumber) (z : ℤ), keyIsActiveAt key (.int z) = true →
        (acceptsAt H clock opts (authorizationValue auth) (.int z) ↔
          (issued : ℤ) - skew ≤ z ∧ z < issued + ttl) := by
  obtain ⟨c, parts, hpermitted, rfl, rfl, -⟩ := (evaluatePure_fst_allow hn).mp hallow
  obtain ⟨issued, ttl, hissued, httl, -, hsafe, hadd⟩ := hpermitted.clock.exists_seconds
  obtain ⟨skew, hskew⟩ := exists_skew hrelies
  have hexpiry : ((issued + ttl : ℕ) : ℤ) = issued + ttl := by push_cast; rfl
  have hverify := verifyAuthorization_issued hpermitted
  rw [hadd, hexpiry] at hverify
  have haccepts : ∀ clock now : JsNumber, keyIsActiveAt key now = true →
      (acceptsAt H clock opts (authorizationValue (authorizationFor H.toPlatform e intent state t parts)) now ↔
        (now.add (.int skew)).lt (.int issued) = false ∧ now.ge (.int (issued + ttl)) = false) := by
    intro clock now hactive
    rw [acceptsAt_issued hn hhex hsigns hrelies hpermitted hunused hissued hadd hactive, hskew, hexpiry]
  refine ⟨issued, ttl, skew, hissued, httl, hskew, ?_, ?_, haccepts, ?_⟩
  · intro clock now hearly
    have hnot : now.ge (.int (issued + ttl)) = false := by simp [JsNumber.ge, hearly]
    rw [hverify, hnot]
    rfl
  · intro clock now hlate
    rw [hverify, if_pos hlate]
  · intro clock z hactive
    have hbound : (issued : ℤ) ≤ 2 ^ 53 := by
      have hmax : issued + ttl ≤ 9007199254740991 := hsafe
      omega
    rw [haccepts clock _ hactive, add_lt_int_iff (Int.natCast_nonneg issued) hbound,
      JsNumber.ge_int, decide_eq_false_iff_not]
    omega

end

def signingEngine : PolicyEngine :=
  { sampleEngine with opts := { sampleEngine.opts with
      authorizationSigningAlg := some .ed25519
      authorizationSigningKid := some (js "k1")
      authorizationIssuer := some (js "issuer-1")
      authorizationPrivateKeyPem := some (js "pem") } }

def relyingOptions : VerifyAuthorizationOptions where
  mode := some .strict
  expectedIssuer := some signingEngine.issuer
  expectedAudience := some signingEngine.audience
  expectedPolicyId := some (computePolicyId envelopeHost.toPlatform signingEngine)
  trustedKeySets := some (.one sampleKeySet)

theorem signsWith_sample : SignsWith envelopeHost signingEngine (sampleKey none) where
  alg := rfl
  issuer := by decide
  audience := by decide
  kid := by decide
  pair := ⟨_, _, signingPair_envelopeHost _ _⟩

theorem relyingParty_sample : RelyingParty envelopeHost signingEngine (sampleKey none) relyingOptions where
  strict := rfl
  issuer := rfl
  audience := rfl
  policyId := rfl
  authority := nofun
  skew := rfl
  registered := find_sampleKey

theorem permitted_signing : ∃ parts, Permitted envelopeHost.toPlatform signingEngine (sampleIntent (js "a"))
    (sampleState (js "a")) (.int 1000) sampleCharge parts := by
  obtain ⟨hash, hhash⟩ : ∃ hash, intentHash envelopeHost.toPlatform (sampleIntent (js "a")) = .ok hash :=
    ⟨_, sha256HexFromJson_ok.mpr ⟨(isCanonical_iff _).mp (by decide), rfl⟩⟩
  have hnfc : NfcLaws envelopeHost.toPlatform.nfc := samplePlatform_laws.nfc
  have hsign : CanSign envelopeHost.toPlatform signingEngine := ⟨by decide, nofun⟩
  exact exists_permitted hnfc hsign (precheck_ok.mp rfl) hhash rfl admitted_sample
    (isHashable_iff.mp (by decide)) (isHashable_iff.mp (by decide))

theorem issue_verify_agreement_sample : ∃ auth next,
    (evaluatePure envelopeHost.toPlatform signingEngine (sampleIntent (js "a")) (sampleState (js "a")) (.int 1000)
      .failFast ⟨[], [], 0⟩).1 = .ok (.allow auth next) ∧
    signingEngine.verifyAuthorization envelopeHost.toPlatform (sampleIntent (js "a")) (authorizationValue auth) next
      (.int 0) (some (.int 1059)) = hmacVerdict true ∧
    acceptsAt envelopeHost (.int 0) relyingOptions (authorizationValue auth) (.int 700) ∧
    ¬ acceptsAt envelopeHost (.int 0) relyingOptions (authorizationValue auth) (.int 1060) := by
  obtain ⟨parts, hpermitted⟩ := permitted_signing
  have hnfc : NfcLaws envelopeHost.toPlatform.nfc := samplePlatform_laws.nfc
  have hallow := (@evaluatePure_fst_allow envelopeHost.toPlatform signingEngine hnfc _ _ _ .failFast ⟨[], [], 0⟩ _ _).mpr
    ⟨sampleCharge, parts, hpermitted, rfl, rfl, nofun⟩
  obtain ⟨issued, ttl, skew, hissued, httl, hskew, hearly, -, -, hseconds⟩ := issue_verify_agreement envelopeHost
    hnfc samplePlatform_laws.hex signingEngine (sampleKey none) relyingOptions signsWith_sample
    relyingParty_sample _ _ _ _ _ _ _ hallow (by simp [relyingOptions])
  cases hissued
  cases httl
  cases hskew
  refine ⟨_, _, hallow, hearly _ _ (by decide), (hseconds _ 700 rfl).mpr (by decide), ?_⟩
  intro hlate
  have hbefore := ((hseconds _ 1060 rfl).mp hlate).2
  exact absurd hbefore (by decide)

end OxDeAI
