import OxDeAI.Crypto.KeyPair
import OxDeAI.Js.Rounding
import OxDeAI.Snapshot.CanonicalRecord
import OxDeAI.Verification.DelegationChain
import OxDeAI.Verification.EnvelopeRoundTrip

/-! `createDelegation`, and which of the delegations it makes the chain verifier accepts. -/

namespace OxDeAI

open Js

/-- A field that is left out of the scope is `undefined`. -/
structure CreateDelegationParams where
  delegatee : JsString
  scope : DelegationScope
  expiry : JsNumber
  kid : JsString
  issuer : Option JsString := none
  audience : Option JsString := none
  delegationId : Option JsString := none
  issuedAt : Option JsNumber := none

/-- The scope as supplied, without the fields that are left out. -/
def suppliedScope (scope : DelegationScope) : JsValue :=
  .obj (present [(js "tools", defined scope.tools), (js "max_amount", defined scope.maxAmount),
    (js "max_actions", defined scope.maxActions), (js "max_depth", defined scope.maxDepth)])

section

variable (P : Platform) (clock : JsNumber) (uuid : JsString) (parent : JsValue)
  (params : CreateDelegationParams) (privateKeyPem : JsString)

def unsignedFields (parentHash : JsString) : List (JsString × JsValue) :=
  [(js "delegation_id", .str (params.delegationId.getD uuid)),
    (js "issuer", (params.issuer.map JsValue.str).getD (parent.field (js "audience"))),
    (js "audience", .str (params.audience.getD params.delegatee)),
    (js "parent_auth_hash", .str parentHash), (js "delegator", parent.field (js "audience")),
    (js "delegatee", .str params.delegatee), (js "scope", suppliedScope params.scope),
    (js "policy_id", parent.field (js "policy_id")), (js "issued_at", .num (params.issuedAt.getD clock)),
    (js "expiry", .num params.expiry), (js "alg", .str (js "Ed25519")), (js "kid", .str params.kid)]

def delegationValue (parentHash signature : JsString) : JsValue :=
  .obj (unsignedFields clock uuid parent params parentHash ++ [(js "signature", .str signature)])

/-- The clock is in seconds, and `uuid` is what `randomUUID` gives. -/
def createDelegation : Except JsError JsValue :=
  if parent.isNullish then .error .typeError
  else (sha256HexFromJson P (toPublicAuthorizationV1 parent)).bind (fun parentHash =>
    let unsigned := delegationValue clock uuid parent params parentHash []
    (signEd25519 P delegationV1Domain (delegationSigningPayload unsigned) privateKeyPem).map (fun signature =>
      unsigned.spreadSet (js "signature") (.str signature)))

end

section

variable {P : Platform} {clock : JsNumber} {uuid privateKeyPem hash signature : JsString} {parent delegation : JsValue}
  {params : CreateDelegationParams}

theorem spreadSet_delegationValue : (delegationValue clock uuid parent params hash []).spreadSet (js "signature")
    (.str signature) = delegationValue clock uuid parent params hash signature := rfl

theorem payload_delegationValue : delegationSigningPayload (delegationValue clock uuid parent params hash signature) =
    .obj (unsignedFields clock uuid parent params hash) := rfl

theorem createDelegation_ok (h : createDelegation P clock uuid parent params privateKeyPem = .ok delegation) :
    ∃ hash signature, sha256HexFromJson P (toPublicAuthorizationV1 parent) = .ok hash ∧
      delegation = delegationValue clock uuid parent params hash signature ∧
        signEd25519 P delegationV1Domain (delegationSigningPayload delegation) privateKeyPem = .ok signature := by
  unfold createDelegation at h
  split at h
  · cases h
  · obtain ⟨hash, hhash, hsigned⟩ := bind_eq_ok.mp h
    obtain ⟨signature, hsign, rfl⟩ := map_eq_ok.mp hsigned
    exact ⟨hash, signature, hhash, spreadSet_delegationValue, hsign⟩

/-- Both times are in the signed payload, so they are safe integers. -/
theorem times_of_createDelegation (h : createDelegation P clock uuid parent params privateKeyPem = .ok delegation) :
    (params.issuedAt.getD clock).isSafeInteger = true ∧ params.expiry.isSafeInteger = true := by
  obtain ⟨hash, signature, -, rfl, hsign⟩ := createDelegation_ok h
  unfold signEd25519 at hsign
  split at hsign
  · cases hsign
  · obtain ⟨message, hmessage, -⟩ := map_eq_ok.mp hsign
    obtain ⟨body, hbody, -⟩ := map_eq_ok.mp hmessage
    have hcanonical := ((canonicalizeToJson_ok _ _).mp hbody).1
    rw [payload_delegationValue] at hcanonical
    cases hcanonical with
    | obj _ hall =>
      have hissued := hall (js "issued_at", .num (params.issuedAt.getD clock)) (by simp [unsignedFields])
      have hexpiry := hall (js "expiry", .num params.expiry) (by simp [unsignedFields])
      exact ⟨canonical_num_iff.mp hissued, canonical_num_iff.mp hexpiry⟩

end

/-- Field by field, where both scopes have the field. -/
structure AtMost (child parent : JsValue) : Prop where
  tools : ∀ ts ps : List JsString, child.field (js "tools") = .arr (ts.map .str) →
    parent.field (js "tools") = .arr (ps.map .str) → ts ⊆ ps
  maxAmount : ∀ a b : ℤ, child.field (js "max_amount") = .bigint a → parent.field (js "max_amount") = .bigint b →
    a ≤ b
  maxActions : ∀ a b : ℤ, child.field (js "max_actions") = .num (.int a) →
    parent.field (js "max_actions") = .num (.int b) → a ≤ b
  maxDepth : ∀ a b : ℤ, child.field (js "max_depth") = .num (.int a) →
    parent.field (js "max_depth") = .num (.int b) → a ≤ b

section

variable {child parent v w : JsValue} {field : JsString}

theorem checkTools_self : checkTools v v = [] := by
  rw [checkTools, check_eq_nil]
  simp

theorem checkLimit_self : checkLimit field v v = [] := by
  rw [checkLimit, check_eq_nil]
  cases v <;> simp [exceeds, JsNumber.lt_itself]

/-- An omitted tool list is inherited. -/
theorem checkTools_effective (hv : optionally isToolList v = true) (hw : optionally isToolList w = true)
    (h : ∀ ts ps : List JsString, v = .arr (ts.map .str) → w = .arr (ps.map .str) → ts ⊆ ps) :
    checkTools (if v.isUndefined then w else v) w = [] := by
  by_cases hundefined : v.isUndefined = true
  · rw [if_pos hundefined]
    exact checkTools_self
  · rw [if_neg hundefined, checkTools, check_eq_nil]
    by_cases hparent : w.isUndefined = true
    · simp [hparent]
    · obtain ⟨ts, hts⟩ := isToolList_iff.mp (optionally_of_defined hv (by simpa using hundefined))
      obtain ⟨ps, hps⟩ := isToolList_iff.mp (optionally_of_defined hw (by simpa using hparent))
      have hsub := h ts ps hts hps
      have hempty : ts.filter (fun t => !ps.contains t) = [] := by
        apply List.filter_eq_nil_iff.mpr
        intro t ht
        simpa using hsub ht
      rw [hts, hps, toolTexts_strings, toolTexts_strings, hempty]
      simp

/-- An omitted limit is inherited. -/
theorem checkLimit_effective (h : v.isUndefined = false → w.isUndefined = false → exceeds v w = false) :
    checkLimit field (if v.isUndefined then w else v) w = [] := by
  by_cases hundefined : v.isUndefined = true
  · rw [if_pos hundefined]
    exact checkLimit_self
  · rw [if_neg hundefined, checkLimit, check_eq_nil]
    by_cases hparent : w.isUndefined = true
    · simp [hparent]
    · simp [h (by simpa using hundefined) (by simpa using hparent)]

theorem amount_not_exceeds (hv : optionally isAmount v = true) (hw : optionally isAmount w = true)
    (h : ∀ a b : ℤ, v = .bigint a → w = .bigint b → a ≤ b) (hdv : v.isUndefined = false)
    (hdw : w.isUndefined = false) : exceeds v w = false := by
  obtain ⟨a, rfl, -⟩ := isAmount_iff.mp (optionally_of_defined hv hdv)
  obtain ⟨b, rfl, -⟩ := isAmount_iff.mp (optionally_of_defined hw hdw)
  have hle := h a b rfl rfl
  simpa [exceeds] using hle

theorem count_not_exceeds (hv : optionally isCount v = true) (hw : optionally isCount w = true)
    (h : ∀ a b : ℤ, v = .num (.int a) → w = .num (.int b) → a ≤ b) (hdv : v.isUndefined = false)
    (hdw : w.isUndefined = false) : exceeds v w = false := by
  obtain ⟨a, rfl, -⟩ := isCount_iff.mp (optionally_of_defined hv hdv)
  obtain ⟨b, rfl, -⟩ := isCount_iff.mp (optionally_of_defined hw hdw)
  have hle := h a b rfl rfl
  simpa [exceeds, JsNumber.lt] using hle

/-- A well-typed child that is at most its parent passes the narrowing check. -/
theorem checkScopeNarrowing_of_atMost (hc : ScopeTyped child) (hp : ScopeTyped parent) (h : AtMost child parent) :
    checkScopeNarrowing child parent = .ok [] := by
  obtain ⟨effective, heff⟩ := exists_effective hc.isRecord hp.isRecord
  obtain ⟨htools, hamount, hactions, hdepth⟩ := resolveEffectiveChildScope_ok.mp heff
  rw [inheritField_ok hc.isRecord hp.isRecord] at htools hamount hactions hdepth
  have hnil : checkTools effective.tools (parent.field (js "tools")) ++
      checkLimit (js "max_amount") effective.maxAmount (parent.field (js "max_amount")) ++
      checkLimit (js "max_actions") effective.maxActions (parent.field (js "max_actions")) ++
      checkLimit (js "max_depth") effective.maxDepth (parent.field (js "max_depth")) = [] := by
    rw [← Except.ok.inj htools, ← Except.ok.inj hamount, ← Except.ok.inj hactions, ← Except.ok.inj hdepth,
      checkTools_effective hc.tools hp.tools h.tools,
      checkLimit_effective (amount_not_exceeds hc.maxAmount hp.maxAmount h.maxAmount),
      checkLimit_effective (count_not_exceeds hc.maxActions hp.maxActions h.maxActions),
      checkLimit_effective (count_not_exceeds hc.maxDepth hp.maxDepth h.maxDepth)]
    rfl
  rw [checkScopeNarrowing, heff, Except.map, hnil]

/-- Only the types of the two scopes are left to check. -/
theorem checkDelegationScope_iff {delegation parentScope : JsValue}
    (h : AtMost (delegation.field (js "scope")) parentScope) : checkDelegationScope delegation parentScope = .ok [] ↔
      ScopeTyped (delegation.field (js "scope")) ∧ (parentScope.isUndefined = true ∨ ScopeTyped parentScope) := by
  unfold checkDelegationScope
  by_cases hundefined : parentScope.isUndefined = true
  · simp [hundefined, scopeTypeViolations_eq_nil]
  · rw [Bool.not_eq_true] at hundefined
    by_cases hc : ScopeTyped (delegation.field (js "scope"))
    · by_cases hp : ScopeTyped parentScope
      · have hnarrow := checkScopeNarrowing_of_atMost hc hp h
        simp [hundefined, scopeTypeViolations_eq_nil.mpr hc, scopeTypeViolations_eq_nil.mpr hp, hnarrow, hc, hp,
          Except.map]
      · have hissues := mt (@scopeTypeViolations_eq_nil _ (js "parentScope")).mp hp
        simp [hundefined, scopeTypeViolations_eq_nil.mpr hc, hissues, hp]
    · have hissues := mt (@scopeTypeViolations_eq_nil _ (js "scope")).mp hc
      simp [hundefined, hissues, hc]

end

/-- The delegatee is expected, and the trusted keys and the parent's scope are given. -/
def presentedOptions (now : JsNumber) (params : CreateDelegationParams) (keySets : TrustedKeySets) (parentScope : JsValue)
    (requireSig : Option Bool) (skew : Option JsNumber) : VerifyDelegationOptions where
  now := some now
  trustedKeySets := some keySets
  requireSignatureVerification := requireSig
  expectedDelegatee := some params.delegatee
  parentScope := parentScope
  maxFutureIssuedAtSkewSeconds := skew

/-- What the verifier requires and creation leaves to its caller. -/
structure Presentable (nfc : JsString → JsString) (uuid audience policyId : JsString) (parent parentScope : JsValue)
    (params : CreateDelegationParams) : Prop where
  singleHop : parent.has (js "delegation_id") = false
  delegator : audience ≠ []
  policyId : policyId ≠ []
  delegatee : params.delegatee ≠ []
  issuer : params.issuer ≠ some []
  audience : params.audience ≠ some []
  kid : params.kid ≠ []
  delegationId : params.delegationId.getD uuid ≠ []
  normalized : nfc (params.delegationId.getD uuid) = params.delegationId.getD uuid
  scope : ScopeTyped (suppliedScope params.scope)
  parentScope : parentScope.isUndefined = true ∨ ScopeTyped parentScope

section

variable {H : Host} {clock now skew : JsNumber} {uuid privateKeyPem hash signature audience policyId : JsString}
  {parent parentScope : JsValue} {params : CreateDelegationParams} {keySets : TrustedKeySets} {requireSig : Option Bool}
  {skewOption : Option JsNumber}

theorem hasText_str {s : JsString} : (JsValue.str s).hasText = true ↔ s ≠ [] := by
  simp [JsValue.hasText_iff]

/-- The texts of a delegation, in the order of the checks. -/
theorem texts_delegationValue : delegationTexts.map (delegationValue clock uuid parent params hash signature).field =
    [.str (params.delegationId.getD uuid), (params.issuer.map JsValue.str).getD (parent.field (js "audience")),
      .str (params.audience.getD params.delegatee), .str hash, parent.field (js "audience"), .str params.delegatee,
      parent.field (js "policy_id"), .str (js "Ed25519"), .str params.kid, .str signature] := rfl

theorem issuer_delegationValue (haudience : parent.field (js "audience") = .str audience) :
    (params.issuer.map JsValue.str).getD (parent.field (js "audience")) = .str (params.issuer.getD audience) := by
  rw [haudience]
  cases params.issuer <;> rfl

theorem hasTexts_iff (haudience : parent.field (js "audience") = .str audience)
    (hpolicy : parent.field (js "policy_id") = .str policyId) (hhash : hash ≠ []) (hsignature : signature ≠ []) :
    (∀ field ∈ delegationTexts,
      ((delegationValue clock uuid parent params hash signature).field field).hasText = true) ↔
      audience ≠ [] ∧ policyId ≠ [] ∧ params.delegatee ≠ [] ∧ params.issuer ≠ some [] ∧ params.audience ≠ some [] ∧
        params.kid ≠ [] ∧ params.delegationId.getD uuid ≠ [] := by
  have hvalues : (∀ field ∈ delegationTexts,
      ((delegationValue clock uuid parent params hash signature).field field).hasText = true) ↔
      ∀ v ∈ delegationTexts.map (delegationValue clock uuid parent params hash signature).field,
        v.hasText = true := by
    rw [List.forall_mem_map]
  have halg : (js "Ed25519") ≠ [] := by decide
  rw [hvalues, texts_delegationValue, issuer_delegationValue haudience, haudience, hpolicy]
  simp only [List.forall_mem_cons, List.not_mem_nil, false_implies, implies_true, hasText_str]
  cases hopt : params.issuer with
  | none => cases haud : params.audience <;> simp [hhash, hsignature, halg] <;> tauto
  | some issuer => cases haud : params.audience <;> simp [hhash, hsignature, halg] <;> tauto

theorem fields_delegationValue {i e : ℤ} (hissued : params.issuedAt.getD clock = .int i)
    (hexpiry : params.expiry = .int e) :
    checkDelegationFields (delegationValue clock uuid parent params hash signature) = [] ↔
      ∀ field ∈ delegationTexts,
        ((delegationValue clock uuid parent params hash signature).field field).hasText = true := by
  have hi : ((delegationValue clock uuid parent params hash signature).field (js "issued_at")).isInteger = true :=
    JsValue.isInteger_iff.mpr ⟨i, congrArg JsValue.num hissued⟩
  have he : ((delegationValue clock uuid parent params hash signature).field (js "expiry")).isInteger = true :=
    JsValue.isInteger_iff.mpr ⟨e, congrArg JsValue.num hexpiry⟩
  have halg : ((delegationValue clock uuid parent params hash signature).field (js "alg")).isText (js "Ed25519") =
    true := JsValue.isText_iff.mpr rfl
  simp only [checkDelegationFields, hi, he, halg, List.append_eq_nil_iff, List.flatMap_eq_nil_iff,
    requireText_eq_nil, check_eq_nil, Bool.or_true, and_true]

theorem ge_int_iff {x : JsNumber} {q : ℚ} {e : ℤ} (hx : x.toRat? = some q) : x.ge (.int e) = true ↔ e ≤ q := by
  cases x with
  | int z =>
    cases hx
    simp [JsNumber.ge, JsNumber.isNaN, JsNumber.lt]
  | frac p hp =>
    cases hx
    simp [JsNumber.ge, JsNumber.isNaN, JsNumber.lt]
  | _ => cases hx

theorem add_int_of_toRat? {x : JsNumber} {q : ℚ} {z : ℤ} (hx : x.toRat? = some q) :
    x.add (.int z) = JsNumber.round (q + z) := by
  cases x with
  | int k =>
    cases hx
    simp [JsNumber.add]
  | frac p hp =>
    cases hx
    rfl
  | _ => cases hx

/-- The interval is not empty and not over, and it starts no later than the skew allows. -/
theorem times_delegationValue {i e s : ℤ} {t : ℚ} (hissued : params.issuedAt.getD clock = .int i)
    (hexpiry : params.expiry = .int e) (hsafe : i.natAbs ≤ JsNumber.maxSafeInteger) (hie : i < e)
    (ht : now.toRat? = some t) (hlow : (i : ℚ) - s ≤ t) (hhigh : t < e) :
    checkDelegationTimes (delegationValue clock uuid parent params hash signature) now (.int s) = [] := by
  have hi : (delegationValue clock uuid parent params hash signature).field (js "issued_at") = .num (.int i) :=
    congrArg JsValue.num hissued
  have he : (delegationValue clock uuid parent params hash signature).field (js "expiry") = .num (.int e) :=
    congrArg JsValue.num hexpiry
  have hlive : now.ge (.int e) = false := by
    rw [← Bool.not_eq_true, ge_int_iff ht]
    exact not_le.mpr hhigh
  have hsum : (now.add (.int s)).ge (.int i) = true := by
    rw [add_int_of_toRat? ht]
    apply JsNumber.round_ge
    · simp only [JsNumber.maxSafeInteger] at hsafe
      omega
    · linarith
  have hbelievable : isPlausible now (.int s) (.num (.int i)) = true := by
    rw [isPlausible, JsNumber.isSafeInteger_int.mpr hsafe, JsNumber.not_lt_of_ge hsum]
    rfl
  rw [checkDelegationTimes, hi, he, hbelievable, expiredAt_int, hlive]
  simp [check, integersExceed, hie]

theorem identity_delegationValue (hid : params.delegationId.getD uuid ≠ []) :
    checkDelegationIdentity (delegationValue clock uuid parent params hash signature) H.nfc
      (presentedOptions now params keySets parentScope requireSig skewOption) = [] ↔
        H.nfc (params.delegationId.getD uuid) = params.delegationId.getD uuid := by
  have hfield : (delegationValue clock uuid parent params hash signature).field (js "delegation_id") =
    .str (params.delegationId.getD uuid) := rfl
  have hdelegatee : ((delegationValue clock uuid parent params hash signature).field (js "delegatee")).isText
    params.delegatee = true := JsValue.isText_iff.mpr rfl
  simp [checkDelegationIdentity, presentedOptions, meets, hfield, hdelegatee, hasText_str.mpr hid, isNfcText]

theorem signature_delegationValue {entry : KeySetKey} {sign : List Byte → JsString} {key : PublicKey}
    (hkid : params.kid ≠ [])
    (hsign : signEd25519 H.toPlatform delegationV1Domain
      (delegationSigningPayload (delegationValue clock uuid parent params hash signature)) privateKeyPem = .ok signature)
    (hpair : SigningPair H privateKeyPem entry.publicKey sign key) (hactive : keyIsActiveAt entry now = true)
    (hne : signature ≠ []) {find : JsString → Option KeySetKey} (hfind : find params.kid = some entry) :
    checkDelegationSignature H (delegationValue clock uuid parent params hash signature) now true
      (requireSig.getD false) find = [] := by
  have hfields : hasDelegationSignature (delegationValue clock uuid parent params hash signature) = true := by
    simp only [hasDelegationSignature, Bool.and_eq_true]
    exact ⟨⟨JsValue.isText_iff.mpr rfl, hasText_str.mpr hkid⟩, hasText_str.mpr hne⟩
  have hlookup : find (((delegationValue clock uuid parent params hash signature).field (js "kid")).text?.getD []) =
    some entry := hfind
  have hverify : verifyDelegationSignature H (delegationValue clock uuid parent params hash signature) entry = true :=
    hpair.verifies hsign rfl
  rw [checkDelegationSignature, if_pos hfields]
  simp only [Bool.not_true, Bool.false_eq_true, if_false]
  exact KeyReport.violations_eq_nil.mpr (keyOutcome_verified.mpr ⟨entry, hlookup, hactive, hverify⟩)

theorem textsAgree_self {s : JsString} : textsAgree (.str s) (.str s) = true := by
  simp [textsAgree, JsValue.isText, JsValue.text?]

theorem isObject_of_field {v w : JsValue} {key : JsString} (h : v.field key = w) (hw : w ≠ .undefined) :
    isObject v = true := by
  cases v with
  | arr => rfl
  | function => rfl
  | obj => rfl
  | «instance» => rfl
  | _ => exact absurd h.symm hw

theorem chainHolds_delegationValue (hhop : parent.has (js "delegation_id") = false)
    (haudience : parent.field (js "audience") = .str audience)
    (hpolicy : parent.field (js "policy_id") = .str policyId) {e p : ℤ} {t : ℚ}
    (hparentExpiry : parent.field (js "expiry") = .num (.int p)) (hexpiry : params.expiry = .int e) (hep : e ≤ p)
    (ht : now.toRat? = some t) (hhigh : t < e)
    (hparent : sha256HexFromJson H.toPlatform (toPublicAuthorizationV1 parent) = .ok hash) :
    ChainHolds H now (delegationValue clock uuid parent params hash signature) parent where
  singleHop := hhop
  hash := by
    have hfield : (delegationValue clock uuid parent params hash signature).field (js "parent_auth_hash") = .str hash :=
      rfl
    have hsame : (JsValue.str hash).isText hash = true := JsValue.isText_iff.mpr rfl
    rw [checkParentHash, hfield, delegationParentHash, hparent]
    by_cases htext : (JsValue.str hash).hasText = true
    · simp [htext, Except.map, hsame]
    · simp [htext]
  fields := by
    have hdelegator : (delegationValue clock uuid parent params hash signature).field (js "delegator") = .str audience :=
      haudience
    have hpolicyId : (delegationValue clock uuid parent params hash signature).field (js "policy_id") = .str policyId :=
      hpolicy
    have he : (delegationValue clock uuid parent params hash signature).field (js "expiry") = .num (.int e) :=
      congrArg JsValue.num hexpiry
    have hlive : now.ge (.int p) = false := by
      rw [← Bool.not_eq_true, ge_int_iff ht]
      have hle : (e : ℚ) ≤ p := by exact_mod_cast hep
      linarith
    rw [checkParentFields, hdelegator, hpolicyId, haudience, hpolicy, hparentExpiry, he, textsAgree_self,
      textsAgree_self, expiredAt_int, hlive]
    simp [integersExceed, hep]

end

/-- A delegation of a parent, within its scope and its interval, at a time the skew allows, with the
active key it was signed for. -/
structure CreatedWithin (H : Host) (clock now : JsNumber) (uuid privateKeyPem audience policyId : JsString)
    (parent parentScope delegation : JsValue) (params : CreateDelegationParams) (keySets : TrustedKeySets)
    (skewOption : Option JsNumber) : Prop where
  delegator : parent.field (js "audience") = .str audience
  policy : parent.field (js "policy_id") = .str policyId
  created : createDelegation H.toPlatform clock uuid parent params privateKeyPem = .ok delegation
  scope : AtMost (suppliedScope params.scope) parentScope
  interval : ∃ (i e t : ℚ) (p s : ℤ), (params.issuedAt.getD clock).toRat? = some i ∧ params.expiry.toRat? = some e ∧
    parent.field (js "expiry") = .num (.int p) ∧ i < e ∧ e ≤ p ∧ now.toRat? = some t ∧
      resolveMaxFutureIssuedAtSkewSeconds (js "verifyDelegation") skewOption = .ok (.int s) ∧ i - s ≤ t ∧ t < e
  key : ∃ entry sign key, findKeyInKeySets (trustedList (some keySets)) (.str (params.issuer.getD audience)) params.kid
    .ed25519 = some entry ∧ keyIsActiveAt entry now = true ∧ SigningPair H privateKeyPem entry.publicKey sign key

/-- A created delegation is accepted exactly when it can be presented. -/
theorem delegation_complete (H : Host) (hhash : ∀ bytes, H.sha256Hex bytes ≠ []) (clock clock' now : JsNumber)
    (uuid privateKeyPem audience policyId : JsString) (parent parentScope delegation : JsValue)
    (params : CreateDelegationParams) (keySets : TrustedKeySets) (requireSig : Option Bool)
    (skewOption : Option JsNumber) (hwithin : CreatedWithin H clock now uuid privateKeyPem audience policyId parent
      parentScope delegation params keySets skewOption) :
    (∃ r, verifyDelegationChain H clock' delegation parent
      (presentedOptions now params keySets parentScope requireSig skewOption) = .ok r ∧ r.ok = true) ↔
        Presentable H.nfc uuid audience policyId parent parentScope params := by
  obtain ⟨haudience, hpolicy, hcreate, hscope, ⟨i, e, t, p, s, hissued, hexpiry, hparentExpiry, hie, hep, hnow, hskew,
    hlow, hhigh⟩, entry, sign, key, hfind, hactive, hpair⟩ := hwithin
  obtain ⟨hash, signature, hparent, rfl, hsign⟩ := createDelegation_ok hcreate
  obtain ⟨hi, he⟩ := times_of_createDelegation hcreate
  obtain ⟨zi, hzi, hsafe⟩ := JsNumber.exists_int_of_isSafeInteger hi
  obtain ⟨ze, hze, -⟩ := JsNumber.exists_int_of_isSafeInteger he
  obtain rfl : (zi : ℚ) = i := by simpa [hzi, JsNumber.toRat?] using hissued
  obtain rfl : (ze : ℚ) = e := by simpa [hze, JsNumber.toRat?] using hexpiry
  obtain ⟨-, bytes, -, hlength, hsignature, -⟩ := hpair.signed hsign
  have hne : signature ≠ [] := hsignature ▸ base64Encode_ne_nil hlength
  have hhashne : hash ≠ [] := by
    obtain ⟨text, -, rfl⟩ := map_eq_ok.mp hparent
    exact hhash _
  have hatMost : AtMost ((delegationValue clock uuid parent params hash signature).field (js "scope")) parentScope :=
    hscope
  constructor
  · rintro ⟨r, hr, hok⟩
    obtain ⟨hchain, hverify⟩ := verifyDelegationChain_accepts hr hok
    have hholds := (verifyDelegationBy_accepts hskew).mp ⟨r, hverify, hok⟩
    obtain ⟨haud, hpol, hdelegatee, hissuer, haudience', hkid, hid⟩ :=
      (hasTexts_iff haudience hpolicy hhashne hne).mp ((fields_delegationValue hzi hze).mp hholds.fields)
    obtain ⟨htyped, hparentTyped⟩ := (checkDelegationScope_iff hatMost).mp hholds.scope
    exact ⟨hchain.singleHop, haud, hpol, hdelegatee, hissuer, haudience', hkid, hid,
      (identity_delegationValue hid).mp hholds.identity, htyped, hparentTyped⟩
  · intro h
    have hchain : ChainHolds H now (delegationValue clock uuid parent params hash signature) parent :=
      chainHolds_delegationValue h.singleHop haudience hpolicy hparentExpiry hze (by exact_mod_cast hep) hnow hhigh
        hparent
    have htrusted : (trustedList (some keySets)).isEmpty = false := by
      cases hsets : trustedList (some keySets) with
      | nil =>
        rw [hsets] at hfind
        cases hfind
      | cons keySet rest => rfl
    have hissuer : (delegationValue clock uuid parent params hash signature).field (js "issuer") =
        .str (params.issuer.getD audience) := issuer_delegationValue haudience
    have hholds : DelegationHolds H now (.int s) (presentedOptions now params keySets parentScope requireSig skewOption)
        (findDelegationKey (delegationValue clock uuid parent params hash signature)
          (presentedOptions now params keySets parentScope requireSig skewOption))
        (delegationValue clock uuid parent params hash signature) := by
      refine ⟨rfl, (fields_delegationValue hzi hze).mpr ((hasTexts_iff haudience hpolicy hhashne hne).mpr
        ⟨h.delegator, h.policyId, h.delegatee, h.issuer, h.audience, h.kid, h.delegationId⟩),
        times_delegationValue hzi hze hsafe (by exact_mod_cast hie) hnow hlow hhigh,
        (identity_delegationValue h.delegationId).mpr h.normalized,
        (checkDelegationScope_iff hatMost).mpr ⟨h.scope, h.parentScope⟩, ?_⟩
      rw [presentedOptions, htrusted]
      apply signature_delegationValue h.kid hsign hpair hactive hne
      rw [findDelegationKey, hissuer]
      exact hfind
    obtain ⟨r, hr, hok⟩ : ∃ r, verifyDelegation H clock' (delegationValue clock uuid parent params hash signature)
        (presentedOptions now params keySets parentScope requireSig skewOption) = .ok r ∧ r.ok = true :=
      (verifyDelegationBy_accepts hskew).mpr hholds
    have hobject : isObject parent = true := isObject_of_field haudience JsValue.noConfusion
    exact ⟨r, (verifyDelegationChain_of_holds hobject rfl hchain).trans hr, hok⟩

def sampleParams (id : JsString) : CreateDelegationParams where
  delegatee := js "agent-2"
  scope := ⟨.undefined, .undefined, .undefined, .undefined⟩
  expiry := .int 1050
  kid := js "k1"
  issuer := some (js "issuer-1")
  delegationId := some id
  issuedAt := some (.int 1000)

def sampleVerdict (id audience : JsString) (parentScope : JsValue) : Option Bool :=
  match createDelegation envelopeHost.toPlatform (.int 0) [] (sampleParent audience) (sampleParams id) [] with
  | .error _ => none
  | .ok delegation =>
    match verifyDelegationChain envelopeHost (.int 0) delegation (sampleParent audience)
      (presentedOptions (.int 1000) (sampleParams id) (.one sampleKeySet) parentScope (some true) none) with
    | .error _ => none
    | .ok r => some r.ok

theorem createdWithin_sample {id audience : JsString} {parentScope delegation : JsValue}
    (h : createDelegation envelopeHost.toPlatform (.int 0) [] (sampleParent audience) (sampleParams id) [] =
      .ok delegation) :
    CreatedWithin envelopeHost (.int 0) (.int 1000) [] [] audience (js "p1") (sampleParent audience) parentScope delegation
      (sampleParams id) (.one sampleKeySet) none where
  delegator := rfl
  policy := rfl
  created := h
  scope := ⟨nofun, nofun, nofun, nofun⟩
  interval := by
    refine ⟨1000, 1050, 1000, 1060, 300, rfl, rfl, rfl, ?_, ?_, rfl, rfl, ?_, ?_⟩ <;> norm_num
  key := ⟨sampleKey none, _, _, find_sampleKey, rfl, signingPair_envelopeHost _ _⟩

theorem exists_verdict {id audience : JsString} {parentScope : JsValue} {accepted : Bool}
    (h : sampleVerdict id audience parentScope = some accepted) : ∃ delegation r,
      createDelegation envelopeHost.toPlatform (.int 0) [] (sampleParent audience) (sampleParams id) [] = .ok delegation ∧
      verifyDelegationChain envelopeHost (.int 0) delegation (sampleParent audience)
        (presentedOptions (.int 1000) (sampleParams id) (.one sampleKeySet) parentScope (some true) none) = .ok r ∧
      r.ok = accepted := by
  unfold sampleVerdict at h
  split at h
  · cases h
  · rename_i delegation hcreate
    split at h
    · cases h
    · rename_i r hverify
      exact ⟨delegation, r, hcreate, hverify, Option.some.inj h⟩

/-- What is created under this identifier within the premises is not accepted. -/
def RefusedSample (id audience : JsString) (parentScope : JsValue) : Prop :=
  ∃ delegation, CreatedWithin envelopeHost (.int 0) (.int 1000) [] [] audience (js "p1") (sampleParent audience)
    parentScope delegation (sampleParams id) (.one sampleKeySet) none ∧
      ¬ ∃ r, verifyDelegationChain envelopeHost (.int 0) delegation (sampleParent audience)
        (presentedOptions (.int 1000) (sampleParams id) (.one sampleKeySet) parentScope (some true) none) = .ok r ∧
          r.ok = true

theorem refusedSample_of_verdict {id audience : JsString} {parentScope : JsValue}
    (hrefused : sampleVerdict id audience parentScope = some false) : RefusedSample id audience parentScope := by
  obtain ⟨delegation, r, hcreate, hverify, hok⟩ := exists_verdict hrefused
  refine ⟨delegation, createdWithin_sample hcreate, ?_⟩
  rintro ⟨r', hverify', hok'⟩
  rw [hverify] at hverify'
  rw [← Except.ok.inj hverify', hok] at hok'
  cases hok'

/-- The Kelvin sign as an identifier, a parent for nobody, and a parent's scope with a negative limit. -/
theorem created_delegation_refused : RefusedSample [unit 8490] (js "agent-1") .undefined ∧
    RefusedSample (js "d1") [] .undefined ∧
      RefusedSample (js "d1") (js "agent-1") (.obj [(js "max_amount", .bigint (-1))]) := by
  refine ⟨refusedSample_of_verdict ?_, refusedSample_of_verdict ?_, refusedSample_of_verdict ?_⟩ <;> decide +kernel

theorem presentable_sample : Presentable envelopeHost.nfc [] (js "agent-1") (js "p1") (sampleParent (js "agent-1"))
    .undefined (sampleParams (js "d1")) where
  singleHop := rfl
  delegator := nofun
  policyId := nofun
  delegatee := nofun
  issuer := nofun
  audience := nofun
  kid := nofun
  delegationId := nofun
  normalized := by decide
  scope := ⟨rfl, rfl, rfl, rfl, rfl⟩
  parentScope := .inl rfl

theorem delegation_complete_sample : ∃ delegation r,
    createDelegation envelopeHost.toPlatform (.int 0) [] (sampleParent (js "agent-1")) (sampleParams (js "d1")) [] =
      .ok delegation ∧
    verifyDelegationChain envelopeHost (.int 0) delegation (sampleParent (js "agent-1"))
      (presentedOptions (.int 1000) (sampleParams (js "d1")) (.one sampleKeySet) .undefined (some true) none) = .ok r ∧
      r.ok = true := by
  obtain ⟨delegation, hcreate⟩ : ∃ delegation, createDelegation envelopeHost.toPlatform (.int 0) []
      (sampleParent (js "agent-1")) (sampleParams (js "d1")) [] = .ok delegation := by
    have hverdict : (sampleVerdict (js "d1") (js "agent-1") .undefined).isSome = true := by decide +kernel
    obtain ⟨accepted, haccepted⟩ := Option.isSome_iff_exists.mp hverdict
    obtain ⟨delegation, -, hcreate, -⟩ := exists_verdict haccepted
    exact ⟨delegation, hcreate⟩
  have hhash : ∀ bytes, envelopeHost.sha256Hex bytes ≠ [] := fun bytes => (samplePlatform_laws.hex bytes).2
  obtain ⟨r, hverify, hok⟩ := (delegation_complete envelopeHost hhash (.int 0) (.int 0) (.int 1000) [] [] (js "agent-1")
    (js "p1") _ _ delegation (sampleParams (js "d1")) (.one sampleKeySet) (some true) none
    (createdWithin_sample hcreate)).mpr presentable_sample
  exact ⟨delegation, r, hcreate, hverify, hok⟩

end OxDeAI
