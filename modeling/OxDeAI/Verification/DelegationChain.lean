import OxDeAI.Verification.Delegation

/-! What an accepted delegation is bound to. Three of the bindings are skipped when
the parent lacks the field they compare with. -/

namespace OxDeAI

open Js

/-- The checks an accepted delegation passed. -/
structure DelegationHolds (H : Host) (now skew : JsNumber) (opts : VerifyDelegationOptions)
    (find : JsString → Option KeySetKey) (delegation : JsValue) : Prop where
  notNullish : delegation.isNullish = false
  fields : checkDelegationFields delegation = []
  times : checkDelegationTimes delegation now skew = []
  identity : checkDelegationIdentity delegation H.nfc opts = []
  scope : checkDelegationScope delegation opts.parentScope = .ok []
  signature : checkDelegationSignature H delegation now (!(trustedList opts.trustedKeySets).isEmpty)
    (opts.requireSignatureVerification.getD false) find = []

section

variable {H : Host} {clock now skew : JsNumber} {opts : VerifyDelegationOptions}
  {find : JsString → Option KeySetKey} {delegation parent : JsValue}

theorem resultOf_ok {violations : List VerificationViolation} :
    (resultOf delegation violations).ok = true ↔ violations = [] := decide_eq_true_iff

theorem verifyDelegationBy_accepts (hskew : resolveMaxFutureIssuedAtSkewSeconds (js "verifyDelegation")
      opts.maxFutureIssuedAtSkewSeconds = .ok skew) :
    (∃ r, verifyDelegationBy H clock delegation opts find = .ok r ∧ r.ok = true) ↔
      DelegationHolds H (opts.now.getD clock) skew opts find delegation := by
  rw [verifyDelegationBy, hskew]
  simp only
  by_cases hnull : delegation.isNullish = true
  · rw [if_pos hnull]
    constructor
    · rintro ⟨r, h, -⟩
      cases h
    · intro h
      rw [h.notNullish] at hnull
      cases hnull
  · rw [if_neg hnull]
    constructor
    · rintro ⟨r, h, hok⟩
      obtain ⟨scopeIssues, hscope, rfl⟩ := map_eq_ok.mp h
      rw [resultOf_ok] at hok
      simp only [List.append_eq_nil_iff] at hok
      obtain ⟨⟨⟨⟨hf, ht⟩, hi⟩, rfl⟩, hs⟩ := hok
      exact ⟨by simpa using hnull, hf, ht, hi, hscope, hs⟩
    · intro h
      refine ⟨_, map_eq_ok.mpr ⟨_, h.scope, rfl⟩, ?_⟩
      rw [resultOf_ok, h.fields, h.times, h.identity, h.signature]
      rfl

theorem exists_skew_of_verifyDelegationBy {r : VerificationResult}
    (h : verifyDelegationBy H clock delegation opts find = .ok r) :
    ∃ skew, resolveMaxFutureIssuedAtSkewSeconds (js "verifyDelegation")
      opts.maxFutureIssuedAtSkewSeconds = .ok skew := by
  cases hskew : resolveMaxFutureIssuedAtSkewSeconds (js "verifyDelegation")
      opts.maxFutureIssuedAtSkewSeconds with
  | ok skew => exact ⟨skew, rfl⟩
  | error e =>
    rw [verifyDelegationBy, hskew] at h
    cases h

theorem expiredAt_int {z : ℤ} : expiredAt now (.num (.int z)) = now.ge (.int z) := by
  simp [expiredAt]

theorem textsAgree_iff {a b : JsValue} (ha : a.hasText = true) (hb : b.hasText = true) :
    textsAgree a b = true ↔ a = b := by
  obtain ⟨s, -, rfl⟩ := JsValue.hasText_iff.mp ha
  obtain ⟨s', -, rfl⟩ := JsValue.hasText_iff.mp hb
  simp [textsAgree, ha, hb, JsValue.isText_iff, JsValue.text?]

namespace DelegationHolds

variable (h : DelegationHolds H now skew opts find delegation)

include h

theorem hasText (field : JsString) (hf : field ∈ delegationTexts) :
    (delegation.field field).hasText = true := by
  have hfields := h.fields
  simp only [checkDelegationFields, List.append_eq_nil_iff, List.flatMap_eq_nil_iff,
    requireText_eq_nil] at hfields
  exact hfields.1.1.1 field hf

theorem alg : delegation.field (js "alg") = .str (js "Ed25519") := by
  have hfields := h.fields
  simp only [checkDelegationFields, List.append_eq_nil_iff, check_eq_nil] at hfields
  have halg := h.hasText (js "alg") (by simp [delegationTexts])
  have htext := hfields.2
  rw [halg] at htext
  exact JsValue.isText_iff.mp (by simpa using htext)

/-- Issued before it expires, and not expired. -/
theorem interval : ∃ i e : ℤ, delegation.field (js "issued_at") = .num (.int i) ∧
    delegation.field (js "expiry") = .num (.int e) ∧ i < e ∧ now.ge (.int e) = false := by
  have hfields := h.fields
  have htimes := h.times
  simp only [checkDelegationFields, List.append_eq_nil_iff, check_eq_nil] at hfields
  simp only [checkDelegationTimes, List.append_eq_nil_iff, check_eq_nil] at htimes
  obtain ⟨i, hi⟩ := JsValue.isInteger_iff.mp hfields.1.1.2
  obtain ⟨e, he⟩ := JsValue.isInteger_iff.mp hfields.1.2
  rw [hi, he] at htimes
  obtain ⟨⟨hexp, htemp⟩, -⟩ := htimes
  refine ⟨i, e, hi, he, ?_, ?_⟩
  · simpa [JsValue.isInteger, integersExceed] using htemp
  · rw [expiredAt_int] at hexp
    simpa using hexp

/-- The signature was demanded, so it verified under a key the lookup found. -/
theorem key (hreq : opts.requireSignatureVerification = some true) :
    ∃ kid key signature, delegation.field (js "kid") = .str kid ∧ find kid = some key ∧
      keyIsActiveAt key now = true ∧ delegation.field (js "signature") = .str signature ∧
        verifyEd25519 H delegationV1Domain (delegationSigningPayload delegation) signature
          key.publicKey = true := by
  obtain ⟨kid, hkne, hkid⟩ := JsValue.hasText_iff.mp (h.hasText (js "kid") (by simp [delegationTexts]))
  obtain ⟨signature, hsne, hsig⟩ :=
    JsValue.hasText_iff.mp (h.hasText (js "signature") (by simp [delegationTexts]))
  have hhas : hasDelegationSignature delegation = true := by
    simp only [hasDelegationSignature, Bool.and_eq_true, JsValue.isText_iff]
    exact ⟨⟨h.alg, h.hasText _ (by simp [delegationTexts])⟩, h.hasText _ (by simp [delegationTexts])⟩
  have hcheck := h.signature
  rw [checkDelegationSignature, if_pos hhas, hreq] at hcheck
  by_cases ht : (!(trustedList opts.trustedKeySets).isEmpty) = true
  · rw [ht] at hcheck
    simp only [Bool.not_true, Bool.false_eq_true, if_false] at hcheck
    rw [KeyReport.violations_eq_nil, keyOutcome_verified, hkid] at hcheck
    obtain ⟨key, hfind, hactive, hverify⟩ := hcheck
    rw [verifyDelegationSignature, hsig] at hverify
    exact ⟨kid, key, signature, hkid, hfind, hactive, hsig, hverify⟩
  · simp [ht, check] at hcheck

end DelegationHolds

/-- The checks an accepted chain passed. -/
structure ChainHolds (H : Host) (now : JsNumber) (delegation parent : JsValue) : Prop where
  singleHop : parent.has (js "delegation_id") = false
  hash : checkParentHash H delegation parent = .ok []
  fields : checkParentFields delegation now parent = []

theorem verifyDelegationChain_accepts {r : VerificationResult}
    (h : verifyDelegationChain H clock delegation parent opts = .ok r) (hok : r.ok = true) :
    ChainHolds H (opts.now.getD clock) delegation parent ∧
      verifyDelegation H clock delegation opts = .ok r := by
  unfold verifyDelegationChain at h
  split at h
  · cases h
  · split at h
    · cases h
      cases hok
    · rename_i hhop
      split at h
      · cases h
      · cases hhash : checkParentHash H delegation parent with
        | error e =>
          rw [hhash] at h
          cases h
        | ok hashIssues =>
          rw [hhash] at h
          by_cases hv : hashIssues ++ checkParentFields delegation (opts.now.getD clock) parent = []
          · have hnil := List.append_eq_nil_iff.mp hv
            simp only [Except.bind, hv, ne_eq, not_true_eq_false, if_false] at h
            exact ⟨⟨by simpa using hhop, by rw [hhash, hnil.1], hnil.2⟩, h⟩
          · simp only [Except.bind, ne_eq, hv, not_false_eq_true, if_true] at h
            rw [← Except.ok.inj h, resultOf_ok] at hok
            exact absurd hok hv

/-- What the chain should guarantee of the delegation and its parent. -/
structure ChainSound (H : Host) (now : JsNumber) (opts : VerifyDelegationOptions)
    (delegation parent : JsValue) : Prop where
  singleHop : parent.has (js "delegation_id") = false
  parentHash : ∃ hash, delegationParentHash H parent = .ok hash ∧
    delegation.field (js "parent_auth_hash") = .str hash
  delegator : delegation.field (js "delegator") = parent.field (js "audience") ∧
    (parent.field (js "audience")).hasText = true
  policyId : delegation.field (js "policy_id") = parent.field (js "policy_id") ∧
    (parent.field (js "policy_id")).hasText = true
  interval : ∃ i e p : ℤ, delegation.field (js "issued_at") = .num (.int i) ∧
    delegation.field (js "expiry") = .num (.int e) ∧ parent.field (js "expiry") = .num (.int p) ∧
      i < e ∧ e ≤ p ∧ now.lt (.int e) = true ∧ now.lt (.int p) = true
  signature : ∃ ks ∈ trustedList opts.trustedKeySets, ∃ key ∈ ks.keys,
    delegation.field (js "issuer") = .str ks.issuer ∧ delegation.field (js "kid") = .str key.kid ∧
      key.alg = .ed25519 ∧ keyIsActiveAt key now = true ∧
        ∃ signature, delegation.field (js "signature") = .str signature ∧
          verifyEd25519 H delegationV1Domain (delegationSigningPayload delegation) signature
            key.publicKey = true

/-- The parent has the fields the bindings compare with, and the time is a number. -/
structure ParentComplete (now : JsNumber) (parent : JsValue) : Prop where
  audience : (parent.field (js "audience")).hasText = true
  policyId : (parent.field (js "policy_id")).hasText = true
  expiry : (parent.field (js "expiry")).isInteger = true
  time : now.isNaN = false

theorem ChainHolds.parentHash (h : ChainHolds H now delegation parent)
    (ht : (delegation.field (js "parent_auth_hash")).hasText = true) :
    ∃ hash, delegationParentHash H parent = .ok hash ∧
      delegation.field (js "parent_auth_hash") = .str hash := by
  have hhash := h.hash
  rw [checkParentHash, ht] at hhash
  obtain ⟨hash, hok, hcheck⟩ := map_eq_ok.mp hhash
  exact ⟨hash, hok, JsValue.isText_iff.mp (check_eq_nil.mp hcheck)⟩

theorem ChainHolds.sound (h : ChainHolds H now delegation parent)
    (hd : DelegationHolds H now skew opts (findDelegationKey delegation opts) delegation)
    (hreq : opts.requireSignatureVerification = some true) (hc : ParentComplete now parent) :
    ChainSound H now opts delegation parent := by
  have hfields := h.fields
  simp only [checkParentFields, List.append_eq_nil_iff, check_eq_nil] at hfields
  obtain ⟨⟨⟨hexpired, hdelegator⟩, hpolicy⟩, hexceeds⟩ := hfields
  obtain ⟨i, e, hi, he, hie, hlive⟩ := hd.interval
  obtain ⟨p, hp⟩ := JsValue.isInteger_iff.mp hc.expiry
  rw [hp, expiredAt_int] at hexpired
  rw [hp, he] at hexceeds
  have hpe : ¬ p < e := by simpa [integersExceed] using hexceeds
  obtain ⟨kid, key, signature, hkid, hfind, hactive, hsig, hverify⟩ := hd.key hreq
  obtain ⟨ks, hks, hiss, hmem, rfl, halg⟩ := findKeyInKeySets_some hfind
  refine ⟨h.singleHop, h.parentHash (hd.hasText _ (by simp [delegationTexts])), ⟨?_, hc.audience⟩,
    ⟨?_, hc.policyId⟩, ⟨i, e, p, hi, he, hp, hie, not_lt.mp hpe, ?_, ?_⟩,
    ⟨ks, hks, key, hmem, hiss, hkid, halg, hactive, signature, hsig, hverify⟩⟩
  · exact (textsAgree_iff (hd.hasText _ (by simp [delegationTexts])) hc.audience).mp hdelegator
  · exact (textsAgree_iff (hd.hasText _ (by simp [delegationTexts])) hc.policyId).mp hpolicy
  · exact JsNumber.lt_of_not_ge hc.time rfl hlive
  · exact JsNumber.lt_of_not_ge hc.time rfl (by simpa using hexpired)

theorem ChainSound.parentComplete (h : ChainSound H now opts delegation parent) :
    ParentComplete now parent := by
  obtain ⟨i, e, p, -, -, hp, -, -, hlt, -⟩ := h.interval
  refine ⟨h.delegator.2, h.policyId.2, JsValue.isInteger_iff.mpr ⟨p, hp⟩, ?_⟩
  cases now with
  | nan => cases hlt
  | _ => rfl

/-- An accepted chain is sound exactly when its parent is complete. -/
theorem delegation_chain_sound (H : Host) (clock : JsNumber) (delegation parent : JsValue)
    (opts : VerifyDelegationOptions) (hreq : opts.requireSignatureVerification = some true)
    {r : VerificationResult} (h : verifyDelegationChain H clock delegation parent opts = .ok r)
    (hok : r.ok = true) :
    ChainSound H (opts.now.getD clock) opts delegation parent ↔
      ParentComplete (opts.now.getD clock) parent := by
  obtain ⟨hchain, hdel⟩ := verifyDelegationChain_accepts h hok
  obtain ⟨skew, hskew⟩ := exists_skew_of_verifyDelegationBy hdel
  have hholds := (verifyDelegationBy_accepts hskew).mp ⟨r, hdel, hok⟩
  exact ⟨fun hs => hs.parentComplete, hchain.sound hholds hreq⟩

theorem verifyDelegationChain_of_holds (hobj : isObject parent = true)
    (hnull : delegation.isNullish = false) (h : ChainHolds H (opts.now.getD clock) delegation parent) :
    verifyDelegationChain H clock delegation parent opts = verifyDelegation H clock delegation opts := by
  rw [verifyDelegationChain, hobj, h.singleHop, hnull, h.hash]
  simp [Except.bind, h.fields]

end

def sampleDelegation (hash : JsString) (scope : JsValue) : JsValue :=
  .obj [(js "delegation_id", .str (js "d1")), (js "issuer", .str (js "issuer-1")),
    (js "audience", .str (js "svc")), (js "parent_auth_hash", .str hash),
    (js "delegator", .str (js "agent-1")), (js "delegatee", .str (js "agent-2")), (js "scope", scope),
    (js "policy_id", .str (js "p1")), (js "issued_at", .num (.int 1000)),
    (js "expiry", .num (.int 1050)), (js "alg", .str (js "Ed25519")), (js "kid", .str (js "k1")),
    (js "signature", .str sampleSignature)]

def sampleDelegationOptions (parentScope : JsValue) : VerifyDelegationOptions where
  now := some (.int 1000)
  trustedKeySets := some (.one sampleKeySet)
  requireSignatureVerification := some true
  parentScope := parentScope

/-- The sample authorization, for a given audience. -/
def sampleParent (audience : JsString) : JsValue :=
  (sampleAuthorization (.num (.int 1060)) (js "Ed25519") sampleSignature []).spreadSet (js "audience")
    (.str audience)

theorem checkIdentity_sample {hash : JsString} {scope parentScope : JsValue} :
    checkDelegationIdentity (sampleDelegation hash scope) sampleHost.nfc (sampleDelegationOptions parentScope) =
      [] := by
  have hid : isNfcText sampleHost.nfc (.str (js "d1")) = true := by decide
  have hfield : (sampleDelegation hash scope).field (js "delegation_id") = .str (js "d1") := rfl
  rw [checkDelegationIdentity, hfield, hid]
  simp [check, meets, sampleDelegationOptions]

section

variable {hash audience : JsString} {scope : JsValue} {opts : VerifyDelegationOptions}

/-- The sample delegation holds under any options it matches. -/
theorem delegationHolds_sample (hne : hash ≠ []) (hkeys : trustedList opts.trustedKeySets = [sampleKeySet])
    (hidentity : checkDelegationIdentity (sampleDelegation hash scope) sampleHost.nfc opts = [])
    (hscope : checkDelegationScope (sampleDelegation hash scope) opts.parentScope = .ok [])
    (hc : Canonical sampleHost.nfc (delegationSigningPayload (sampleDelegation hash scope))) :
    DelegationHolds sampleHost (.int 1000) (.int 300) opts
      (findDelegationKey (sampleDelegation hash scope) opts) (sampleDelegation hash scope) where
  notNullish := rfl
  fields := by
    obtain ⟨u, us, rfl⟩ := List.exists_cons_of_ne_nil hne
    rfl
  times := by
    have hsum : (JsNumber.int 1000).add (.int 300) = .int 1300 := JsNumber.add_int (by decide)
    have hbelievable : isPlausible (.int 1000) (.int 300) (.num (.int 1000)) = true := by
      simp [isPlausible, hsum, JsNumber.isSafeInteger, JsNumber.maxSafeInteger]
    have hissued : (sampleDelegation hash scope).field (js "issued_at") = .num (.int 1000) := rfl
    have hexpiry : (sampleDelegation hash scope).field (js "expiry") = .num (.int 1050) := rfl
    rw [checkDelegationTimes, hissued, hexpiry, hbelievable]
    simp [check, expiredAt, integersExceed]
  identity := hidentity
  scope := hscope
  signature := by
    have hissuer : (sampleDelegation hash scope).field (js "issuer") = .str (js "issuer-1") := rfl
    have hfind : findDelegationKey (sampleDelegation hash scope) opts (js "k1") = some (sampleKey none) := by
      rw [findDelegationKey, hkeys, hissuer]
      exact find_sampleKey
    have hverify : verifyDelegationSignature sampleHost (sampleDelegation hash scope) (sampleKey none) = true :=
      verifyEd25519_sample hc
    have hhas : hasDelegationSignature (sampleDelegation hash scope) = true := by
      have hsig : (JsValue.str sampleSignature).hasText = true :=
        JsValue.hasText_iff.mpr ⟨_, sampleSignature_ne_nil, rfl⟩
      simp only [hasDelegationSignature, Bool.and_eq_true]
      exact ⟨⟨by rfl, by rfl⟩, hsig⟩
    have hkid : ((sampleDelegation hash scope).field (js "kid")).text?.getD [] = js "k1" := rfl
    have hactive : keyIsActiveAt (sampleKey none) (.int 1000) = true := rfl
    have houtcome : keyOutcome (.int 1000) (verifyDelegationSignature sampleHost (sampleDelegation hash scope))
        (some (sampleKey none)) = .verified := keyOutcome_verified.mpr ⟨_, rfl, hactive, hverify⟩
    rw [checkDelegationSignature, if_pos hhas, hkid, hfind, hkeys, houtcome]
    rfl

theorem chainHolds_sample (hhash : delegationParentHash sampleHost (sampleParent audience) = .ok hash)
    (hne : hash ≠ []) (haud : textsAgree (.str (js "agent-1")) (.str audience) = true) :
    ChainHolds sampleHost (.int 1000) (sampleDelegation hash scope) (sampleParent audience) where
  singleHop := rfl
  hash := by
    have htext : ((sampleDelegation hash scope).field (js "parent_auth_hash")).hasText = true :=
      JsValue.hasText_iff.mpr ⟨hash, hne, rfl⟩
    have heq : ((sampleDelegation hash scope).field (js "parent_auth_hash")).isText hash = true :=
      JsValue.isText_iff.mpr rfl
    rw [checkParentHash, htext, hhash]
    simp [Except.map, heq, check]
  fields := by
    have hdel : (sampleDelegation hash scope).field (js "delegator") = .str (js "agent-1") := rfl
    have hpaud : (sampleParent audience).field (js "audience") = .str audience := rfl
    have hexp : (sampleParent audience).field (js "expiry") = .num (.int 1060) := rfl
    have hpol : textsAgree ((sampleDelegation hash scope).field (js "policy_id"))
      ((sampleParent audience).field (js "policy_id")) = true := rfl
    have hdexp : (sampleDelegation hash scope).field (js "expiry") = .num (.int 1050) := rfl
    rw [checkParentFields, hdel, hpaud, haud, hpol, hexp, hdexp]
    simp [check, expiredAt, integersExceed]

/-- The hash of a sample parent, and a delegation bound to it that is accepted. -/
theorem chain_accepted_sample {clock : JsNumber} (hnow : opts.now = some (.int 1000))
    (hskew : opts.maxFutureIssuedAtSkewSeconds = none) (hkeys : trustedList opts.trustedKeySets = [sampleKeySet])
    (hidentity : ∀ hash, checkDelegationIdentity (sampleDelegation hash scope) sampleHost.nfc opts = [])
    (hparent : Canonical sampleHost.nfc (toPublicAuthorizationV1 (sampleParent audience)))
    (hscope : ∀ hash, checkDelegationScope (sampleDelegation hash scope) opts.parentScope = .ok [])
    (hc : ∀ hash, Canonical sampleHost.nfc (delegationSigningPayload (sampleDelegation hash scope)))
    (haud : textsAgree (.str (js "agent-1")) (.str audience) = true) :
    ∃ hash r, verifyDelegationChain sampleHost clock (sampleDelegation hash scope) (sampleParent audience)
      opts = .ok r ∧ r.ok = true := by
  have hhash := (sha256HexFromJson_ok (P := sampleHost.toPlatform)).mpr ⟨hparent, rfl⟩
  generalize hd : digest sampleHost.toPlatform (toPublicAuthorizationV1 (sampleParent audience)) = hash at hhash
  have hne : hash ≠ [] := hd ▸ (samplePlatform_laws.hex _).2
  have htime : opts.now.getD clock = .int 1000 := by rw [hnow, Option.getD_some]
  have hdefault : resolveMaxFutureIssuedAtSkewSeconds (js "verifyDelegation")
      opts.maxFutureIssuedAtSkewSeconds = .ok (.int 300) := by rw [hskew]; rfl
  have hholds := delegationHolds_sample hne hkeys (hidentity hash) (hscope hash) (hc hash)
  rw [← htime] at hholds
  obtain ⟨r, hr, hok⟩ := (verifyDelegationBy_accepts hdefault).mpr hholds
  have hchain : ChainHolds sampleHost (opts.now.getD clock) (sampleDelegation hash scope)
      (sampleParent audience) := htime.symm ▸ chainHolds_sample hhash hne haud
  exact ⟨hash, r, (verifyDelegationChain_of_holds rfl rfl hchain).trans hr, hok⟩

end

theorem canonical_sampleDelegation (hash : JsString) :
    Canonical sampleHost.nfc (delegationSigningPayload (sampleDelegation hash (.obj []))) :=
  (isCanonical_iff _).mp rfl

theorem empty_scope_accepted {audience : JsString}
    (hparent : Canonical sampleHost.nfc (toPublicAuthorizationV1 (sampleParent audience)))
    (haud : textsAgree (.str (js "agent-1")) (.str audience) = true) :
    ∃ hash r, verifyDelegationChain sampleHost (.int 0) (sampleDelegation hash (.obj []))
      (sampleParent audience) (sampleDelegationOptions .undefined) = .ok r ∧ r.ok = true :=
  chain_accepted_sample rfl rfl rfl (fun _ => checkIdentity_sample) hparent (fun _ => rfl)
    canonical_sampleDelegation haud

theorem empty_audience_accepted : ¬ ∀ (delegation parent : JsValue) (opts : VerifyDelegationOptions)
    (r : VerificationResult), opts.requireSignatureVerification = some true →
      verifyDelegationChain sampleHost (.int 0) delegation parent opts = .ok r → r.ok = true →
        ChainSound sampleHost (opts.now.getD (.int 0)) opts delegation parent := by
  intro hclaim
  have hparent : Canonical sampleHost.nfc (toPublicAuthorizationV1 (sampleParent [])) :=
    (isCanonical_iff _).mp (by decide)
  obtain ⟨hash, r, hr, hok⟩ := empty_scope_accepted hparent rfl
  have hsound := hclaim _ _ _ r rfl hr hok
  have haud : ((sampleParent []).field (js "audience")).hasText = true := hsound.delegator.2
  cases haud

theorem delegation_chain_sound_sample : ∃ hash, ChainSound sampleHost (.int 1000)
    (sampleDelegationOptions .undefined) (sampleDelegation hash (.obj [])) (sampleParent (js "agent-1")) := by
  have hparent : Canonical sampleHost.nfc (toPublicAuthorizationV1 (sampleParent (js "agent-1"))) :=
    (isCanonical_iff _).mp (by decide)
  obtain ⟨hash, r, hr, hok⟩ := empty_scope_accepted hparent rfl
  exact ⟨hash, (delegation_chain_sound sampleHost (.int 0) _ _ _ rfl hr hok).mpr ⟨rfl, rfl, rfl, rfl⟩⟩

end OxDeAI
