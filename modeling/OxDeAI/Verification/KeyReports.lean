import OxDeAI.Verification.DelegationChain
import OxDeAI.Verification.KeyResolution

/-! Each verifier either reports the outcome of its lookup or ignores the keys. -/

namespace OxDeAI

open Js

section

variable {H : Host} {syntaxError : JsString → JsString} {clock : JsNumber} {q : KeyQuery}

def authorizationKeyReport : KeyReport where
  unknown := ⟨.authKidUnknown, js "kid not found for issuer/alg", none⟩
  inactive := ⟨.authKeyInactive, js "key is not active at verification time", none⟩
  invalid := ⟨.authSignatureInvalid, js "signature verification failed", none⟩

def authorizationKeyCheck (o : KeyOutcome) : SignatureCheck where
  violations := authorizationKeyReport.violations o
  signatureVerified := o = .verified
  verificationCoverage := if o = .unknown ∨ o = .inactive then .none else .authorizationV1Full

theorem checkEd25519_eq {now : JsNumber} {payload : JsValue} {signature : JsString}
    {key? : Option KeySetKey} : checkEd25519 H now payload signature key? = authorizationKeyCheck
      (keyOutcome now (fun key => acceptsEd25519 H payload signature key.publicKey) key?) := by
  cases key? with
  | none => rfl
  | some key =>
    by_cases ha : keyIsActiveAt key now = true
    · by_cases hv : acceptsEd25519 H payload signature key.publicKey = true
      · simp [checkEd25519, keyOutcome, ha, hv, authorizationKeyCheck, KeyReport.violations, verdictOf, check]
      · simp [checkEd25519, keyOutcome, ha, hv, authorizationKeyCheck, KeyReport.violations, verdictOf, check,
          authorizationKeyReport]
    · simp [checkEd25519, keyOutcome, ha, authorizationKeyCheck, KeyReport.violations, notVerified,
        authorizationKeyReport]

section

variable {auth : JsValue} {opts : VerifyAuthorizationOptions} {skew : JsNumber} {sets : List KeySet}

/-- The check of the signature when some key set is trusted. -/
def checkAgainst (H : Host) (clock : JsNumber) (auth : JsValue) (opts : VerifyAuthorizationOptions)
    (find : JsString → Option KeySetKey) : SignatureCheck :=
  checkSignature H (opts.now.getD clock) opts true find opts.requireSig auth

theorem verdict_authorization (hs : sets ≠ []) :
    verdict H syntaxError clock sets (.authorization auth opts) =
      match resolveMaxFutureIssuedAtSkewSeconds (js "verifyAuthorization")
          opts.maxFutureIssuedAtSkewSeconds with
      | .error e => .error e
      | .ok skew =>
        if auth.isNullish then .error .typeError
        else .ok (.authorization (authorizationResult opts auth
          (checkFields H.nfc (opts.now.getD clock) skew opts auth ++ (checkAgainst H clock auth opts
            (fun kid => findKeyInKeySets sets (auth.field (js "issuer")) kid .ed25519)).violations)
          (checkAgainst H clock auth opts
            (fun kid => findKeyInKeySets sets (auth.field (js "issuer")) kid .ed25519)))) := by
  have htrust : (!(trustedList (some (.many sets))).isEmpty) = true := not_isEmpty_iff.mpr hs
  have hstep : verifyAuthorization H clock auth { opts with trustedKeySets := some (.many sets) } =
      match resolveMaxFutureIssuedAtSkewSeconds (js "verifyAuthorization")
          opts.maxFutureIssuedAtSkewSeconds with
      | .error e => .error e
      | .ok skew =>
        if auth.isNullish then .error .typeError
        else if opts.mode = some .strict ∧ (!(trustedList (some (.many sets))).isEmpty) = false then
          .ok trustedKeySetsRequired
        else .ok (authorizationResult opts auth
          (checkFields H.nfc (opts.now.getD clock) skew opts auth ++
            (checkSignature H (opts.now.getD clock) opts (!(trustedList (some (.many sets))).isEmpty)
              (fun kid => findKeyInKeySets sets (auth.field (js "issuer")) kid .ed25519) opts.requireSig
              auth).violations)
          (checkSignature H (opts.now.getD clock) opts (!(trustedList (some (.many sets))).isEmpty)
            (fun kid => findKeyInKeySets sets (auth.field (js "issuer")) kid .ed25519) opts.requireSig
            auth)) := rfl
  rw [verdict, hstep, htrust]
  cases resolveMaxFutureIssuedAtSkewSeconds (js "verifyAuthorization")
      opts.maxFutureIssuedAtSkewSeconds with
  | error e => rfl
  | ok skew =>
    by_cases hn : auth.isNullish = true
    · simp [hn, Except.map]
    · simp [hn, Except.map, checkAgainst]

theorem authorizationResult_inj {vs ws : List VerificationViolation} {c d : SignatureCheck}
    (h : authorizationResult opts auth vs c = authorizationResult opts auth ws d) :
    sortViolations vs = sortViolations ws :=
  congrArg (fun r : AuthorizationVerificationResult => r.violations) h

theorem accepted_authorizationResult {vs : List VerificationViolation} {c : SignatureCheck} :
    Accepted (.ok (.authorization (authorizationResult opts auth vs c))) ↔ vs = [] := by
  constructor
  · rintro ⟨v, hv, hok⟩
    rw [← Except.ok.inj hv] at hok
    exact authorizationResult_ok.mp hok
  · intro h
    exact ⟨_, rfl, authorizationResult_ok.mpr h⟩

theorem not_isNullish_of_material {alg kid signature : JsString}
    (h : (signatureParts auth).material = some (alg, kid, signature)) : auth.isNullish = false := by
  cases auth with
  | null => cases h
  | undefined => cases h
  | _ => rfl

theorem authorizationQuery_some (h : authorizationQuery H clock auth opts = some q) :
    ∃ skew alg kid signature, resolveMaxFutureIssuedAtSkewSeconds (js "verifyAuthorization")
        opts.maxFutureIssuedAtSkewSeconds = .ok skew ∧
      (signatureParts auth).material = some (alg, kid, signature) ∧ isEd25519Name alg = true ∧
      q = ⟨auth.field (js "issuer"), kid, opts.now.getD clock,
        fun key => acceptsEd25519 H (authorizationSigningPayload auth) signature key.publicKey⟩ := by
  unfold authorizationQuery at h
  split at h
  · rename_i skew alg kid signature hskew hmat
    split at h
    · rename_i halg
      exact ⟨skew, alg, kid, signature, hskew, hmat, halg, (Option.some.inj h).symm⟩
    · cases h
  · cases h

theorem authorizationKeyReport_distinct : authorizationKeyReport.Distinct := ⟨by decide, by decide, by decide⟩

theorem delegationKeyReport_distinct : delegationKeyReport.Distinct := ⟨by decide, by decide, by decide⟩

theorem krlKeyReport_distinct : krlKeyReport.Distinct := ⟨by decide, by decide, by decide⟩

theorem authorization_reports (h : authorizationQuery H clock auth opts = some q) :
    ∃ report, ReportsOutcome H syntaxError clock (.authorization auth opts) q report := by
  obtain ⟨skew, alg, kid, signature, hskew, hmat, halg, rfl⟩ := authorizationQuery_some h
  let fields := checkFields H.nfc (opts.now.getD clock) skew opts auth
  refine ⟨fun o => .ok (.authorization (authorizationResult opts auth
    (fields ++ (authorizationKeyCheck o).violations) (authorizationKeyCheck o))), ?_, ?_, ?_⟩
  · intro sets hs
    have hcheck : ∀ find, checkAgainst H clock auth opts find =
        checkEd25519 H (opts.now.getD clock) (authorizationSigningPayload auth) signature (find kid) := by
      intro find
      simp [checkAgainst, checkSignature, hmat, halg]
    have hn := not_isNullish_of_material hmat
    rw [verdict_authorization hs, hskew, hcheck, checkEd25519_eq]
    simp only [hn, Bool.false_eq_true, if_false]
    rfl
  · intro o o' he
    have hviol := authorizationResult_inj (Verdict.authorization.inj (Except.ok.inj he))
    have hd := authorizationKeyReport_distinct
    exact authorizationKeyReport.sort_last_inj hd hviol
  · intro o
    rw [accepted_authorizationResult, List.append_eq_nil_iff]
    refine and_congr ?_ authorizationKeyReport.violations_eq_nil
    constructor
    · intro hf
      refine ⟨skew, hskew, hf, ?_⟩
      intro alg' kid' signature' hmat' halg'
      rw [hmat] at hmat'
      cases hmat'
      rw [halg] at halg'
      cases halg'
    · rintro ⟨skew', hskew', hf, -⟩
      rw [hskew] at hskew'
      cases hskew'
      exact hf

/-- Without an Ed25519 signature the lookup is not used. -/
theorem checkAgainst_ignores (h : ∀ alg kid signature,
      (signatureParts auth).material = some (alg, kid, signature) → isEd25519Name alg = false)
    (find find' : JsString → Option KeySetKey) :
    checkAgainst H clock auth opts find = checkAgainst H clock auth opts find' := by
  unfold checkAgainst checkSignature
  cases hm : (signatureParts auth).material with
  | none => rfl
  | some m =>
    obtain ⟨alg, kid, signature⟩ := m
    simp [h alg kid signature hm]

theorem authorizationQuery_none (h : authorizationQuery H clock auth opts = none)
    (hskew : resolveMaxFutureIssuedAtSkewSeconds (js "verifyAuthorization")
      opts.maxFutureIssuedAtSkewSeconds = .ok skew) {alg kid signature : JsString}
    (hmat : (signatureParts auth).material = some (alg, kid, signature)) : isEd25519Name alg = false := by
  by_contra halg
  simp [authorizationQuery, hskew, hmat, halg] at h

theorem exists_material_of_signer {issuer : JsValue} {sig : SignatureParts} {s : ArtifactSigner}
    (h : signerOf issuer sig = some s) : ∃ alg kid signature, sig.material = some (alg, kid, signature) ∧
      namedAlg alg = some s.alg := by
  unfold signerOf at h
  split at h
  · cases h
  · rename_i alg kid signature hmat
    refine ⟨alg, kid, signature, hmat, ?_⟩
    obtain ⟨a, ha, rfl⟩ := Option.map_eq_some_iff.mp h
    exact ha

theorem authorization_ignores (h : authorizationQuery H clock auth opts = none) :
    IgnoresKeys H syntaxError clock (.authorization auth opts) := by
  constructor
  · intro sets sets' hs hs'
    rw [verdict_authorization hs, verdict_authorization hs']
    cases hskew : resolveMaxFutureIssuedAtSkewSeconds (js "verifyAuthorization")
        opts.maxFutureIssuedAtSkewSeconds with
    | error e => rfl
    | ok skew =>
      dsimp only
      rw [checkAgainst_ignores (fun _ _ _ => authorizationQuery_none h hskew)]
  · intro s hsigner sets hs
    obtain ⟨alg, kid, signature, hmat, -⟩ := exists_material_of_signer hsigner
    have hn := not_isNullish_of_material hmat
    rw [verdict_authorization hs]
    cases hskew : resolveMaxFutureIssuedAtSkewSeconds (js "verifyAuthorization")
        opts.maxFutureIssuedAtSkewSeconds with
    | error e =>
      constructor
      · rintro ⟨v, hv, -⟩
        cases hv
      · rintro ⟨skew, hskew', -⟩
        rw [hskew] at hskew'
        cases hskew'
    | ok skew =>
      have hname := authorizationQuery_none h hskew hmat
      simp only [hn, Bool.false_eq_true, if_false]
      rw [accepted_authorizationResult, List.append_eq_nil_iff,
        checkAgainst_ignores (fun _ _ _ => authorizationQuery_none h hskew) _ (fun _ => none)]
      constructor
      · rintro ⟨hf, hsig⟩
        exact ⟨skew, hskew, hf, fun _ _ _ _ _ => hsig⟩
      · rintro ⟨skew', hskew', hf, hsig⟩
        rw [hskew] at hskew'
        cases hskew'
        exact ⟨hf, hsig alg kid signature hmat hname⟩

end

section

variable {delegation : JsValue} {opts : VerifyDelegationOptions} {skew : JsNumber} {sets : List KeySet}

/-- The violations of a delegation, given those of its scope and of its signature. -/
def delegationViolations (H : Host) (clock : JsNumber) (delegation : JsValue)
    (opts : VerifyDelegationOptions) (skew : JsNumber) (scopeIssues signature : List VerificationViolation) :
    List VerificationViolation :=
  checkDelegationFields delegation ++ checkDelegationTimes delegation (opts.now.getD clock) skew ++
    checkDelegationIdentity delegation H.nfc opts ++ scopeIssues ++ signature

theorem verdict_delegation (hs : sets ≠ []) :
    verdict H syntaxError clock sets (.delegation delegation opts) =
      match resolveMaxFutureIssuedAtSkewSeconds (js "verifyDelegation")
          opts.maxFutureIssuedAtSkewSeconds with
      | .error e => .error e
      | .ok skew =>
        if delegation.isNullish then .error .typeError
        else (checkDelegationScope delegation opts.parentScope).map (fun scopeIssues =>
          .plain (resultOf delegation (delegationViolations H clock delegation opts skew scopeIssues
            (checkDelegationSignature H delegation (opts.now.getD clock) true
              (opts.requireSignatureVerification.getD false)
              (fun kid => findKeyInKeySets sets (delegation.field (js "issuer")) kid .ed25519))))) := by
  have htrust : (!(trustedList (some (.many sets))).isEmpty) = true := not_isEmpty_iff.mpr hs
  have hstep : verifyDelegation H clock delegation { opts with trustedKeySets := some (.many sets) } =
      match resolveMaxFutureIssuedAtSkewSeconds (js "verifyDelegation")
          opts.maxFutureIssuedAtSkewSeconds with
      | .error e => .error e
      | .ok skew =>
        if delegation.isNullish then .error .typeError
        else (checkDelegationScope delegation opts.parentScope).map (fun scopeIssues =>
          resultOf delegation (delegationViolations H clock delegation opts skew scopeIssues
            (checkDelegationSignature H delegation (opts.now.getD clock)
              (!(trustedList (some (.many sets))).isEmpty) (opts.requireSignatureVerification.getD false)
              (fun kid => findKeyInKeySets sets (delegation.field (js "issuer")) kid .ed25519)))) := rfl
  rw [verdict, hstep, htrust]
  cases resolveMaxFutureIssuedAtSkewSeconds (js "verifyDelegation") opts.maxFutureIssuedAtSkewSeconds with
  | error e => rfl
  | ok skew =>
    by_cases hn : delegation.isNullish = true
    · simp [hn, Except.map]
    · cases hscope : checkDelegationScope delegation opts.parentScope with
      | error e => simp [hn, Except.map]
      | ok issues => simp [hn, Except.map]

theorem accepted_plain {r : VerificationResult} : Accepted (.ok (.plain r)) ↔ r.ok = true := by
  constructor
  · rintro ⟨v, hv, hok⟩
    rw [← Except.ok.inj hv] at hok
    exact hok
  · intro h
    exact ⟨_, rfl, h⟩

theorem not_accepted_error {e : JsError} : ¬ Accepted (.error e) := by
  rintro ⟨v, hv, -⟩
  cases hv

theorem resultOf_inj {vs ws : List VerificationViolation}
    (h : resultOf delegation vs = resultOf delegation ws) : sortViolations vs = sortViolations ws :=
  congrArg VerificationResult.violations h

theorem not_isNullish_of_signature (h : hasDelegationSignature delegation = true) :
    delegation.isNullish = false := by
  cases delegation with
  | null => cases h
  | undefined => cases h
  | _ => rfl

theorem delegationQuery_some (h : delegationQuery H clock delegation opts = some q) :
    ∃ skew issues, resolveMaxFutureIssuedAtSkewSeconds (js "verifyDelegation")
        opts.maxFutureIssuedAtSkewSeconds = .ok skew ∧
      checkDelegationScope delegation opts.parentScope = .ok issues ∧
      hasDelegationSignature delegation = true ∧
      q = ⟨delegation.field (js "issuer"), (delegation.field (js "kid")).text?.getD [],
        opts.now.getD clock, verifyDelegationSignature H delegation⟩ := by
  unfold delegationQuery at h
  split at h
  · rename_i skew issues hskew hissues
    split at h
    · rename_i hsig
      exact ⟨skew, issues, hskew, hissues, hsig, (Option.some.inj h).symm⟩
    · cases h
  · cases h

theorem delegation_reports (h : delegationQuery H clock delegation opts = some q) :
    ∃ report, ReportsOutcome H syntaxError clock (.delegation delegation opts) q report := by
  obtain ⟨skew, issues, hskew, hissues, hsig, rfl⟩ := delegationQuery_some h
  refine ⟨fun o => .ok (.plain (resultOf delegation (delegationViolations H clock delegation opts skew issues
    (delegationKeyReport.violations o)))), ?_, ?_, ?_⟩
  · intro sets hs
    have hn := not_isNullish_of_signature hsig
    rw [verdict_delegation hs, hskew, hissues]
    simp only [hn, Bool.false_eq_true, if_false, Except.map]
    simp only [checkDelegationSignature, hsig, if_true, Bool.not_true, Bool.false_eq_true, if_false]
    rfl
  · intro o o' he
    have hviol := resultOf_inj (Verdict.plain.inj (Except.ok.inj he))
    have hd := delegationKeyReport_distinct
    exact delegationKeyReport.sort_last_inj hd hviol
  · intro o
    rw [accepted_plain, resultOf_ok]
    simp only [delegationViolations, List.append_eq_nil_iff]
    constructor
    · rintro ⟨⟨⟨⟨hf, ht⟩, hi⟩, hscope⟩, hkey⟩
      subst hscope
      exact ⟨⟨skew, hskew, hissues, hf, ht, hi⟩, delegationKeyReport.violations_eq_nil.mp hkey⟩
    · rintro ⟨⟨skew', hskew', hscope, hf, ht, hi⟩, hkey⟩
      rw [hskew] at hskew'
      cases hskew'
      rw [hissues] at hscope
      exact ⟨⟨⟨⟨hf, ht⟩, hi⟩, Except.ok.inj hscope⟩, delegationKeyReport.violations_eq_nil.mpr hkey⟩

theorem hasDelegationSignature_of_fields {s : ArtifactSigner}
    (hs : signerOf (delegation.field (js "issuer")) (flatSignature delegation) = some s)
    (hf : checkDelegationFields delegation = []) : hasDelegationSignature delegation = true := by
  obtain ⟨alg, kid, signature, hmat, -⟩ := exists_material_of_signer hs
  obtain ⟨⟨halg, hal⟩, ⟨hkid, hk⟩, hsignature, hsg⟩ := material_some.mp hmat
  simp only [checkDelegationFields, List.append_eq_nil_iff, check_eq_nil] at hf
  have halgText : (delegation.field (js "alg")).hasText = true := JsValue.hasText_iff.mpr ⟨alg, halg, hal⟩
  have hed := hf.2
  rw [halgText] at hed
  simp only [hasDelegationSignature, Bool.and_eq_true]
  exact ⟨⟨by simpa using hed, JsValue.hasText_iff.mpr ⟨kid, hkid, hk⟩⟩,
    JsValue.hasText_iff.mpr ⟨signature, hsignature, hsg⟩⟩

theorem delegation_ignores (h : delegationQuery H clock delegation opts = none) :
    IgnoresKeys H syntaxError clock (.delegation delegation opts) := by
  have hsig : ∀ {skew issues}, resolveMaxFutureIssuedAtSkewSeconds (js "verifyDelegation")
        opts.maxFutureIssuedAtSkewSeconds = .ok skew →
      checkDelegationScope delegation opts.parentScope = .ok issues →
        hasDelegationSignature delegation = false := by
    intro skew issues hskew hissues
    by_contra hsig
    simp [delegationQuery, hskew, hissues, hsig] at h
  constructor
  · intro sets sets' hs hs'
    rw [verdict_delegation hs, verdict_delegation hs']
    cases hskew : resolveMaxFutureIssuedAtSkewSeconds (js "verifyDelegation")
        opts.maxFutureIssuedAtSkewSeconds with
    | error e => rfl
    | ok skew =>
      cases hissues : checkDelegationScope delegation opts.parentScope with
      | error e => rfl
      | ok issues =>
        have hno := hsig hskew hissues
        simp only [checkDelegationSignature, hno, Bool.false_eq_true, if_false]
  · intro s hsigner sets hs
    -- a signed delegation is looked up once its fields are complete
    have hnot : ¬ DelegationOthersHold H clock delegation opts := by
      rintro ⟨skew, hskew, hscope, hf, -⟩
      have hno := hsig hskew hscope
      rw [hasDelegationSignature_of_fields hsigner hf] at hno
      cases hno
    refine iff_of_false ?_ hnot
    intro hacc
    rw [verdict_delegation hs] at hacc
    cases hskew : resolveMaxFutureIssuedAtSkewSeconds (js "verifyDelegation")
        opts.maxFutureIssuedAtSkewSeconds with
    | error e =>
      rw [hskew] at hacc
      exact not_accepted_error hacc
    | ok skew =>
      rw [hskew] at hacc
      dsimp only at hacc
      split at hacc
      · exact not_accepted_error hacc
      · cases hissues : checkDelegationScope delegation opts.parentScope with
        | error e =>
          rw [hissues] at hacc
          exact not_accepted_error hacc
        | ok issues =>
          rw [hissues] at hacc
          have hnil := resultOf_ok.mp (accepted_plain.mp hacc)
          simp only [delegationViolations, List.append_eq_nil_iff] at hnil
          have hno := hsig hskew hissues
          rw [hasDelegationSignature_of_fields hsigner hnil.1.1.1.1] at hno
          cases hno

end

section

variable {e : JsValue} {opts : VerifySignedKrlOptions} {sets : List KeySet}

/-- What a structured list is checked for besides its key. -/
def krlContentViolations (clock : JsNumber) (e : JsValue) (opts : VerifySignedKrlOptions) :
    List VerificationViolation :=
  checkKrlVersion opts.previousKrlVersionByIssuer ((e.field (js "issuer")).text?.getD [])
      ((e.field (js "krl_version")).number?.getD .nan) ++
    check (!expiredAt (opts.now.getD clock) (e.field (js "not_after"))) .krlExpired (js "KRL has expired")

theorem verdict_krl (hs : sets ≠ []) :
    verdict H syntaxError clock sets (.krl e opts) = .ok (.plain (
      if !e.isRecord then notKrlObject
      else if checkKrlStructure e ≠ [] then krlResult (checkKrlStructure e)
      else krlResult (krlContentViolations clock e opts ++ krlKeyReport.violations
        (keyOutcome (opts.now.getD clock) (verifyKrlSignature H e)
          (findKeyInKeySets sets (e.field (js "issuer")) (krlKid e) .ed25519))))) := by
  have htrust : (!(trustedList (some (.many sets))).isEmpty) = true := not_isEmpty_iff.mpr hs
  have hstep : verifySignedKrl H clock e { opts with trustedKeySets := some (.many sets) } =
      if !e.isRecord then notKrlObject
      else if checkKrlStructure e ≠ [] then krlResult (checkKrlStructure e)
      else krlResult (krlContentViolations clock e opts ++
        checkKrlKey H (opts.now.getD clock) (!(trustedList (some (.many sets))).isEmpty)
          (fun kid => findKeyInKeySets sets (e.field (js "issuer")) kid .ed25519) e) := rfl
  rw [verdict, hstep, htrust]
  rfl

theorem krl_reports (h : krlQuery H clock e opts = some q) :
    ∃ report, ReportsOutcome H syntaxError clock (.krl e opts) q report := by
  have hq : (e.isRecord = true ∧ checkKrlStructure e = []) ∧
      q = ⟨e.field (js "issuer"), krlKid e, opts.now.getD clock, verifyKrlSignature H e⟩ := by
    unfold krlQuery at h
    split at h
    · rename_i hrec
      exact ⟨hrec, (Option.some.inj h).symm⟩
    · cases h
  obtain ⟨⟨hrec, hstr⟩, rfl⟩ := hq
  refine ⟨fun o => .ok (.plain (krlResult (krlContentViolations clock e opts ++ krlKeyReport.violations o))),
    ?_, ?_, ?_⟩
  · intro sets hs
    rw [verdict_krl hs]
    simp only [hrec, hstr, Bool.not_true, Bool.false_eq_true, if_false, ne_eq, not_true_eq_false]
    rfl
  · intro o o' he
    have hviol : sortViolations _ = sortViolations _ :=
      congrArg VerificationResult.violations (Verdict.plain.inj (Except.ok.inj he))
    have hd := krlKeyReport_distinct
    exact krlKeyReport.sort_last_inj hd hviol
  · intro o
    rw [accepted_plain, krlResult_ok, List.append_eq_nil_iff, krlKeyReport.violations_eq_nil]
    refine and_congr_left fun _ => ?_
    rw [krlContentViolations, List.append_eq_nil_iff, check_eq_nil, Bool.not_eq_true']
    constructor
    · rintro ⟨hv, hlive⟩
      exact ⟨hrec, hstr, hv, hlive⟩
    · rintro ⟨-, -, hv, hlive⟩
      exact ⟨hv, hlive⟩

theorem krl_ignores (h : krlQuery H clock e opts = none) :
    IgnoresKeys H syntaxError clock (.krl e opts) := by
  have hbad : ¬ (e.isRecord = true ∧ checkKrlStructure e = []) := by
    intro hgood
    simp [krlQuery, hgood] at h
  have hfixed : ∀ sets, sets ≠ [] → verdict H syntaxError clock sets (.krl e opts) =
      .ok (.plain (if !e.isRecord then notKrlObject else krlResult (checkKrlStructure e))) := by
    intro sets hs
    rw [verdict_krl hs]
    by_cases hrec : e.isRecord = true
    · have hstr : checkKrlStructure e ≠ [] := fun hstr => hbad ⟨hrec, hstr⟩
      simp only [hrec, hstr, Bool.not_true, Bool.false_eq_true, if_false, ne_eq, not_false_eq_true, if_true]
    · simp only [hrec, Bool.not_false, if_true]
  constructor
  · intro sets sets' hs hs'
    rw [hfixed sets hs, hfixed sets' hs']
  · intro s _ sets hs
    refine iff_of_false ?_ ?_
    · rw [hfixed sets hs, accepted_plain]
      by_cases hrec : e.isRecord = true
      · simp only [hrec, Bool.not_true, Bool.false_eq_true, if_false, krlResult_ok]
        exact fun hstr => hbad ⟨hrec, hstr⟩
      · simp [hrec, notKrlObject]
    · rintro ⟨hrec, hstr, -⟩
      exact hbad ⟨hrec, hstr⟩

end

section

variable {bytes : List Byte} {opts : VerifyEnvelopeOptions} {envelope : VerificationEnvelope}
  {sets : List KeySet}

theorem verdict_envelope (hs : sets ≠ []) (hdec : decodeEnvelope syntaxError bytes = .ok envelope) :
    verdict H syntaxError clock sets (.envelope bytes opts) = .ok (.plain (
      envelopeVerdict (envelopeSnapshotResult H envelope syntaxError opts)
        (envelopeAuditResult H envelope opts)
        (sortViolations (envelopeViolations H envelope syntaxError opts
          (checkEnvelopeSignature H envelope (opts.now.getD clock) true (fun issuer kid =>
            findKeyInKeySets sets (.str issuer) kid .ed25519)))))) := by
  have htrust : (!(trustedList (some (.many sets))).isEmpty) = true := not_isEmpty_iff.mpr hs
  have hstep : verifyEnvelope H syntaxError clock bytes { opts with trustedKeySets := some (.many sets) } =
      if opts.mode = some .strict ∧ (!(trustedList (some (.many sets))).isEmpty) = false then
        envelopeTrustRequired
      else envelopeVerdict (envelopeSnapshotResult H envelope syntaxError opts)
        (envelopeAuditResult H envelope opts)
        (sortViolations (envelopeViolations H envelope syntaxError opts
          (checkEnvelopeSignature H envelope (opts.now.getD clock)
            (!(trustedList (some (.many sets))).isEmpty) (fun issuer kid =>
              findKeyInKeySets sets (.str issuer) kid .ed25519)))) := by
    rw [verifyEnvelope, verifyEnvelopeBy, hdec]
    rfl
  rw [verdict, hstep, htrust]
  simp

theorem verdict_malformed {e : JsError} (hdec : decodeEnvelope syntaxError bytes = .error e) :
    verdict H syntaxError clock sets (.envelope bytes opts) = .ok (.plain (malformedEnvelope e)) := by
  rw [verdict, verifyEnvelope, verifyEnvelopeBy, hdec]

theorem malformedEnvelope_ok {e : JsError} : (malformedEnvelope e).ok = false := by
  cases e <;> rfl

theorem envelopeKeyReport_code {o : KeyOutcome} {v : VerificationViolation}
    (h : v ∈ envelopeKeyReport.violations o) : v.code ≠ .noStateAnchor := by
  cases o with
  | verified => cases h
  | _ =>
    obtain rfl := List.mem_singleton.mp h
    decide

/-- The verdict on a decoded envelope whose key has this outcome. -/
def envelopeReport (H : Host) (syntaxError : JsString → JsString) (opts : VerifyEnvelopeOptions)
    (envelope : VerificationEnvelope) (o : KeyOutcome) : VerificationResult :=
  envelopeVerdict (envelopeSnapshotResult H envelope syntaxError opts) (envelopeAuditResult H envelope opts)
    (sortViolations (envelopeViolations H envelope syntaxError opts (envelopeKeyReport.violations o)))

theorem envelopeReport_invalid {o : KeyOutcome} (h : o ≠ .verified) :
    (envelopeReport H syntaxError opts envelope o).status = .invalid := by
  obtain ⟨v, hv⟩ : ∃ v, v ∈ envelopeKeyReport.violations o := by
    apply List.exists_mem_of_ne_nil
    exact fun hnil => h (envelopeKeyReport.violations_eq_nil.mp hnil)
  refine envelopeVerdict_of_mem (v := v) (mem_sortViolations.mpr ?_) (envelopeKeyReport_code hv)
  simp only [envelopeViolations, List.mem_append]
  exact .inl (.inl (.inr hv))

theorem envelopeKeyReport_distinct : envelopeKeyReport.Distinct := ⟨by decide, by decide, by decide⟩

theorem envelopeReport_inj : Function.Injective (envelopeReport H syntaxError opts envelope) := by
  -- when either outcome is a failure, both verdicts are invalid and list every violation
  have hinv : ∀ o o', o ≠ .verified → envelopeReport H syntaxError opts envelope o =
      envelopeReport H syntaxError opts envelope o' → o = o' := by
    intro o o' hne he
    have hs : (envelopeReport H syntaxError opts envelope o).status = .invalid := envelopeReport_invalid hne
    have hs' := hs
    rw [he] at hs'
    have hviol := congrArg VerificationResult.violations he
    rw [envelopeReport, envelopeReport, envelopeVerdict_invalid hs, envelopeVerdict_invalid hs'] at hviol
    have hd := envelopeKeyReport_distinct
    simp only [envelopeViolations, List.append_assoc (checkEnvelopeOrigin envelope opts ++ _)] at hviol
    exact envelopeKeyReport.sort_inj hd hviol
  intro o o' he
  by_cases ho : o = .verified
  · by_cases ho' : o' = .verified
    · rw [ho, ho']
    · exact (hinv o' o ho' he.symm).symm
  · exact hinv o o' ho he

theorem envelope_reports (h : envelopeQuery H syntaxError clock bytes opts = some q) :
    ∃ report, ReportsOutcome H syntaxError clock (.envelope bytes opts) q report := by
  unfold envelopeQuery at h
  split at h
  · cases h
  · rename_i envelope hdec
    obtain ⟨s, hsigner, rfl⟩ := Option.map_eq_some_iff.mp h
    have hsigned : given envelope.signature = true ∧ envelopeSigner envelope = some s := by
      unfold decodedSigner at hsigner
      split at hsigner
      · rename_i hsig
        exact ⟨hsig, hsigner⟩
      · cases hsigner
    refine ⟨fun o => .ok (.plain (envelopeReport H syntaxError opts envelope o)), ?_, ?_, ?_⟩
    · intro sets hs
      rw [verdict_envelope hs hdec]
      simp only [checkEnvelopeSignature, hsigned.1, hsigned.2, Bool.not_true, Bool.false_eq_true, if_false]
      rfl
    · intro o o' he
      exact envelopeReport_inj (Verdict.plain.inj (Except.ok.inj he))
    · intro o
      rw [accepted_plain, envelopeReport, envelopeVerdict_accepts (fun v => envelopeKeyReport_code),
        envelopeKeyReport.violations_eq_nil]
      refine and_congr_left fun _ => ?_
      constructor
      · intro hholds
        exact ⟨envelope, hdec, hholds⟩
      · rintro ⟨envelope', hdec', hholds⟩
        rw [hdec] at hdec'
        rw [Except.ok.inj hdec']
        exact hholds

theorem envelope_ignores (h : envelopeQuery H syntaxError clock bytes opts = none) :
    IgnoresKeys H syntaxError clock (.envelope bytes opts) := by
  cases hdec : decodeEnvelope syntaxError bytes with
  | error e =>
    constructor
    · intro sets sets' _ _
      rw [verdict_malformed hdec, verdict_malformed hdec]
    · intro s hsigner
      simp only [signer, hdec] at hsigner
      cases hsigner
  | ok envelope =>
    have hsigner : decodedSigner envelope = none := by
      simpa only [envelopeQuery, hdec, Option.map_eq_none_iff] using h
    constructor
    · intro sets sets' hs hs'
      rw [verdict_envelope hs hdec, verdict_envelope hs' hdec]
      have hsame : ∀ find, checkEnvelopeSignature H envelope (opts.now.getD clock) true find =
          checkEnvelopeSignature H envelope (opts.now.getD clock) true (fun _ _ => none) := by
        intro find
        unfold decodedSigner at hsigner
        split at hsigner
        · simp [checkEnvelopeSignature, hsigner]
        · rename_i hsig
          simp [checkEnvelopeSignature, hsig]
      rw [hsame, hsame (fun issuer kid => findKeyInKeySets sets' (.str issuer) kid .ed25519)]
    · intro s hs
      simp only [signer, hdec, hsigner, Option.map_none] at hs
      cases hs

end

end

end OxDeAI
