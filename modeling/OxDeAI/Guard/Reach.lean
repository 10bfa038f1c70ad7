import OxDeAI.Guard.Mediation

/-! A guard call executes after every history that mediates: the conditions of
mediation are exactly what a call checks. -/

namespace OxDeAI

open Js Async

section

variable {σ S V α : Type} {H : Host} {cfg : GuardConfig} {action delegationInput : JsValue} {live : LiveObjects}

theorem returning_returns {x : Except JsError α} {a : α} (h : x = .ok a) :
    (returning x : GuardCall σ S V α).Returns [] a := by
  subst h
  exact Call.returns_pure

theorem loadState_returns {state : S} {version : V} :
    (loadState : GuardCall σ S V (S × V)).Returns
      [⟨.getState, .ok (.value (some (state, some version)))⟩] (state, version) :=
  Call.returns_request_bind Call.returns_pure

theorem normalizeAction_returns {intent : JsValue} (hnull : intent.isNullish = false)
    (hagent : delegationInput.isTruthy = true → (intent.field (js "agent_id")).hasText = true) :
    (normalizeAction action delegationInput : GuardCall σ S V JsValue).Returns
      [⟨.normalize action, .ok intent⟩] intent := by
  have hasAgent : ¬ (delegationInput.isTruthy && !(intent.field (js "agent_id")).hasText) = true := by
    rw [Bool.and_eq_true, not_and]
    intro hdelegated
    simp [hagent hdelegated]
  refine Call.returns_modify_bind (Call.returns_request_bind ?_)
  dsimp only
  rw [if_neg hasAgent, if_neg (by simp [hnull])]
  exact Call.returns_modify_bind Call.returns_pure

theorem validatedTrust_returns {stage : GuardBoundaryStage} {keySets : List KeySet}
    (h : TrustHolds H cfg keySets) :
    (validatedTrust H cfg stage : GuardCall σ S V (List KeySet)).Returns [⟨.trustedKeySets, keySets⟩] keySets := by
  refine Call.returns_request_bind ?_
  unfold TrustHolds at h
  cases hcfg : cfg.revocation with
  | none => exact Call.returns_pure
  | some revocation =>
    dsimp only
    rw [h revocation hcfg]
    exact Call.returns_pure

theorem evaluatePolicy_returns {intent : JsValue} {state : S} {t : JsNumber} {result : EngineResult S} :
    (evaluatePolicy intent state : GuardCall σ S V (EngineResult S)).Returns
      [⟨.clock, t⟩, ⟨.evaluatePure intent state t, .ok (some result)⟩] result :=
  Call.returns_modify_bind (Call.returns_request_bind (Call.returns_request_bind
    (Call.returns_modify_bind Call.returns_pure)))

theorem requireAuthorization_returns {result : EngineResult S} {nextState : S} (h : Permits result nextState) :
    (requireAuthorization cfg action result : GuardCall σ S V S).Returns [] nextState := by
  unfold requireAuthorization
  rw [if_neg (by simp [h.notDenied]), if_neg (by simp [h.authorization]), h.nextState]
  exact Call.returns_modify_bind Call.returns_pure

theorem verifyIssued_returns {authorization : JsValue} {now : JsNumber} {keySets : List KeySet}
    (htrust : TrustHolds H cfg keySets) (h : StrictlyVerified H cfg now keySets none authorization) :
    (verifyIssued H cfg authorization : GuardCall σ S V Unit).Returns
      [⟨.clock, now⟩, ⟨.trustedKeySets, keySets⟩] () := by
  obtain ⟨r, hr, hok⟩ := h
  refine Call.returns_modify_bind (Call.returns_request_bind
    ((validatedTrust_returns htrust).bind ((returning_returns hr).bind ?_)))
  rw [if_neg (by simp [status_of_ok hr hok])]
  exact Call.returns_pure

theorem bindIntent_returns {intent authorization : JsValue} {hash : JsString}
    (hhash : intentHashOf H.toPlatform intent = .ok hash)
    (h : authorization.field (js "intent_hash") = .str hash) :
    (bindIntent H authorization (.ok intent) : GuardCall σ S V Unit).Returns [] () := by
  unfold bindIntent
  dsimp only
  rw [hhash, h]
  dsimp only
  rw [if_neg (by simp [JsValue.isText])]
  exact Call.returns_pure

theorem bindState_returns {state : S} {authorization : JsValue} {hash : JsString} (hne : hash ≠ [])
    (h : authorization.field (js "state_hash") = .str hash) :
    (bindState state authorization : GuardCall σ S V Unit).Returns
      [⟨.computeStateHash state, .ok (.str hash)⟩] () := by
  unfold bindState
  rw [h, if_neg (by simp [JsValue.isTruthy, hne])]
  refine Call.returns_request_bind ?_
  dsimp only
  rw [if_neg (by simp [JsValue.strictEquals])]
  exact Call.returns_pure

theorem consumeIssued_returns {authorization : JsValue} :
    (consumeIssued authorization : GuardCall σ S V Unit).Returns
      [⟨.consumeAuthId (authorization.field (js "auth_id")) (consumeExpiry authorization), .ok (.bool true)⟩] () :=
  Call.returns_request_bind (Call.returns_pure.bind Call.returns_modify)

theorem consumeParent_returns {parentAuth : JsValue} :
    (consumeParent parentAuth : GuardCall σ S V Unit).Returns
      [⟨.consumeAuthId (parentAuth.field (js "auth_id")) (parentAuth.field (js "expiry")), .ok (.bool true)⟩] () :=
  Call.returns_request_bind (Call.returns_pure.bind Call.returns_modify)

theorem consumeDelegation_returns {delegation : JsValue} :
    (consumeDelegation cfg delegation : GuardCall σ S V Unit).Returns
      (if cfg.consumesDelegationIds then
        [⟨.consumeDelegationId (delegation.field (js "delegation_id")) (delegation.field (js "expiry")),
          .ok (.bool true)⟩] else []) () := by
  unfold consumeDelegation
  by_cases hc : cfg.consumesDelegationIds = true
  · rw [if_pos hc, if_pos hc]
    exact Call.returns_request_bind (Call.returns_pure.bind Call.returns_modify)
  · rw [if_neg hc, if_neg hc]
    exact Call.returns_pure

theorem commitState_returns {nextState : S} {version : V} {answer : JsValue} (h : answer.isTruthy = true) :
    (commitState nextState version : GuardCall σ S V Unit).Returns
      [⟨.setState nextState version, .ok answer⟩] () := by
  refine Call.returns_modify_bind (Call.returns_request_bind ?_)
  dsimp only
  rw [if_neg (by simp [h])]
  exact Call.returns_modify

theorem passGate_returns {authorization : JsValue} :
    (passGate cfg action authorization : GuardCall σ S V Unit).Returns
      (gateHistory cfg action authorization) () := by
  unfold gateHistory
  refine Call.returns_modify_bind ?_
  by_cases hb : cfg.beforeExecute = true
  · rw [if_pos hb, if_pos hb]
    exact Call.returns_request_bind Call.returns_pure
  · rw [if_neg hb, if_neg hb]
    exact Call.returns_pure

theorem runExecute_asks {record : GuardDecisionRecord} :
    (runExecute cfg record : GuardCall σ S V JsValue).Asks [] .execute :=
  Call.asks_modify_bind Call.asks_request.bind

theorem gate_asks {authorization : JsValue} {record : GuardDecisionRecord} :
    (passGate cfg action authorization >>= fun _ => runExecute cfg record : GuardCall σ S V JsValue).Asks
      (gateHistory cfg action authorization) .execute := by
  have hgate : (passGate cfg action authorization >>= fun _ => runExecute cfg record :
      GuardCall σ S V JsValue).Asks (gateHistory cfg action authorization ++ []) .execute :=
    passGate_returns.asks runExecute_asks
  rwa [List.append_nil] at hgate

/-- A standard call that is bound, consumed and committed executes. -/
theorem standardPath_asks {c : IssuedCall S V} (h : c.Bound H cfg live) {answer : JsValue}
    (ha : answer.isTruthy = true) :
    (standardPath H cfg action c.intent c.state c.version live : GuardCall σ S V JsValue).Asks
      ([⟨.clock, c.evaluationTime⟩, ⟨.evaluatePure c.intent c.state c.evaluationTime, .ok (some c.result)⟩,
        ⟨.clock, c.now⟩, ⟨.trustedKeySets, c.keySets⟩, ⟨.computeStateHash c.state, .ok c.stateHash⟩,
        ⟨.consumeAuthId ((live.consumed c.authorization).field (js "auth_id"))
          (consumeExpiry (live.consumed c.authorization)), .ok (.bool true)⟩,
        ⟨.setState c.nextState c.version, .ok answer⟩] ++
          gateHistory cfg action (live.committed c.authorization)) .execute := by
  obtain ⟨intent, hash, hread, hhash, hintent⟩ := h.intentHash
  obtain ⟨actual, hactual, hstate⟩ := h.stateHash
  have hne : actual ≠ [] := by
    obtain ⟨text, hne, htext⟩ := JsValue.hasText_iff.mp (strictlyVerified_iff.mp h.verified).stateHash
    rw [hstate] at htext
    rwa [JsValue.str.inj htext]
  rw [hactual, standardPath, hread]
  exact evaluatePolicy_returns.asks ((requireAuthorization_returns h.permits).asks
    ((verifyIssued_returns h.trust h.verified).asks ((bindIntent_returns hhash hintent).asks
      ((bindState_returns hne hstate).asks (consumeIssued_returns.asks
        ((commitState_returns ha).asks gate_asks))))))

/-- What mediation asks for before an execution is all that a call checks. -/
theorem guardCall_asks_standard {c : IssuedCall S V} (hstandard : delegationInput.isTruthy = false)
    (h : c.Bound H cfg live) {answer : JsValue} (ha : answer.isTruthy = true) :
    Async.Asks (guardCall H cfg action delegationInput live : Prog σ (GuardRequest S V) GuardAnswer _)
      (c.committed action answer live ++ gateHistory cfg (live.normalized action) (live.committed c.authorization))
        .execute := by
  have hrun : (runRequest H cfg action delegationInput live : GuardCall σ S V JsValue).Asks
      (c.committed action answer live ++ gateHistory cfg (live.normalized action) (live.committed c.authorization))
        .execute := by
    refine loadState_returns.asks ((normalizeAction_returns h.intent ?_).asks ?_)
    · intro hdelegated
      rw [hstandard] at hdelegated
      cases hdelegated
    · rw [if_neg (by simp [hstandard])]
      exact standardPath_asks h ha
  obtain ⟨next, hpath⟩ := hrun (createLifecycle .stateLoad)
  exact ⟨_, hpath.bind _⟩

theorem delegatedAmount_returns {intent : JsValue} {amount : ℤ}
    (h : intent.field (js "amount") = .bigint amount) (h0 : 0 ≤ amount) :
    (delegatedAmount intent : GuardCall σ S V ℤ).Returns [] amount := by
  unfold delegatedAmount
  rw [h]
  dsimp only
  rw [if_neg (not_lt.mpr h0)]
  exact Call.returns_pure

theorem snapshotDelegation_returns {snapshot : JsValue} {input : DelegationInput}
    (h : snapshotPlainData delegationInput (js "delegation input") = .ok snapshot)
    (hinput : input = ⟨snapshot.field (js "delegation"), snapshot.field (js "parentAuth"),
      snapshot.field (js "parentScope")⟩)
    (hcomplete : input.delegation.isTruthy = true ∧ input.parentAuth.isTruthy = true) :
    (snapshotDelegation delegationInput : GuardCall σ S V DelegationInput).Returns [] input := by
  subst hinput
  unfold snapshotDelegation
  rw [h]
  dsimp only
  rw [if_neg (by simp [hcomplete.1, hcomplete.2])]
  exact Call.returns_pure

theorem requireAuthorities_returns {authorities : List AuthorizationAuthority}
    (h : cfg.trustedDelegationAuthorities = some authorities) :
    (requireAuthorities cfg : GuardCall σ S V (List AuthorizationAuthority)).Returns [] authorities := by
  unfold requireAuthorities
  rw [h]
  exact Call.returns_pure

theorem requireParentScope_returns {parentScope : JsValue} (h : isValidDelegationScope parentScope = true) :
    (requireParentScope parentScope : GuardCall σ S V Unit).Returns [] () := by
  unfold requireParentScope
  rw [if_neg (by simp [h])]
  exact Call.returns_pure

theorem verifyParent_returns {parentAuth : JsValue} {now : JsNumber} {keySets : List KeySet}
    {authorities : Option (List AuthorizationAuthority)}
    (h : StrictlyVerified H cfg now keySets authorities parentAuth) :
    (verifyParent H parentAuth (strictOptions cfg now keySets authorities) now :
      GuardCall σ S V Unit).Returns [] () := by
  obtain ⟨r, hr, hok⟩ := h
  refine (returning_returns hr).bind ?_
  rw [if_neg (by simp [status_of_ok hr hok])]
  exact Call.returns_pure

theorem chainTrust_returns {parentTrust : List KeySet} {configured : Option TrustedKeySets} :
    (chainTrust cfg parentTrust : GuardCall σ S V (Option TrustedKeySets)).Returns
      (if cfg.revocation.isSome then [] else [⟨.configuredKeySets, configured⟩])
      (if cfg.revocation.isSome then some (.many parentTrust) else configured) := by
  unfold chainTrust
  cases cfg.revocation with
  | none => exact Call.returns_request
  | some revocation => exact Call.returns_pure

theorem delegationMessages_of_holds {now : JsNumber} {keySets : Option TrustedKeySets} {intent : JsValue}
    {amount : ℤ} {input : DelegationInput} {r : VerificationResult} {effective : DelegationScope}
    (hr : verifyDelegationChain H now input.delegation input.parentAuth
      (chainOptions cfg now keySets intent input.parentScope) = .ok r) (hok : r.ok = true)
    (hscope : (input.delegation.field (js "scope")).isTruthy = true)
    (heff : resolveEffectiveChildScope (input.delegation.field (js "scope")) input.parentScope = .ok effective)
    (hwithin : WithinScope action effective amount) :
    delegationMessages H cfg now keySets action intent amount input = .ok [] := by
  have htools : toolMessages effective action = .ok [] := by
    unfold toolMessages
    by_cases hundef : effective.tools.isUndefined = true
    · rw [if_pos hundef]
    · rw [if_neg hundef, hwithin.tools (by simpa using hundef)]
      rfl
  have hamount : amountMessages effective amount = [] := by
    unfold amountMessages
    rw [if_neg]
    intro hboth
    rw [Bool.and_eq_true] at hboth
    rw [hwithin.amount (by simpa using hboth.1)] at hboth
    cases hboth.2
  refine bind_eq_ok.mpr ⟨r, hr, bind_eq_ok.mpr ⟨effective, heff, bind_eq_ok.mpr ⟨[], htools, ?_⟩⟩⟩
  rw [hamount, hok, hscope]
  rfl

theorem verifyChain_returns {now : JsNumber} {keySets : Option TrustedKeySets} {intent : JsValue}
    {amount : ℤ} {input : DelegationInput}
    (h : delegationMessages H cfg now keySets action intent amount input = .ok []) :
    (verifyChain H cfg now keySets action intent amount input : GuardCall σ S V Unit).Returns [] () := by
  refine (returning_returns h).bind ?_
  rw [if_neg (by simp)]
  exact Call.returns_pure

theorem has_of_field_ne {v : JsValue} {key : JsString} (h : v.field key ≠ .undefined) : v.has key = true := by
  unfold JsValue.has
  unfold JsValue.field at h
  cases hentry : ownEntry key v.entries with
  | none => rw [hentry] at h; exact absurd rfl h
  | some w => rfl

theorem requireActive_returns {result : JsValue} (hrecord : result.isRecord = true)
    (hactive : result.field (js "status") = .str (js "ACTIVE")) :
    (requireActive result : GuardCall σ S V Unit).Returns [] () := by
  have hhas : result.has (js "status") = true := has_of_field_ne (by rw [hactive]; nofun)
  have hne : js "ACTIVE" ≠ js "REVOKED" := by decide
  unfold requireActive
  rw [hactive, if_neg (by simp [hrecord, hhas]), if_neg (by simp [JsValue.isText, hne]),
    if_neg (by simp [JsValue.isText])]
  exact Call.returns_pure

theorem checkDelegationRevocation_returns {delegation status : JsValue}
    (hprovider : cfg.requireDelegationRevocation = true → cfg.delegationRevocationProvider = true)
    (hactive : cfg.delegationRevocationProvider = true →
      status.isRecord = true ∧ status.field (js "status") = .str (js "ACTIVE")) :
    (checkDelegationRevocation cfg delegation : GuardCall σ S V Unit).Returns
      (if cfg.delegationRevocationProvider then
        [⟨.checkDelegation (revocationRequest delegation), .ok (.value status)⟩] else []) () := by
  refine Call.returns_modify_bind ?_
  by_cases hp : cfg.delegationRevocationProvider = true
  · rw [if_pos hp, if_pos hp]
    obtain ⟨hrecord, htext⟩ := hactive hp
    exact Call.returns_request_bind (requireActive_returns hrecord htext)
  · have hreq : ¬ cfg.requireDelegationRevocation = true := fun hreq => hp (hprovider hreq)
    rw [if_neg hp, if_neg hp, if_neg hreq]
    exact Call.returns_pure

theorem confirmParentKid_returns {now : JsNumber} {keySets confirmTrust : List KeySet}
    {authorities : Option (List AuthorizationAuthority)} {parentAuth : JsValue} {kid : JsString}
    (htrust : TrustHolds H cfg confirmTrust) (hkid : resolveAuthorizationSigningKid parentAuth = some kid)
    (h : StrictlyVerified H cfg now (pinKeySet confirmTrust (parentAuth.field (js "issuer")) kid) authorities
      parentAuth) :
    (confirmParentKid H cfg (strictOptions cfg now keySets authorities) now parentAuth :
      GuardCall σ S V JsString).Returns [⟨.trustedKeySets, confirmTrust⟩] kid := by
  have hconfirmed : parentKidConfirmed H (strictOptions cfg now keySets authorities) now confirmTrust
      parentAuth kid = true := by
    obtain ⟨r, hr, hok⟩ := h
    have hpinned : verifyAuthorization H now parentAuth { strictOptions cfg now keySets authorities with
        trustedKeySets := some (.many (pinKeySet confirmTrust (parentAuth.field (js "issuer")) kid)) } = .ok r := hr
    unfold parentKidConfirmed
    rw [hpinned]
    exact decide_eq_true (status_of_ok hr hok)
  refine (validatedTrust_returns htrust).bind ?_
  rw [hkid, Option.filter_some, if_pos hconfirmed]
  exact Call.returns_pure

theorem checkSigningKeys_returns {now : JsNumber} {keySets confirmTrust : List KeySet}
    {authorities : Option (List AuthorizationAuthority)} {input : DelegationInput}
    {evidence : ProviderAnswer × KrlWatermarkStore}
    (h : ∀ revocation, cfg.revocation = some revocation → TrustHolds H cfg confirmTrust ∧
      ∃ kid, resolveAuthorizationSigningKid input.parentAuth = some kid ∧
        StrictlyVerified H cfg now (pinKeySet confirmTrust (input.parentAuth.field (js "issuer")) kid)
          authorities input.parentAuth ∧
        evaluateRevocation H revocation now (keysInUse input kid) evidence.2 evidence.1 = none) :
    (checkSigningKeys H cfg (strictOptions cfg now keySets authorities) now input :
      GuardCall σ S V Unit).Returns (if cfg.revocation.isSome then
        [⟨.trustedKeySets, confirmTrust⟩, ⟨.revocationEvidence, evidence⟩] else []) () := by
  unfold checkSigningKeys
  cases hcfg : cfg.revocation with
  | none => exact Call.returns_pure
  | some revocation =>
    obtain ⟨htrust, kid, hkid, hverified, hnone⟩ := h revocation hcfg
    refine (confirmParentKid_returns htrust hkid hverified).bind (Call.returns_request_bind ?_)
    rw [hnone]
    exact Call.returns_pure

theorem delegationPath_asks {d : DelegatedCall S V} (h : d.Cleared H cfg action delegationInput) :
    (delegationPath H cfg action delegationInput d.intent : GuardCall σ S V JsValue).Asks
      ([⟨.clock, d.now⟩, ⟨.trustedKeySets, d.keySets⟩] ++
        ((if cfg.revocation.isSome then [] else [⟨.configuredKeySets, d.chainKeySets⟩]) ++
        ((if cfg.delegationRevocationProvider then
          [⟨.checkDelegation (revocationRequest d.input.delegation), .ok (.value d.status)⟩] else []) ++
        ((if cfg.revocation.isSome then
          [⟨.trustedKeySets, d.confirmKeySets⟩, ⟨.revocationEvidence, d.evidence⟩] else []) ++
        ((if cfg.consumesDelegationIds then
          [⟨.consumeDelegationId (d.input.delegation.field (js "delegation_id"))
            (d.input.delegation.field (js "expiry")), .ok (.bool true)⟩] else []) ++
        ([⟨.consumeAuthId (d.input.parentAuth.field (js "auth_id")) (d.input.parentAuth.field (js "expiry")),
          .ok (.bool true)⟩] ++ gateHistory cfg action d.input.parentAuth)))))) .execute := by
  obtain ⟨snapshot, hsnapshot, hparts⟩ := h.snapshot
  obtain ⟨r, hr, hok⟩ := h.chain
  obtain ⟨htruthy, effective, heff, hwithin⟩ := h.scope
  have hmessages := delegationMessages_of_holds hr hok htruthy heff hwithin
  refine Call.asks_modify_bind ((delegatedAmount_returns h.amount.1 h.amount.2).asks
    ((snapshotDelegation_returns hsnapshot hparts h.complete).asks
    ((requireAuthorities_returns h.authorities).asks (Call.asks_request_bind
    ((requireParentScope_returns h.parentScope).asks ((validatedTrust_returns h.trust).asks
    ((verifyParent_returns h.parent).asks ?_)))))))
  exact chainTrust_returns.asks ((verifyChain_returns hmessages).asks
    ((checkDelegationRevocation_returns h.unrevoked.provider h.unrevoked.active).asks
    ((checkSigningKeys_returns h.unrevoked.keys).asks (consumeDelegation_returns.asks
    (consumeParent_returns.asks gate_asks)))))

theorem guardCall_asks_delegated {d : DelegatedCall S V} (hdelegated : delegationInput.isTruthy = true)
    (h : d.Cleared H cfg action delegationInput) :
    Async.Asks (guardCall H cfg action delegationInput : Prog σ (GuardRequest S V) GuardAnswer _)
      (d.consumed cfg action ++ gateHistory cfg action d.input.parentAuth) .execute := by
  have hnull : d.intent.isNullish = false := by
    obtain ⟨text, -, htext⟩ := JsValue.hasText_iff.mp h.agent
    cases hintent : d.intent with
    | null => rw [hintent] at htext; cases htext
    | undefined => rw [hintent] at htext; cases htext
    | _ => rfl
  have hrun : (runRequest H cfg action delegationInput : GuardCall σ S V JsValue).Asks
      (d.consumed cfg action ++ gateHistory cfg action d.input.parentAuth) .execute := by
    simp only [DelegatedCall.consumed, DelegatedCall.delegationConsumed, DelegatedCall.cleared,
      DelegatedCall.presented, loadedHistory, List.append_assoc]
    refine loadState_returns.asks ((normalizeAction_returns hnull fun _ => h.agent).asks ?_)
    rw [if_pos hdelegated]
    exact delegationPath_asks h
  obtain ⟨next, hpath⟩ := hrun (createLifecycle .stateLoad)
  exact ⟨_, hpath.bind _⟩

end

end OxDeAI
