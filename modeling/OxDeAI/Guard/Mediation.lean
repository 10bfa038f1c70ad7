import OxDeAI.Guard.DelegationPath
import OxDeAI.Verification.DelegationChain

/-! Complete mediation: what a guard call has asked and been answered before it
consumes an identifier, commits a state, or executes. -/

namespace OxDeAI

open Js Async

section

variable {S V : Type} (H : Host) (cfg : GuardConfig) (action delegationInput : JsValue)

/-- The strict verifier accepts under these keys. -/
def StrictlyVerified (now : JsNumber) (keySets : List KeySet)
    (authorities : Option (List AuthorizationAuthority)) (authorization : JsValue) : Prop :=
  ∃ r, verifyAuthorization H now authorization (strictOptions cfg now keySets authorities) = .ok r ∧ r.ok = true

/-- Under revocation, the key sets passed the validation. -/
def TrustHolds (keySets : List KeySet) : Prop :=
  ∀ revocation, cfg.revocation = some revocation →
    validatedTrustSnapshot H (krlKeyIdentities H revocation.trustedKrlKeySets) keySets = .ok keySets

def loadedHistory (state : S) (version : V) (intent : JsValue) : GuardHistory S V :=
  [⟨.getState, .ok (.value (some (state, some version)))⟩, ⟨.normalize action, .ok intent⟩]

/-- The answers of the standard path, up to the binding of the state. -/
structure IssuedCall (S V : Type) where
  state : S
  version : V
  intent : JsValue
  evaluationTime : JsNumber
  result : EngineResult S
  nextState : S
  now : JsNumber
  keySets : List KeySet
  stateHash : JsValue

namespace IssuedCall

variable (c : IssuedCall S V)

def authorization : JsValue := c.result.authorization

def evaluated : GuardHistory S V := loadedHistory action c.state c.version c.intent ++
  [⟨.clock, c.evaluationTime⟩, ⟨.evaluatePure c.intent c.state c.evaluationTime, .ok (some c.result)⟩]

def bound : GuardHistory S V := c.evaluated action ++
  [⟨.clock, c.now⟩, ⟨.trustedKeySets, c.keySets⟩, ⟨.computeStateHash c.state, .ok c.stateHash⟩]

/-- What is consumed is the identifier that the authorization has by then. -/
def consumed (live : LiveObjects := {}) : GuardHistory S V := c.bound action ++
  [⟨.consumeAuthId ((live.consumed c.authorization).field (js "auth_id"))
    (consumeExpiry (live.consumed c.authorization)), .ok (.bool true)⟩]

def committed (answer : JsValue) (live : LiveObjects := {}) : GuardHistory S V := c.consumed action live ++
  [⟨.setState c.nextState c.version, .ok answer⟩]

end IssuedCall

def gateHistory (authorization : JsValue) : GuardHistory S V :=
  if cfg.beforeExecute then [⟨.beforeExecute action authorization, .ok ()⟩] else []

/-- The engine did not deny, and gave an authorization and a next state. -/
structure Permits (result : EngineResult S) (nextState : S) : Prop where
  notDenied : result.decision.isText (js "DENY") = false
  authorization : result.authorization.isTruthy = true
  nextState : result.nextState = some nextState

/-- The authorization is verified and bound to the intent, as it reads by then, and to the
state of the call. -/
structure IssuedCall.Bound (c : IssuedCall S V) (live : LiveObjects := {}) : Prop where
  intent : c.intent.isNullish = false
  permits : Permits c.result c.nextState
  trust : TrustHolds H cfg c.keySets
  verified : StrictlyVerified H cfg c.now c.keySets none c.authorization
  intentHash : ∃ intent hash, live.evaluated c.intent = .ok intent ∧ intentHashOf H.toPlatform intent = .ok hash ∧
    c.authorization.field (js "intent_hash") = .str hash
  stateHash : ∃ hash, c.stateHash = .str hash ∧ c.authorization.field (js "state_hash") = .str hash

/-- The answers of the delegation path, up to the checks of revocation. -/
structure DelegatedCall (S V : Type) where
  state : S
  version : V
  intent : JsValue
  amount : ℤ
  input : DelegationInput
  authorities : List AuthorizationAuthority
  now : JsNumber
  keySets : List KeySet
  chainKeySets : Option TrustedKeySets
  status : JsValue
  confirmKeySets : List KeySet
  evidence : ProviderAnswer × KrlWatermarkStore

namespace DelegatedCall

variable (d : DelegatedCall S V)

def presented : GuardHistory S V := loadedHistory action d.state d.version d.intent ++
  [⟨.clock, d.now⟩, ⟨.trustedKeySets, d.keySets⟩] ++
  (if cfg.revocation.isSome then [] else [⟨.configuredKeySets, d.chainKeySets⟩])

def cleared : GuardHistory S V := d.presented cfg action ++
  (if cfg.delegationRevocationProvider then
    [⟨.checkDelegation (revocationRequest d.input.delegation), .ok (.value d.status)⟩] else []) ++
  (if cfg.revocation.isSome then
    [⟨.trustedKeySets, d.confirmKeySets⟩, ⟨.revocationEvidence, d.evidence⟩] else [])

def delegationConsumed : GuardHistory S V := d.cleared cfg action ++
  (if cfg.consumesDelegationIds then
    [⟨.consumeDelegationId (d.input.delegation.field (js "delegation_id"))
      (d.input.delegation.field (js "expiry")), .ok (.bool true)⟩] else [])

def consumed : GuardHistory S V := d.delegationConsumed cfg action ++
  [⟨.consumeAuthId (d.input.parentAuth.field (js "auth_id")) (d.input.parentAuth.field (js "expiry")),
    .ok (.bool true)⟩]

end DelegatedCall

/-- The action's name is among the effective tools, and its amount within the limit. -/
structure WithinScope (effective : DelegationScope) (amount : ℤ) : Prop where
  tools : effective.tools.isUndefined = false →
    includesName effective.tools (action.field (js "name")) = .ok true
  amount : effective.maxAmount.isUndefined = false → exceeds (.bigint amount) effective.maxAmount = false

/-- Every revocation check that is configured passed. -/
structure DelegatedCall.Unrevoked (d : DelegatedCall S V) : Prop where
  provider : cfg.requireDelegationRevocation = true → cfg.delegationRevocationProvider = true
  active : cfg.delegationRevocationProvider = true →
    d.status.isRecord = true ∧ d.status.field (js "status") = .str (js "ACTIVE")
  keys : ∀ revocation, cfg.revocation = some revocation → TrustHolds H cfg d.confirmKeySets ∧
    ∃ kid, resolveAuthorizationSigningKid d.input.parentAuth = some kid ∧
      StrictlyVerified H cfg d.now (pinKeySet d.confirmKeySets (d.input.parentAuth.field (js "issuer")) kid)
        (some d.authorities) d.input.parentAuth ∧
      evaluateRevocation H revocation d.now (keysInUse d.input kid) d.evidence.2 d.evidence.1 = none

/-- The parent is verified and authorized, the chain and the scope hold, and nothing
is revoked. -/
structure DelegatedCall.Cleared (d : DelegatedCall S V) : Prop where
  agent : (d.intent.field (js "agent_id")).hasText = true
  snapshot : ∃ snapshot, snapshotPlainData delegationInput (js "delegation input") = .ok snapshot ∧
    d.input = ⟨snapshot.field (js "delegation"), snapshot.field (js "parentAuth"),
      snapshot.field (js "parentScope")⟩
  complete : d.input.delegation.isTruthy = true ∧ d.input.parentAuth.isTruthy = true
  amount : d.intent.field (js "amount") = .bigint d.amount ∧ 0 ≤ d.amount
  authorities : cfg.trustedDelegationAuthorities = some d.authorities
  parentScope : isValidDelegationScope d.input.parentScope = true
  trust : TrustHolds H cfg d.keySets
  parent : StrictlyVerified H cfg d.now d.keySets (some d.authorities) d.input.parentAuth
  chain : ∃ r, verifyDelegationChain H d.now d.input.delegation d.input.parentAuth
    (chainOptions cfg d.now (if cfg.revocation.isSome then some (.many d.keySets) else d.chainKeySets) d.intent
      d.input.parentScope) = .ok r ∧ r.ok = true
  scope : (d.input.delegation.field (js "scope")).isTruthy = true ∧ ∃ effective,
    resolveEffectiveChildScope (d.input.delegation.field (js "scope")) d.input.parentScope = .ok effective ∧
      WithinScope action effective d.amount
  unrevoked : d.Unrevoked H cfg

/-- What has come before each request that consumes, commits or executes, when objects
may be rewritten while the guard holds them. -/
def MediatedUnder (live : LiveObjects) (evs : GuardHistory S V) : GuardRequest S V → Prop
  | .consumeAuthId authId expiry =>
    (delegationInput.isTruthy = false ∧ ∃ c : IssuedCall S V, c.Bound H cfg live ∧ evs = c.bound action ∧
      authId = (live.consumed c.authorization).field (js "auth_id") ∧
        expiry = consumeExpiry (live.consumed c.authorization)) ∨
    (delegationInput.isTruthy = true ∧ ∃ d : DelegatedCall S V,
      d.Cleared H cfg (live.normalized action) delegationInput ∧ evs = d.delegationConsumed cfg action ∧
        authId = d.input.parentAuth.field (js "auth_id") ∧ expiry = d.input.parentAuth.field (js "expiry"))
  | .consumeDelegationId delegationId expiry =>
    delegationInput.isTruthy = true ∧ ∃ d : DelegatedCall S V,
      d.Cleared H cfg (live.normalized action) delegationInput ∧ evs = d.cleared cfg action ∧
        delegationId = d.input.delegation.field (js "delegation_id") ∧
          expiry = d.input.delegation.field (js "expiry")
  | .setState nextState version =>
    delegationInput.isTruthy = false ∧ ∃ c : IssuedCall S V, c.Bound H cfg live ∧ evs = c.consumed action live ∧
      nextState = c.nextState ∧ version = c.version
  | .execute =>
    (delegationInput.isTruthy = false ∧ ∃ (c : IssuedCall S V) (answer : JsValue), c.Bound H cfg live ∧
      answer.isTruthy = true ∧ evs = c.committed action answer live ++
        gateHistory cfg (live.normalized action) (live.committed c.authorization)) ∨
    (delegationInput.isTruthy = true ∧ ∃ d : DelegatedCall S V,
      d.Cleared H cfg (live.normalized action) delegationInput ∧
        evs = d.consumed cfg action ++ gateHistory cfg (live.normalized action) d.input.parentAuth)
  | _ => True

/-- What has come before each request that consumes, commits or executes, when nothing is
rewritten. -/
def Mediated : GuardHistory S V → GuardRequest S V → Prop := MediatedUnder H cfg action delegationInput {}

end

section

variable {σ S V α : Type} {H : Host} {cfg : GuardConfig} {action delegationInput : JsValue} {live : LiveObjects}
  {allowed : GuardHistory S V → GuardRequest S V → Prop} {evs : GuardHistory S V}

/-- Requests that no condition is put on. -/
def GuardRequest.isFree : GuardRequest S V → Bool
  | .evaluatePure _ _ _ | .consumeAuthId _ _ | .consumeDelegationId _ _ | .setState _ _ | .execute => false
  | _ => true

def AllowsFree (allowed : GuardHistory S V → GuardRequest S V → Prop) : Prop :=
  ∀ evs i, i.isFree = true → allowed evs i

theorem mediatedUnder_free : AllowsFree (S := S) (V := V) (MediatedUnder H cfg action delegationInput live) := by
  intro evs i hi
  cases i <;> trivial

theorem returning_bind_follows {β : Type} {x : Except JsError α} {k : α → GuardCall σ S V β}
    {post : β → GuardHistory S V → Prop} (h : ∀ a, x = .ok a → (k a).Follows allowed evs post) :
    ((returning x : GuardCall σ S V α) >>= k).Follows allowed evs post := by
  cases x with
  | error e => exact fun t => Async.follows_pure nofun
  | ok a => exact h a rfl

theorem passOnAs_follows {err : CallbackError} {note : BoundaryAnnotation}
    {post : α → GuardHistory S V → Prop} (hfree : AllowsFree allowed) :
    (passOnAs err note : GuardCall σ S V α).Follows allowed evs post := by
  unfold passOnAs
  cases err.identity with
  | none => exact Call.follows_throw
  | some identity => exact Call.follows_request_bind (hfree _ _ rfl) fun _ => Call.follows_throw

theorem shown_follows {err : CallbackError} {k : JsString → GuardCall σ S V α} {post : α → GuardHistory S V → Prop}
    (h : ∀ text, (k text).Follows allowed evs post) : (shown err k : GuardCall σ S V α).Follows allowed evs post := by
  unfold shown
  cases err.showing with
  | none => exact h _
  | some thrown => exact Call.follows_throw

theorem fireDecision_follows {record : GuardDecisionRecord} (hfree : AllowsFree allowed) :
    (fireDecision cfg record : GuardCall σ S V Unit).Follows allowed evs (fun _ _ => True) := by
  unfold fireDecision
  split
  · exact Call.follows_request_bind (hfree _ _ rfl) fun _ => Call.follows_pure trivial
  · exact Call.follows_pure trivial

theorem loadState_follows (hfree : AllowsFree allowed) :
    (loadState : GuardCall σ S V (S × V)).Follows allowed evs (fun loaded evs' =>
      evs' = evs ++ [⟨.getState, .ok (.value (some (loaded.1, some loaded.2)))⟩]) := by
  refine Call.follows_request_bind (hfree _ _ rfl) fun answer => ?_
  rcases answer with err | (_ | _ | ⟨state, _ | version⟩)
  · exact Call.follows_throw
  · exact Call.follows_throw
  · exact Call.follows_throw
  · exact Call.follows_throw
  · exact Call.follows_pure rfl

theorem rejectNormalization_follows {err : CallbackError} {post : α → GuardHistory S V → Prop}
    (hfree : AllowsFree allowed) :
    (rejectNormalization err : GuardCall σ S V α).Follows allowed evs post := by
  unfold rejectNormalization
  split
  · exact Call.follows_throw
  · exact passOnAs_follows hfree
  · exact passOnAs_follows hfree
  · exact shown_follows fun _ => Call.follows_throw

theorem normalizeAction_follows (hfree : AllowsFree allowed) :
    (normalizeAction action delegationInput : GuardCall σ S V JsValue).Follows allowed evs (fun intent evs' =>
      evs' = evs ++ [⟨.normalize action, .ok intent⟩] ∧ intent.isNullish = false ∧
        (delegationInput.isTruthy = true → (intent.field (js "agent_id")).hasText = true)) := by
  refine Call.follows_modify_bind (Call.follows_request_bind (hfree _ _ rfl) fun answer => ?_)
  cases answer with
  | error err => exact rejectNormalization_follows hfree
  | ok intent =>
    dsimp only
    split
    · exact Call.follows_throw
    · rename_i hagent
      split
      · exact Call.follows_throw
      · rename_i hnull
        refine Call.follows_modify_bind (Call.follows_pure ⟨rfl, by simpa using hnull, fun hdelegated => ?_⟩)
        simpa [hdelegated] using hagent

theorem validatedTrust_follows {stage : GuardBoundaryStage} (hfree : AllowsFree allowed) :
    (validatedTrust H cfg stage : GuardCall σ S V (List KeySet)).Follows allowed evs (fun keySets evs' =>
      evs' = evs ++ [⟨.trustedKeySets, keySets⟩] ∧ TrustHolds H cfg keySets) := by
  refine Call.follows_request_bind (hfree _ _ rfl) fun live => ?_
  unfold TrustHolds
  cases hcfg : cfg.revocation with
  | none => exact Call.follows_pure ⟨rfl, nofun⟩
  | some revocation =>
    dsimp only
    split
    · exact Call.follows_throw
    · rename_i keySets hsnap
      obtain rfl := validatedTrustSnapshot_eq hsnap
      refine Call.follows_pure ⟨rfl, fun _ h => ?_⟩
      obtain rfl := Option.some.inj h
      exact hsnap

theorem evaluatePolicy_follows {intent : JsValue} {state : S} (hfree : AllowsFree allowed)
    (hevaluate : ∀ t, allowed (evs ++ [⟨.clock, t⟩]) (.evaluatePure intent state t)) :
    (evaluatePolicy intent state : GuardCall σ S V (EngineResult S)).Follows allowed evs (fun result evs' =>
      ∃ t, evs' = evs ++ [⟨.clock, t⟩, ⟨.evaluatePure intent state t, .ok (some result)⟩]) := by
  refine Call.follows_modify_bind (Call.follows_request_bind (hfree _ _ rfl) fun t => ?_)
  refine Call.follows_request_bind (hevaluate t) fun answer => ?_
  rcases answer with err | (_ | result)
  · exact shown_follows fun _ => Call.follows_throw
  · exact Call.follows_modify_bind Call.follows_throw
  · exact Call.follows_modify_bind (Call.follows_pure ⟨t, by simp⟩)

theorem requireAuthorization_follows {result : EngineResult S} (hfree : AllowsFree allowed) :
    (requireAuthorization cfg action result : GuardCall σ S V S).Follows allowed evs (fun nextState evs' =>
      evs' = evs ∧ Permits result nextState) := by
  unfold requireAuthorization
  split
  · unfold denyPolicy
    split
    · exact Call.follows_throw
    · exact (fireDecision_follows hfree).bind fun _ _ _ => Call.follows_throw
  · rename_i hdeny
    split
    · exact Call.follows_throw
    · rename_i hauth
      split
      · exact Call.follows_throw
      · rename_i nextState hnext
        exact Call.follows_modify_bind (Call.follows_pure
          ⟨rfl, by simpa using hdeny, by simpa using hauth, hnext⟩)

theorem ok_of_violations_nil {clock : JsNumber} {delegation parent : JsValue}
    {opts : VerifyDelegationOptions} {r : VerificationResult}
    (h : verifyDelegationChain H clock delegation parent opts = .ok r) (hnil : r.violations = []) :
    r.ok = true := by
  have hresult : ∀ violations, (resultOf delegation violations).violations = [] →
      (resultOf delegation violations).ok = true := by
    intro violations hv
    refine decide_eq_true (List.eq_nil_iff_forall_not_mem.mpr fun v hmem => ?_)
    have hsorted : v ∈ sortViolations violations := mem_sortViolations.mpr hmem
    rw [show sortViolations violations = [] from hv] at hsorted
    cases hsorted
  unfold verifyDelegationChain at h
  split at h
  · cases h
  · split at h
    · obtain rfl := Except.ok.inj h
      cases hnil
    · split at h
      · cases h
      · cases hhash : checkParentHash H delegation parent with
        | error e =>
          rw [hhash] at h
          cases h
        | ok hashIssues =>
          rw [hhash, Except.bind] at h
          dsimp only at h
          split at h
          · obtain rfl := Except.ok.inj h
            exact hresult _ hnil
          · unfold verifyDelegation verifyDelegationBy at h
            dsimp only at h
            split at h
            · cases h
            · split at h
              · cases h
              · obtain ⟨scopeIssues, -, rfl⟩ := map_eq_ok.mp h
                exact hresult _ hnil

theorem strictlyVerified_of_status {now : JsNumber} {keySets : List KeySet}
    {authorities : Option (List AuthorizationAuthority)} {authorization : JsValue}
    {r : AuthorizationVerificationResult}
    (h : verifyAuthorization H now authorization (strictOptions cfg now keySets authorities) = .ok r)
    (hstatus : r.status = .ok) : StrictlyVerified H cfg now keySets authorities authorization :=
  ⟨r, h, ok_of_status h hstatus⟩

theorem verifyIssued_follows {authorization : JsValue} (hfree : AllowsFree allowed) :
    (verifyIssued H cfg authorization : GuardCall σ S V Unit).Follows allowed evs (fun _ evs' =>
      ∃ now keySets, evs' = evs ++ [⟨.clock, now⟩, ⟨.trustedKeySets, keySets⟩] ∧
        TrustHolds H cfg keySets ∧ StrictlyVerified H cfg now keySets none authorization) := by
  refine Call.follows_modify_bind (Call.follows_request_bind (hfree _ _ rfl) fun now => ?_)
  refine (validatedTrust_follows hfree).bind fun keySets _ htrust => ?_
  obtain ⟨rfl, htrust⟩ := htrust
  refine returning_bind_follows fun r hr => ?_
  split
  · exact Call.follows_throw
  · rename_i hstatus
    exact Call.follows_pure ⟨now, keySets, by simp, htrust, strictlyVerified_of_status hr (by simpa using hstatus)⟩

theorem bindIntent_follows {authorization : JsValue} {read : Except CallbackError JsValue} :
    (bindIntent H authorization read : GuardCall σ S V Unit).Follows allowed evs (fun _ evs' =>
      evs' = evs ∧ ∃ intent hash, read = .ok intent ∧ intentHashOf H.toPlatform intent = .ok hash ∧
        authorization.field (js "intent_hash") = .str hash) := by
  cases read with
  | error err => exact shown_follows fun _ => Call.follows_throw
  | ok intent =>
    unfold bindIntent
    dsimp only
    split
    · exact Call.follows_throw
    · rename_i hash hhash
      split
      · exact Call.follows_throw
      · rename_i hsame
        have htext : (authorization.field (js "intent_hash")).isText hash = true := by simpa using hsame
        exact Call.follows_pure ⟨rfl, intent, hash, rfl, hhash, JsValue.isText_iff.mp htext⟩

theorem bindState_follows {state : S} {authorization : JsValue} (hfree : AllowsFree allowed) :
    (bindState state authorization : GuardCall σ S V Unit).Follows allowed evs (fun _ evs' =>
      ∃ actual, evs' = evs ++ [⟨.computeStateHash state, .ok actual⟩] ∧
        actual.strictEquals (authorization.field (js "state_hash")) = true) := by
  unfold bindState
  split
  · exact Call.follows_throw
  · refine Call.follows_request_bind (hfree _ _ rfl) fun answer => ?_
    cases answer with
    | error err => exact shown_follows fun _ => Call.follows_throw
    | ok actual =>
      dsimp only
      split
      · exact Call.follows_throw
      · rename_i hsame
        exact Call.follows_pure ⟨actual, rfl, by simpa using hsame⟩

theorem requireConsumed_follows {texts : ConsumeTexts} {answer : Except CallbackError JsValue} :
    (requireConsumed texts answer : GuardCall σ S V Unit).Follows allowed evs (fun _ evs' =>
      evs' = evs ∧ answer = .ok (.bool true)) := by
  unfold requireConsumed
  split
  · exact shown_follows fun _ => Call.follows_throw
  · exact Call.follows_pure ⟨rfl, rfl⟩
  · exact Call.follows_throw
  · exact Call.follows_throw

theorem consumeIssued_follows {authorization : JsValue}
    (h : allowed evs (.consumeAuthId (authorization.field (js "auth_id")) (consumeExpiry authorization))) :
    (consumeIssued authorization : GuardCall σ S V Unit).Follows allowed evs (fun _ evs' =>
      evs' = evs ++ [⟨.consumeAuthId (authorization.field (js "auth_id")) (consumeExpiry authorization),
        .ok (.bool true)⟩]) := by
  refine Call.follows_request_bind h fun answer => ?_
  refine requireConsumed_follows.bind fun _ evs' hconsumed => ?_
  obtain ⟨rfl, rfl⟩ := hconsumed
  exact Call.follows_modify rfl

theorem consumeParent_follows {parentAuth : JsValue}
    (h : allowed evs (.consumeAuthId (parentAuth.field (js "auth_id")) (parentAuth.field (js "expiry")))) :
    (consumeParent parentAuth : GuardCall σ S V Unit).Follows allowed evs (fun _ evs' =>
      evs' = evs ++ [⟨.consumeAuthId (parentAuth.field (js "auth_id")) (parentAuth.field (js "expiry")),
        .ok (.bool true)⟩]) := by
  refine Call.follows_request_bind h fun answer => ?_
  refine requireConsumed_follows.bind fun _ evs' hconsumed => ?_
  obtain ⟨rfl, rfl⟩ := hconsumed
  exact Call.follows_modify rfl

theorem consumeDelegation_follows {delegation : JsValue}
    (h : allowed evs (.consumeDelegationId (delegation.field (js "delegation_id"))
      (delegation.field (js "expiry")))) :
    (consumeDelegation cfg delegation : GuardCall σ S V Unit).Follows allowed evs (fun _ evs' =>
      evs' = evs ++ (if cfg.consumesDelegationIds then
        [⟨.consumeDelegationId (delegation.field (js "delegation_id")) (delegation.field (js "expiry")),
          .ok (.bool true)⟩] else [])) := by
  unfold consumeDelegation
  by_cases hc : cfg.consumesDelegationIds = true
  · rw [if_pos hc, if_pos hc]
    refine Call.follows_request_bind h fun answer => ?_
    refine requireConsumed_follows.bind fun _ evs' hconsumed => ?_
    obtain ⟨rfl, rfl⟩ := hconsumed
    exact Call.follows_modify rfl
  · rw [if_neg hc, if_neg hc]
    exact Call.follows_pure (List.append_nil _).symm

theorem commitState_follows {nextState : S} {version : V} (h : allowed evs (.setState nextState version)) :
    (commitState nextState version : GuardCall σ S V Unit).Follows allowed evs (fun _ evs' =>
      ∃ answer : JsValue, answer.isTruthy = true ∧
        evs' = evs ++ [⟨.setState nextState version, .ok answer⟩]) := by
  refine Call.follows_modify_bind (Call.follows_request_bind h fun answer => ?_)
  cases answer with
  | error err => exact Call.follows_throw
  | ok answer =>
    dsimp only
    split
    · exact Call.follows_throw
    · rename_i htruthy
      exact Call.follows_modify ⟨answer, by simpa using htruthy, rfl⟩

theorem passGate_follows {authorization : JsValue} (hfree : AllowsFree allowed) :
    (passGate cfg action authorization : GuardCall σ S V Unit).Follows allowed evs (fun _ evs' =>
      evs' = evs ++ gateHistory cfg action authorization) := by
  refine Call.follows_modify_bind ?_
  unfold gateHistory
  by_cases hb : cfg.beforeExecute = true
  · rw [if_pos hb, if_pos hb]
    refine Call.follows_request_bind (hfree _ _ rfl) fun answer => ?_
    cases answer with
    | error err => exact Call.follows_throw
    | ok u => exact Call.follows_pure rfl
  · rw [if_neg hb, if_neg hb]
    exact Call.follows_pure (List.append_nil _).symm

theorem runExecute_follows {record : GuardDecisionRecord} (hfree : AllowsFree allowed)
    (h : allowed evs .execute) :
    (runExecute cfg record : GuardCall σ S V JsValue).Follows allowed evs (fun _ _ => True) := by
  refine Call.follows_modify_bind (Call.follows_request_bind h fun answer => ?_)
  cases answer with
  | error err => exact Call.follows_throw
  | ok result => exact (fireDecision_follows hfree).bind fun _ _ _ => Call.follows_pure trivial

theorem strictlyVerified_iff {now : JsNumber} {keySets : List KeySet}
    {authorities : Option (List AuthorizationAuthority)} {authorization : JsValue} :
    StrictlyVerified H cfg now keySets authorities authorization ↔
      Verified H now defaultMaxFutureIssuedAtSkewSeconds (strictOptions cfg now keySets authorities)
        (fun kid => findKeyInKeySets keySets (authorization.field (js "issuer")) kid .ed25519) authorization :=
  verifyAuthorizationBy_accepts rfl rfl

/-- The standard path mediates, from a history that has loaded and normalized. -/
theorem standardPath_follows {state : S} {version : V} {intent : JsValue}
    (hstandard : delegationInput.isTruthy = false) (hnull : intent.isNullish = false) :
    (standardPath H cfg (live.normalized action) intent state version live : GuardCall σ S V JsValue).Follows
      (MediatedUnder H cfg action delegationInput live) (loadedHistory action state version intent)
      (fun _ _ => True) := by
  have hfree : AllowsFree (S := S) (V := V) (MediatedUnder H cfg action delegationInput live) := mediatedUnder_free
  refine (evaluatePolicy_follows hfree fun _ => trivial).bind fun result _ hevaluated => ?_
  obtain ⟨evaluationTime, rfl⟩ := hevaluated
  refine (requireAuthorization_follows hfree).bind fun nextState _ hpermits => ?_
  obtain ⟨rfl, hpermits⟩ := hpermits
  refine (verifyIssued_follows hfree).bind fun _ _ hverified => ?_
  obtain ⟨now, keySets, rfl, htrust, hverified⟩ := hverified
  refine bindIntent_follows.bind fun _ _ hintent => ?_
  obtain ⟨rfl, hintent⟩ := hintent
  refine (bindState_follows hfree).bind fun _ _ hstate => ?_
  obtain ⟨actual, rfl, hsame⟩ := hstate
  let c : IssuedCall S V :=
    ⟨state, version, intent, evaluationTime, result, nextState, now, keySets, actual⟩
  have hbound : c.Bound H cfg live := by
    refine ⟨hnull, hpermits, htrust, hverified, hintent, ?_⟩
    obtain ⟨hash, -, htext⟩ := JsValue.hasText_iff.mp (strictlyVerified_iff.mp hverified).stateHash
    rw [htext] at hsame
    exact ⟨hash, JsValue.strictEquals_str.mp hsame, htext⟩
  have hhistory : loadedHistory action state version intent ++
      [⟨.clock, evaluationTime⟩, ⟨.evaluatePure intent state evaluationTime, .ok (some result)⟩] ++
      [⟨.clock, now⟩, ⟨.trustedKeySets, keySets⟩] ++ [⟨.computeStateHash state, .ok actual⟩] =
        c.bound action := by
    simp [c, IssuedCall.bound, IssuedCall.evaluated]
  rw [hhistory]
  refine (consumeIssued_follows (.inl ⟨hstandard, c, hbound, rfl, rfl, rfl⟩)).bind fun _ _ hconsumed => ?_
  subst hconsumed
  refine (commitState_follows ⟨hstandard, c, hbound, rfl, rfl, rfl⟩).bind fun _ _ hcommitted => ?_
  obtain ⟨answer, htruthy, rfl⟩ := hcommitted
  refine (passGate_follows hfree).bind fun _ _ hgate => ?_
  subst hgate
  exact runExecute_follows hfree (.inl ⟨hstandard, c, answer, hbound, htruthy, rfl⟩)

theorem delegatedAmount_follows {intent : JsValue} :
    (delegatedAmount intent : GuardCall σ S V ℤ).Follows allowed evs (fun amount evs' =>
      evs' = evs ∧ intent.field (js "amount") = .bigint amount ∧ 0 ≤ amount) := by
  unfold delegatedAmount
  split
  · rename_i z hz
    split
    · exact Call.follows_throw
    · rename_i hneg
      exact Call.follows_pure ⟨rfl, hz, not_lt.mp hneg⟩
  · exact Call.follows_throw

theorem snapshotDelegation_follows :
    (snapshotDelegation delegationInput : GuardCall σ S V DelegationInput).Follows allowed evs
      (fun input evs' => evs' = evs ∧ ∃ snapshot,
        snapshotPlainData delegationInput (js "delegation input") = .ok snapshot ∧
        input = ⟨snapshot.field (js "delegation"), snapshot.field (js "parentAuth"),
          snapshot.field (js "parentScope")⟩ ∧
        input.delegation.isTruthy = true ∧ input.parentAuth.isTruthy = true) := by
  unfold snapshotDelegation
  split
  · exact Call.follows_throw
  · rename_i snapshot hsnap
    split
    · exact Call.follows_throw
    · rename_i hcomplete
      exact Call.follows_pure ⟨rfl, snapshot, hsnap, rfl, by simpa using hcomplete⟩

theorem requireAuthorities_follows :
    (requireAuthorities cfg : GuardCall σ S V (List AuthorizationAuthority)).Follows allowed evs
      (fun authorities evs' => evs' = evs ∧ cfg.trustedDelegationAuthorities = some authorities) := by
  unfold requireAuthorities
  split
  · exact Call.follows_throw
  · rename_i authorities hauth
    exact Call.follows_pure ⟨rfl, hauth⟩

theorem requireParentScope_follows {parentScope : JsValue} :
    (requireParentScope parentScope : GuardCall σ S V Unit).Follows allowed evs (fun _ evs' =>
      evs' = evs ∧ isValidDelegationScope parentScope = true) := by
  unfold requireParentScope
  split
  · exact Call.follows_throw
  · rename_i hvalid
    exact Call.follows_pure ⟨rfl, by simpa using hvalid⟩

theorem verifyParent_follows {parentAuth : JsValue} {now : JsNumber} {keySets : List KeySet}
    {authorities : Option (List AuthorizationAuthority)} :
    (verifyParent H parentAuth (strictOptions cfg now keySets authorities) now :
      GuardCall σ S V Unit).Follows allowed evs (fun _ evs' =>
        evs' = evs ∧ StrictlyVerified H cfg now keySets authorities parentAuth) := by
  refine returning_bind_follows fun r hr => ?_
  split
  · split
    · exact Call.follows_throw
    · exact Call.follows_throw
  · rename_i hstatus
    exact Call.follows_pure ⟨rfl, strictlyVerified_of_status hr (by simpa using hstatus)⟩

theorem chainTrust_follows {parentTrust : List KeySet} (hfree : AllowsFree allowed) :
    (chainTrust cfg parentTrust : GuardCall σ S V (Option TrustedKeySets)).Follows allowed evs
      (fun keySets evs' => ∃ configured,
        evs' = evs ++ (if cfg.revocation.isSome then [] else [⟨.configuredKeySets, configured⟩]) ∧
        keySets = if cfg.revocation.isSome then some (.many parentTrust) else configured) := by
  unfold chainTrust
  cases cfg.revocation with
  | none => exact Call.follows_request (hfree _ _ rfl) fun configured => ⟨configured, rfl, rfl⟩
  | some revocation => exact Call.follows_pure ⟨none, (List.append_nil _).symm, rfl⟩

/-- Nothing speaks against a call whose chain is accepted and whose action is in scope. -/
theorem delegationMessages_eq_nil {now : JsNumber} {keySets : Option TrustedKeySets} {intent : JsValue}
    {amount : ℤ} {input : DelegationInput}
    (h : delegationMessages H cfg now keySets action intent amount input = .ok []) :
    (∃ r, verifyDelegationChain H now input.delegation input.parentAuth
      (chainOptions cfg now keySets intent input.parentScope) = .ok r ∧ r.ok = true) ∧
    (input.delegation.field (js "scope")).isTruthy = true ∧ ∃ effective,
      resolveEffectiveChildScope (input.delegation.field (js "scope")) input.parentScope = .ok effective ∧
        WithinScope action effective amount := by
  rw [delegationMessages, bind_eq_ok] at h
  obtain ⟨chain, hchain, h⟩ := h
  rw [bind_eq_ok] at h
  obtain ⟨effective, heff, h⟩ := h
  rw [bind_eq_ok] at h
  obtain ⟨tools, htools, h⟩ := h
  have hnil := Except.ok.inj h
  simp only [List.append_eq_nil_iff] at hnil
  obtain ⟨⟨⟨hok, rfl⟩, hamount⟩, hscope⟩ := hnil
  refine ⟨⟨chain, hchain, ?_⟩, ?_, effective, heff, ?_, ?_⟩
  · by_contra hnot
    rw [if_neg hnot] at hok
    exact hnot (ok_of_violations_nil hchain (List.map_eq_nil_iff.mp hok))
  · by_contra hnot
    rw [if_neg hnot] at hscope
    cases hscope
  · intro hdef
    rw [toolMessages, if_neg (by simp [hdef]), bind_eq_ok] at htools
    obtain ⟨included, hincluded, htools⟩ := htools
    cases included with
    | true => exact hincluded
    | false =>
      rw [if_neg (by simp), bind_eq_ok] at htools
      obtain ⟨joined, -, htools⟩ := htools
      cases htools
  · intro hdef
    by_contra hexceeds
    rw [amountMessages, if_pos (by simpa [hdef] using hexceeds)] at hamount
    cases hamount

theorem verifyChain_follows {now : JsNumber} {keySets : Option TrustedKeySets} {intent : JsValue}
    {amount : ℤ} {input : DelegationInput} :
    (verifyChain H cfg now keySets action intent amount input : GuardCall σ S V Unit).Follows allowed evs
      (fun _ evs' => evs' = evs ∧
        delegationMessages H cfg now keySets action intent amount input = .ok []) := by
  refine returning_bind_follows fun messages hmessages => ?_
  split
  · exact Call.follows_throw
  · rename_i hnil
    rw [ne_eq, not_not] at hnil
    exact Call.follows_pure ⟨rfl, hnil ▸ hmessages⟩

theorem requireActive_follows {result : JsValue} :
    (requireActive result : GuardCall σ S V Unit).Follows allowed evs (fun _ evs' =>
      evs' = evs ∧ result.isRecord = true ∧ result.field (js "status") = .str (js "ACTIVE")) := by
  unfold requireActive
  split
  · exact Call.follows_throw
  · rename_i hrecord
    dsimp only
    split
    · exact Call.follows_throw
    · split
      · exact Call.follows_throw
      · rename_i hactive
        have hboth : result.isRecord = true ∧ result.has (js "status") = true := by simpa using hrecord
        have htext : (result.field (js "status")).isText (js "ACTIVE") = true := by simpa using hactive
        exact Call.follows_pure ⟨rfl, hboth.1, JsValue.isText_iff.mp htext⟩

theorem checkDelegationRevocation_follows {delegation : JsValue} (hfree : AllowsFree allowed) :
    (checkDelegationRevocation cfg delegation : GuardCall σ S V Unit).Follows allowed evs (fun _ evs' =>
      ∃ status : JsValue, evs' = evs ++ (if cfg.delegationRevocationProvider then
          [⟨.checkDelegation (revocationRequest delegation), .ok (.value status)⟩] else []) ∧
        (cfg.requireDelegationRevocation = true → cfg.delegationRevocationProvider = true) ∧
        (cfg.delegationRevocationProvider = true →
          status.isRecord = true ∧ status.field (js "status") = .str (js "ACTIVE"))) := by
  refine Call.follows_modify_bind ?_
  by_cases hp : cfg.delegationRevocationProvider = true
  · simp only [if_pos hp]
    refine Call.follows_request_bind (hfree _ _ rfl) fun answer => ?_
    rcases answer with err | (_ | result)
    · exact Call.follows_throw
    · exact Call.follows_throw
    · exact requireActive_follows.imp fun _ evs' h => ⟨result, h.1, fun _ => hp, fun _ => h.2⟩
  · simp only [if_neg hp]
    split
    · exact Call.follows_throw
    · rename_i hreq
      exact Call.follows_pure ⟨.null, (List.append_nil _).symm, fun h => absurd h hreq, fun h => absurd h hp⟩

theorem confirmParentKid_follows {now : JsNumber} {keySets : List KeySet}
    {authorities : Option (List AuthorizationAuthority)} {parentAuth : JsValue}
    (hfree : AllowsFree allowed) :
    (confirmParentKid H cfg (strictOptions cfg now keySets authorities) now parentAuth :
      GuardCall σ S V JsString).Follows allowed evs (fun kid evs' => ∃ confirmTrust,
        evs' = evs ++ [⟨.trustedKeySets, confirmTrust⟩] ∧
        TrustHolds H cfg confirmTrust ∧ resolveAuthorizationSigningKid parentAuth = some kid ∧
        StrictlyVerified H cfg now (pinKeySet confirmTrust (parentAuth.field (js "issuer")) kid) authorities
          parentAuth) := by
  refine (validatedTrust_follows hfree).bind fun confirmTrust _ htrust => ?_
  obtain ⟨rfl, hvalid⟩ := htrust
  split
  · exact Call.follows_throw
  · rename_i kid hkid
    rw [Option.filter_eq_some_iff] at hkid
    obtain ⟨hresolve, hconfirmed⟩ := hkid
    refine Call.follows_pure ⟨confirmTrust, rfl, hvalid, hresolve, ?_⟩
    unfold parentKidConfirmed at hconfirmed
    split at hconfirmed
    · rename_i r hr
      exact strictlyVerified_of_status hr (by simpa using hconfirmed)
    · cases hconfirmed

theorem rejectDenial_follows {denial : RevocationDenial} {post : Unit → GuardHistory S V → Prop} :
    (rejectDenial denial : GuardCall σ S V Unit).Follows allowed evs post := by
  unfold rejectDenial
  split <;> exact Call.follows_throw

theorem checkSigningKeys_follows {now : JsNumber} {keySets : List KeySet}
    {authorities : Option (List AuthorizationAuthority)} {input : DelegationInput}
    (hfree : AllowsFree allowed) :
    (checkSigningKeys H cfg (strictOptions cfg now keySets authorities) now input :
      GuardCall σ S V Unit).Follows allowed evs (fun _ evs' => ∃ confirmTrust evidence,
        evs' = evs ++ (if cfg.revocation.isSome then
          [⟨.trustedKeySets, confirmTrust⟩, ⟨.revocationEvidence, evidence⟩] else []) ∧
        ∀ revocation, cfg.revocation = some revocation → TrustHolds H cfg confirmTrust ∧
          ∃ kid, resolveAuthorizationSigningKid input.parentAuth = some kid ∧
            StrictlyVerified H cfg now (pinKeySet confirmTrust (input.parentAuth.field (js "issuer")) kid)
              authorities input.parentAuth ∧
            evaluateRevocation H revocation now (keysInUse input kid) evidence.2 evidence.1 = none) := by
  unfold checkSigningKeys
  cases hcfg : cfg.revocation with
  | none => exact Call.follows_pure ⟨[], (.tampered, fun _ _ _ => .threw), (List.append_nil _).symm, nofun⟩
  | some revocation =>
    refine (confirmParentKid_follows hfree).bind fun kid _ hconfirmed => ?_
    obtain ⟨confirmTrust, rfl, hvalid, hresolve, hverified⟩ := hconfirmed
    refine Call.follows_request_bind (hfree _ _ rfl) fun evidence => ?_
    split
    · exact rejectDenial_follows
    · rename_i hnone
      refine Call.follows_pure ⟨confirmTrust, evidence, by simp, fun revocation' h => ?_⟩
      obtain rfl := Option.some.inj h
      exact ⟨hvalid, kid, hresolve, hverified, hnone⟩

/-- The delegation path mediates, from a history that has loaded and normalized. -/
theorem delegationPath_follows {state : S} {version : V} {intent : JsValue}
    (hdelegated : delegationInput.isTruthy = true)
    (hagent : (intent.field (js "agent_id")).hasText = true) :
    (delegationPath H cfg (live.normalized action) delegationInput intent : GuardCall σ S V JsValue).Follows
      (MediatedUnder H cfg action delegationInput live) (loadedHistory action state version intent)
      (fun _ _ => True) := by
  have hfree : AllowsFree (S := S) (V := V) (MediatedUnder H cfg action delegationInput live) := mediatedUnder_free
  refine Call.follows_modify_bind ?_
  refine delegatedAmount_follows.bind fun amount _ hamount => ?_
  obtain ⟨rfl, hamount⟩ := hamount
  refine snapshotDelegation_follows.bind fun input _ hinput => ?_
  obtain ⟨rfl, snapshot, hsnapshot, hparts, hcomplete⟩ := hinput
  refine requireAuthorities_follows.bind fun authorities _ hauth => ?_
  obtain ⟨rfl, hauth⟩ := hauth
  refine Call.follows_request_bind (hfree _ _ rfl) fun now => ?_
  refine requireParentScope_follows.bind fun _ _ hscope => ?_
  obtain ⟨rfl, hscope⟩ := hscope
  refine (validatedTrust_follows hfree).bind fun keySets _ htrust => ?_
  obtain ⟨rfl, htrust⟩ := htrust
  refine verifyParent_follows.bind fun _ _ hparent => ?_
  obtain ⟨rfl, hparent⟩ := hparent
  refine (chainTrust_follows hfree).bind fun chainKeySets _ hchainTrust => ?_
  obtain ⟨configured, rfl, hchainKeySets⟩ := hchainTrust
  refine verifyChain_follows.bind fun _ _ hchain => ?_
  obtain ⟨rfl, hmessages⟩ := hchain
  refine (checkDelegationRevocation_follows hfree).bind fun _ _ hrevocation => ?_
  obtain ⟨status, rfl, hprovider, hactive⟩ := hrevocation
  refine (checkSigningKeys_follows hfree).bind fun _ _ hkeys => ?_
  obtain ⟨confirmTrust, evidence, rfl, hkeys⟩ := hkeys
  let d : DelegatedCall S V :=
    ⟨state, version, intent, amount, input, authorities, now, keySets, configured, status, confirmTrust, evidence⟩
  have hcleared : d.Cleared H cfg (live.normalized action) delegationInput := by
    obtain ⟨haccepted, htruthy, hwithin⟩ := delegationMessages_eq_nil hmessages
    rw [hchainKeySets] at haccepted
    exact ⟨hagent, ⟨snapshot, hsnapshot, hparts⟩, hcomplete, hamount, hauth, hscope, htrust, hparent,
      haccepted, ⟨htruthy, hwithin⟩, hprovider, hactive, hkeys⟩
  have hhistory : loadedHistory action state version intent ++ [⟨.clock, now⟩] ++
      [⟨.trustedKeySets, keySets⟩] ++
      (if cfg.revocation.isSome then [] else [⟨.configuredKeySets, configured⟩]) ++
      (if cfg.delegationRevocationProvider then
        [⟨.checkDelegation (revocationRequest input.delegation), .ok (.value status)⟩] else []) ++
      (if cfg.revocation.isSome then
        [⟨.trustedKeySets, confirmTrust⟩, ⟨.revocationEvidence, evidence⟩] else []) =
        d.cleared cfg action := by
    simp [d, DelegatedCall.cleared, DelegatedCall.presented]
  rw [hhistory]
  refine (consumeDelegation_follows ⟨hdelegated, d, hcleared, rfl, rfl, rfl⟩).bind fun _ _ hconsumed => ?_
  subst hconsumed
  refine (consumeParent_follows (.inr ⟨hdelegated, d, hcleared, rfl, rfl, rfl⟩)).bind fun _ _ hconsumed => ?_
  subst hconsumed
  refine (passGate_follows hfree).bind fun _ _ hgate => ?_
  subst hgate
  exact runExecute_follows hfree (.inr ⟨hdelegated, d, hcleared, rfl⟩)

theorem runRequest_follows :
    (runRequest H cfg action delegationInput live : GuardCall σ S V JsValue).Follows
      (MediatedUnder H cfg action delegationInput live) [] (fun _ _ => True) := by
  have hfree : AllowsFree (S := S) (V := V) (MediatedUnder H cfg action delegationInput live) := mediatedUnder_free
  refine (loadState_follows hfree).bind fun loaded _ hloaded => ?_
  subst hloaded
  refine (normalizeAction_follows hfree).bind fun intent _ hintent => ?_
  obtain ⟨rfl, hnull, hagent⟩ := hintent
  split
  · rename_i hdelegated
    exact delegationPath_follows hdelegated (hagent hdelegated)
  · rename_i hstandard
    exact standardPath_follows (by simpa using hstandard) hnull

theorem emitBoundaryEvent_follows {err : Thrown} {lifecycle : GuardLifecycle} (hfree : AllowsFree allowed) :
    Async.Follows (σ := σ) allowed (emitBoundaryEvent cfg err lifecycle) evs (fun _ _ => True) := by
  have htake : Async.Follows (σ := σ) allowed (takeEvent err) evs (fun _ _ => True) := by
    unfold takeEvent
    split
    · exact Async.follows_pure trivial
    · split
      · exact Async.follows_pure trivial
      · exact Async.follows_request (hfree _ _ rfl) fun _ => trivial
  have hmark : Async.Follows (σ := σ) allowed (markHandled err) evs (fun _ _ => True) := by
    unfold markHandled
    split
    · exact Async.follows_pure trivial
    · split
      · exact Async.follows_pure trivial
      · exact Async.follows_request (hfree _ _ rfl) fun _ => trivial
  unfold emitBoundaryEvent
  split
  · exact Async.follows_pure trivial
  · split
    · exact hmark
    · split
      · exact Async.follows_pure trivial
      · refine htake.bind fun answer _ _ => ?_
        cases answer with
        | none => exact Async.follows_pure trivial
        | some note =>
          exact Async.follows_request_bind (hfree _ _ rfl) fun _ => Async.follows_pure trivial

theorem guardCall_follows :
    Async.Follows (σ := σ) (MediatedUnder H cfg action delegationInput live) (guardCall H cfg action delegationInput live)
      ([] : GuardHistory S V) (fun _ _ => True) := by
  refine (runRequest_follows (createLifecycle .stateLoad)).bind fun settled _ _ => ?_
  obtain ⟨_ | _, lifecycle⟩ := settled
  · exact (emitBoundaryEvent_follows mediatedUnder_free).bind fun _ _ _ => Async.follows_pure trivial
  · exact Async.follows_pure trivial

end

end OxDeAI
