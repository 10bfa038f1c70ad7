import OxDeAI.Guard.Reach
import OxDeAI.Verification.IssueVerify

/-! A guard whose engine signs with a key that the guard trusts: it executes exactly what
the engine allows, while the authorization lives. -/

namespace OxDeAI

open Js Async

/-- What the engine gives back to the guard. -/
def engineResult : EvaluatePureOutput → EngineResult State
  | .deny reasons => ⟨.str (js "DENY"), .arr (reasons.map fun r => .str r.text), .undefined, none⟩
  | .allow authorization nextState =>
    ⟨.str (js "ALLOW"), .arr [], authorizationValue authorization, some nextState⟩

section

variable {V : Type} (H : Host) (e : PolicyEngine)

/-- The answers of a call are those of the engine, on a typed intent. -/
structure Honest (k : IssuedCall State V) (intent : Intent) (log : AuditLog) : Prop where
  normalized : k.intent = intentValue intent
  evaluated : ∃ out, (evaluatePure H.toPlatform e intent k.state k.evaluationTime .failFast log).1 = .ok out ∧
    k.result = engineResult out
  hashed : ∃ hash, computeStateHash H.toPlatform e k.state = .ok hash ∧ k.stateHash = .str hash

/-- The second reading of the clock lies in the lifetime of what was issued at the first. -/
structure InLifetime (k : IssuedCall State V) : Prop where
  believable : (k.now.add defaultMaxFutureIssuedAtSkewSeconds).lt k.evaluationTime = false
  live : k.now.ge (k.evaluationTime.add e.authorizationTtl) = false

end

section

variable {V : Type} {H : Host} {e : PolicyEngine} {key : KeySetKey} {cfg : GuardConfig} {k : IssuedCall State V}
  {intent : Intent} {state next : State} {t now : JsNumber} {c : Charge} {parts : AuthorizationParts}
  {keySets : List KeySet} {action answer delegationInput : JsValue} {log : AuditLog}

/-- What the guard's verifier would also expect of its own engine. -/
def issuerOptions (H : Host) (e : PolicyEngine) (cfg : GuardConfig) (now : JsNumber) (keySets : List KeySet) :
    VerifyAuthorizationOptions :=
  { strictOptions cfg now keySets none with
    expectedIssuer := some e.issuer
    expectedPolicyId := some (computePolicyId H.toPlatform e) }

theorem relyingParty_issuerOptions (haudience : cfg.expectedAudience = e.audience)
    (hregistered : findKeyInKeySets keySets (.str e.issuer) e.signingKid .ed25519 = some key) :
    RelyingParty H e key (issuerOptions H e cfg now keySets) where
  strict := rfl
  issuer := rfl
  audience := congrArg some haudience
  policyId := rfl
  authority _ h := by cases h
  skew := rfl
  registered := hregistered

/-- The guard's verifier accepts what its engine issued, from the skew before its time of
issue up to its expiry. -/
theorem strictlyVerified_issued (hn : NfcLaws H.nfc) (hhex : HexDigests H) (hsigns : SignsWith H e key)
    (haudience : cfg.expectedAudience = e.audience)
    (hregistered : findKeyInKeySets keySets (.str e.issuer) e.signingKid .ed25519 = some key)
    (h : Permitted H.toPlatform e intent state t c parts) (hactive : keyIsActiveAt key now = true) :
    StrictlyVerified H cfg now keySets none
        (authorizationValue (authorizationFor H.toPlatform e intent state t parts)) ↔
      (now.add defaultMaxFutureIssuedAtSkewSeconds).lt t = false ∧ now.ge (t.add e.authorizationTtl) = false := by
  have hrelies : RelyingParty H e key (issuerOptions H e cfg now keySets) :=
    relyingParty_issuerOptions haudience hregistered
  obtain ⟨issued, ttl, hissued, -, -, -, hadd⟩ := h.clock.exists_seconds
  rw [strictlyVerified_iff]
  constructor
  · intro hverified
    obtain ⟨z, hz, -, hbelievable⟩ := hverified.issuedAt
    obtain ⟨y, hy, hlive⟩ := hverified.expiry
    have hz' : JsValue.num t = .num (.int z) := hz
    rw [effectiveExpiry_issued hadd] at hy
    rw [hadd, Option.some.inj hy, JsValue.num.inj hz']
    exact ⟨hbelievable, hlive⟩
  · rintro ⟨hbelievable, hlive⟩
    rw [hissued] at hbelievable
    rw [hadd] at hlive
    have hfields := fieldsHold_issued hn hhex hsigns hrelies h List.not_mem_nil hissued hadd hbelievable hlive
    obtain ⟨alg, kid, signature, hmaterial, htrust, hsignature⟩ := signatureHolds_issued hsigns hrelies h hactive
    refine ⟨{ hfields with expectedIssuer := ?_, expectedPolicyId := ?_ }, rfl, fun _ => hrelies.trusts,
      alg, kid, signature, hmaterial, htrust, ?_⟩
    · intro s hs
      cases hs
    · intro s hs
      cases hs
    · cases hsignature with
      | ed25519 found name hfound active valid => exact .ed25519 found name hfound active valid
      | hmac name secret valid => exact absurd rfl secret

theorem committed_inj {k' : IssuedCall State V} {answer' : JsValue}
    (h : k.committed action answer = k'.committed action answer') : k = k' := by
  simp only [IssuedCall.committed, IssuedCall.consumed, IssuedCall.bound, IssuedCall.evaluated, loadedHistory,
    List.cons_append, List.nil_append, List.cons.injEq] at h
  obtain ⟨hloaded, -, -, hevaluated, hclock, hkeySets, hhash, -, hset, -⟩ := h
  cases k
  cases k'
  cases hloaded
  cases hevaluated
  cases hclock
  cases hkeySets
  cases hhash
  cases hset
  rfl

/-- A history of the standard path tells the call it is of. -/
theorem bound_of_executes (hstandard : delegationInput.isTruthy = false)
    (h : Mediated H cfg action delegationInput
      (k.committed action answer ++ gateHistory cfg action k.authorization) .execute) : k.Bound H cfg := by
  rcases h with ⟨-, k', answer', hbound, -, heq⟩ | ⟨hdelegated, -⟩
  · obtain ⟨hcommitted, -⟩ := List.append_inj heq rfl
    rw [committed_inj hcommitted]
    exact hbound
  · rw [hstandard] at hdelegated
    cases hdelegated

/-- What the guard is given is permitted when the engine allows, with the next state. -/
theorem permits_engineResult {out : EvaluatePureOutput} : Permits (engineResult out) next ↔
    ∃ authorization, out = .allow authorization next := by
  constructor
  · intro h
    cases out with
    | deny reasons => exact absurd h.notDenied (by simp [engineResult, JsValue.isText])
    | allow authorization next' =>
      obtain rfl : next' = next := Option.some.inj h.nextState
      exact ⟨authorization, rfl⟩
  · rintro ⟨authorization, rfl⟩
    exact ⟨rfl, rfl, rfl⟩

/-- The engine allows the intent in the state of the call, and leaves its next state. -/
def Allows (H : Host) (e : PolicyEngine) (k : IssuedCall State V) (intent : Intent) (log : AuditLog) : Prop :=
  ∃ authorization, (evaluatePure H.toPlatform e intent k.state k.evaluationTime .failFast log).1 =
    .ok (.allow authorization k.nextState)

theorem Honest.permits_iff (h : Honest H e k intent log) : Permits k.result k.nextState ↔ Allows H e k intent log := by
  obtain ⟨out, hout, hresult⟩ := h.evaluated
  rw [hresult, permits_engineResult, Allows, hout]
  exact exists_congr fun _ => Except.ok.injEq _ _ ▸ Iff.rfl

/-- An allowed call carries what was issued for it. -/
theorem Honest.issued (h : Honest H e k intent log) (hn : NfcLaws H.nfc) (hallows : Allows H e k intent log) :
    ∃ c parts, Permitted H.toPlatform e intent k.state k.evaluationTime c parts ∧ k.authorization =
      authorizationValue (authorizationFor H.toPlatform e intent k.state k.evaluationTime parts) := by
  obtain ⟨out, hout, hresult⟩ := h.evaluated
  obtain ⟨authorization, hallow⟩ := hallows
  obtain rfl := Except.ok.inj (hout.symm.trans hallow)
  obtain ⟨c, parts, hp, rfl, -⟩ := (evaluatePure_fst_allow hn).mp hallow
  refine ⟨c, parts, hp, ?_⟩
  rw [IssuedCall.authorization, hresult]
  rfl

/-- An allowed call is bound exactly while its authorization lives, under trusted keys. -/
theorem Honest.bound_iff (h : Honest H e k intent log) (hn : NfcLaws H.nfc) (hhex : HexDigests H)
    (hsigns : SignsWith H e key) (haudience : cfg.expectedAudience = e.audience)
    (hregistered : findKeyInKeySets k.keySets (.str e.issuer) e.signingKid .ed25519 = some key)
    (hactive : keyIsActiveAt key k.now = true) :
    k.Bound H cfg ↔ Allows H e k intent log ∧ TrustHolds H cfg k.keySets ∧ InLifetime e k := by
  constructor
  · intro hbound
    have hallows := h.permits_iff.mp hbound.permits
    obtain ⟨c, parts, hp, hauth⟩ := h.issued hn hallows
    have hlife := hbound.verified
    rw [hauth, strictlyVerified_issued hn hhex hsigns haudience hregistered hp hactive] at hlife
    exact ⟨hallows, hbound.trust, hlife.1, hlife.2⟩
  · rintro ⟨hallows, htrust, hlife⟩
    have hpermits := h.permits_iff.mpr hallows
    obtain ⟨c, parts, hp, hauth⟩ := h.issued hn hallows
    obtain ⟨hash, hhash, hstate⟩ := h.hashed
    refine ⟨?_, hpermits, htrust, ?_, ?_, ?_⟩
    · rw [h.normalized]
      rfl
    · rw [hauth, strictlyVerified_issued hn hhex hsigns haudience hregistered hp hactive]
      exact ⟨hlife.believable, hlife.live⟩
    · refine ⟨k.intent, parts.intentHash, rfl, ?_, by rw [hauth]; rfl⟩
      rw [h.normalized, intentHashOf_intentValue]
      exact hp.hash
    · obtain rfl : hash = parts.stateHash := Except.ok.inj (hhash.symm.trans hp.issued.stateHash)
      exact ⟨parts.stateHash, hstate, by rw [hauth]; rfl⟩

end

/-- A guard that trusts its engine's key executes on the engine's answers exactly when the
engine allows, the keys in use are trusted, and the authorization is still alive. -/
theorem honest_executes_iff {σ V : Type} (H : Host) (hn : NfcLaws H.nfc) (hhex : HexDigests H) (e : PolicyEngine)
    (key : KeySetKey) (cfg : GuardConfig) (hsigns : SignsWith H e key) (haudience : cfg.expectedAudience = e.audience)
    (action delegationInput : JsValue) (hstandard : delegationInput.isTruthy = false) (k : IssuedCall State V)
    (intent : Intent) (log : AuditLog) (h : Honest H e k intent log)
    (hregistered : findKeyInKeySets k.keySets (.str e.issuer) e.signingKid .ed25519 = some key)
    (hactive : keyIsActiveAt key k.now = true) (answer : JsValue) (ha : answer.isTruthy = true) :
    Async.Asks (guardCall H cfg action delegationInput : Prog σ (GuardRequest State V) GuardAnswer
        (Except Thrown JsValue))
        (k.committed action answer ++ gateHistory cfg action k.authorization) .execute ↔
      Allows H e k intent log ∧ TrustHolds H cfg k.keySets ∧ InLifetime e k := by
  rw [← h.bound_iff hn hhex hsigns haudience hregistered hactive]
  constructor
  · intro hasks
    have hmediated := guardCall_follows.asks hasks
    rw [List.nil_append] at hmediated
    exact bound_of_executes hstandard hmediated
  · intro hbound
    exact guardCall_asks_standard hstandard hbound ha

def signingGuardConfig : GuardConfig where
  expectedAudience := signingEngine.audience
  audience := by decide

theorem trustHolds_signingGuardConfig {keySets : List KeySet} :
    TrustHolds envelopeHost signingGuardConfig keySets := by
  intro revocation h
  cases h

/-- A call whose authorization is verified at the time of its issue. -/
def signedCall (parts : AuthorizationParts) : IssuedCall State ℕ where
  state := sampleState (js "a")
  version := 0
  intent := intentValue (sampleIntent (js "a"))
  evaluationTime := .int 1000
  result := engineResult (.allow
    (authorizationFor envelopeHost.toPlatform signingEngine (sampleIntent (js "a")) (sampleState (js "a")) (.int 1000) parts)
    (nextStateFor envelopeHost.toPlatform signingEngine (sampleIntent (js "a")) (sampleState (js "a")) (.int 1000)
      sampleCharge parts))
  nextState := nextStateFor envelopeHost.toPlatform signingEngine (sampleIntent (js "a")) (sampleState (js "a"))
    (.int 1000) sampleCharge parts
  now := .int 1000
  keySets := [sampleKeySet]
  stateHash := .str parts.stateHash

theorem signedCall_allows {parts : AuthorizationParts} (h : Permitted envelopeHost.toPlatform signingEngine
    (sampleIntent (js "a")) (sampleState (js "a")) (.int 1000) sampleCharge parts) :
    (evaluatePure envelopeHost.toPlatform signingEngine (sampleIntent (js "a")) (sampleState (js "a")) (.int 1000)
      .failFast ⟨[], [], 0⟩).1 = .ok (.allow (authorizationFor envelopeHost.toPlatform signingEngine
        (sampleIntent (js "a")) (sampleState (js "a")) (.int 1000) parts) (signedCall parts).nextState) := by
  have hnfc : NfcLaws envelopeHost.toPlatform.nfc := samplePlatform_laws.nfc
  have hnone : signingEngine.opts.checkpointEveryNEvents = none := rfl
  exact (evaluatePure_fst_allow hnfc).mpr ⟨sampleCharge, parts, h, rfl, rfl, by simp [hnone, checkpointDue]⟩

theorem honest_signedCall {parts : AuthorizationParts} (h : Permitted envelopeHost.toPlatform signingEngine
    (sampleIntent (js "a")) (sampleState (js "a")) (.int 1000) sampleCharge parts) :
    Honest envelopeHost signingEngine (signedCall parts) (sampleIntent (js "a")) ⟨[], [], 0⟩ :=
  ⟨rfl, ⟨_, signedCall_allows h, rfl⟩, ⟨_, h.issued.stateHash, rfl⟩⟩

theorem bound_signedCall {parts : AuthorizationParts} (h : Permitted envelopeHost.toPlatform signingEngine
    (sampleIntent (js "a")) (sampleState (js "a")) (.int 1000) sampleCharge parts) :
    (signedCall parts).Bound envelopeHost signingGuardConfig := by
  have hlive : (JsNumber.int 1000).ge ((JsNumber.int 1000).add signingEngine.authorizationTtl) = false := by decide
  exact ((honest_signedCall h).bound_iff samplePlatform_laws.nfc samplePlatform_laws.hex signsWith_sample rfl
    find_sampleKey rfl).mpr ⟨⟨_, signedCall_allows h⟩, trustHolds_signingGuardConfig, rfl, hlive⟩

theorem honest_executes_iff_sample : ∃ parts, Async.Asks (guardCall envelopeHost signingGuardConfig (.obj []) .undefined :
    Prog Unit (GuardRequest State ℕ) GuardAnswer (Except Thrown JsValue))
      ((signedCall parts).committed (.obj []) (.bool true) ++
        gateHistory signingGuardConfig (.obj []) (signedCall parts).authorization) .execute := by
  obtain ⟨parts, hp⟩ := permitted_signing
  refine ⟨parts, (honest_executes_iff envelopeHost samplePlatform_laws.nfc samplePlatform_laws.hex signingEngine
    (sampleKey none) signingGuardConfig signsWith_sample rfl (.obj []) .undefined rfl (signedCall parts)
    (sampleIntent (js "a")) ⟨[], [], 0⟩ (honest_signedCall hp) find_sampleKey rfl (.bool true) rfl).mpr ?_⟩
  have hlive : (JsNumber.int 1000).ge ((JsNumber.int 1000).add signingEngine.authorizationTtl) = false := by decide
  exact ⟨⟨_, signedCall_allows hp⟩, trustHolds_signingGuardConfig, rfl, hlive⟩

end OxDeAI
