import OxDeAI.Guard.DelegatedAuthority
import OxDeAI.Guard.GatewayOutcomes
import OxDeAI.Lib.Histories

/-! Guard calls and gateway calls that share one in-memory replay store: under one
authorization identifier, at most one of them invokes what it protects. -/

namespace OxDeAI

open Js Async

structure InMemoryReplayStore where
  consumedAuthIds : Finset JsString
  consumedDelegationIds : Finset JsString

def createInMemoryReplayStore : InMemoryReplayStore := ⟨∅, ∅⟩

namespace InMemoryReplayStore

variable (s : InMemoryReplayStore)

def consumeAuthId (authId : JsString) : Bool × InMemoryReplayStore :=
  if authId ∈ s.consumedAuthIds then (false, s)
  else (true, { s with consumedAuthIds := insert authId s.consumedAuthIds })

def consumeDelegationId (delegationId : JsString) : Bool × InMemoryReplayStore :=
  if delegationId ∈ s.consumedDelegationIds then (false, s)
  else (true, { s with consumedDelegationIds := insert delegationId s.consumedDelegationIds })

end InMemoryReplayStore

section

variable {S V : Type}

abbrev BoundaryRequest (S V : Type) := GuardRequest S V ⊕ GatewayRequest

abbrev BoundaryAnswer : BoundaryRequest S V → Type
  | .inl i => GuardAnswer i
  | .inr i => GatewayAnswer i

abbrev BoundaryHistory (S V : Type) := List (Sigma (BoundaryAnswer (S := S) (V := V)))

def ofGuard (e : Sigma (GuardAnswer (S := S) (V := V))) : Sigma (BoundaryAnswer (S := S) (V := V)) :=
  ⟨.inl e.1, e.2⟩

def ofGateway (e : Sigma GatewayAnswer) : Sigma (BoundaryAnswer (S := S) (V := V)) := ⟨.inr e.1, e.2⟩

/-- The store answers what it finds. It is typed on strings; what it would answer
anything else is left open, and so is every other answer. -/
def InMemoryReplayStore.Serves (s : InMemoryReplayStore) :
    (i : BoundaryRequest S V) → BoundaryAnswer i → InMemoryReplayStore → Prop
  | .inl (.consumeAuthId (.str authId) _), a, t => (a, t) = (s.consumeAuthId authId).map (.ok ∘ .bool) id
  | .inl (.consumeDelegationId (.str delegationId) _), a, t =>
    (a, t) = (s.consumeDelegationId delegationId).map (.ok ∘ .bool) id
  | .inr (.consumeAuthId (.str authId) _), a, t => (a, t) = (s.consumeAuthId authId).map (.ok ∘ .bool) id
  | _, _, t => t = s

inductive BoundaryCall
  | guard (H : Host) (cfg : GuardConfig) (action delegationInput : JsValue)
  | gateway (H : Host) (cfg : GatewayConfig) (input : JsValue)

/-- What a call asks after its answers so far. -/
inductive BoundaryCall.Asks : BoundaryCall → BoundaryHistory S V → BoundaryRequest S V → Prop
  | guard {H : Host} {cfg : GuardConfig} {action delegationInput : JsValue} {evs : GuardHistory S V}
    {i : GuardRequest S V} (h : Async.Asks (guardCall H cfg action delegationInput :
      Prog Unit (GuardRequest S V) GuardAnswer (Except Thrown JsValue)) evs i) :
    Asks (.guard H cfg action delegationInput) (evs.map ofGuard) (.inl i)
  | gateway {H : Host} {cfg : GatewayConfig} {input : JsValue} {evs : GatewayHistory} {i : GatewayRequest}
    (h : Async.Asks ((executeThroughPep H cfg input : GatewayCall Unit PepGatewayResult) ⟨⟩) evs i) :
    Asks (.gateway H cfg input) (evs.map ofGateway) (.inr i)

/-- After these answers a call invokes what it protects, under an authorization: the
engine's, or the parent's, or the request's. -/
inductive BoundaryCall.Invokes : BoundaryCall → BoundaryHistory S V → JsValue → Prop
  | standard {H : Host} {cfg : GuardConfig} {action delegationInput intent : JsValue} {state : S}
    {evaluationTime : JsNumber} {result : EngineResult S} {evs : GuardHistory S V}
    (hasks : Async.Asks (guardCall H cfg action delegationInput :
      Prog Unit (GuardRequest S V) GuardAnswer (Except Thrown JsValue)) evs .execute)
    (hpath : delegationInput.isTruthy = false)
    (hresult : ⟨.evaluatePure intent state evaluationTime, .ok (some result)⟩ ∈ evs) :
    Invokes (.guard H cfg action delegationInput) (evs.map ofGuard) result.authorization
  | delegated {H : Host} {cfg : GuardConfig} {action delegationInput snapshot : JsValue} {evs : GuardHistory S V}
    (hasks : Async.Asks (guardCall H cfg action delegationInput :
      Prog Unit (GuardRequest S V) GuardAnswer (Except Thrown JsValue)) evs .execute)
    (hpath : delegationInput.isTruthy = true)
    (hsnapshot : snapshotPlainData delegationInput (js "delegation input") = .ok snapshot) :
    Invokes (.guard H cfg action delegationInput) (evs.map ofGuard) (snapshot.field (js "parentAuth"))
  | gateway {H : Host} {cfg : GatewayConfig} {input body action : JsValue} {token : JsString} {evs : GatewayHistory}
    (hasks : Async.Asks ((executeThroughPep H cfg input : GatewayCall Unit PepGatewayResult) ⟨⟩) evs
      (.executeUpstream action token))
    (hsnapshot : snapshotValue (nesting input) (js "request") 0 input = .ok body) :
    Invokes (.gateway H cfg input) (evs.map ofGateway) (body.field (js "authorization"))

/-- The calls of a run, which all share a store. -/
abbrev BoundaryCalls (S V : Type) := Calls InMemoryReplayStore (BoundaryAnswer (S := S) (V := V))

abbrev SharedRun (calls : ℕ → BoundaryCall) (s : InMemoryReplayStore)
    (es : List (ℕ × Sigma (BoundaryAnswer (S := S) (V := V)))) (c : BoundaryCalls S V) : Prop :=
  Run.Trace (CallStep (fun n => (calls n).Asks) InMemoryReplayStore.Serves) (.start s) es c

/-- The invocations of a run under an identifier: the number of the call, and the
answers it had by then. -/
def invocations (calls : ℕ → BoundaryCall) (c : BoundaryCalls S V) (authId : JsString) :
    Set (ℕ × BoundaryHistory S V) :=
  { p | p.2 <+: c.history p.1 ∧
    ∃ authorization, (calls p.1).Invokes p.2 authorization ∧ authorization.field (js "auth_id") = .str authId }

end

section

variable {S V : Type} {evs evs' : BoundaryHistory S V} {s t : InMemoryReplayStore} {authId : JsString}

/-- The answer by which the store lets an identifier through. -/
inductive Grants (authId : JsString) : Sigma (BoundaryAnswer (S := S) (V := V)) → Prop
  | guard (expiry : JsValue) : Grants authId ⟨.inl (.consumeAuthId (.str authId) expiry), .ok (.bool true)⟩
  | gateway (expiry : JsValue) : Grants authId ⟨.inr (.consumeAuthId (.str authId) expiry), .ok (.bool true)⟩

theorem consumeAuthId_subset (s : InMemoryReplayStore) (authId : JsString) :
    s.consumedAuthIds ⊆ (s.consumeAuthId authId).2.consumedAuthIds := by
  unfold InMemoryReplayStore.consumeAuthId
  split
  · exact Finset.Subset.refl _
  · exact Finset.subset_insert _ _

theorem consumeDelegationId_authIds (s : InMemoryReplayStore) (delegationId : JsString) :
    (s.consumeDelegationId delegationId).2.consumedAuthIds = s.consumedAuthIds := by
  unfold InMemoryReplayStore.consumeDelegationId
  split <;> rfl

/-- An identifier is let through when it is new, and it is recorded then. -/
theorem consumeAuthId_true (h : (s.consumeAuthId authId).1 = true) :
    authId ∉ s.consumedAuthIds ∧ authId ∈ (s.consumeAuthId authId).2.consumedAuthIds := by
  by_cases hmem : authId ∈ s.consumedAuthIds
  · simp [InMemoryReplayStore.consumeAuthId, hmem] at h
  · simp [InMemoryReplayStore.consumeAuthId, hmem]

/-- The store forgets no identifier. -/
theorem serves_subset {i : BoundaryRequest S V} {a : BoundaryAnswer i} (h : s.Serves i a t) :
    s.consumedAuthIds ⊆ t.consumedAuthIds := by
  unfold InMemoryReplayStore.Serves at h
  split at h
  · have ht : t = (s.consumeAuthId _).2 := congrArg Prod.snd h
    rw [ht]
    exact consumeAuthId_subset s _
  · have ht : t = (s.consumeDelegationId _).2 := congrArg Prod.snd h
    rw [ht, consumeDelegationId_authIds]
  · have ht : t = (s.consumeAuthId _).2 := congrArg Prod.snd h
    rw [ht]
    exact consumeAuthId_subset s _
  · rw [h]

theorem serves_grants {e : Sigma (BoundaryAnswer (S := S) (V := V))} (h : s.Serves e.1 e.2 t)
    (hgrants : Grants authId e) : authId ∉ s.consumedAuthIds ∧ authId ∈ t.consumedAuthIds := by
  have hserved : true = (s.consumeAuthId authId).1 ∧ t = (s.consumeAuthId authId).2 := by
    cases hgrants with
    | guard expiry =>
      obtain ⟨hanswer, ht⟩ := Prod.mk.inj h
      exact ⟨JsValue.bool.inj (Except.ok.inj hanswer), ht⟩
    | gateway expiry =>
      obtain ⟨hanswer, ht⟩ := Prod.mk.inj h
      exact ⟨JsValue.bool.inj (Except.ok.inj hanswer), ht⟩
  obtain ⟨hanswer, rfl⟩ := hserved
  exact consumeAuthId_true hanswer.symm

/-- What is let through is recorded, and in one call only. -/
structure Exclusive (c : BoundaryCalls S V) : Prop where
  recorded : ∀ {n e authId}, e ∈ c.history n → Grants authId e → authId ∈ c.shared.consumedAuthIds
  once : ∀ {m n d e authId}, d ∈ c.history m → e ∈ c.history n → Grants authId d → Grants authId e → m = n

theorem exclusive_start (s : InMemoryReplayStore) : Exclusive (.start s : BoundaryCalls S V) where
  recorded h := absurd h List.not_mem_nil
  once h := absurd h List.not_mem_nil

theorem exclusive_step {calls : ℕ → BoundaryCall} {c c' : BoundaryCalls S V}
    {ev : ℕ × Sigma (BoundaryAnswer (S := S) (V := V))} (h : Exclusive c)
    (hstep : CallStep (fun n => (calls n).Asks) InMemoryReplayStore.Serves c ev c') : Exclusive c' := by
  obtain ⟨-, a, hserves⟩ := hstep
  rename_i n i t
  have hnew : ∀ {authId : JsString} {m e}, e ∈ c.history m → Grants authId e → ¬ Grants authId ⟨i, a⟩ :=
    fun he hgrants hlast => (serves_grants hserves hlast).1 (h.recorded he hgrants)
  refine ⟨fun he hgrants => ?_, fun hd he hgrantsd hgrantse => ?_⟩
  · rcases Calls.mem_record.mp he with he | ⟨-, rfl⟩
    · exact serves_subset hserves (h.recorded he hgrants)
    · exact (serves_grants hserves hgrants).2
  · rcases Calls.mem_record.mp hd with hold | ⟨hm, hlast⟩
    · rcases Calls.mem_record.mp he with hold' | ⟨-, rfl⟩
      · exact h.once hold hold' hgrantsd hgrantse
      · exact absurd hgrantse (hnew hold hgrantsd)
    · rcases Calls.mem_record.mp he with hold' | ⟨hn, -⟩
      · rw [hlast] at hgrantsd
        exact absurd hgrantsd (hnew hold' hgrantse)
      · rw [hm, hn]

theorem exclusive_run {calls : ℕ → BoundaryCall} {es : List (ℕ × Sigma (BoundaryAnswer (S := S) (V := V)))}
    {c : BoundaryCalls S V} (h : SharedRun calls s es c) : Exclusive c :=
  h.invariant (fun _ _ _ hexclusive hstep => exclusive_step hexclusive hstep) (exclusive_start s)

/-- The answers of a standard call hold one result of the engine. -/
theorem IssuedCall.result_of_mem {action : JsValue} {answer : JsValue} {cfg : GuardConfig} {c : IssuedCall S V}
    {intent : JsValue} {state : S} {evaluationTime : JsNumber} {result : EngineResult S}
    (h : ⟨.evaluatePure intent state evaluationTime, .ok (some result)⟩ ∈
      c.committed action answer ++ gateHistory cfg action c.authorization) : result = c.result := by
  rcases List.mem_append.mp h with h | h
  · simp only [IssuedCall.committed, IssuedCall.consumed, IssuedCall.bound, IssuedCall.evaluated, loadedHistory,
      List.cons_append, List.nil_append, List.mem_cons, List.not_mem_nil, or_false] at h
    rcases h with h | h | h | h | h | h | h | h | h
    all_goals cases h
    rfl
  · unfold gateHistory at h
    split at h
    · cases List.mem_singleton.mp h
    · cases h

theorem length_gateHistory {cfg : GuardConfig} {action authorization authorization' : JsValue} :
    (gateHistory cfg action authorization : GuardHistory S V).length =
      (gateHistory cfg action authorization' : GuardHistory S V).length := by
  unfold gateHistory
  split <;> rfl

/-- How many answers a guard call has when it executes is a matter of its configuration. -/
theorem mediated_length_eq {H : Host} {cfg : GuardConfig} {action delegationInput : JsValue}
    {evs evs' : GuardHistory S V} (h : Mediated H cfg action delegationInput evs .execute)
    (h' : Mediated H cfg action delegationInput evs' .execute) : evs.length = evs'.length := by
  rcases h with ⟨hpath, c, answer, -, -, rfl⟩ | ⟨hpath, d, -, rfl⟩
  · rcases h' with ⟨-, c', answer', -, -, rfl⟩ | ⟨hpath', -⟩
    · rw [List.length_append, List.length_append, length_gateHistory]
      rfl
    · rw [hpath] at hpath'
      cases hpath'
  · rcases h' with ⟨hpath', -⟩ | ⟨-, d', -, rfl⟩
    · rw [hpath] at hpath'
      cases hpath'
    · rw [List.length_append, List.length_append, length_gateHistory]
      simp only [DelegatedCall.consumed, DelegatedCall.delegationConsumed, DelegatedCall.cleared,
        DelegatedCall.presented, List.length_append]
      cases cfg.revocation.isSome <;> cases cfg.delegationRevocationProvider <;>
        cases cfg.consumesDelegationIds <;> rfl

theorem executeUpstream_mediated {H : Host} {cfg : GatewayConfig} {input action : JsValue} {token : JsString}
    {evs : GatewayHistory}
    (h : Async.Asks ((executeThroughPep H cfg input : GatewayCall Unit PepGatewayResult) ⟨⟩) evs
      (.executeUpstream action token)) : ∃ c : PresentedCall, c.Verified cfg H input ∧ evs = c.consumed cfg := by
  obtain ⟨c, hverified, hevs, -⟩ := (executeThroughPep_follows ⟨⟩).asks h
  rw [List.nil_append] at hevs
  exact ⟨c, hverified, hevs⟩

theorem invokes_length_eq {call : BoundaryCall} {authorization authorization' : JsValue}
    (h : call.Invokes evs authorization) (h' : call.Invokes evs' authorization') : evs.length = evs'.length := by
  cases h with
  | standard hasks hpath _ =>
    cases h' with
    | standard hasks' _ _ =>
      rw [List.length_map, List.length_map]
      exact mediated_length_eq (guardCall_follows.asks hasks) (guardCall_follows.asks hasks')
    | delegated _ hpath' _ =>
      rw [hpath] at hpath'
      cases hpath'
  | delegated hasks hpath _ =>
    cases h' with
    | standard _ hpath' _ =>
      rw [hpath] at hpath'
      cases hpath'
    | delegated hasks' _ _ =>
      rw [List.length_map, List.length_map]
      exact mediated_length_eq (guardCall_follows.asks hasks) (guardCall_follows.asks hasks')
  | gateway hasks _ =>
    cases h' with
    | gateway hasks' _ =>
      obtain ⟨c, -, rfl⟩ := executeUpstream_mediated hasks
      obtain ⟨c', -, rfl⟩ := executeUpstream_mediated hasks'
      rw [List.length_map, List.length_map]
      simp only [PresentedCall.consumed, PresentedCall.history, PresentedCall.hashed, List.length_append]
      split <;> rfl

theorem grants_guard {id : JsValue} (hid : id = .str authId) (expiry : JsValue) :
    Grants (S := S) (V := V) authId (ofGuard ⟨.consumeAuthId id expiry, .ok (.bool true)⟩) := by
  subst hid
  exact .guard expiry

theorem grants_gateway {id : JsValue} (hid : id = .str authId) (expiry : JsValue) :
    Grants (S := S) (V := V) authId (ofGateway ⟨.consumeAuthId id expiry, .ok (.bool true)⟩) := by
  subst hid
  exact .gateway expiry

/-- No call invokes anything before its own consumption was let through. -/
theorem invokes_granted {call : BoundaryCall} {authorization : JsValue} (h : call.Invokes evs authorization)
    (hid : authorization.field (js "auth_id") = .str authId) : ∃ e ∈ evs, Grants authId e := by
  cases h with
  | standard hasks hpath hresult =>
    rcases guardCall_follows.asks hasks with ⟨-, c, answer, -, -, hevs⟩ | ⟨hpath', -⟩
    · rw [List.nil_append] at hevs
      subst hevs
      obtain rfl := IssuedCall.result_of_mem hresult
      refine ⟨_, List.mem_map_of_mem ?_, grants_guard hid (consumeExpiry c.authorization)⟩
      simp [IssuedCall.committed, IssuedCall.consumed, IssuedCall.authorization]
    · rw [hpath] at hpath'
      cases hpath'
  | delegated hasks hpath hsnapshot =>
    rcases guardCall_follows.asks hasks with ⟨hpath', -⟩ | ⟨-, d, hcleared, hevs⟩
    · rw [hpath] at hpath'
      cases hpath'
    · rw [List.nil_append] at hevs
      subst hevs
      obtain ⟨snapshot, hsnapshot', hinput⟩ := hcleared.snapshot
      obtain rfl := Except.ok.inj (hsnapshot.symm.trans hsnapshot')
      have hparent := congrArg DelegationInput.parentAuth hinput
      dsimp only at hparent
      rw [← hparent] at hid
      refine ⟨_, List.mem_map_of_mem ?_, grants_guard hid (d.input.parentAuth.field (js "expiry"))⟩
      simp [DelegatedCall.consumed]
  | gateway hasks hsnapshot =>
    obtain ⟨c, hverified, rfl⟩ := executeUpstream_mediated hasks
    obtain rfl := Except.ok.inj (hsnapshot.symm.trans hverified.snapshot)
    rw [← hverified.authorization] at hid
    refine ⟨_, List.mem_map_of_mem ?_, grants_gateway hid (c.request.authorization.field (js "expiry"))⟩
    exact List.mem_append_right _ (List.mem_singleton.mpr rfl)

end

/-- In every interleaving of guard calls and gateway calls over one store, at most one
invocation is made under an authorization identifier. -/
theorem at_most_once_dispatch {S V : Type} (calls : ℕ → BoundaryCall) {s : InMemoryReplayStore}
    {es : List (ℕ × Sigma (BoundaryAnswer (S := S) (V := V)))} {c : BoundaryCalls S V} (h : SharedRun calls s es c)
    (authId : JsString) : (invocations calls c authId).encard ≤ 1 := by
  have hexclusive := exclusive_run h
  rw [Set.encard_le_one_iff]
  rintro ⟨m, evs⟩ ⟨n, evs'⟩ ⟨hevs, authorization, hinvokes, hid⟩ ⟨hevs', authorization', hinvokes', hid'⟩
  dsimp only at hevs hevs' hinvokes hinvokes'
  obtain ⟨d, hd, hgrantsd⟩ := invokes_granted hinvokes hid
  obtain ⟨e, he, hgrantse⟩ := invokes_granted hinvokes' hid'
  obtain rfl : m = n := hexclusive.once (hevs.subset hd) (hevs'.subset he) hgrantsd hgrantse
  have hlength := invokes_length_eq hinvokes hinvokes'
  have hle := List.prefix_of_prefix_length_le hevs hevs' hlength.le
  rw [hle.eq_of_length hlength]

/-- What the gateway asked, up to the upstream's executor. -/
theorem samplePresentedCall_asks : Asks ((executeThroughPep sampleHost sampleGatewayConfig sampleGatewayInput :
    GatewayCall Unit PepGatewayResult) ⟨⟩) (samplePresentedCall.consumed sampleGatewayConfig)
      (.executeUpstream samplePaymentIntent (js "token")) := by
  have hreturns : (executeThroughPep sampleHost sampleGatewayConfig sampleGatewayInput :
      GatewayCall Unit PepGatewayResult).Returns _ (confirmedResult samplePresentedCall.request .undefined) :=
    executeThroughPep_returns samplePresentedCall_verified rfl (.within sampleUpstream (by decide))
      (.status (.num (.int 204)) rfl rfl)
  obtain ⟨_, hpath⟩ := hreturns ⟨⟩
  have hinvocation : samplePresentedCall.dispatched sampleGatewayConfig (.ok .promise) =
      samplePresentedCall.consumed sampleGatewayConfig ++
        [⟨.executeUpstream samplePaymentIntent (js "token"), .ok .promise⟩] := rfl
  rw [hinvocation, List.append_assoc, List.append_assoc, List.append_assoc] at hpath
  exact hpath.asks_at

/-- The store as the sample request leaves it. -/
def sampleReplayStore : InMemoryReplayStore := ⟨{js "a1"}, ∅⟩

/-- What the store answers to the request, the first time and once more. -/
def sampleRequestHistory (answer : Bool) : GatewayHistory :=
  samplePresentedCall.history sampleGatewayConfig ++ [samplePresentedCall.consumption (.ok (.bool answer))]

theorem sampleRequest_served (answer : Bool) {s t : InMemoryReplayStore}
    (h : s.Serves (S := ℕ) (V := ℕ) (ofGateway (samplePresentedCall.consumption (.ok (.bool answer)))).1
      (ofGateway (samplePresentedCall.consumption (.ok (.bool answer)))).2 t) :
    Run.Trace (fun (s : InMemoryReplayStore) (e : Sigma (BoundaryAnswer (S := ℕ) (V := ℕ))) t => s.Serves e.1 e.2 t)
      s ((sampleRequestHistory answer).map ofGateway) t := by
  have hconsumed : (sampleRequestHistory answer).map (ofGateway (S := ℕ) (V := ℕ)) =
      [ofGateway ⟨.stack .snapshot, true⟩] ++ [ofGateway ⟨.hashAction samplePaymentIntent, .ok (.str (js "11"))⟩] ++
        [ofGateway ⟨.clock, .ok (.int 1000)⟩] ++ [ofGateway ⟨.trustedKeySets, [sampleKeySet]⟩] ++
        [ofGateway ⟨.stack .copy, true⟩] ++ [ofGateway (samplePresentedCall.consumption (.ok (.bool answer)))] := rfl
  rw [hconsumed]
  exact .snoc (.snoc (.snoc (.snoc (.snoc (.snoc .nil rfl) rfl) rfl) rfl) rfl) h

def sampleGatewayCall : BoundaryCall := .gateway sampleHost sampleGatewayConfig sampleGatewayInput

/-- Whatever the store answers, the request asks the same up to there. -/
theorem sampleRequest_asks {answer : Bool} {before after : BoundaryHistory ℕ ℕ} {e : Sigma (BoundaryAnswer (S := ℕ) (V := ℕ))}
    (h : (sampleRequestHistory answer).map ofGateway = before ++ e :: after) : sampleGatewayCall.Asks before e.1 := by
  obtain ⟨_, hpath⟩ := samplePresentedCall_asks
  obtain ⟨first, rest, hsplit, rfl, hrest⟩ := List.map_eq_append_iff.mp h
  obtain ⟨d, later, rfl, rfl, -⟩ := List.map_eq_cons_iff.mp hrest
  rcases List.eq_nil_or_concat later with rfl | ⟨middle, last, rfl⟩
  · obtain ⟨rfl, hlast⟩ := List.append_inj' hsplit rfl
    obtain rfl := List.singleton_inj.mp hlast
    exact .gateway hpath.asks_at
  · rw [List.concat_eq_append, ← List.cons_append, ← List.append_assoc] at hsplit
    obtain ⟨hhistory, -⟩ := List.append_inj' hsplit rfl
    rw [PresentedCall.consumed, hhistory, List.append_assoc] at hpath
    exact .gateway hpath.asks_at

def requestedOnce : BoundaryCalls ℕ ℕ :=
  ⟨sampleReplayStore, Function.update (fun _ => []) 0 ((sampleRequestHistory true).map ofGateway)⟩

/-- The same request twice: the second time the store refuses it. -/
def dispatchedCalls : BoundaryCalls ℕ ℕ :=
  ⟨sampleReplayStore, Function.update requestedOnce.history 1 ((sampleRequestHistory false).map ofGateway)⟩

theorem dispatchedCalls_run :
    ∃ es, SharedRun (fun _ => sampleGatewayCall) createInMemoryReplayStore es dispatchedCalls := by
  have hfirst := sampleRequest_served true (s := createInMemoryReplayStore) (t := sampleReplayStore) rfl
  have hsecond := sampleRequest_served false (s := sampleReplayStore) (t := sampleReplayStore) rfl
  have hasks : ∀ {answer : Bool} (before : BoundaryHistory ℕ ℕ) (e : Sigma (BoundaryAnswer (S := ℕ) (V := ℕ)))
      (after : BoundaryHistory ℕ ℕ), (sampleRequestHistory answer).map ofGateway = before ++ e :: after →
        sampleGatewayCall.Asks before e.1 := fun before e after h => sampleRequest_asks h
  obtain ⟨es, hrun⟩ : ∃ es, SharedRun (fun _ => sampleGatewayCall) createInMemoryReplayStore es requestedOnce :=
    run_alone hfirst hasks
  obtain ⟨more, hmore⟩ : ∃ es, Run.Trace (CallStep (fun _ => sampleGatewayCall.Asks) InMemoryReplayStore.Serves)
      requestedOnce es dispatchedCalls := run_next requestedOnce hsecond hasks
  exact ⟨_, hrun.append hmore⟩

theorem dispatchedCalls_invoked : (0, (samplePresentedCall.consumed sampleGatewayConfig).map ofGateway) ∈
    invocations (fun _ => sampleGatewayCall) dispatchedCalls (js "a1") := by
  refine ⟨?_, _, .gateway samplePresentedCall_asks samplePresentedCall_verified.snapshot, rfl⟩
  exact List.prefix_rfl

theorem at_most_once_dispatch_sample :
    (invocations (fun _ => sampleGatewayCall) dispatchedCalls (js "a1")).encard = 1 := by
  obtain ⟨_, hrun⟩ := dispatchedCalls_run
  exact le_antisymm (at_most_once_dispatch _ hrun _)
    (Set.one_le_encard_iff_nonempty.mpr ⟨_, dispatchedCalls_invoked⟩)

end OxDeAI
