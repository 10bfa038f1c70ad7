import OxDeAI.Guard.Gateway
import OxDeAI.Guard.CompleteMediation

/-! What a gateway result says of the call: nothing was dispatched, or the upstream
confirmed its success, or the outcome is in doubt. -/

namespace OxDeAI

open Js Async

theorem copyMembers_eq_map (es : List (JsString × JsValue)) :
    copyMembers es = es.map (fun e => (e.1, mutableCopyOfSnapshot e.2)) := by
  induction es with
  | nil => rw [copyMembers, List.map_nil]
  | cons e es ih =>
    obtain ⟨k, v⟩ := e
    rw [copyMembers, ih, List.map_cons]

theorem snapshotElements_copy {limit depth : ℕ} {path : JsString} {xs ys : List JsValue} {i : ℕ}
    (h : ∀ x ∈ xs, ∀ (path : JsString) (depth : ℕ) (y : JsValue),
      snapshotValue limit path depth x = .ok y → mutableCopyOfSnapshot x = x)
    (hs : snapshotElements limit path depth i xs = .ok ys) : copyElements xs = xs := by
  induction xs generalizing i ys with
  | nil => rw [copyElements]
  | cons x xs ih =>
    rw [snapshotElements, bind_eq_ok] at hs
    obtain ⟨y, hy, hs⟩ := hs
    obtain ⟨ys', hys, -⟩ := bind_eq_ok.mp hs
    rw [copyElements, h x List.mem_cons_self _ _ _ hy, ih (fun z hz => h z (List.mem_cons_of_mem _ hz)) hys]

theorem snapshotMembers_copy {limit depth : ℕ} {path : JsString} {es fs : List (JsString × JsValue)}
    (h : ∀ e ∈ es, ∀ (path : JsString) (depth : ℕ) (y : JsValue),
      snapshotValue limit path depth e.2 = .ok y → mutableCopyOfSnapshot e.2 = e.2)
    (hs : snapshotMembers limit path depth es = .ok fs) : copyMembers es = es := by
  induction es generalizing fs with
  | nil => rw [copyMembers]
  | cons e es ih =>
    obtain ⟨k, v⟩ := e
    rw [snapshotMembers, bind_eq_ok] at hs
    obtain ⟨w, hw, hs⟩ := hs
    obtain ⟨ws, hws, -⟩ := bind_eq_ok.mp hs
    have hv : mutableCopyOfSnapshot v = v := h (k, v) List.mem_cons_self _ _ _ hw
    rw [copyMembers, hv, ih (fun z hz => h z (List.mem_cons_of_mem _ hz)) hws]

/-- What can be snapshotted is equal to its mutable copy. -/
theorem mutableCopyOfSnapshot_eq {limit depth : ℕ} {path : JsString} {v w : JsValue}
    (h : snapshotValue limit path depth v = .ok w) : mutableCopyOfSnapshot v = v := by
  induction v using jsValue_induction generalizing path depth w with
  | arr xs ih =>
    rw [snapshotValue] at h
    split at h
    · cases h
    · obtain ⟨ys, hys, -⟩ := map_eq_ok.mp h
      rw [mutableCopyOfSnapshot, snapshotElements_copy (fun x hx _ _ _ hy => ih x hx hy) hys]
  | obj es ih =>
    rw [snapshotValue] at h
    split at h
    · cases h
    · obtain ⟨fs, hfs, -⟩ := map_eq_ok.mp h
      rw [mutableCopyOfSnapshot, snapshotMembers_copy (fun e he _ _ _ hy => ih e he hy) hfs]
  | inst es ih =>
    rw [snapshotValue] at h
    split at h <;> cases h
  | _ => rw [mutableCopyOfSnapshot] <;> simp

/-- The fields of an object that is equal to its copy are equal to theirs. -/
theorem mutableCopyOfSnapshot_field {v : JsValue} (hrecord : v.isRecord = true)
    (h : mutableCopyOfSnapshot v = v) (key : JsString) :
    mutableCopyOfSnapshot (v.field key) = v.field key := by
  cases v with
  | obj es =>
    rw [mutableCopyOfSnapshot, copyMembers_eq_map] at h
    have hall : ∀ e ∈ es, mutableCopyOfSnapshot e.2 = e.2 := by
      intro e he
      have hmap : es.map (fun e => (e.1, mutableCopyOfSnapshot e.2)) = es.map id := by
        rw [JsValue.obj.inj h, List.map_id]
      exact congrArg Prod.snd (List.map_inj_left.mp hmap e he)
    have hfield : (JsValue.obj es).field key = (ownEntry key es).getD .undefined := rfl
    rw [hfield]
    cases hown : ownEntry key es with
    | none => rw [Option.getD_none, mutableCopyOfSnapshot] <;> simp
    | some x => exact hall (key, x) (ownEntry_mem hown)
  | «instance» es =>
    rw [mutableCopyOfSnapshot] at h
    cases h
  | _ => cases hrecord

def GatewayRequest.isDispatch : GatewayRequest → Bool
  | .executeUpstream _ _ => true
  | _ => false

def GatewayRequest.isConsumption : GatewayRequest → Bool
  | .consumeAuthId _ _ => true
  | _ => false

/-- How often the upstream was invoked. -/
def dispatches (evs : GatewayHistory) : ℕ := evs.countP (fun e => e.1.isDispatch)

/-- How often the replay store was called. -/
def consumptions (evs : GatewayHistory) : ℕ := evs.countP (fun e => e.1.isConsumption)

/-- Neither the replay store nor the upstream was called. -/
def Quiet (evs : GatewayHistory) : Prop := ∀ e ∈ evs, e.1.isDispatch = false ∧ e.1.isConsumption = false

/-- The answers of a call, up to the consumption of its authorization. -/
structure PresentedCall where
  request : VerifiedRequest
  now : JsNumber
  keySets : List KeySet

namespace PresentedCall

variable (c : PresentedCall) (cfg : GatewayConfig)

def hashed : GatewayHistory :=
  [⟨.stack .snapshot, true⟩] ++
    (if cfg.hashAction then [⟨.hashAction c.request.action, .ok c.request.intentHash⟩] else [])

def history : GatewayHistory :=
  c.hashed cfg ++ [⟨.clock, .ok c.now⟩, ⟨.trustedKeySets, c.keySets⟩] ++ [⟨.stack .copy, true⟩]

def consumption (answer : Except GatewayFault JsValue) : Sigma GatewayAnswer :=
  ⟨.consumeAuthId (c.request.authorization.field (js "auth_id")) (c.request.authorization.field (js "expiry")), answer⟩

def consumed : GatewayHistory := c.history cfg ++ [c.consumption (.ok (.bool true))]

def invocation (answer : Except GatewayFault UpstreamReturn) : Sigma GatewayAnswer :=
  ⟨.executeUpstream c.request.action cfg.internalExecutorToken, answer⟩

def dispatched (answer : Except GatewayFault UpstreamReturn) : GatewayHistory :=
  c.consumed cfg ++ [c.invocation cfg answer]

/-- The request is plain data, its action hashes to the intent hash, and its
authorization is verified and bound to that hash. -/
structure Verified (H : Host) (input : JsValue) : Prop where
  isRecord : input.isRecord = true
  snapshot : snapshotValue (nesting input) (js "request") 0 input = .ok input
  action : c.request.action = input.field (js "action")
  authorization : c.request.authorization = input.field (js "authorization")
  complete : c.request.action.isUndefined = false ∧ c.request.authorization.isTruthy = true
  copy : c.request.upstreamAction = c.request.action
  intentHash : cfg.hashAction = false →
    ∃ hash, sha256HexFromJson H.toPlatform c.request.action = .ok hash ∧ c.request.intentHash = .str hash
  accepted : ∃ r, verifyAuthorization H c.now c.request.authorization (gatewayOptions cfg c.now c.keySets) = .ok r ∧
    r.ok = true
  bound : c.request.authorization.field (js "intent_hash") = c.request.intentHash

end PresentedCall

/-- By these answers the upstream settled, in time where it is timed. -/
inductive SettledInTime (timeoutMs : JsNumber) : UpstreamReturn → JsValue → GatewayHistory → Prop
  | value (upstream : JsValue) (h : isTimed timeoutMs = false) : SettledInTime timeoutMs (.value upstream) upstream []
  | settled (upstream : JsValue) (h : isTimed timeoutMs = false) :
    SettledInTime timeoutMs .promise upstream [⟨.settled, .ok upstream⟩]
  | within (upstream : JsValue) (h : isTimed timeoutMs = true) :
    SettledInTime timeoutMs .promise upstream [⟨.settledWithin timeoutMs, some (.ok upstream)⟩]

/-- By these answers the upstream's response satisfies the success contract. -/
inductive SatisfiesContract (cfg : GatewayConfig) (upstream : JsValue) : GatewayHistory → Prop
  | custom (answer : JsValue) (h : cfg.isUpstreamSuccess = true) (ht : answer.isTruthy = true) :
    SatisfiesContract cfg upstream [⟨.isUpstreamSuccess upstream, .ok answer⟩]
  | status (status : JsValue) (h : cfg.isUpstreamSuccess = false) (hs : isSuccessStatus status = true) :
    SatisfiesContract cfg upstream [⟨.readUpstream upstream (js "status"), .ok status⟩]

section

variable (H : Host) (cfg : GatewayConfig) (input : JsValue)

/-- The upstream was not invoked, and the store was called at most once, for a
verified request that it did not permit. -/
structure NotDispatched (evs : GatewayHistory) (result : PepGatewayResult) : Prop where
  outcome : result.body.outcome = .notDispatched
  executed : result.body.executed = some false
  upstreamCalled : result.upstreamCalled = false
  never : dispatches evs = 0
  replay : consumptions evs = 0 ∨ ∃ (c : PresentedCall) (answer : Except GatewayFault JsValue),
    c.Verified cfg H input ∧ answer ≠ .ok (.bool true) ∧ evs = c.history cfg ++ [c.consumption answer]

/-- The upstream was invoked once, settled in time, and satisfied the contract. -/
structure Executed (evs : GatewayHistory) (result : PepGatewayResult) : Prop where
  outcome : result.body.outcome = .executed
  executed : result.body.executed = some true
  upstreamCalled : result.upstreamCalled = true
  once : dispatches evs = 1
  confirmed : ∃ (c : PresentedCall) (ret : UpstreamReturn) (upstream body : JsValue) (settled judged : GatewayHistory),
    c.Verified cfg H input ∧ SettledInTime cfg.timeoutMs ret upstream settled ∧
      SatisfiesContract cfg upstream judged ∧
        evs = c.dispatched cfg (.ok ret) ++ settled ++ judged ++ [⟨.readUpstream upstream (js "body"), .ok body⟩]

/-- The upstream was invoked once, and the result does not say what came of it. -/
structure Indeterminate (evs : GatewayHistory) (result : PepGatewayResult) : Prop where
  outcome : result.body.outcome = .indeterminate
  executed : result.body.executed = none
  upstreamCalled : result.upstreamCalled = true
  once : dispatches evs = 1
  dispatched : ∃ (c : PresentedCall) (answer : Except GatewayFault UpstreamReturn),
    c.Verified cfg H input ∧ c.dispatched cfg answer <+: evs

def Trichotomy (evs : GatewayHistory) (result : PepGatewayResult) : Prop :=
  NotDispatched H cfg input evs result ∨ Executed H cfg input evs result ∨ Indeterminate H cfg input evs result

/-- What has come before the store or the upstream is called. -/
def GatewayMediated (evs : GatewayHistory) : GatewayRequest → Prop
  | .consumeAuthId authId expiry => ∃ c : PresentedCall, c.Verified cfg H input ∧ evs = c.history cfg ∧
    authId = c.request.authorization.field (js "auth_id") ∧ expiry = c.request.authorization.field (js "expiry")
  | .executeUpstream action token => ∃ c : PresentedCall, c.Verified cfg H input ∧ evs = c.consumed cfg ∧
    action = c.request.action ∧ token = cfg.internalExecutorToken
  | _ => True

end

section

variable {σ ε α β : Type} {H : Host} {cfg : GatewayConfig} {input : JsValue} {evs more : GatewayHistory}
  {allowed : GatewayHistory → GatewayRequest → Prop} {c : PresentedCall}

theorem Quiet.append (h : Quiet evs) (hmore : Quiet more) : Quiet (evs ++ more) := by
  intro e he
  rcases List.mem_append.mp he with he | he
  · exact h e he
  · exact hmore e he

theorem quiet_nil : Quiet [] := by
  intro e he
  cases he

theorem quiet_singleton {e : Sigma GatewayAnswer} (hd : e.1.isDispatch = false)
    (hc : e.1.isConsumption = false) : Quiet [e] := by
  intro x hx
  rw [List.mem_singleton.mp hx]
  exact ⟨hd, hc⟩

theorem Quiet.dispatches_eq (h : Quiet evs) : dispatches evs = 0 := by
  rw [dispatches, List.countP_eq_zero]
  intro e he
  simp [(h e he).1]

theorem Quiet.consumptions_eq (h : Quiet evs) : consumptions evs = 0 := by
  rw [consumptions, List.countP_eq_zero]
  intro e he
  simp [(h e he).2]

theorem dispatches_append (evs more : GatewayHistory) : dispatches (evs ++ more) = dispatches evs + dispatches more :=
  List.countP_append

theorem PresentedCall.history_quiet : Quiet (c.history cfg) := by
  have hhash : Quiet (if cfg.hashAction then [⟨.hashAction c.request.action, .ok c.request.intentHash⟩] else []) := by
    split
    · exact quiet_singleton rfl rfl
    · exact quiet_nil
  have hrest : Quiet [⟨.clock, .ok c.now⟩, ⟨.trustedKeySets, c.keySets⟩] :=
    (quiet_singleton (e := ⟨.clock, .ok c.now⟩) rfl rfl).append (quiet_singleton rfl rfl)
  exact (((quiet_singleton rfl rfl).append hhash).append hrest).append (quiet_singleton rfl rfl)

theorem PresentedCall.dispatches_consumed {answer : Except GatewayFault JsValue} :
    dispatches (c.history cfg ++ [c.consumption answer]) = 0 := by
  rw [dispatches_append, c.history_quiet.dispatches_eq]
  rfl

theorem PresentedCall.dispatches_dispatched {answer : Except GatewayFault UpstreamReturn} :
    dispatches (c.dispatched cfg answer) = 1 := by
  rw [PresentedCall.dispatched, dispatches_append, PresentedCall.consumed, PresentedCall.dispatches_consumed]
  rfl

/-- Requests that no condition is put on. -/
def GatewayRequest.isFree (i : GatewayRequest) : Bool := !i.isDispatch && !i.isConsumption

theorem gatewayMediated_free {i : GatewayRequest} (hi : i.isFree = true) : GatewayMediated H cfg input evs i := by
  cases i <;> trivial

theorem andThen_follows {m : GatewayCall σ (Except ε α)} {k : α → GatewayCall σ (Except ε β)}
    {mid : Except ε α → GatewayHistory → Prop} {post : Except ε β → GatewayHistory → Prop}
    (h : m.Follows allowed evs mid) (herr : ∀ e evs, mid (.error e) evs → post (.error e) evs)
    (hk : ∀ a evs, mid (.ok a) evs → (k a).Follows allowed evs post) :
    (andThen m k).Follows allowed evs post := by
  refine h.bind fun r evs hr => ?_
  cases r with
  | error e => exact Call.follows_pure (herr e evs hr)
  | ok a => exact hk a evs hr

/-- A denial comes after quiet requests only, and an answer after these. -/
structure Prepares (post : α → GatewayHistory → Prop) (r : Except JsString α) (evs : GatewayHistory) : Prop where
  denied : ∀ reason, r = .error reason → Quiet evs
  goesOn : ∀ a, r = .ok a → post a evs

theorem prepares_error {post : α → GatewayHistory → Prop} {reason : JsString} (h : Quiet evs) :
    Prepares post (.error reason) evs := ⟨fun _ _ => h, nofun⟩

theorem prepares_ok {post : α → GatewayHistory → Prop} {a : α} (h : post a evs) : Prepares post (.ok a) evs :=
  ⟨nofun, fun _ hb => Except.ok.inj hb ▸ h⟩

theorem prepares_andThen {m : GatewayCall σ (Except JsString α)} {k : α → GatewayCall σ (Except JsString β)}
    {mid : α → GatewayHistory → Prop} {post : β → GatewayHistory → Prop}
    (h : m.Follows allowed evs (Prepares mid))
    (hk : ∀ a evs, mid a evs → (k a).Follows allowed evs (Prepares post)) :
    (andThen m k).Follows allowed evs (Prepares post) :=
  andThen_follows h (fun _ _ hr => prepares_error (hr.denied _ rfl)) fun a evs hr => hk a evs (hr.goesOn a rfl)

theorem denied_follows {what : JsString} {fault : GatewayFault} {post : α → GatewayHistory → Prop} (h : Quiet evs) :
    (denied what fault : GatewayCall σ (Except JsString α)).Follows allowed evs (Prepares post) := by
  unfold denied
  split
  · exact Call.follows_throw
  · exact Call.follows_pure (prepares_error h)

variable (hfree : ∀ evs i, GatewayRequest.isFree i = true → allowed evs i)

include hfree

theorem snapshotRequest_follows (h : Quiet evs) : (snapshotRequest input : GatewayCall σ _).Follows allowed evs
    (Prepares fun body evs' => evs' = evs ++ [⟨.stack .snapshot, true⟩] ∧
      snapshotValue (nesting input) (js "request") 0 input = .ok body) := by
  refine Call.follows_request_bind (hfree _ _ rfl) fun enough => ?_
  have hquiet : Quiet (evs ++ [⟨.stack .snapshot, enough⟩]) := h.append (quiet_singleton rfl rfl)
  cases enough with
  | false => exact Call.follows_pure (prepares_error hquiet)
  | true =>
    cases hsnapshot : snapshotValue (nesting input) (js "request") 0 input with
    | error reason => exact Call.follows_pure (prepares_error hquiet)
    | ok body => exact Call.follows_pure (prepares_ok ⟨rfl, rfl⟩)

theorem hashRequest_follows {action : JsValue} (h : Quiet evs) :
    (hashRequest H cfg action : GatewayCall σ _).Follows allowed evs (Prepares fun hash evs' =>
      evs' = evs ++ (if cfg.hashAction then [⟨.hashAction action, .ok hash⟩] else []) ∧ (cfg.hashAction = false →
        ∃ text, sha256HexFromJson H.toPlatform action = .ok text ∧ hash = .str text)) := by
  unfold hashRequest
  by_cases hcustom : cfg.hashAction = true
  · rw [if_pos hcustom]
    refine Call.follows_request_bind (hfree _ _ rfl) fun answer => ?_
    cases answer with
    | error fault => exact denied_follows (h.append (quiet_singleton rfl rfl))
    | ok hash =>
      refine Call.follows_pure (prepares_ok ⟨?_, ?_⟩)
      · rw [if_pos hcustom]
      · rw [hcustom]
        exact nofun
  · rw [if_neg hcustom]
    cases hhash : sha256HexFromJson H.toPlatform action with
    | error e => exact Call.follows_pure (prepares_error h)
    | ok text =>
      refine Call.follows_pure (prepares_ok ⟨?_, fun _ => ⟨text, rfl, rfl⟩⟩)
      rw [if_neg hcustom, List.append_nil]

theorem verifyRequest_follows {authorization : JsValue} (h : Quiet evs) :
    (verifyRequest H cfg authorization : GatewayCall σ _).Follows allowed evs (Prepares fun _ evs' =>
      ∃ now keySets, evs' = evs ++ [⟨.clock, .ok now⟩, ⟨.trustedKeySets, keySets⟩] ∧
        ∃ r, verifyAuthorization H now authorization (gatewayOptions cfg now keySets) = .ok r ∧ r.ok = true) := by
  refine Call.follows_request_bind (hfree _ _ rfl) fun answer => ?_
  cases answer with
  | error fault => exact Call.follows_throw
  | ok now =>
    refine Call.follows_request_bind (hfree _ _ rfl) fun keySets => ?_
    cases hverify : verifyAuthorization H now authorization (gatewayOptions cfg now keySets) with
    | error e => exact Call.follows_throw
    | ok result =>
      dsimp only
      split
      · exact Call.follows_pure (prepares_error
          ((h.append (quiet_singleton rfl rfl)).append (quiet_singleton rfl rfl)))
      · rename_i hstatus
        refine Call.follows_pure (prepares_ok ⟨now, keySets, by simp, result, hverify, ?_⟩)
        exact ok_of_status hverify (by simpa using hstatus)

theorem copyAction_follows {action : JsValue} (h : Quiet evs) :
    (copyAction action : GatewayCall σ _).Follows allowed evs (Prepares fun copy evs' =>
      evs' = evs ++ [⟨.stack .copy, true⟩] ∧ copy = mutableCopyOfSnapshot action) := by
  refine Call.follows_request_bind (hfree _ _ rfl) fun enough => ?_
  cases enough with
  | false => exact Call.follows_pure (prepares_error (h.append (quiet_singleton rfl rfl)))
  | true => exact Call.follows_pure (prepares_ok ⟨rfl, rfl⟩)

theorem verifiedRequest_follows : (verifiedRequest H cfg input : GatewayCall σ _).Follows allowed []
    (Prepares fun request evs => ∃ c : PresentedCall, c.Verified cfg H input ∧ evs = c.history cfg ∧
      request = c.request) := by
  unfold verifiedRequest
  split
  · exact Call.follows_pure (prepares_error quiet_nil)
  · rename_i hrecord
    have hrecord : input.isRecord = true := by simpa using hrecord
    refine prepares_andThen (snapshotRequest_follows hfree quiet_nil) fun body _ hbody => ?_
    obtain ⟨rfl, hsnapshot⟩ := hbody
    obtain rfl := snapshotValue_eq hsnapshot
    have hstart : Quiet [⟨.stack .snapshot, true⟩] := quiet_singleton rfl rfl
    dsimp only
    split
    · exact Call.follows_pure (prepares_error hstart)
    · rename_i hcomplete
      have hcomplete : (body.field (js "action")).isUndefined = false ∧
          (body.field (js "authorization")).isTruthy = true := by simpa using hcomplete
      refine prepares_andThen (hashRequest_follows hfree hstart) fun intentHash evs hhash => ?_
      obtain ⟨rfl, hdigest⟩ := hhash
      have hhashed : Quiet ([⟨.stack .snapshot, true⟩] ++
          (if cfg.hashAction then [⟨.hashAction (body.field (js "action")), .ok intentHash⟩] else [])) := by
        refine hstart.append ?_
        split
        · exact quiet_singleton rfl rfl
        · exact quiet_nil
      refine prepares_andThen (verifyRequest_follows hfree hhashed) fun _ _ hverified => ?_
      obtain ⟨now, keySets, rfl, r, hr, hok⟩ := hverified
      have hchecked := hhashed.append ((quiet_singleton (e := ⟨.clock, .ok now⟩) rfl rfl).append
        (quiet_singleton (e := ⟨.trustedKeySets, keySets⟩) rfl rfl))
      split
      · exact Call.follows_pure (prepares_error hchecked)
      · rename_i hsame
        refine prepares_andThen (copyAction_follows hfree hchecked) fun copy _ hcopy => ?_
        obtain ⟨rfl, rfl⟩ := hcopy
        refine Call.follows_pure (prepares_ok ⟨⟨⟨body.field (js "action"), body.field (js "authorization"), intentHash,
          mutableCopyOfSnapshot (body.field (js "action"))⟩, now, keySets⟩, ?_, rfl, rfl⟩)
        refine ⟨hrecord, hsnapshot, rfl, rfl, hcomplete, ?_, hdigest, ⟨r, hr, hok⟩, ?_⟩
        · exact mutableCopyOfSnapshot_field hrecord (mutableCopyOfSnapshot_eq hsnapshot) _
        · obtain ⟨text, -, htext⟩ := JsValue.hasText_iff.mp
            ((verifyAuthorizationBy_accepts rfl rfl).mp ⟨r, hr, hok⟩).intentHash
          rw [htext] at hsame ⊢
          exact (JsValue.str_strictEquals.mp (by simpa using hsame)).symm

end

section

variable {σ : Type} {H : Host} {cfg : GatewayConfig} {input upstream : JsValue} {evs : GatewayHistory}
  {c : PresentedCall}

theorem consumeRequest_follows (hc : c.Verified cfg H input) :
    (consumeRequest c.request.authorization : GatewayCall σ _).Follows (GatewayMediated H cfg input) (c.history cfg)
      (fun r evs => ∃ answer, evs = c.history cfg ++ [c.consumption answer] ∧
        (r = .ok () ↔ answer = .ok (.bool true))) := by
  refine Call.follows_request_bind ⟨c, hc, rfl, rfl, rfl⟩ fun answer => ?_
  rcases answer with fault | v
  · unfold denied
    dsimp only
    split
    · exact Call.follows_throw
    · exact Call.follows_pure ⟨_, rfl, nofun, nofun⟩
  · cases v with
    | bool b =>
      cases b with
      | true => exact Call.follows_pure ⟨_, rfl, fun _ => rfl, fun _ => rfl⟩
      | false => exact Call.follows_pure ⟨_, rfl, nofun, nofun⟩
    | _ => exact Call.follows_pure ⟨_, rfl, nofun, nofun⟩

/-- The upstream was invoked, and nothing was consumed or invoked since. -/
def AfterDispatch (c : PresentedCall) (cfg : GatewayConfig) (evs : GatewayHistory) : Prop :=
  ∃ answer more, evs = c.dispatched cfg answer ++ more ∧ Quiet more

theorem AfterDispatch.append {more : GatewayHistory} (h : AfterDispatch c cfg evs) (hmore : Quiet more) :
    AfterDispatch c cfg (evs ++ more) := by
  obtain ⟨answer, before, rfl, hquiet⟩ := h
  exact ⟨answer, before ++ more, by rw [List.append_assoc], hquiet.append hmore⟩

theorem AfterDispatch.once (h : AfterDispatch c cfg evs) : dispatches evs = 1 := by
  obtain ⟨answer, more, rfl, hquiet⟩ := h
  rw [dispatches_append, hquiet.dispatches_eq, PresentedCall.dispatches_dispatched]

theorem AfterDispatch.indeterminate (h : AfterDispatch c cfg evs) (hc : c.Verified cfg H input)
    {result : PepGatewayResult} (houtcome : result.body.outcome = .indeterminate)
    (hexecuted : result.body.executed = none) (hcalled : result.upstreamCalled = true) :
    Indeterminate H cfg input evs result := by
  refine ⟨houtcome, hexecuted, hcalled, h.once, c, ?_⟩
  obtain ⟨answer, more, rfl, -⟩ := h
  exact ⟨answer, hc, List.prefix_append _ _⟩

/-- A step after the dispatch, which asks quiet requests only. -/
def StepsOn {α : Type} (c : PresentedCall) (cfg : GatewayConfig) (post : α → GatewayHistory → Prop)
    (r : Except GatewayFault α) (evs : GatewayHistory) : Prop :=
  AfterDispatch c cfg evs ∧ ∀ a, r = .ok a → post a evs

theorem stepsOn_andThen {α β : Type} {m : GatewayCall σ (Except GatewayFault α)}
    {k : α → GatewayCall σ (Except GatewayFault β)} {mid : α → GatewayHistory → Prop}
    {post : β → GatewayHistory → Prop} {allowed : GatewayHistory → GatewayRequest → Prop}
    (h : m.Follows allowed evs (StepsOn c cfg mid))
    (hk : ∀ a evs, AfterDispatch c cfg evs → mid a evs → (k a).Follows allowed evs (StepsOn c cfg post)) :
    (andThen m k).Follows allowed evs (StepsOn c cfg post) :=
  andThen_follows h (fun _ _ hr => ⟨hr.1, nofun⟩) fun a evs hr => hk a evs hr.1 (hr.2 a rfl)

theorem afterDispatch_dispatched {answer : Except GatewayFault UpstreamReturn} :
    AfterDispatch c cfg (c.dispatched cfg answer) :=
  ⟨answer, [], (List.append_nil _).symm, quiet_nil⟩

theorem awaitUpstream_follows (hc : c.Verified cfg H input) :
    (awaitUpstream cfg c.request : GatewayCall σ _).Follows (GatewayMediated H cfg input) (c.consumed cfg)
      (StepsOn c cfg fun upstream evs => ∃ ret settled, SettledInTime cfg.timeoutMs ret upstream settled ∧
        evs = c.dispatched cfg (.ok ret) ++ settled) := by
  have hinvoked : (askExecuteUpstream c.request.upstreamAction cfg.internalExecutorToken : GatewayCall σ _).Follows
      (GatewayMediated H cfg input) (c.consumed cfg) (fun answer evs => evs = c.dispatched cfg answer) := by
    rw [hc.copy]
    exact Call.follows_request ⟨c, hc, rfl, rfl, rfl⟩ fun answer => rfl
  refine andThen_follows hinvoked (fun fault evs hevs => ?_) fun ret evs hevs => ?_
  · rw [hevs]
    exact ⟨afterDispatch_dispatched, nofun⟩
  subst hevs
  by_cases htimed : isTimed cfg.timeoutMs = true
  · cases ret with
    | value v =>
      rw [withTimeout, if_pos htimed]
      exact Call.follows_pure ⟨afterDispatch_dispatched, nofun⟩
    | promise =>
      rw [withTimeout, if_pos htimed]
      refine Call.follows_request_bind (gatewayMediated_free rfl) fun answer => ?_
      have hafter : AfterDispatch c cfg (c.dispatched cfg (.ok .promise) ++ [⟨.settledWithin cfg.timeoutMs, answer⟩]) :=
        afterDispatch_dispatched.append (quiet_singleton rfl rfl)
      cases answer with
      | none => exact Call.follows_pure ⟨hafter, nofun⟩
      | some settled =>
        refine Call.follows_pure ⟨hafter, fun upstream h => ?_⟩
        rw [h]
        exact ⟨.promise, _, .within upstream htimed, rfl⟩
  · have huntimed : isTimed cfg.timeoutMs = false := by simpa using htimed
    cases ret with
    | value v =>
      rw [withTimeout, if_neg htimed]
      refine Call.follows_pure ⟨afterDispatch_dispatched, fun upstream h => ?_⟩
      obtain rfl := Except.ok.inj h
      exact ⟨.value v, [], .value v huntimed, (List.append_nil _).symm⟩
    | promise =>
      rw [withTimeout, if_neg htimed]
      refine Call.follows_request (gatewayMediated_free rfl) fun answer => ?_
      refine ⟨afterDispatch_dispatched.append (quiet_singleton rfl rfl), fun upstream h => ?_⟩
      rw [h]
      exact ⟨.promise, _, .settled upstream huntimed, rfl⟩

theorem askField_follows {field : JsString} (h : AfterDispatch c cfg evs) :
    (askField upstream field : GatewayCall σ _).Follows (GatewayMediated H cfg input) evs
      (StepsOn c cfg fun v evs' => evs' = evs ++ [⟨.readUpstream upstream field, .ok v⟩]) := by
  refine Call.follows_request (gatewayMediated_free rfl) fun answer => ?_
  refine ⟨h.append (quiet_singleton rfl rfl), fun v hv => ?_⟩
  rw [hv]

theorem readField_follows {field : JsString} (h : AfterDispatch c cfg evs) :
    (readField upstream field : GatewayCall σ _).Follows (GatewayMediated H cfg input) evs
      (StepsOn c cfg fun v evs' => evs' = evs ++ [⟨.readUpstream upstream field, .ok v⟩]) := by
  unfold readField
  split
  · exact Call.follows_pure ⟨h, nofun⟩
  · exact askField_follows h

theorem readOptionalField_follows {field : JsString} (h : AfterDispatch c cfg evs) :
    (readOptionalField upstream field : GatewayCall σ _).Follows (GatewayMediated H cfg input) evs
      (StepsOn c cfg fun v evs' => v = .undefined ∨ evs' = evs ++ [⟨.readUpstream upstream field, .ok v⟩]) := by
  unfold readOptionalField
  split
  · exact Call.follows_pure ⟨h, fun v hv => .inl (Except.ok.inj hv).symm⟩
  · exact (askField_follows h).imp fun _ _ hv => ⟨hv.1, fun v hok => .inr (hv.2 v hok)⟩

theorem upstreamSuccess_follows (h : AfterDispatch c cfg evs) :
    (upstreamSuccess cfg upstream : GatewayCall σ _).Follows (GatewayMediated H cfg input) evs
      (StepsOn c cfg fun success evs' => success = true →
        ∃ judged, SatisfiesContract cfg upstream judged ∧ evs' = evs ++ judged) := by
  unfold upstreamSuccess
  by_cases hcustom : cfg.isUpstreamSuccess = true
  · rw [if_pos hcustom]
    have hasked : (askUpstreamSuccess upstream : GatewayCall σ _).Follows (GatewayMediated H cfg input) evs
        (StepsOn c cfg fun v evs' => evs' = evs ++ [⟨.isUpstreamSuccess upstream, .ok v⟩]) := by
      refine Call.follows_request (gatewayMediated_free rfl) fun answer => ?_
      refine ⟨h.append (quiet_singleton rfl rfl), fun v hv => ?_⟩
      rw [hv]
    refine stepsOn_andThen hasked fun answer evs' hafter hevs => Call.follows_pure ⟨hafter, fun b hb ht => ?_⟩
    rw [← Except.ok.inj hb] at ht
    exact ⟨_, .custom answer hcustom ht, hevs⟩
  · rw [if_neg hcustom, defaultUpstreamSuccess]
    refine stepsOn_andThen (readOptionalField_follows h) fun status evs' hafter hevs =>
      Call.follows_pure ⟨hafter, fun b hb ht => ?_⟩
    rw [← Except.ok.inj hb] at ht
    rcases hevs with rfl | hevs
    · cases ht
    · exact ⟨_, .status status (by simpa using hcustom) ht, hevs⟩

theorem unconfirmed_follows (hc : c.Verified cfg H input) (h : AfterDispatch c cfg evs) :
    (unconfirmed c.request upstream : GatewayCall σ _).Follows (GatewayMediated H cfg input) evs
      (StepsOn c cfg fun result evs => Indeterminate H cfg input evs result) := by
  refine stepsOn_andThen (readOptionalField_follows h) fun status _ hstatus _ => ?_
  refine stepsOn_andThen (readOptionalField_follows hstatus) fun body _ hbody _ => ?_
  refine Call.follows_pure ⟨hbody, fun result hr => ?_⟩
  rw [← Except.ok.inj hr]
  exact hbody.indeterminate hc rfl rfl rfl

theorem attempt_follows (hc : c.Verified cfg H input) :
    (attempt cfg c.request : GatewayCall σ _).Follows (GatewayMediated H cfg input) (c.consumed cfg)
      (StepsOn c cfg fun result evs => Executed H cfg input evs result ∨ Indeterminate H cfg input evs result) := by
  refine stepsOn_andThen (awaitUpstream_follows hc) fun upstream _ hafter hsettled => ?_
  refine stepsOn_andThen (upstreamSuccess_follows hafter) fun success _ hjudged hcontract => ?_
  cases success with
  | false =>
    exact (unconfirmed_follows hc hjudged).imp fun _ _ hr => ⟨hr.1, fun result hok => .inr (hr.2 result hok)⟩
  | true =>
    obtain ⟨ret, settled, hintime, rfl⟩ := hsettled
    obtain ⟨judged, hsatisfies, rfl⟩ := hcontract rfl
    refine stepsOn_andThen (readField_follows hjudged) fun body evs' hbody hevs => ?_
    refine Call.follows_pure ⟨hbody, fun result hr => .inl ?_⟩
    rw [← Except.ok.inj hr]
    exact ⟨rfl, rfl, rfl, hbody.once, c, ret, upstream, body, settled, judged, hc, hintime, hsatisfies, hevs⟩

theorem afterFault_follows {fault : GatewayFault} (hc : c.Verified cfg H input) (h : AfterDispatch c cfg evs) :
    (afterFault c.request fault : GatewayCall σ _).Follows (GatewayMediated H cfg input) evs
      (fun result evs => Indeterminate H cfg input evs result) := by
  unfold afterFault
  split
  · exact Call.follows_throw
  · split
    · exact Call.follows_pure (h.indeterminate hc rfl rfl rfl)
    · split
      · exact Call.follows_throw
      · exact Call.follows_pure (h.indeterminate hc rfl rfl rfl)

theorem dispatch_follows (hc : c.Verified cfg H input) :
    (dispatch cfg c.request : GatewayCall σ _).Follows (GatewayMediated H cfg input) (c.consumed cfg)
      (fun result evs => Executed H cfg input evs result ∨ Indeterminate H cfg input evs result) := by
  refine (attempt_follows hc).bind fun r evs hr => ?_
  cases r with
  | error fault => exact (afterFault_follows hc hr.1).imp fun _ _ => .inr
  | ok result => exact Call.follows_pure (hr.2 result rfl)

theorem notDispatched_of_quiet {reason : JsString} (h : Quiet evs) :
    NotDispatched H cfg input evs (deny reason) :=
  ⟨rfl, rfl, rfl, h.dispatches_eq, .inl h.consumptions_eq⟩

theorem executeThroughPep_follows : (executeThroughPep H cfg input : GatewayCall σ _).Follows
    (GatewayMediated H cfg input) [] (fun result evs => Trichotomy H cfg input evs result) := by
  refine (verifiedRequest_follows fun _ _ => gatewayMediated_free).bind fun r evs hr => ?_
  cases r with
  | error reason => exact Call.follows_pure (.inl (notDispatched_of_quiet (hr.denied reason rfl)))
  | ok request =>
    obtain ⟨c, hc, rfl, rfl⟩ := hr.goesOn request rfl
    refine (consumeRequest_follows hc).bind fun r evs hr => ?_
    obtain ⟨answer, rfl, hanswer⟩ := hr
    cases r with
    | error reason =>
      refine Call.follows_pure (.inl ⟨rfl, rfl, rfl, c.dispatches_consumed, .inr ⟨c, answer, hc, fun htrue => ?_, rfl⟩⟩)
      cases hanswer.mpr htrue
    | ok _ =>
      obtain rfl := hanswer.mp rfl
      exact (dispatch_follows hc).imp fun _ _ => .inr

end

section

variable {σ ε α β : Type} {H : Host} {cfg : GatewayConfig} {input upstream body : JsValue} {c : PresentedCall}
  {evs more settled judged : GatewayHistory} {ret : UpstreamReturn}

theorem andThen_returns {m : GatewayCall σ (Except ε α)} {k : α → GatewayCall σ (Except ε β)} {a : α}
    {r : Except ε β} (h : m.Returns evs (.ok a)) (hk : (k a).Returns more r) : (andThen m k).Returns (evs ++ more) r :=
  h.bind hk

theorem snapshotRequest_returns (h : snapshotValue (nesting input) (js "request") 0 input = .ok input) :
    (snapshotRequest input : GatewayCall σ _).Returns [⟨.stack .snapshot, true⟩] (.ok input) := by
  refine Call.returns_request_bind ?_
  dsimp only
  rw [h]
  exact Call.returns_pure

theorem hashRequest_returns (h : cfg.hashAction = false →
    ∃ hash, sha256HexFromJson H.toPlatform c.request.action = .ok hash ∧ c.request.intentHash = .str hash) :
    (hashRequest H cfg c.request.action : GatewayCall σ _).Returns
      (if cfg.hashAction then [⟨.hashAction c.request.action, .ok c.request.intentHash⟩] else [])
        (.ok c.request.intentHash) := by
  unfold hashRequest
  by_cases hcustom : cfg.hashAction = true
  · rw [if_pos hcustom, if_pos hcustom]
    exact Call.returns_request_bind Call.returns_pure
  · rw [if_neg hcustom, if_neg hcustom]
    obtain ⟨hash, hhash, hintent⟩ := h (by simpa using hcustom)
    rw [hhash, hintent]
    exact Call.returns_pure

theorem verifyRequest_returns {authorization : JsValue} {now : JsNumber} {keySets : List KeySet}
    (h : ∃ r, verifyAuthorization H now authorization (gatewayOptions cfg now keySets) = .ok r ∧ r.ok = true) :
    (verifyRequest H cfg authorization : GatewayCall σ _).Returns
      [⟨.clock, .ok now⟩, ⟨.trustedKeySets, keySets⟩] (.ok ()) := by
  obtain ⟨r, hr, hok⟩ := h
  refine Call.returns_request_bind ?_
  refine Call.returns_request_bind ?_
  rw [hr]
  dsimp only
  rw [if_neg (by simp [status_of_ok hr hok])]
  exact Call.returns_pure

/-- A call that is verified gets as far as the consumption. -/
theorem verifiedRequest_returns (hc : c.Verified cfg H input) :
    (verifiedRequest H cfg input : GatewayCall σ _).Returns (c.history cfg) (.ok c.request) := by
  have hhistory : c.history cfg = [⟨.stack .snapshot, true⟩] ++
      ((if cfg.hashAction then [⟨.hashAction c.request.action, .ok c.request.intentHash⟩] else []) ++
        ([⟨.clock, .ok c.now⟩, ⟨.trustedKeySets, c.keySets⟩] ++ ([⟨.stack .copy, true⟩] ++ []))) := by
    simp [PresentedCall.history, PresentedCall.hashed]
  have hcomplete : ¬(c.request.action.isUndefined || !c.request.authorization.isTruthy) = true := by
    simp [hc.complete]
  have hbound : ¬(!(c.request.authorization.field (js "intent_hash")).strictEquals c.request.intentHash) = true := by
    obtain ⟨text, -, htext⟩ := JsValue.hasText_iff.mp
      ((verifyAuthorizationBy_accepts rfl rfl).mp hc.accepted).intentHash
    rw [← hc.bound, htext]
    simp [JsValue.strictEquals]
  have hcopy : (copyAction c.request.action : GatewayCall σ _).Returns [⟨.stack .copy, true⟩]
      (.ok c.request.upstreamAction) := by
    have heq : mutableCopyOfSnapshot c.request.action = c.request.upstreamAction := by
      rw [hc.copy, hc.action, mutableCopyOfSnapshot_field hc.isRecord (mutableCopyOfSnapshot_eq hc.snapshot)]
    rw [← heq]
    exact Call.returns_request_bind Call.returns_pure
  unfold verifiedRequest
  rw [if_neg (by simp [hc.isRecord]), hhistory]
  refine andThen_returns (snapshotRequest_returns hc.snapshot) ?_
  dsimp only
  rw [← hc.action, ← hc.authorization, if_neg hcomplete]
  refine andThen_returns (hashRequest_returns hc.intentHash) ?_
  refine andThen_returns (verifyRequest_returns hc.accepted) ?_
  rw [if_neg hbound]
  exact andThen_returns hcopy Call.returns_pure

theorem consumeRequest_returns : (consumeRequest c.request.authorization : GatewayCall σ _).Returns
    [c.consumption (.ok (.bool true))] (.ok ()) := Call.returns_request_bind Call.returns_pure

theorem awaitUpstream_returns (hcopy : c.request.upstreamAction = c.request.action)
    (h : SettledInTime cfg.timeoutMs ret upstream settled) :
    (awaitUpstream cfg c.request : GatewayCall σ _).Returns ([c.invocation cfg (.ok ret)] ++ settled)
      (.ok upstream) := by
  unfold awaitUpstream
  rw [hcopy]
  refine andThen_returns Call.returns_request ?_
  cases h with
  | value _ htimed =>
    rw [withTimeout, if_neg (by simp [htimed])]
    exact Call.returns_pure
  | settled _ htimed =>
    rw [withTimeout, if_neg (by simp [htimed])]
    exact Call.returns_request
  | within _ htimed =>
    rw [withTimeout, if_pos htimed]
    exact Call.returns_request_bind Call.returns_pure

theorem upstreamSuccess_returns (hnull : upstream.isNullish = false) (h : SatisfiesContract cfg upstream judged) :
    (upstreamSuccess cfg upstream : GatewayCall σ _).Returns judged (.ok true) := by
  unfold upstreamSuccess
  cases h with
  | custom answer hcustom ht =>
    have hasked : (askUpstreamSuccess upstream : GatewayCall σ _).Returns
        [⟨.isUpstreamSuccess upstream, .ok answer⟩] (.ok answer) := Call.returns_request
    rw [if_pos hcustom, ← ht]
    exact andThen_returns hasked Call.returns_pure
  | status status hdefault hs =>
    have hread : (askField upstream (js "status") : GatewayCall σ _).Returns
        [⟨.readUpstream upstream (js "status"), .ok status⟩] (.ok status) := Call.returns_request
    rw [if_neg (by simp [hdefault]), defaultUpstreamSuccess, readOptionalField, if_neg (by simp [hnull]), ← hs]
    exact andThen_returns hread Call.returns_pure

/-- The result of a confirmed call. -/
def confirmedResult (request : VerifiedRequest) (body : JsValue) : PepGatewayResult :=
  ⟨200, true, { dispatchedBody request .executed (some true) with upstreamResult := some body }⟩

/-- A verified call is executed when the store permits it and the upstream confirms. -/
theorem executeThroughPep_returns (hc : c.Verified cfg H input) (hnull : upstream.isNullish = false)
    (hsettled : SettledInTime cfg.timeoutMs ret upstream settled) (hjudged : SatisfiesContract cfg upstream judged) :
    (executeThroughPep H cfg input : GatewayCall σ _).Returns
      (c.dispatched cfg (.ok ret) ++ settled ++ judged ++ [⟨.readUpstream upstream (js "body"), .ok body⟩])
        (confirmedResult c.request body) := by
  have hconfirmed : (confirmed c.request upstream : GatewayCall σ _).Returns
      ([⟨.readUpstream upstream (js "body"), .ok body⟩] ++ []) (.ok (confirmedResult c.request body)) := by
    unfold confirmed readField
    rw [if_neg (by simp [hnull])]
    exact andThen_returns Call.returns_request Call.returns_pure
  have hattempt := andThen_returns (awaitUpstream_returns (σ := σ) hc.copy hsettled)
    (k := fun upstream => andThen (upstreamSuccess cfg upstream) fun success =>
      if !success then unconfirmed c.request upstream else confirmed c.request upstream)
    (andThen_returns (upstreamSuccess_returns hnull hjudged) hconfirmed)
  have hdispatch : (dispatch cfg c.request : GatewayCall σ _).Returns _ (confirmedResult c.request body) :=
    hattempt.bind Call.returns_pure
  have hevs : c.dispatched cfg (.ok ret) ++ settled ++ judged ++ [⟨.readUpstream upstream (js "body"), .ok body⟩] =
      c.history cfg ++ ([c.consumption (.ok (.bool true))] ++ ([c.invocation cfg (.ok ret)] ++ settled ++
        (judged ++ ([⟨.readUpstream upstream (js "body"), .ok body⟩] ++ [])) ++ [])) := by
    simp [PresentedCall.dispatched, PresentedCall.consumed]
  rw [hevs]
  exact (verifiedRequest_returns hc).bind (consumeRequest_returns.bind hdispatch)

end

theorem sampleAudience_ne_nil : js "svc" ≠ [] := List.cons_ne_nil _ _

theorem sampleToken_ne_nil : js "token" ≠ [] := List.cons_ne_nil _ _

def sampleGatewayConfig : GatewayConfig where
  expectedAudience := js "svc"
  internalExecutorToken := js "token"
  trustedAuthorizationAuthorities := [⟨js "issuer-1", js "p1"⟩]
  hashAction := true
  audience := sampleAudience_ne_nil
  token := sampleToken_ne_nil

def samplePresentedCall : PresentedCall where
  request := ⟨samplePaymentIntent, issuedAuthorization (js "svc") (js "11"), .str (js "11"), samplePaymentIntent⟩
  now := .int 1000
  keySets := [sampleKeySet]

def sampleGatewayInput : JsValue :=
  .obj [(js "action", samplePaymentIntent), (js "authorization", issuedAuthorization (js "svc") (js "11"))]

theorem samplePresentedCall_verified :
    samplePresentedCall.Verified sampleGatewayConfig sampleHost sampleGatewayInput where
  isRecord := rfl
  snapshot := rfl
  action := rfl
  authorization := rfl
  complete := ⟨rfl, rfl⟩
  copy := rfl
  intentHash := nofun
  accepted := by
    have haccepted : StrictlyVerified sampleHost sampleGuardConfig (.int 1000) [sampleKeySet]
        (some [⟨js "issuer-1", js "p1"⟩]) (issuedAuthorization sampleGuardConfig.expectedAudience (js "11")) :=
      issuedAuthorization_verified (by decide) fun trusted h => by
        rw [← Option.some.inj h]
        exact List.mem_singleton.mpr rfl
    exact haccepted
  bound := rfl

/-- The upstream answers in time, with the status 204. -/
def sampleUpstream : JsValue := .obj [(js "status", .num (.int 204))]

end OxDeAI
