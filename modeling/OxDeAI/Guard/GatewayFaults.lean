import OxDeAI.Guard.GatewayOutcomes

/-! A fault of the upstream: what the gateway can look at becomes a result in doubt, what
it cannot is thrown on. -/

namespace OxDeAI

open Js Async

/-- What the upstream threw: its executor, its promise, the check of its success, or a
look at its response. -/
def upstreamFault : Sigma GatewayAnswer → Option GatewayFault
  | ⟨.executeUpstream _ _, .error fault⟩ => some fault
  | ⟨.settled, .error fault⟩ => some fault
  | ⟨.settledWithin _, some (.error fault)⟩ => some fault
  | ⟨.isUpstreamSuccess _, .error fault⟩ => some fault
  | ⟨.readUpstream _ _, .error fault⟩ => some fault
  | _ => none

def upstreamFaults (evs : GatewayHistory) : List GatewayFault := evs.filterMap upstreamFault

/-- The gateway can look at the fault: it is a timeout, or it has a text. -/
def Showable (fault : GatewayFault) : Prop :=
  fault.readable = true ∧ (isTimeout fault = true ∨ fault.text.isSome = true)

/-- A call that ends in a result says what happened to it; one that throws never
reached the upstream. -/
def CallAccounted (H : Host) (cfg : GatewayConfig) (input : JsValue) (evs : GatewayHistory) :
    Except GatewayFault PepGatewayResult → Prop
  | .ok result => Trichotomy H cfg input evs result
  | .error _ => dispatches evs = 0

section

variable {σ ε α β : Type} {H : Host} {cfg : GatewayConfig} {input upstream : JsValue} {evs : GatewayHistory}
  {request : VerifiedRequest} {fault : GatewayFault} {t : PUnit} {n : ℕ}
  {E : GatewayFault → PUnit → GatewayHistory → Prop}

/-- Nothing was thrown by the upstream, which was invoked `n` times. -/
structure NoFault (n : ℕ) (evs : GatewayHistory) : Prop where
  faults : upstreamFaults evs = []
  invoked : dispatches evs = n

theorem NoFault.snoc {e : Sigma GatewayAnswer} (h : NoFault n evs) (hfault : upstreamFault e = none)
    (hdispatch : e.1.isDispatch = false) : NoFault n (evs ++ [e]) := by
  constructor
  · rw [upstreamFaults, List.filterMap_append, List.filterMap_cons_none hfault, List.filterMap_nil, List.append_nil]
    exact h.faults
  · rw [dispatches_append, h.invoked]
    simp [dispatches, hdispatch]

/-- The upstream was invoked once, and the fault is all it threw, or is one that the
gateway can look at. -/
structure Faulted (fault : GatewayFault) (evs : GatewayHistory) : Prop where
  once : dispatches evs = 1
  only : ∀ other ∈ upstreamFaults evs, other = fault
  thrown : fault ∈ upstreamFaults evs ∨ Showable fault

theorem NoFault.faulted (h : NoFault 1 evs) (hshow : Showable fault) : Faulted fault evs :=
  ⟨h.invoked, by simp [h.faults], .inr hshow⟩

/-- The answer of the upstream is a fault. -/
theorem NoFault.faulted_snoc {e : Sigma GatewayAnswer} (h : NoFault n evs) (hfault : upstreamFault e = some fault)
    (hdispatch : dispatches [e] + n = 1) : Faulted fault (evs ++ [e]) := by
  have hfaults : upstreamFaults (evs ++ [e]) = [fault] := by
    rw [upstreamFaults, List.filterMap_append, List.filterMap_cons_some hfault, List.filterMap_nil]
    rw [show evs.filterMap upstreamFault = [] from h.faults, List.nil_append]
  refine ⟨?_, by simp [hfaults], by simp [hfaults]⟩
  rw [dispatches_append, h.invoked]
  omega

theorem NoFault.dispatched {action : JsValue} {token : JsString} {ret : UpstreamReturn} (h : NoFault 0 evs) :
    NoFault 1 (evs ++ [⟨.executeUpstream action token, .ok ret⟩]) := by
  constructor
  · rw [upstreamFaults, List.filterMap_append, show evs.filterMap upstreamFault = [] from h.faults]
    rfl
  · rw [dispatches_append, h.invoked]
    rfl

/-- How a step after the dispatch ends. -/
def Dispatching : Except GatewayFault α → GatewayHistory → Prop
  | .ok _, evs => NoFault 1 evs
  | .error fault, evs => Faulted fault evs

theorem tracks_andThen {m : GatewayCall σ (Except GatewayFault α)} {k : α → GatewayCall σ (Except GatewayFault β)}
    (h : m.Tracks t evs E (fun r _ evs => Dispatching r evs))
    (hk : ∀ a t evs, NoFault 1 evs → (k a).Tracks t evs E (fun r _ evs => Dispatching r evs)) :
    (andThen m k).Tracks t evs E (fun r _ evs => Dispatching r evs) := by
  refine h.bind fun r t evs hr => ?_
  cases r with
  | error e => exact Call.tracks_pure hr
  | ok a => exact hk a t evs hr

theorem withTimeout_tracks {timeoutMs : JsNumber} {ret : UpstreamReturn} (h : NoFault 1 evs) :
    (withTimeout timeoutMs ret : GatewayCall σ _).Tracks t evs E (fun r _ evs => Dispatching r evs) := by
  by_cases htimed : isTimed timeoutMs = true
  · cases ret with
    | value v =>
      rw [withTimeout, if_pos htimed]
      exact Call.tracks_pure (h.faulted ⟨rfl, .inr rfl⟩)
    | promise =>
      rw [withTimeout, if_pos htimed]
      refine Call.tracks_request_bind fun answer => ?_
      rcases answer with _ | fault | upstream
      · exact Call.tracks_pure ((h.snoc rfl rfl).faulted ⟨rfl, .inl (by decide)⟩)
      · exact Call.tracks_pure (h.faulted_snoc rfl rfl)
      · exact Call.tracks_pure (h.snoc rfl rfl)
  · cases ret with
    | value v =>
      rw [withTimeout, if_neg htimed]
      exact Call.tracks_pure h
    | promise =>
      rw [withTimeout, if_neg htimed]
      refine Call.tracks_request fun answer => ?_
      rcases answer with fault | upstream
      · exact h.faulted_snoc rfl rfl
      · exact h.snoc rfl rfl

theorem awaitUpstream_tracks (h : NoFault 0 evs) :
    (awaitUpstream cfg request : GatewayCall σ _).Tracks t evs E (fun r _ evs => Dispatching r evs) := by
  have hinvoked : (askExecuteUpstream request.upstreamAction cfg.internalExecutorToken : GatewayCall σ _).Tracks t evs E
      (fun r _ evs => Dispatching r evs) := by
    refine Call.tracks_request_bind fun answer => ?_
    rcases answer with fault | ret
    · exact Call.tracks_pure (h.faulted_snoc rfl rfl)
    · exact Call.tracks_pure h.dispatched
  exact tracks_andThen hinvoked fun ret t evs hclear => withTimeout_tracks hclear

theorem askField_tracks {field : JsString} (h : NoFault 1 evs) :
    (askField upstream field : GatewayCall σ _).Tracks t evs E (fun r _ evs => Dispatching r evs) := by
  refine Call.tracks_request_bind fun answer => ?_
  rcases answer with fault | v
  · exact Call.tracks_pure (h.faulted_snoc rfl rfl)
  · exact Call.tracks_pure (h.snoc rfl rfl)

theorem readOptionalField_tracks {field : JsString} (h : NoFault 1 evs) :
    (readOptionalField upstream field : GatewayCall σ _).Tracks t evs E (fun r _ evs => Dispatching r evs) := by
  unfold readOptionalField
  split
  · exact Call.tracks_pure h
  · exact askField_tracks h

theorem readField_tracks {field : JsString} (h : NoFault 1 evs) :
    (readField upstream field : GatewayCall σ _).Tracks t evs E (fun r _ evs => Dispatching r evs) := by
  unfold readField
  split
  · exact Call.tracks_pure (h.faulted ⟨rfl, .inr rfl⟩)
  · exact askField_tracks h

theorem upstreamSuccess_tracks (h : NoFault 1 evs) :
    (upstreamSuccess cfg upstream : GatewayCall σ _).Tracks t evs E (fun r _ evs => Dispatching r evs) := by
  unfold upstreamSuccess
  split
  · have hasked : (askUpstreamSuccess upstream : GatewayCall σ _).Tracks t evs E
        (fun r _ evs => Dispatching r evs) := by
      refine Call.tracks_request_bind fun answer => ?_
      rcases answer with fault | v
      · exact Call.tracks_pure (h.faulted_snoc rfl rfl)
      · exact Call.tracks_pure (h.snoc rfl rfl)
    exact tracks_andThen hasked fun _ _ _ hclear => Call.tracks_pure hclear
  · exact tracks_andThen (readOptionalField_tracks h) fun _ _ _ hclear => Call.tracks_pure hclear

/-- From the dispatch to the result or the fault that is caught. -/
theorem attempt_tracks (h : NoFault 0 evs) :
    (attempt cfg request : GatewayCall σ _).Tracks t evs E (fun r _ evs => Dispatching r evs) := by
  refine tracks_andThen (awaitUpstream_tracks h) fun upstream _ _ hclear => ?_
  refine tracks_andThen (upstreamSuccess_tracks hclear) fun success _ _ hclear => ?_
  split
  · refine tracks_andThen (readOptionalField_tracks hclear) fun status _ _ hclear => ?_
    exact tracks_andThen (readOptionalField_tracks hclear) fun body _ _ hclear => Call.tracks_pure hclear
  · exact tracks_andThen (readField_tracks hclear) fun body _ _ hclear => Call.tracks_pure hclear

/-- What a call that throws leaves behind: either it never reached the upstream, or the
upstream threw what the gateway cannot look at. -/
def Unaccounted (evs : GatewayHistory) : Prop :=
  NoFault 0 evs ∨ dispatches evs = 1 ∧ ∃ fault ∈ upstreamFaults evs, ¬ Showable fault

def AllShowable (evs : GatewayHistory) : Prop := ∀ fault ∈ upstreamFaults evs, Showable fault

theorem NoFault.allShowable (h : NoFault n evs) : AllShowable evs := by
  intro fault hfault
  rw [h.faults] at hfault
  cases hfault

theorem Faulted.allShowable (h : Faulted fault evs) (hshow : Showable fault) : AllShowable evs := by
  intro other hother
  rwa [h.only other hother]

theorem Faulted.unaccounted (h : Faulted fault evs) (hshow : ¬ Showable fault) : Unaccounted evs :=
  .inr ⟨h.once, fault, h.thrown.resolve_right hshow, hshow⟩

theorem afterFault_tracks (h : Faulted fault evs) :
    (afterFault request fault : GatewayCall σ _).Tracks t evs (fun _ _ evs => Unaccounted evs)
      (fun _ _ evs => AllShowable evs) := by
  unfold afterFault
  split
  · rename_i hreadable
    exact Call.tracks_throw (h.unaccounted fun hshow => by simp [hshow.1] at hreadable)
  · rename_i hreadable
    have hreadable : fault.readable = true := by simpa using hreadable
    split
    · rename_i htimeout
      exact Call.tracks_pure (h.allShowable ⟨hreadable, .inl htimeout⟩)
    · rename_i htimeout
      split
      · rename_i htext
        have hnot : ¬ Showable fault := by
          rintro ⟨-, htimed | hsome⟩
          · exact htimeout htimed
          · rw [htext] at hsome
            cases hsome
        exact Call.tracks_throw (h.unaccounted hnot)
      · rename_i htext
        exact Call.tracks_pure (h.allShowable ⟨hreadable, .inr (by rw [htext]; rfl)⟩)

theorem dispatch_tracks (h : NoFault 0 evs) :
    (dispatch cfg request : GatewayCall σ _).Tracks t evs (fun _ _ evs => Unaccounted evs)
      (fun _ _ evs => AllShowable evs) := by
  refine (attempt_tracks h).bind fun r t evs hr => ?_
  cases r with
  | error fault => exact afterFault_tracks hr
  | ok result => exact Call.tracks_pure (NoFault.allShowable hr)

variable {action authorization : JsValue}

/-- A step before the dispatch leaves the upstream alone, whether it throws or not. -/
def Preliminary (m : GatewayCall σ α) : Prop :=
  ∀ t evs, NoFault 0 evs → m.Tracks t evs (fun _ _ evs => NoFault 0 evs) (fun _ _ evs => NoFault 0 evs)

theorem Preliminary.bind {m : GatewayCall σ α} {k : α → GatewayCall σ β} (h : Preliminary m) (hk : ∀ a, Preliminary (k a)) :
    Preliminary (m >>= k) :=
  fun t evs hclear => (h t evs hclear).bind fun a t evs hclear => hk a t evs hclear

theorem preliminary_pure {a : α} : Preliminary (pure a : GatewayCall σ α) := fun _ _ h => Call.tracks_pure h

theorem preliminary_throw : Preliminary (Call.throw fault : GatewayCall σ α) := fun _ _ h => Call.tracks_throw h

theorem preliminary_request_bind {i : GatewayRequest} {k : GatewayAnswer i → GatewayCall σ α}
    (hfault : ∀ a, upstreamFault ⟨i, a⟩ = none) (hdispatch : i.isDispatch = false) (hk : ∀ a, Preliminary (k a)) :
    Preliminary (Call.request i >>= k) :=
  fun t _ h => Call.tracks_request_bind fun a => hk a t _ (h.snoc (hfault a) hdispatch)

theorem preliminary_andThen {m : GatewayCall σ (Except ε α)} {k : α → GatewayCall σ (Except ε β)} (h : Preliminary m)
    (hk : ∀ a, Preliminary (k a)) : Preliminary (andThen m k) := by
  refine h.bind fun r => ?_
  cases r with
  | error e => exact preliminary_pure
  | ok a => exact hk a

theorem preliminary_denied {what : JsString} : Preliminary (denied what fault : GatewayCall σ (Except JsString α)) := by
  unfold denied
  split
  · exact preliminary_throw
  · exact preliminary_pure

theorem hashRequest_preliminary : Preliminary (hashRequest H cfg action : GatewayCall σ _) := by
  unfold hashRequest
  split
  · refine preliminary_request_bind (fun _ => rfl) rfl fun answer => ?_
    cases answer with
    | error fault => exact preliminary_denied
    | ok hash => exact preliminary_pure
  · split <;> exact preliminary_pure

theorem verifyRequest_preliminary : Preliminary (verifyRequest H cfg authorization : GatewayCall σ _) := by
  refine preliminary_request_bind (fun _ => rfl) rfl fun answer => ?_
  cases answer with
  | error fault => exact preliminary_throw
  | ok now =>
    refine preliminary_request_bind (fun _ => rfl) rfl fun keySets => ?_
    split
    · exact preliminary_throw
    · split <;> exact preliminary_pure

theorem verifiedRequest_preliminary : Preliminary (verifiedRequest H cfg input : GatewayCall σ _) := by
  unfold verifiedRequest
  split
  · exact preliminary_pure
  · have hsnapshot : Preliminary (snapshotRequest input : GatewayCall σ _) := by
      refine preliminary_request_bind (fun _ => rfl) rfl fun enough => ?_
      cases enough with
      | false => exact preliminary_pure
      | true =>
        dsimp only
        split <;> exact preliminary_pure
    refine preliminary_andThen hsnapshot fun body => ?_
    dsimp only
    split
    · exact preliminary_pure
    · refine preliminary_andThen hashRequest_preliminary fun intentHash => ?_
      refine preliminary_andThen verifyRequest_preliminary fun _ => ?_
      split
      · exact preliminary_pure
      · have hcopy : ∀ action, Preliminary (copyAction action : GatewayCall σ _) := by
          intro action
          refine preliminary_request_bind (fun _ => rfl) rfl fun enough => ?_
          cases enough <;> exact preliminary_pure
        exact preliminary_andThen (hcopy _) fun copy => preliminary_pure

theorem consumeRequest_preliminary : Preliminary (consumeRequest authorization : GatewayCall σ _) := by
  refine preliminary_request_bind (fun _ => rfl) rfl fun answer => ?_
  split
  · exact preliminary_denied
  all_goals exact preliminary_pure

theorem executeThroughPep_tracks : (executeThroughPep H cfg input : GatewayCall σ _).Tracks ⟨⟩ []
    (fun _ _ evs => Unaccounted evs) (fun _ _ evs => AllShowable evs) := by
  have hquiet : ∀ {α : Type} {m : GatewayCall σ α}, Preliminary m → ∀ t evs, NoFault 0 evs →
      m.Tracks t evs (fun _ _ evs => Unaccounted evs) (fun _ _ evs => NoFault 0 evs) := by
    intro α m hm t evs hclear
    refine Async.Follows.imp (hm t evs hclear) fun r evs hr => ?_
    obtain ⟨answer, t⟩ := r
    cases answer with
    | ok a => exact hr
    | error fault => exact .inl hr
  refine (hquiet verifiedRequest_preliminary _ _ ⟨rfl, rfl⟩).bind fun r t evs hclear => ?_
  cases r with
  | error reason => exact Call.tracks_pure hclear.allShowable
  | ok request =>
    refine (hquiet consumeRequest_preliminary _ _ hclear).bind fun r t evs hclear => ?_
    cases r with
    | error reason => exact Call.tracks_pure hclear.allShowable
    | ok _ => exact dispatch_tracks hclear

end

/-- A call is accounted for exactly if the gateway can look at whatever the upstream
threw, and the upstream is invoked only with a verified and consumed request. -/
theorem gateway_trichotomy {σ : Type} (H : Host) (cfg : GatewayConfig) (input : JsValue) :
    (∀ (evs : GatewayHistory) (r : Except GatewayFault PepGatewayResult),
      Path ((executeThroughPep H cfg input : GatewayCall σ PepGatewayResult) ⟨⟩) evs (.done (r, ⟨⟩)) →
        (CallAccounted H cfg input evs r ↔ AllShowable evs)) ∧
    (∀ (evs : GatewayHistory) (action : JsValue) (token : JsString),
      Async.Asks ((executeThroughPep H cfg input : GatewayCall σ PepGatewayResult) ⟨⟩) evs
        (.executeUpstream action token) → dispatches evs = 0 ∧
          ∃ c : PresentedCall, c.Verified cfg H input ∧ evs = c.consumed cfg ∧ action = c.request.action ∧
            token = cfg.internalExecutorToken) ∧
    (∀ (evs : GatewayHistory) (authId expiry : JsValue),
      Async.Asks ((executeThroughPep H cfg input : GatewayCall σ PepGatewayResult) ⟨⟩) evs
        (.consumeAuthId authId expiry) → consumptions evs = 0 ∧
          ∃ c : PresentedCall, c.Verified cfg H input ∧ evs = c.history cfg ∧
            authId = c.request.authorization.field (js "auth_id") ∧
              expiry = c.request.authorization.field (js "expiry")) := by
  have hfollows : Async.Follows (GatewayMediated H cfg input)
      ((executeThroughPep H cfg input : GatewayCall σ PepGatewayResult) ⟨⟩) []
      (fun r evs => ∀ result, r.1 = .ok result → Trichotomy H cfg input evs result) := executeThroughPep_follows ⟨⟩
  refine ⟨fun evs r hpath => ?_, fun evs action token hasks => ?_, fun evs authId expiry hasks => ?_⟩
  · have hpost := hfollows.along hpath
    have htracks : (executeThroughPep H cfg input : GatewayCall σ _).Tracks ⟨⟩ []
        (fun _ _ evs => Unaccounted evs) (fun _ _ evs => AllShowable evs) := executeThroughPep_tracks
    have hends := htracks.path hpath
    rw [List.nil_append] at hpost hends
    cases r with
    | ok result => exact iff_of_true (hpost result rfl) hends
    | error fault =>
      rcases hends with hclear | ⟨honce, thrown, hthrown, hshow⟩
      · exact iff_of_true hclear.invoked hclear.allShowable
      · refine iff_of_false (fun hnever => ?_) fun hall => hshow (hall thrown hthrown)
        have hzero : dispatches evs = 0 := hnever
        omega
  · obtain ⟨c, hc, hevs, haction, htoken⟩ := hfollows.asks hasks
    rw [List.nil_append] at hevs
    refine ⟨?_, c, hc, hevs, haction, htoken⟩
    rw [hevs]
    exact c.dispatches_consumed
  · obtain ⟨c, hc, hevs, hid, hexpiry⟩ := hfollows.asks hasks
    rw [List.nil_append] at hevs
    refine ⟨?_, c, hc, hevs, hid, hexpiry⟩
    rw [hevs]
    exact c.history_quiet.consumptions_eq

theorem gateway_trichotomy_sample : ∃ evs : GatewayHistory,
    CallAccounted sampleHost sampleGatewayConfig sampleGatewayInput evs
      (.ok (confirmedResult samplePresentedCall.request .undefined)) := by
  have hreturns : (executeThroughPep sampleHost sampleGatewayConfig sampleGatewayInput :
      GatewayCall Unit PepGatewayResult).Returns _ (confirmedResult samplePresentedCall.request .undefined) :=
    executeThroughPep_returns samplePresentedCall_verified rfl (.within sampleUpstream (by decide))
      (.status (.num (.int 204)) rfl rfl)
  obtain ⟨_, hpath⟩ := hreturns ⟨⟩
  refine ⟨_, ((gateway_trichotomy sampleHost sampleGatewayConfig sampleGatewayInput).1 _ _ hpath).mpr ?_⟩
  intro fault hfault
  cases hfault

/-- The promise of the upstream rejects with an object that has no text. -/
def unshowableFault : GatewayFault where
  text := none

def rejected : GatewayHistory :=
  samplePresentedCall.dispatched sampleGatewayConfig (.ok .promise) ++
    [⟨.settledWithin sampleGatewayConfig.timeoutMs, some (.error unshowableFault)⟩]

theorem rejected_throws : (executeThroughPep sampleHost sampleGatewayConfig sampleGatewayInput :
    GatewayCall Unit PepGatewayResult).Throws rejected unshowableFault := by
  have hinvoked : (askExecuteUpstream samplePresentedCall.request.upstreamAction sampleGatewayConfig.internalExecutorToken :
      GatewayCall Unit _).Returns [samplePresentedCall.invocation sampleGatewayConfig (.ok .promise)] (.ok .promise) :=
    Call.returns_request
  have hsettled : (withTimeout sampleGatewayConfig.timeoutMs .promise : GatewayCall Unit _).Returns
      [⟨.settledWithin sampleGatewayConfig.timeoutMs, some (.error unshowableFault)⟩] (.error unshowableFault) :=
    Call.returns_request_bind Call.returns_pure
  have hawaited : (awaitUpstream sampleGatewayConfig samplePresentedCall.request : GatewayCall Unit _).Returns _
      (.error unshowableFault) := andThen_returns hinvoked hsettled
  have hattempt : (attempt sampleGatewayConfig samplePresentedCall.request : GatewayCall Unit _).Returns _
      (.error unshowableFault) := hawaited.bind Call.returns_pure
  have hdispatch : (dispatch sampleGatewayConfig samplePresentedCall.request : GatewayCall Unit _).Throws _
      unshowableFault := hattempt.throws Call.throws_throw
  have hevs : rejected = samplePresentedCall.history sampleGatewayConfig ++
      ([samplePresentedCall.consumption (.ok (.bool true))] ++
        ([samplePresentedCall.invocation sampleGatewayConfig (.ok .promise)] ++
          [⟨.settledWithin sampleGatewayConfig.timeoutMs, some (.error unshowableFault)⟩] ++ [] ++ [])) := by
    simp [rejected, PresentedCall.dispatched, PresentedCall.consumed]
  rw [hevs]
  exact (verifiedRequest_returns samplePresentedCall_verified).throws (consumeRequest_returns.throws hdispatch)

/-- A call whose upstream rejects with such an object ends with no result, though the
upstream was invoked. -/
theorem gateway_unaccounted : ¬ ∀ (H : Host) (cfg : GatewayConfig) (input : JsValue) (evs : GatewayHistory)
    (r : Except GatewayFault PepGatewayResult),
    Path ((executeThroughPep H cfg input : GatewayCall Unit PepGatewayResult) ⟨⟩) evs (.done (r, ⟨⟩)) →
      CallAccounted H cfg input evs r := by
  intro hclaim
  obtain ⟨_, hpath⟩ := rejected_throws ⟨⟩
  have hnever : dispatches rejected = 0 := hclaim _ _ _ _ _ hpath
  have honce : dispatches rejected = 1 := by
    rw [rejected, dispatches_append, PresentedCall.dispatches_dispatched]
    rfl
  omega

end OxDeAI
