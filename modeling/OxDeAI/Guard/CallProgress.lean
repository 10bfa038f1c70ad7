import OxDeAI.Guard.DelegationPath

/-! What a guard call keeps of its own progress, and what it fails with: the lifecycle
says what the answers so far say, and an error is the guard's own or a callback's. -/

namespace OxDeAI

open Js Async

section

variable {S V : Type}

/-- The engine gave an authorization and a next state, and did not deny. -/
def issues (result : EngineResult S) : Bool :=
  !result.decision.isText (js "DENY") && result.authorization.isTruthy && result.nextState.isSome

/-- The intent goes on to be evaluated or delegated. -/
def normalizes (delegated : Bool) (intent : JsValue) : Bool :=
  !intent.isNullish && (!delegated || (intent.field (js "agent_id")).hasText)

/-- What one answer shows of the progress of a call. -/
def advance (delegated : Bool) (p : GuardLifecycle) : (i : GuardRequest S V) → GuardAnswer i → GuardLifecycle
  | .normalize _, .ok intent =>
    if normalizes delegated intent then { p with intentId := defined (intent.field (js "intent_id")) } else p
  | .evaluatePure _ _ _, .ok none => { p with policyEvaluated := true }
  | .evaluatePure _ _ _, .ok (some result) =>
    if issues result then { p with policyEvaluated := true, authorizationIssued := true }
    else { p with policyEvaluated := true }
  | .consumeAuthId _ _, .ok (.bool true) => { p with authorizationConsumed := true }
  | .consumeDelegationId _ _, .ok (.bool true) => { p with delegationConsumed := true }
  | .setState _ _, .ok answer => if answer.isTruthy then { p with stateCommitted := true } else p
  | .execute, _ => { p with executionStarted := true }
  | _, _ => p

def progressOf (delegated : Bool) (evs : GuardHistory S V) : GuardLifecycle :=
  evs.foldl (fun p ev => advance delegated p ev.1 ev.2) (createLifecycle .stateLoad)

/-- Requests of the catch. -/
def GuardRequest.isReport : GuardRequest S V → Bool
  | .takeEvent _ | .markHandled _ | .onBoundaryEvent _ => true
  | _ => false

/-- The lifecycle is as the answers say, but for the stage, and nothing was reported. -/
structure InProgress (delegated : Bool) (l : GuardLifecycle) (evs : GuardHistory S V) : Prop where
  progress : l = { progressOf delegated evs with stage := l.stage }
  quiet : ∀ ev ∈ evs, ev.1.isReport = false

def GuardError.isNormalization : GuardError → Bool
  | normalization _ | provenanceConflict _ _ => true
  | _ => false

/-- The guard finds it to be one of the errors it knows of a normalizer. -/
def CallbackError.isNormalization (err : CallbackError) : Bool :=
  err.asking.isNone && err.error.isNormalization

/-- What a callback threw where its error passes through. Of a normalizer these are
the errors the guard knows, any other is replaced. -/
def passedOn : (i : GuardRequest S V) → GuardAnswer i → Option CallbackError
  | .getState, .error err => some err
  | .normalize _, .error err => if err.isNormalization then some err else none
  | .setState _ _, .error err => some err
  | .beforeExecute _ _, .error err => some err
  | .execute, .error err => some err
  | _, _ => none

/-- A callback threw this, and it passed through. -/
def Throws (evs : GuardHistory S V) (err : CallbackError) : Prop := ∃ ev ∈ evs, passedOn ev.1 ev.2 = some err

/-- What a callback threw where the guard shows it in an error of its own. -/
def shownAt : (i : GuardRequest S V) → GuardAnswer i → Option CallbackError
  | .normalize _, .error err => if err.isNormalization then none else some err
  | .evaluatePure _ _ _, .error err => some err
  | .computeStateHash _, .error err => some err
  | .consumeAuthId _ _, .error err => some err
  | .consumeDelegationId _ _, .error err => some err
  | _, _ => none

/-- A callback, or the intent as it is read, threw what the guard cannot show. -/
def Unshown (live : LiveObjects) (evs : GuardHistory S V) : Prop :=
  ∃ err : CallbackError, err.showing.isSome = true ∧
    ((∃ ev ∈ evs, shownAt ev.1 ev.2 = some err) ∨ ∃ intent, live.evaluated intent = .error err)

/-- The engine denied with reasons, and these are what was thrown. -/
def ValidDeny (evs : GuardHistory S V) (err : Thrown) : Prop :=
  ∃ (intent : JsValue) (state : S) (t : JsNumber) (result : EngineResult S) (reasons : List JsString),
    ⟨.evaluatePure intent state t, .ok (some result)⟩ ∈ evs ∧ result.decision.isText (js "DENY") = true ∧
      denyReasons? result.reasons = some reasons ∧ err = .own (.deny reasons) none

/-- The progress of a call at its failure, and what failed. -/
structure Failed (delegated : Bool) (live : LiveObjects) (err : Thrown) (l : GuardLifecycle) (evs : GuardHistory S V) : Prop where
  progress : l = { progressOf delegated evs with stage := l.stage }
  unreported : ∀ ev ∈ evs, ev.1.isReport = false
  thrown : ∀ e, err = .callback e → Throws evs e ∨ Unshown live evs
  deny : ∀ reasons note, err = .own (.deny reasons) note → ValidDeny evs err

end

section

variable {σ S V α β : Type} {H : Host} {cfg : GuardConfig} {delegated : Bool} {live : LiveObjects} {l : GuardLifecycle}
  {evs : GuardHistory S V} {err : Thrown} {e : CallbackError}

theorem progressOf_append (ev : Sigma (GuardAnswer (S := S) (V := V))) :
    progressOf delegated (evs ++ [ev]) = advance delegated (progressOf delegated evs) ev.1 ev.2 :=
  List.foldl_append

theorem InProgress.setStage (h : InProgress delegated l evs) (stage : GuardBoundaryStage) :
    InProgress delegated { l with stage := stage } evs :=
  ⟨congrArg (fun l : GuardLifecycle => { l with stage := stage }) h.progress, h.quiet⟩

/-- An answer that the lifecycle is changed for as it advances. -/
theorem InProgress.advance {f : GuardLifecycle → GuardLifecycle} (h : InProgress delegated l evs)
    (i : GuardRequest S V) (a : GuardAnswer i) (hadvance : ∀ p, OxDeAI.advance delegated p i a = f p)
    (hstage : ∀ p stage, f { p with stage := stage } = { f p with stage := stage })
    (hquiet : i.isReport = false) : InProgress delegated (f l) (evs ++ [⟨i, a⟩]) := by
  constructor
  · rw [progressOf_append, hadvance, ← hstage]
    have hf : f l = { f (progressOf delegated evs) with stage := l.stage } := by
      rw [← hstage, ← h.progress]
    have hl : (f l).stage = l.stage := by rw [hf]
    rw [hl, ← h.progress]
  · intro ev hev
    rcases List.mem_append.mp hev with hev | hev
    · exact h.quiet ev hev
    · rw [List.mem_singleton.mp hev]
      exact hquiet

/-- An answer that shows no progress. -/
theorem InProgress.append (h : InProgress delegated l evs) (i : GuardRequest S V) (a : GuardAnswer i)
    (hadvance : ∀ p, OxDeAI.advance delegated p i a = p)
    (hquiet : i.isReport = false) : InProgress delegated l (evs ++ [⟨i, a⟩]) :=
  h.advance (f := id) i a hadvance (fun _ _ => rfl) hquiet

/-- The call keeps its progress as the answers say, and fails as they say. -/
def Keeping (delegated : Bool) (live : LiveObjects) (m : GuardCall σ S V α) : Prop :=
  ∀ l evs, InProgress delegated l evs →
    m.Tracks l evs (Failed delegated live) (fun _ l evs => InProgress delegated l evs)

theorem Keeping.bind {m : GuardCall σ S V α} {k : α → GuardCall σ S V β} (h : Keeping delegated live m)
    (hk : ∀ a, Keeping delegated live (k a)) : Keeping delegated live (m >>= k) :=
  fun l evs hl => (h l evs hl).bind fun a l evs hl => hk a l evs hl

theorem Throws.append {more : GuardHistory S V} (h : Throws evs e) : Throws (evs ++ more) e := by
  obtain ⟨ev, hmem, hev⟩ := h
  exact ⟨ev, List.mem_append_left _ hmem, hev⟩

theorem Unshown.append {more : GuardHistory S V} (h : Unshown live evs) : Unshown live (evs ++ more) := by
  obtain ⟨err, hshowing, hthrown⟩ := h
  refine ⟨err, hshowing, hthrown.imp_left fun ⟨ev, hmem, hev⟩ => ⟨ev, List.mem_append_left _ hmem, hev⟩⟩

end

end OxDeAI
