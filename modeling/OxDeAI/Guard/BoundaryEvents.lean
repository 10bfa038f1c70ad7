import OxDeAI.Guard.CallProgress
import OxDeAI.Guard.CompleteMediation
import OxDeAI.Lib.Histories

/-! The event that reports a rejected call, over runs of guard calls and secure guard
calls that share one registry of classified and of reported errors. -/

namespace OxDeAI

open Js Async

inductive TenancyPosture
  | singleTenant
  | multiTenant
  deriving DecidableEq

structure TrustedExecutionContext where
  tenantId : Option JsString

/-- How the construction of the shared body goes in a call. -/
inductive SharedBody
  | built
  | invalid (message : JsString)
  | threw (err : CallbackError)

/-- What a secure call has beyond a guard call; a context that was not built as trusted
is `none`. -/
structure SecureArguments where
  tenancy : TenancyPosture
  trustedContext : Option TrustedExecutionContext
  sharedBody : SharedBody

section

variable {S V : Type} (H : Host) (cfg : GuardConfig) (args : SecureArguments)

/-- From the invocation of the shared body on, its own catch has reported. -/
def runSecure (action delegationInput : JsValue) (live : LiveObjects := {}) : GuardCall Unit S V JsValue :=
  match args.trustedContext with
  | none => reject .trustedContext .untrustedContext (.authorization
      (js "Secure guard requires a TrustedExecutionContext built by createTrustedExecutionContext(). A plain object — including one deserialized from request JSON — is not accepted. Execution blocked."))
  | some context =>
    if args.tenancy = .multiTenant ∧ context.tenantId = none then
      reject .trustedContext .missingTenantId (.authorization
        (js "Deployment is configured multi-tenant but the trusted execution context carries no tenantId. Execution blocked."))
    else match args.sharedBody with
      | .invalid message => unclassified (.configuration message)
      | .threw err => passOn err
      | .built => do
        Call.modify (fun l => { l with sharedBodyEntered := true })
        Call.invoke (guardCall H cfg action delegationInput live)

def secureGuard (action delegationInput : JsValue) (live : LiveObjects := {}) :
    Prog Unit (GuardRequest S V) GuardAnswer (Except Thrown JsValue) := do
  let settled ← runSecure H cfg args action delegationInput live (createLifecycle .trustedContext)
  match settled with
  | (.ok result, _) => pure (.ok result)
  | (.error err, lifecycle) => do
    emitBoundaryEvent cfg err lifecycle
    pure (.error (rethrown cfg err))

end

/-- A call of a guard, or of a secure one. -/
structure GuardInvocation where
  H : Host
  cfg : GuardConfig
  action : JsValue
  delegationInput : JsValue
  secure : Option SecureArguments
  live : LiveObjects := {}

def GuardInvocation.program {S V : Type} (call : GuardInvocation) :
    Prog Unit (GuardRequest S V) GuardAnswer (Except Thrown JsValue) :=
  match call.secure with
  | none => guardCall call.H call.cfg call.action call.delegationInput call.live
  | some args => secureGuard call.H call.cfg args call.action call.delegationInput call.live

/-- The classification of an error, and whether it was accounted for, by its identity. -/
structure ErrorRegistry where
  notes : ℕ → Option BoundaryAnnotation
  handled : ℕ → Bool

/-- The first annotation wins. -/
def ErrorRegistry.annotate (r : ErrorRegistry) (identity : ℕ) (note : BoundaryAnnotation) : ErrorRegistry :=
  if (r.notes identity).isSome then r else { r with notes := Function.update r.notes identity (some note) }

def ErrorRegistry.handle (r : ErrorRegistry) (identity : ℕ) : ErrorRegistry :=
  { r with handled := Function.update r.handled identity true }

/-- No entry is lost. -/
structure ErrorRegistry.Extends (r r' : ErrorRegistry) : Prop where
  notes : ∀ identity note, r.notes identity = some note → r'.notes identity = some note
  handled : ∀ identity, r.handled identity = true → r'.handled identity = true

/-- How the registry answers. Meanwhile errors of the guards' own, which a callback may
throw later, may enter it. -/
def ErrorRegistry.Serves {S V : Type} (r : ErrorRegistry) :
    (i : GuardRequest S V) → GuardAnswer i → ErrorRegistry → Prop
  | .annotate identity note, _, r' => r' = r.annotate identity note
  | .takeEvent identity, answer, r' =>
    answer = (if r.handled identity then none else some (r.notes identity)) ∧ r' = r.handle identity
  | .markHandled identity, _, r' => r' = r.handle identity
  | _, _, r' => r.Extends r'

section

variable {S V : Type}

def GuardRequest.event : GuardRequest S V → Option GuardBoundaryAuditEvent
  | .onBoundaryEvent event => some event
  | _ => none

def EnteredExecute (evs : GuardHistory S V) : Prop := ∃ answer, ⟨.execute, answer⟩ ∈ evs

def GuardRequest.noteOf (identity : ℕ) : GuardRequest S V → Option BoundaryAnnotation
  | .annotate identity' note => if identity' = identity then some note else none
  | _ => none

/-- How the call itself classified an error. -/
def noted (identity : ℕ) (evs : GuardHistory S V) : Option BoundaryAnnotation :=
  evs.findSome? (fun ev => ev.1.noteOf identity)

/-- What the code around a call threw into it. -/
def GuardInvocation.ThrewInto (call : GuardInvocation) (evs : GuardHistory S V) (err : CallbackError) : Prop :=
  Throws evs err ∨ ∃ args, call.secure = some args ∧ args.sharedBody = .threw err

end

section

variable {S V : Type} {call : GuardInvocation} {H : Host} {cfg : GuardConfig} {args : SecureArguments}
  {action delegationInput : JsValue} {live : LiveObjects} {evs before after : GuardHistory S V} {err : Thrown} {e : CallbackError}
  {l : GuardLifecycle} {r : Except Thrown JsValue}

theorem ValidDeny.append (h : ValidDeny before err) : ValidDeny (before ++ after) err := by
  obtain ⟨intent, state, t, result, reasons, hmem, hrest⟩ := h
  exact ⟨intent, state, t, result, reasons, List.mem_append_left _ hmem, hrest⟩

theorem ValidDeny.isDeny (h : ValidDeny evs err) : err.isDeny = true := by
  obtain ⟨_, _, _, _, reasons, -, -, -, rfl⟩ := h
  rfl

theorem EnteredExecute.append (h : EnteredExecute before) : EnteredExecute (before ++ after) := by
  obtain ⟨answer, hmem⟩ := h
  exact ⟨answer, List.mem_append_left _ hmem⟩

theorem GuardInvocation.ThrewInto.append (h : call.ThrewInto before e) : call.ThrewInto (before ++ after) e :=
  h.imp_left Throws.append

/-- Each error that is looked up is found with the call's own classification. -/
def FindsOwn (evs : GuardHistory S V) : Prop :=
  ∀ first identity answer, first ++ [⟨.takeEvent identity, answer⟩] <+: evs → answer = some (noted identity first)

/-- What is known of the errors of the callbacks once they were thrown in an unspoilt
state: the guard can look at them, and no denial passes through before execution. -/
structure Lookable (evs : GuardHistory S V) : Prop where
  asked : ∀ ev ∈ evs, ∀ e, passedOn ev.1 ev.2 = some e → e.asking = none
  shown : ∀ ev ∈ evs, ∀ e, shownAt ev.1 ev.2 = some e → e.showing = none
  noDenial : ∀ ev ∈ evs, ev.1 ≠ .execute → ∀ e, passedOn ev.1 ev.2 = some e → (Thrown.callback e).isDeny = false

/-- What a body fails with passed through, as the guard could show all it had to. -/
theorem Lookable.throws (h : Lookable evs) (hread : ∀ intent err, live.evaluated intent = .error err → err.showing = none)
    (hthrown : Throws evs e ∨ Unshown live evs) : Throws evs e := by
  rcases hthrown with hthrown | ⟨err, hshowing, hunshown⟩
  · exact hthrown
  · have hshown : err.showing = none := by
      rcases hunshown with ⟨ev, hmem, hev⟩ | ⟨intent, hintent⟩
      · exact h.shown ev hmem err hev
      · exact hread intent err hintent
    rw [hshown] at hshowing
    cases hshowing

theorem FindsOwn.snoc {i : GuardRequest S V} {a : GuardAnswer i} (h : FindsOwn evs)
    (ha : ∀ identity answer, (⟨i, a⟩ : Sigma (GuardAnswer (S := S) (V := V))) = ⟨.takeEvent identity, answer⟩ →
      answer = some (noted identity evs)) : FindsOwn (evs ++ [⟨i, a⟩]) := by
  intro first identity answer hprefix
  rcases List.prefix_concat_iff.mp hprefix with heq | hprefix
  · obtain ⟨rfl, hlast⟩ := List.append_inj' heq rfl
    exact ha identity answer (List.singleton_inj.mp hlast).symm
  · exact h first identity answer hprefix

theorem Lookable.snoc {i : GuardRequest S V} {a : GuardAnswer i} (h : Lookable evs)
    (hasked : ∀ e, passedOn i a = some e → e.asking = none) (hshown : ∀ e, shownAt i a = some e → e.showing = none)
    (hnoDenial : i ≠ .execute → ∀ e, passedOn i a = some e → (Thrown.callback e).isDeny = false) :
    Lookable (evs ++ [⟨i, a⟩]) := by
  constructor
  all_goals
    intro ev hev
    rcases List.mem_append.mp hev with hev | hev
  · exact h.asked ev hev
  · rw [List.mem_singleton.mp hev]
    exact hasked
  · exact h.shown ev hev
  · rw [List.mem_singleton.mp hev]
    exact hshown
  · exact h.noDenial ev hev
  · rw [List.mem_singleton.mp hev]
    exact hnoDenial

end

end OxDeAI
