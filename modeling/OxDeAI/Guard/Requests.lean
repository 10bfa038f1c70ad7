import OxDeAI.Guard.Boundary
import OxDeAI.Guard.Revocation
import OxDeAI.Guard.Trust
import OxDeAI.Lib.Call
import OxDeAI.Verification.Delegation

/-! What a guard call asks of the callbacks and stores it is configured with. -/

namespace OxDeAI

open Js Async

/-- The configuration as the construction resolved it; a flag says that a callback
is there. The key sets are read when they are used. -/
structure GuardConfig where
  expectedAudience : JsString
  trustedDelegationAuthorities : Option (List AuthorizationAuthority) := none
  trustedDelegationSigners : Option (List DelegationAuthority) := none
  delegationRevocationProvider : Bool := false
  requireDelegationRevocation : Bool := false
  revocation : Option ResolvedRevocation := none
  consumesDelegationIds : Bool := true
  beforeExecute : Bool := false
  onDecision : Bool := false
  onBoundaryEvent : Bool := false
  audience : expectedAudience ≠ []

/-- How an answer that `settleCallback` awaits comes back. -/
inductive Settled (α : Type)
  | tampered
  | value (v : α)

/-- `nextState` is there when it is truthy. The authorization is an object of the
engine's own, as it reads when it is verified. -/
structure EngineResult (S : Type) where
  decision : JsValue
  reasons : JsValue
  authorization : JsValue
  nextState : Option S

structure DelegationRevocationRequest where
  delegationId : JsValue
  issuer : JsValue
  delegator : JsValue
  parentAuthHash : JsValue

inductive GuardDecision
  | allow
  | deny
  deriving DecidableEq

structure GuardDecisionRecord where
  action : JsValue
  decision : GuardDecision
  authorization : Option JsValue := none
  delegation : Option JsValue := none
  reasons : Option (List JsString) := none

/-- States `S` and versions `V` are the state store's own. The last three requests
go to the registry of classified and of reported errors. -/
inductive GuardRequest (S V : Type)
  | getState
  | normalize (action : JsValue)
  | clock
  | trustedKeySets
  | configuredKeySets
  | evaluatePure (intent : JsValue) (state : S) (evaluationTime : JsNumber)
  | computeStateHash (state : S)
  | checkDelegation (request : DelegationRevocationRequest)
  | revocationEvidence
  | consumeDelegationId (delegationId expiry : JsValue)
  | consumeAuthId (authId expiry : JsValue)
  | setState (nextState : S) (version : V)
  | beforeExecute (action authorization : JsValue)
  | execute
  | onDecision (record : GuardDecisionRecord)
  | onBoundaryEvent (event : GuardBoundaryAuditEvent)
  | annotate (identity : ℕ) (note : BoundaryAnnotation)
  | takeEvent (identity : ℕ)
  | markHandled (identity : ℕ)

/-- A loaded state is `none` when the store answers nothing, and so is its version.
Revocation evidence is the provider's list and how the watermark store answers. -/
abbrev GuardAnswer {S V : Type} : GuardRequest S V → Type
  | .getState => Except CallbackError (Settled (Option (S × Option V)))
  | .normalize _ => Except CallbackError JsValue
  | .clock => JsNumber
  | .trustedKeySets => List KeySet
  | .configuredKeySets => Option TrustedKeySets
  | .evaluatePure _ _ _ => Except CallbackError (Option (EngineResult S))
  | .computeStateHash _ => Except CallbackError JsValue
  | .checkDelegation _ => Except CallbackError (Settled JsValue)
  | .revocationEvidence => ProviderAnswer × KrlWatermarkStore
  | .consumeDelegationId _ _ => Except CallbackError JsValue
  | .consumeAuthId _ _ => Except CallbackError JsValue
  | .setState _ _ => Except CallbackError JsValue
  | .beforeExecute _ _ => Except CallbackError Unit
  | .execute => Except CallbackError JsValue
  | .onDecision _ => Except CallbackError Unit
  | .onBoundaryEvent _ => Except CallbackError Unit
  | .annotate _ _ => Unit
  | .takeEvent _ => Option (Option BoundaryAnnotation)
  | .markHandled _ => Unit

/-- The requests of a call that were answered, in their order. -/
abbrev GuardHistory (S V : Type) := List (Sigma (GuardAnswer (S := S) (V := V)))

abbrev GuardCall (σ S V α : Type) := Call σ (GuardRequest S V) GuardAnswer GuardLifecycle Thrown α

section

variable {σ S V : Type}

def askState : GuardCall σ S V (Except CallbackError (Settled (Option (S × Option V)))) :=
  Call.request GuardRequest.getState

def askNormalize (action : JsValue) : GuardCall σ S V (Except CallbackError JsValue) :=
  Call.request (GuardRequest.normalize action)

/-- Whole seconds. -/
def askClock : GuardCall σ S V JsNumber := Call.request GuardRequest.clock

def askTrustedKeySets : GuardCall σ S V (List KeySet) := Call.request GuardRequest.trustedKeySets

def askConfiguredKeySets : GuardCall σ S V (Option TrustedKeySets) :=
  Call.request GuardRequest.configuredKeySets

def askEvaluatePure (intent : JsValue) (state : S) (evaluationTime : JsNumber) :
    GuardCall σ S V (Except CallbackError (Option (EngineResult S))) :=
  Call.request (GuardRequest.evaluatePure intent state evaluationTime)

def askComputeStateHash (state : S) : GuardCall σ S V (Except CallbackError JsValue) :=
  Call.request (GuardRequest.computeStateHash state)

def askCheckDelegation (request : DelegationRevocationRequest) :
    GuardCall σ S V (Except CallbackError (Settled JsValue)) :=
  Call.request (GuardRequest.checkDelegation request)

def askRevocationEvidence : GuardCall σ S V (ProviderAnswer × KrlWatermarkStore) :=
  Call.request GuardRequest.revocationEvidence

def askConsumeDelegationId (delegationId expiry : JsValue) :
    GuardCall σ S V (Except CallbackError JsValue) :=
  Call.request (GuardRequest.consumeDelegationId delegationId expiry)

def askConsumeAuthId (authId expiry : JsValue) : GuardCall σ S V (Except CallbackError JsValue) :=
  Call.request (GuardRequest.consumeAuthId authId expiry)

def askSetState (nextState : S) (version : V) : GuardCall σ S V (Except CallbackError JsValue) :=
  Call.request (GuardRequest.setState nextState version)

def askBeforeExecute (action authorization : JsValue) : GuardCall σ S V (Except CallbackError Unit) :=
  Call.request (GuardRequest.beforeExecute action authorization)

def askExecute : GuardCall σ S V (Except CallbackError JsValue) := Call.request GuardRequest.execute

def askOnDecision (record : GuardDecisionRecord) : GuardCall σ S V (Except CallbackError Unit) :=
  Call.request (GuardRequest.onDecision record)

def annotate (identity : ℕ) (note : BoundaryAnnotation) : GuardCall σ S V Unit :=
  Call.request (GuardRequest.annotate identity note)

/-- A new error of the guard, classified. -/
def reject {α : Type} (stage : GuardBoundaryStage) (failure : GuardBoundaryFailure) (error : GuardError) :
    GuardCall σ S V α :=
  Call.throw (.own error (some { stage := stage, failure := failure }))

/-- A new error that no throw site classified. -/
def unclassified {α : Type} (error : GuardError) : GuardCall σ S V α := Call.throw (.own error none)

/-- What a callback threw passes through. -/
def passOn {α : Type} (err : CallbackError) : GuardCall σ S V α := Call.throw (.callback err)

/-- A callback's error is classified where it is caught, unless it has no identity. -/
def passOnAs {α : Type} (err : CallbackError) (note : BoundaryAnnotation) : GuardCall σ S V α :=
  match err.identity with
  | none => passOn err
  | some identity => do
    annotate identity note
    passOn err

/-- The text of a callback's error, in an error of the guard; showing it may throw. -/
def shown {α : Type} (err : CallbackError) (k : JsString → GuardCall σ S V α) : GuardCall σ S V α :=
  match err.showing with
  | some thrown => passOn thrown
  | none => k err.error.message

def returning {α : Type} : Except JsError α → GuardCall σ S V α
  | .ok a => pure a
  | .error e => unclassified (runtimeError e)

def setStage (stage : GuardBoundaryStage) : GuardCall σ S V Unit :=
  Call.modify (fun l => { l with stage := stage })

/-- The hook's errors are dropped. -/
def fireDecision (cfg : GuardConfig) (record : GuardDecisionRecord) : GuardCall σ S V Unit :=
  if cfg.onDecision then do
    let _ ← askOnDecision record
    return ()
  else return ()

end

end OxDeAI
