import OxDeAI.Core.CanonicalJson
import OxDeAI.Js.Value

/-! Rejections at the guard boundary: errors, their classification, and the event
that reports them. -/

namespace OxDeAI

open Js

inductive GuardBoundaryStage
  | trustedContext
  | stateLoad
  | normalization
  | provenance
  | delegation
  | policyEvaluation
  | authorizationVerification
  | replay
  | stateCommit
  | executionGate
  deriving DecidableEq

inductive GuardBoundaryFailure
  | untrustedContext
  | missingTenantId
  | stateVersionMissing
  | normalizationFailure
  | provenanceConflict
  | delegationInputInvalid
  | delegationVerificationFailed
  | delegationRevoked
  | delegationRevocationUnavailable
  | revocationStateUnavailable
  | revocationStateInvalid
  | delegationReplay
  | authorizationMissing
  | authorizationVerificationFailed
  | authorizationAuthorityDenied
  | authorizationReplay
  | replayStoreUnavailable
  | intentHashMismatch
  | stateHashMismatch
  | casConflict
  | engineFailure
  | unclassified
  deriving DecidableEq

inductive ClaimProvenance
  | absent
  | matched
  | conflict
  | unverified
  deriving DecidableEq

abbrev ProvenanceRecord := List (JsString × ClaimProvenance)

/-- The classes of errors, each with what its constructor is given. `other` is
anything else that is thrown, by the text it is shown with. -/
inductive GuardError
  | deny (reasons : List JsString)
  | authorization (message : JsString)
  | authority (message : JsString)
  | conflict (message : JsString)
  | provenanceConflict (fields : List JsString) (provenance : ProvenanceRecord)
  | delegation (violations : List JsString)
  | configuration (message : JsString)
  | normalization (message : JsString)
  | other (message : JsString)
  deriving DecidableEq

def bracketed (texts : List JsString) : JsString :=
  js "[" ++ List.intercalate (js ", ") texts ++ js "]"

def authorizationErrorText (message : JsString) : JsString := js "OxDeAI authorization error: " ++ message

def GuardError.message : GuardError → JsString
  | deny reasons => js "OxDeAI guard denied execution: " ++ bracketed reasons
  | authorization message => authorizationErrorText message
  | authority message => authorizationErrorText message
  | conflict message => authorizationErrorText message
  | provenanceConflict fields _ => authorizationErrorText
      (js "Proposer claim conflicts with trusted execution context on " ++ bracketed fields ++
        js ". Execution blocked.")
  | delegation violations => authorizationErrorText
      (js "Delegation verification failed: " ++ bracketed violations ++ js ". Execution blocked.")
  | configuration message => js "OxDeAI guard configuration error: " ++ message
  | normalization message => js "OxDeAI normalization error: " ++ message
  | other message => message

/-- The runtime's own errors. The text of a type error is the runtime's. -/
def runtimeError : JsError → GuardError
  | .canonical e => .other e.text
  | .error message => .other message
  | .typeError => .other (js "TypeError")

/-- How a throw site classifies its rejection. -/
structure BoundaryAnnotation where
  stage : GuardBoundaryStage
  failure : GuardBoundaryFailure
  conflictingFields : Option (List JsString) := none
  provenance : Option ProvenanceRecord := none
  deriving DecidableEq

/-- What a callback threw. An object that may be thrown again has an identity, other
values have none. Code of its own may run where its class is asked for and where it is
shown, and throw: the runtime's error, or anything else. -/
structure CallbackError where
  identity : Option ℕ
  error : GuardError
  unaskable : Option (Option ℕ × GuardError) := none
  unshowable : Option (Option ℕ × GuardError) := none
  deriving DecidableEq

/-- What `err instanceof` throws. -/
def CallbackError.asking (err : CallbackError) : Option CallbackError :=
  err.unaskable.map (fun thrown => { identity := thrown.1, error := thrown.2 })

/-- What `err instanceof Error ? err.message : String(err)` throws. -/
def CallbackError.showing (err : CallbackError) : Option CallbackError :=
  (err.unaskable <|> err.unshowable).map (fun thrown => { identity := thrown.1, error := thrown.2 })

/-- An error of the guard's own is a new object, classified where it is thrown, if
at all. A callback's error keeps its identity. -/
inductive Thrown
  | own (error : GuardError) (note : Option BoundaryAnnotation)
  | callback (err : CallbackError)
  deriving DecidableEq

def Thrown.error : Thrown → GuardError
  | own error _ => error
  | callback err => err.error

def Thrown.isDeny (err : Thrown) : Bool :=
  match err.error with
  | .deny _ => true
  | _ => false

def Thrown.asking : Thrown → Option CallbackError
  | own _ _ => none
  | callback err => err.asking

structure GuardLifecycle where
  stage : GuardBoundaryStage
  policyEvaluated : Bool := false
  authorizationIssued : Bool := false
  authorizationConsumed : Bool := false
  delegationConsumed : Bool := false
  stateCommitted : Bool := false
  executionStarted : Bool := false
  intentId : Option JsValue := none
  sharedBodyEntered : Bool := false

def createLifecycle (stage : GuardBoundaryStage) : GuardLifecycle where
  stage := stage

structure GuardBoundaryAuditEvent where
  stage : GuardBoundaryStage
  boundaryFailure : GuardBoundaryFailure
  policyEvaluated : Bool
  authorizationIssued : Bool
  authorizationConsumed : Bool
  delegationConsumed : Bool
  stateCommitted : Bool
  executionStarted : Bool
  intentId : Option JsValue
  provenance : Option ProvenanceRecord
  conflictingFields : Option (List JsString)

def buildEvent (note : Option BoundaryAnnotation) (lifecycle : GuardLifecycle) :
    GuardBoundaryAuditEvent where
  stage := (note.map BoundaryAnnotation.stage).getD lifecycle.stage
  boundaryFailure := (note.map BoundaryAnnotation.failure).getD .unclassified
  policyEvaluated := lifecycle.policyEvaluated
  authorizationIssued := lifecycle.authorizationIssued
  authorizationConsumed := lifecycle.authorizationConsumed
  delegationConsumed := lifecycle.delegationConsumed
  stateCommitted := lifecycle.stateCommitted
  executionStarted := lifecycle.executionStarted
  intentId := lifecycle.intentId
  provenance := note.bind BoundaryAnnotation.provenance
  conflictingFields := note.bind BoundaryAnnotation.conflictingFields

end OxDeAI
