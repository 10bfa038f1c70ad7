import OxDeAI.Guard.DelegationSnapshot
import OxDeAI.Guard.StandardPath

/-! The delegation path: a delegated call runs under a parent authorization, without
the engine and without a state commit. -/

namespace OxDeAI

open Js Async

mutual

/-- A value in a template or a joined list, where nullish elements are empty. -/
def templateText : JsValue → JsString
  | .null => js "null"
  | .undefined => js "undefined"
  | .bool b => if b then js "true" else js "false"
  | .str s => s
  | .num n => n.text
  | .bigint z => decimal z
  | .arr xs => List.intercalate (js ",") (elementTexts xs)
  | _ => js "[object Object]"

def elementTexts : List JsValue → List JsString
  | [] => []
  | .null :: xs => [] :: elementTexts xs
  | .undefined :: xs => [] :: elementTexts xs
  | x :: xs => templateText x :: elementTexts xs

end

/-- `tools.includes(name)`, of an array or of a text. -/
def includesName (tools name : JsValue) : Except JsError Bool :=
  match tools with
  | .arr xs => .ok (xs.any (JsValue.strictEquals name))
  | .str s => .ok (decide (templateText name <:+: s))
  | _ => .error .typeError

/-- `tools.join(", ")`, which a text has not. -/
def joinedTools : JsValue → Except JsError JsString
  | .arr xs => .ok (List.intercalate (js ", ") (elementTexts xs))
  | _ => .error .typeError

/-- The snapshot of what the caller presents. -/
structure DelegationInput where
  delegation : JsValue
  parentAuth : JsValue
  parentScope : JsValue

def isValidDelegationScope (scope : JsValue) : Bool :=
  scope.isRecord && optionally isToolList (scope.field (js "tools")) &&
    optionally isAmount (scope.field (js "max_amount")) &&
    optionally isCount (scope.field (js "max_actions")) &&
    optionally isCount (scope.field (js "max_depth"))

section

variable {σ S V : Type} (H : Host) (cfg : GuardConfig)

def rejectAmount {α : Type} : GuardCall σ S V α :=
  reject .normalization .normalizationFailure (.normalization
    (js "Delegation requires normalized intent.amount to be a non-negative bigint."))

def delegatedAmount (intent : JsValue) : GuardCall σ S V ℤ :=
  match intent.field (js "amount") with
  | .bigint z => if z < 0 then rejectAmount else return z
  | _ => rejectAmount

def snapshotDelegation (delegationInput : JsValue) : GuardCall σ S V DelegationInput :=
  match snapshotPlainData delegationInput (js "delegation input") with
  | .error message => reject .delegation .delegationInputInvalid (.authorization
      (js "Delegation input is not supported plain data (" ++ message ++ js "). Execution blocked."))
  | .ok snapshot =>
    if !(snapshot.field (js "delegation")).isTruthy || !(snapshot.field (js "parentAuth")).isTruthy then
      reject .delegation .delegationInputInvalid (.authorization
        (js "Delegation input is incomplete: both delegation and parentAuth are required. Execution blocked."))
    else return ⟨snapshot.field (js "delegation"), snapshot.field (js "parentAuth"),
      snapshot.field (js "parentScope")⟩

/-- No list is not the empty list: a call without a configured authority fails. -/
def requireAuthorities : GuardCall σ S V (List AuthorizationAuthority) :=
  match cfg.trustedDelegationAuthorities with
  | none => reject .delegation .authorizationAuthorityDenied (.configuration
      (js "config.trustedDelegationAuthorities is required for delegation calls and was not configured. A caller-supplied parent authorization cannot establish its own policy authority, and an absent authority list is not an unconstrained mode. Execution blocked."))
  | some authorities => return authorities

def requireParentScope (parentScope : JsValue) : GuardCall σ S V Unit :=
  if !isValidDelegationScope parentScope then
    reject .delegation .delegationInputInvalid (.authorization
      (js "Parent authorization scope is missing or malformed. Execution blocked."))
  else return ()

/-- Is the missing authority all that is wrong? -/
def authorityIsSoleDefect (result : VerificationResult) : Bool :=
  !result.violations.isEmpty &&
    result.violations.all (fun v => v.code = .authIssuerPolicyNotAuthorized)

def verifyParent (parentAuth : JsValue) (opts : VerifyAuthorizationOptions) (now : JsNumber) :
    GuardCall σ S V Unit := do
  let result ← returning (verifyAuthorization H now parentAuth opts)
  if result.status ≠ .ok then
    if authorityIsSoleDefect result.toVerificationResult then
      reject .authorizationVerification .authorizationAuthorityDenied (.authority
        (js "Parent authorization issuer is not authorized for its claimed policy_id. A valid signature does not establish policy authority. Execution blocked."))
    else
      reject .authorizationVerification .authorizationVerificationFailed (.authorization
        (js "Parent authorization verification failed: " ++ failureText result.toVerificationResult ++
          js ". Execution blocked."))
  else return ()

/-- The chain is verified with the parent's trust where that was validated. -/
def chainTrust (parentTrust : List KeySet) : GuardCall σ S V (Option TrustedKeySets) :=
  match cfg.revocation with
  | none => askConfiguredKeySets
  | some _ => return some (.many parentTrust)

def chainOptions (now : JsNumber) (keySets : Option TrustedKeySets) (intent parentScope : JsValue) :
    VerifyDelegationOptions where
  now := some now
  trustedKeySets := keySets
  requireSignatureVerification := some true
  parentScope := parentScope
  expectedDelegatee := (intent.field (js "agent_id")).text?
  trustedDelegationAuthorities := cfg.trustedDelegationSigners

def toolMessages (effective : DelegationScope) (action : JsValue) : Except JsError (List JsString) :=
  if effective.tools.isUndefined then .ok []
  else do
    let included ← includesName effective.tools (action.field (js "name"))
    if included then return []
    else
      let tools ← joinedTools effective.tools
      return [js "action " ++ quoted (templateText (action.field (js "name"))) ++
        js " is not permitted by delegation scope.tools [" ++ tools ++ js "]"]

/-- The chain has refused a limit of another type already. -/
def amountMessages (effective : DelegationScope) (amount : ℤ) : List JsString :=
  if !effective.maxAmount.isUndefined && exceeds (.bigint amount) effective.maxAmount then
    [js "intent amount " ++ decimal amount ++ js " exceeds delegation scope.max_amount " ++
      templateText effective.maxAmount]
  else []

/-- All that speaks against the action under the delegation. -/
def delegationMessages (now : JsNumber) (keySets : Option TrustedKeySets) (action intent : JsValue)
    (amount : ℤ) (input : DelegationInput) : Except JsError (List JsString) := do
  let chain ← verifyDelegationChain H now input.delegation input.parentAuth
    (chainOptions cfg now keySets intent input.parentScope)
  let effective ← resolveEffectiveChildScope (input.delegation.field (js "scope")) input.parentScope
  let tools ← toolMessages effective action
  return (if chain.ok then [] else chain.violations.map VerificationViolation.message) ++ tools ++
    amountMessages effective amount ++
    (if (input.delegation.field (js "scope")).isTruthy then []
      else [js "delegation.scope is required for narrowing; execution blocked."])

def verifyChain (now : JsNumber) (keySets : Option TrustedKeySets) (action intent : JsValue)
    (amount : ℤ) (input : DelegationInput) : GuardCall σ S V Unit := do
  let messages ← returning (delegationMessages H cfg now keySets action intent amount input)
  if messages ≠ [] then reject .delegation .delegationVerificationFailed (.delegation messages)
  else return ()

def revocationRequest (delegation : JsValue) : DelegationRevocationRequest where
  delegationId := delegation.field (js "delegation_id")
  issuer := delegation.field (js "issuer")
  delegator := delegation.field (js "delegator")
  parentAuthHash := delegation.field (js "parent_auth_hash")

def rejectUnavailable {α : Type} (message : JsString) : GuardCall σ S V α :=
  reject .delegation .delegationRevocationUnavailable (.delegation [message])

/-- Only the status ACTIVE, as a property of the answer's own, lets the call go on. -/
def requireActive (result : JsValue) : GuardCall σ S V Unit :=
  let status := result.field (js "status")
  if !(result.isRecord && result.has (js "status")) then
    rejectUnavailable (js "Invalid delegation revocation provider response.")
  else if status.isText (js "REVOKED") then
    reject .delegation .delegationRevoked (.delegation [js "Delegation revoked. Execution blocked."])
  else if !status.isText (js "ACTIVE") then
    rejectUnavailable (js "Indeterminate delegation revocation status. Execution blocked.")
  else return ()

def checkDelegationRevocation (delegation : JsValue) : GuardCall σ S V Unit := do
  setStage .delegation
  if cfg.delegationRevocationProvider then
    match ← askCheckDelegation (revocationRequest delegation) with
    | .error _ => rejectUnavailable (js "Delegation revocation provider unavailable. Execution blocked.")
    | .ok .tampered => rejectUnavailable (js "A built-in prototype defines `then` (prototype pollution); the delegation revocation result cannot be trusted. Execution blocked.")
    | .ok (.value result) => requireActive result
  else if cfg.requireDelegationRevocation then
    rejectUnavailable (js "Delegation revocation is required but no provider is configured.")
  else return ()

/-- Does the parent verify under the one key its kid names? -/
def parentKidConfirmed (opts : VerifyAuthorizationOptions) (now : JsNumber) (confirmTrust : List KeySet)
    (parentAuth : JsValue) (kid : JsString) : Bool :=
  match verifyAuthorization H now parentAuth { opts with
      trustedKeySets := some (.many (pinKeySet confirmTrust (parentAuth.field (js "issuer")) kid)) } with
  | .ok result => result.status = .ok
  | .error _ => false

def fieldText (v : JsValue) (field : JsString) : JsString := (v.field field).text?.getD []

/-- The keys in use: the parent's, as confirmed, and the delegation's. -/
def keysInUse (input : DelegationInput) (parentKid : JsString) : List CheckedKey :=
  [⟨.parent, fieldText input.parentAuth (js "issuer"), parentKid⟩,
    ⟨.delegation, fieldText input.delegation (js "issuer"), fieldText input.delegation (js "kid")⟩]

def rejectDenial : RevocationDenial → GuardCall σ S V Unit
  | .revoked .parent _ _ => reject .delegation .authorizationVerificationFailed (.authorization
      (js "Signing key revoked by a verified SignedKRLV1. Execution blocked."))
  | .revoked .delegation _ _ => reject .delegation .delegationVerificationFailed (.delegation
      [js "Delegation signing key revoked by a verified SignedKRLV1. Execution blocked."])
  | .unavailable _ => reject .delegation .revocationStateUnavailable (.delegation
      [js "SignedKRLV1 revocation verification failed. Execution blocked."])
  | .invalid _ => reject .delegation .revocationStateInvalid (.delegation
      [js "SignedKRLV1 revocation verification failed. Execution blocked."])

/-- The kid of the parent's signature, once the verification under that key alone succeeds. -/
def confirmParentKid (opts : VerifyAuthorizationOptions) (now : JsNumber) (parentAuth : JsValue) :
    GuardCall σ S V JsString := do
  let confirmTrust ← validatedTrust H cfg .delegation
  match (resolveAuthorizationSigningKid parentAuth).filter
      (parentKidConfirmed H opts now confirmTrust parentAuth) with
  | none => reject .delegation .authorizationVerificationFailed (.authorization
      (js "Parent authorization signing-key identity is ambiguous or unconfirmed. Execution blocked."))
  | some kid => return kid

def checkSigningKeys (opts : VerifyAuthorizationOptions) (now : JsNumber) (input : DelegationInput) :
    GuardCall σ S V Unit :=
  match cfg.revocation with
  | none => return ()
  | some revocation => do
    let kid ← confirmParentKid H cfg opts now input.parentAuth
    let evidence ← askRevocationEvidence
    match evaluateRevocation H revocation now (keysInUse input kid) evidence.2 evidence.1 with
    | some denial => rejectDenial denial
    | none => return ()

def delegationReplayTexts : ConsumeTexts where
  unavailable := js "Replay store unavailable for delegation_id"
  what := js "delegation_id"
  failure := .delegationReplay
  replay := js "Delegation replay detected. Execution blocked."

def parentTexts : ConsumeTexts where
  unavailable := js "Replay store unavailable for parentAuth auth_id"
  what := js "parentAuth auth_id"
  failure := .authorizationReplay
  replay := js "Authorization replay detected on parentAuth: auth_id already consumed. Execution blocked."

/-- A store that consumes no delegations lets each pass. -/
def consumeDelegation (delegation : JsValue) : GuardCall σ S V Unit :=
  if cfg.consumesDelegationIds then do
    let answer ← askConsumeDelegationId (delegation.field (js "delegation_id"))
      (delegation.field (js "expiry"))
    requireConsumed delegationReplayTexts answer
    Call.modify (fun l => { l with delegationConsumed := true })
  else return ()

def consumeParent (parentAuth : JsValue) : GuardCall σ S V Unit := do
  let answer ← askConsumeAuthId (parentAuth.field (js "auth_id")) (parentAuth.field (js "expiry"))
  requireConsumed parentTexts answer
  Call.modify (fun l => { l with authorizationConsumed := true })

def delegatedRecord (action : JsValue) (input : DelegationInput) : GuardDecisionRecord where
  action := action
  decision := .allow
  authorization := some input.parentAuth
  delegation := some input.delegation

def delegationPath (action delegationInput intent : JsValue) : GuardCall σ S V JsValue := do
  setStage .delegation
  let amount ← delegatedAmount intent
  let input ← snapshotDelegation delegationInput
  let authorities ← requireAuthorities cfg
  let now ← askClock
  requireParentScope input.parentScope
  let parentTrust ← validatedTrust H cfg .authorizationVerification
  let opts := strictOptions cfg now parentTrust (some authorities)
  verifyParent H input.parentAuth opts now
  let keySets ← chainTrust cfg parentTrust
  verifyChain H cfg now keySets action intent amount input
  checkDelegationRevocation cfg input.delegation
  checkSigningKeys H cfg opts now input
  consumeDelegation cfg input.delegation
  consumeParent input.parentAuth
  passGate cfg action input.parentAuth
  runExecute cfg (delegatedRecord action input)

def runRequest (action delegationInput : JsValue) (live : LiveObjects := {}) : GuardCall σ S V JsValue := do
  let loaded ← loadState
  let intent ← normalizeAction action delegationInput
  if delegationInput.isTruthy then delegationPath H cfg (live.normalized action) delegationInput intent
  else standardPath H cfg (live.normalized action) intent loaded.1 loaded.2 live

/-- The note of an error whose event is still to be emitted. -/
def takeEvent : Thrown → Prog σ (GuardRequest S V) GuardAnswer (Option (Option BoundaryAnnotation))
  | .own _ note => pure (some note)
  | .callback err =>
    match err.identity with
    | none => pure (some none)
    | some identity => Prog.request (GuardRequest.takeEvent identity)

def markHandled : Thrown → Prog σ (GuardRequest S V) GuardAnswer Unit
  | .own _ _ => pure ()
  | .callback err =>
    match err.identity with
    | none => pure ()
    | some identity => Prog.request (GuardRequest.markHandled identity)

/-- With a hook the catch asks whether the error is a denial before anything else. What
that throws takes the error's place. -/
def rethrown (err : Thrown) : Thrown :=
  match err.asking with
  | none => err
  | some thrown => if cfg.onBoundaryEvent then .callback thrown else err

def emitBoundaryEvent (err : Thrown) (lifecycle : GuardLifecycle) :
    Prog σ (GuardRequest S V) GuardAnswer Unit :=
  if !cfg.onBoundaryEvent || err.asking.isSome || err.isDeny then pure ()
  else if lifecycle.executionStarted then markHandled err
  else if lifecycle.sharedBodyEntered then pure ()
  else do
    match ← takeEvent err with
    | none => pure ()
    | some note =>
      let event := GuardRequest.onBoundaryEvent (buildEvent note lifecycle)
      let _ ← (Prog.request event : Prog σ (GuardRequest S V) GuardAnswer _)
      pure ()

/-- Every rejection leaves through one catch. -/
def guardCall (action delegationInput : JsValue) (live : LiveObjects := {}) :
    Prog σ (GuardRequest S V) GuardAnswer (Except Thrown JsValue) := do
  let settled ← runRequest H cfg action delegationInput live (createLifecycle .stateLoad)
  match settled with
  | (.ok result, _) => pure (.ok result)
  | (.error err, lifecycle) => do
    emitBoundaryEvent cfg err lifecycle
    pure (.error (rethrown cfg err))

end

end OxDeAI
