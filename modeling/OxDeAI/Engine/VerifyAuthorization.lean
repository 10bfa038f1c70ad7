import OxDeAI.Engine.Outcome
import OxDeAI.Crypto.Keys
import OxDeAI.Verification.Result

/-! `PolicyEngine.verifyAuthorization`: the engine's own check of what it issued, over the
fields its HMAC covers. -/

namespace OxDeAI

open Js

inductive EngineVerificationReason
  | authIntentMismatch
  | authSignatureInvalid
  | authExpired
  | policyVersionMismatch
  | internalError
  deriving DecidableEq

def EngineVerificationReason.text : EngineVerificationReason → JsString
  | authIntentMismatch => js "AUTH_INTENT_MISMATCH"
  | authSignatureInvalid => js "AUTH_SIGNATURE_INVALID"
  | authExpired => js "AUTH_EXPIRED"
  | policyVersionMismatch => js "POLICY_VERSION_MISMATCH"
  | internalError => js "INTERNAL_ERROR"

structure EngineAuthorizationVerificationResult where
  valid : Bool
  reason : Option EngineVerificationReason
  signatureVerified : Bool
  verificationMode : VerificationMode
  verificationCoverage : VerificationCoverage
  deriving DecidableEq

section

variable (P : Platform) (e : PolicyEngine)

/-- Compared as the bytes of both texts. -/
def engineVerifyHmac (payload : JsValue) (signatureHex secret : JsString) : Bool :=
  match engineSignHmac P payload secret with
  | .error _ => false
  | .ok expected => hexDecode expected = hexDecode signatureHex

/-- The members of an emitted authorization, in their order. -/
def authorizationValue (auth : Authorization) : JsValue :=
  .obj ([(js "authorization_id", .str auth.authorizationId), (js "auth_id", .str auth.authId),
    (js "issuer", .str auth.issuer), (js "audience", .str auth.audience),
    (js "intent_hash", .str auth.intentHash), (js "state_hash", .str auth.stateHash),
    (js "policy_id", .str auth.policyId), (js "policy_version", .str auth.policyVersion),
    (js "state_snapshot_hash", .str auth.stateSnapshotHash), (js "decision", .str (js "ALLOW")),
    (js "issued_at", .num auth.issuedAt), (js "expiry", .num auth.expiry), (js "alg", .str auth.alg.text),
    (js "kid", .str auth.kid), (js "nonce", .str auth.nonce), (js "signature", .str auth.signature),
    (js "expires_at", .num auth.expiresAt), (js "engine_signature", .str auth.engineSignature)] ++
    optionalField (js "capability") (auth.capability.map (fun c => .str c.text)))

/-- The verdict of a check that stands before the HMAC. -/
def refusedUnchecked (reason : EngineVerificationReason) : EngineAuthorizationVerificationResult :=
  ⟨false, some reason, false, .permissive, .none⟩

def hmacVerdict (ok : Bool) : EngineAuthorizationVerificationResult :=
  ⟨ok, if ok then none else some .authSignatureInvalid, ok, .permissive, .engineHmacSubset⟩

/-- The clock stands in for a missing `now`, unless the engine is strictly deterministic. -/
def verificationTime (clock : JsNumber) : Option JsNumber → Except JsError JsNumber
  | some now => .ok now
  | none =>
    if e.opts.strictDeterminism.getD false then
      .error (.error (js "strictDeterminism: 'now' must be provided (no Date.now fallback)"))
    else .ok clock

/-- The fields the HMAC covers, as they stand in the authorization. -/
def coveredPayload (authorization : JsValue) : JsValue :=
  .obj [(js "intent_hash", authorization.field (js "intent_hash")),
    (js "policy_version", authorization.field (js "policy_version")),
    (js "state_snapshot_hash", authorization.field (js "state_snapshot_hash")),
    (js "decision", .str (js "ALLOW")), (js "expires_at", authorization.field (js "expires_at"))]

/-- The body of the `try` block. A signature that is no text makes no buffer, which
`engineVerifyHmac` catches. -/
def verifyAuthorizationGuarded (intent : Intent) (authorization : JsValue) (state : State)
    (clock : JsNumber) (now : Option JsNumber) : Except JsError EngineAuthorizationVerificationResult := do
  let t ← verificationTime e clock now
  let hash ← intentHash P intent
  if authorization.isNullish then throw .typeError
  let expiresAt := authorization.field (js "expires_at")
  let expiry := authorization.field (js "expiry")
  if !(authorization.field (js "intent_hash")).isText hash then return refusedUnchecked .authIntentMismatch
  if !expiresAt.isSafeInteger then return refusedUnchecked .authSignatureInvalid
  if !expiry.isUndefined && !expiry.strictEquals expiresAt then return refusedUnchecked .authSignatureInvalid
  if expiresAt.number?.any t.ge then return refusedUnchecked .authExpired
  if !(authorization.field (js "decision")).isText (js "ALLOW") then
    return refusedUnchecked .authSignatureInvalid
  if !(authorization.field (js "policy_version")).isText state.policyVersion then
    return refusedUnchecked .policyVersionMismatch
  return hmacVerdict ((authorization.field (js "engine_signature")).text?.any
    (fun signature => engineVerifyHmac P (coveredPayload authorization) signature e.opts.engineSecret))

def PolicyEngine.verifyAuthorization (intent : Intent) (authorization : JsValue) (state : State)
    (clock : JsNumber) (now : Option JsNumber) : EngineAuthorizationVerificationResult :=
  match verifyAuthorizationGuarded P e intent authorization state clock now with
  | .ok result => result
  | .error _ => refusedUnchecked .internalError

end

section

variable {P : Platform} {e : PolicyEngine} {intent : Intent} {state : State} {t : JsNumber} {c : Charge}
  {parts : AuthorizationParts}

theorem engineVerifyHmac_self {payload : JsValue} {secret signature : JsString}
    (h : engineSignHmac P payload secret = .ok signature) :
    engineVerifyHmac P payload signature secret = true := by
  rw [engineVerifyHmac, h]
  exact decide_eq_true rfl

/-- The engine signs what it verifies. -/
theorem coveredPayload_issued : coveredPayload (authorizationValue (authorizationFor P e intent state t parts)) =
    engineAuthPayload parts.intentHash state.policyVersion parts.stateSnapshotHash (t.add e.authorizationTtl) :=
  rfl

theorem policyVersion_nextStateFor : (nextStateFor P e intent state t c parts).policyVersion = state.policyVersion := by
  have hsettle : (settle intent state (moduleContext e t) c).policyVersion = state.policyVersion := by
    cases hkind : intent.kind <;> simp [settle, proposed, hkind]
  rw [← hsettle, nextStateFor, leaseState]
  cases intent.kind <;> rfl

theorem ValidClock.expiry_safe (h : ValidClock e t) : (t.add e.authorizationTtl).isSafeInteger = true := by
  obtain ⟨n, ttl, -, -, -, hle, hadd⟩ := h.exists_seconds
  rw [hadd]
  exact JsNumber.isSafeInteger_int.mpr hle

/-- What the engine issued it accepts until the expiry, and not from then on. -/
theorem verifyAuthorization_issued (h : Permitted P e intent state t c parts) (clock now : JsNumber) :
    e.verifyAuthorization P intent (authorizationValue (authorizationFor P e intent state t parts))
        (nextStateFor P e intent state t c parts) clock (some now) =
      if now.ge (t.add e.authorizationTtl) then refusedUnchecked .authExpired else hmacVerdict true := by
  obtain ⟨z, hz, -⟩ := JsNumber.exists_int_of_isSafeInteger h.clock.expiry_safe
  generalize ha : authorizationValue (authorizationFor P e intent state t parts) = a
  have hhash : a.field (js "intent_hash") = .str parts.intentHash := by rw [← ha]; rfl
  have hexpires : a.field (js "expires_at") = .num (.int z) := by rw [← ha, ← hz]; rfl
  have hexpiry : a.field (js "expiry") = .num (.int z) := by rw [← ha, ← hz]; rfl
  have hdecision : a.field (js "decision") = .str (js "ALLOW") := by rw [← ha]; rfl
  have hversion : a.field (js "policy_version") = .str state.policyVersion := by rw [← ha]; rfl
  have hsignature : a.field (js "engine_signature") = .str parts.engineSignature := by rw [← ha]; rfl
  have hnull : a.isNullish = false := by rw [← ha]; rfl
  have hhmac : engineVerifyHmac P (coveredPayload a) parts.engineSignature e.opts.engineSecret = true := by
    rw [← ha, coveredPayload_issued]
    exact engineVerifyHmac_self h.issued.engineSignature
  have hsafe : (JsNumber.int z).isSafeInteger = true := hz ▸ h.clock.expiry_safe
  have hguarded : verifyAuthorizationGuarded P e intent a (nextStateFor P e intent state t c parts) clock (some now) =
      .ok (if now.ge (.int z) then refusedUnchecked .authExpired else hmacVerdict true) := by
    have hsame : (JsValue.num (.int z)).strictEquals (.num (.int z)) = true := by simp [JsValue.strictEquals]
    simp only [verifyAuthorizationGuarded, verificationTime, h.hash, policyVersion_nextStateFor, hhash, hexpires, hexpiry,
      hdecision, hversion, hsignature, hnull, hsame, bind, Except.bind, pure, Except.pure]
    by_cases hlate : now.ge (.int z) = true
    · simp [JsValue.isText, JsValue.isSafeInteger, JsValue.number?, hsafe, hlate]
    · simp [JsValue.isText, JsValue.isSafeInteger, JsValue.number?, JsValue.text?, hsafe, hlate, hhmac]
  rw [PolicyEngine.verifyAuthorization, hguarded, hz]

end

end OxDeAI
