import OxDeAI.Audit.Chain
import OxDeAI.Core.Clone
import OxDeAI.Verification.KeyCheck
import OxDeAI.Verification.Snapshot

/-! `verifyEnvelope`: a snapshot and an event list under one signature. -/

namespace OxDeAI

open Js

structure VerificationEnvelope where
  snapshot : List Byte
  events : List JsValue
  issuer : Option JsString
  alg : Option JsString
  kid : Option JsString
  signature : Option JsString

structure VerifyEnvelopeOptions where
  now : Option JsNumber := none
  expectedPolicyId : Option JsString := none
  mode : Option VerifyMode := none
  expectedIssuer : Option JsString := none
  trustedKeySets : Option TrustedKeySets := none
  requireSignatureVerification : Option Bool := none

def isBase64Unit (u : CodeUnit) : Bool :=
  (65 ≤ u.val && u.val ≤ 90) || (97 ≤ u.val && u.val ≤ 122) || (48 ≤ u.val && u.val ≤ 57) ||
    u.val = 43 || u.val = 47

/-- `/^[A-Za-z0-9+/]+={0,2}$/`. -/
def isBase64Text : JsValue → Bool
  | .str s =>
    let padding := s.dropWhile isBase64Unit
    s.takeWhile isBase64Unit ≠ [] && (padding = [] || padding = js "=" || padding = js "==")
  | _ => false

/-- The path of an issue of the `i`-th event; such a path starts with `$`. -/
def eventPath (i : ℕ) (path : JsString) : JsString :=
  js "$.events[" ++ natDecimal i ++ js "]" ++ path.drop 1

def eventIssues (event : JsValue) (i : ℕ) : List SchemaValidationIssue :=
  (validateAuditEventJson event).map (fun issue => { issue with path := eventPath i issue.path })

def envelopeRequiredKeys : List JsString := [js "formatVersion", js "snapshot", js "events"]

def envelopeKeys : List JsString :=
  envelopeRequiredKeys ++ [js "issuer", js "alg", js "kid", js "signature"]

section

variable (value : JsValue)

def eventListIssues : List SchemaValidationIssue :=
  match value.field (js "events") with
  | .arr events => events.zipIdx.flatMap (fun e => eventIssues e.1 e.2)
  | _ => issueUnless (!value.has (js "events")) (js "$.events") .type (js "must be array")

def requiredWithSignature (key : JsString) (holds : Bool) : List SchemaValidationIssue :=
  issueUnless holds (fieldPath key) .required (js "required when signature is present")

def signedIssues : List SchemaValidationIssue :=
  if (value.field (js "signature")).isString then
    requiredWithSignature (js "issuer") (value.field (js "issuer")).hasText ++
      requiredWithSignature (js "alg") ((value.field (js "alg")).isText (js "Ed25519")) ++
      requiredWithSignature (js "kid") (value.field (js "kid")).hasText
  else []

def validateVerificationEnvelopeWireJson : List SchemaValidationIssue :=
  if !value.isRecord then [⟨js "$", .type, js "must be object"⟩]
  else sortedIssues (
    missingKeys value envelopeRequiredKeys ++ pushAdditional value envelopeKeys ++
      whenPresent value (js "formatVersion") (isOne (value.field (js "formatVersion"))) .value
        (js "must equal 1") ++
      whenPresent value (js "snapshot") (isBase64Text (value.field (js "snapshot"))) .format
        (js "must be base64 string") ++
      eventListIssues value ++
      whenPresent value (js "issuer") (value.field (js "issuer")).isString .type (js "must be string") ++
      whenPresent value (js "alg") ((value.field (js "alg")).isText (js "Ed25519")) .enum
        (js "must be Ed25519") ++
      whenPresent value (js "kid") (value.field (js "kid")).isString .type (js "must be string") ++
      whenPresent value (js "signature") (value.field (js "signature")).isString .type
        (js "must be string") ++
      signedIssues value)

def invalidEnvelope (detail : JsString) : JsError :=
  .error (js "invalid verification envelope" ++ detail)

/-- The snapshot is decoded and the events are cloned on the way out; JSON data
can always be cloned. -/
def assertEnvelope : Except JsError VerificationEnvelope :=
  if !value.isRecord then .error (invalidEnvelope [])
  else if !isOne (value.field (js "formatVersion")) then
    .error (invalidEnvelope (js ": unsupported formatVersion"))
  else match value.field (js "snapshot"), value.field (js "events") with
    | .str snapshot, .arr events =>
      match events.findIdx? (fun event => !event.isRecord) with
      | some i => .error (invalidEnvelope (js ": events[" ++ natDecimal i ++ js "]"))
      | none => .ok {
          snapshot := base64Decode snapshot
          events := events.map toPlain
          issuer := (value.field (js "issuer")).text?
          alg := if (value.field (js "alg")).isText (js "Ed25519") then some (js "Ed25519") else none
          kid := (value.field (js "kid")).text?
          signature := (value.field (js "signature")).text? }
    | .str _, _ => .error (invalidEnvelope (js ": events"))
    | _, _ => .error (invalidEnvelope (js ": snapshot"))

end

def decodeEnvelope (syntaxError : JsString → JsString) (bytes : List Byte) :
    Except JsError VerificationEnvelope :=
  (parseBytes syntaxError bytes).bind (fun parsed =>
    match validateVerificationEnvelopeWireJson parsed with
    | first :: _ => .error (invalidEnvelope (js ": " ++ first.path ++ js ": " ++ first.message))
    | [] => assertEnvelope parsed)

def envelopeSigningPayload (envelope : VerificationEnvelope) : JsValue :=
  .obj (present [(js "formatVersion", some (.num (.int 1))),
    (js "snapshot", some (.str (base64Encode envelope.snapshot))),
    (js "events", some (.arr (envelope.events.map toPlain))),
    (js "issuer", envelope.issuer.map .str), (js "alg", envelope.alg.map .str),
    (js "kid", envelope.kid.map .str)])

def envelopeV1Domain : JsString := js "OXDEAI_ENVELOPE_V1"

def envelopeKeyReport : KeyReport where
  unknown := ⟨.envelopeKidUnknown, js "envelope kid not found for issuer/alg", none⟩
  inactive := ⟨.envelopeKeyInactive, js "envelope signing key is not active", none⟩
  invalid := ⟨.envelopeSignatureInvalid, js "envelope signature verification failed", none⟩

/-- A text that is there and not empty. -/
def given (text : Option JsString) : Bool := text.getD [] ≠ []

def malformedEnvelope : JsError → VerificationResult
  | .error message =>
    { ok := false, status := .invalid, violations := [⟨.envelopeMalformed,
      if message = [] then js "envelope decode failed" else message, none⟩] }
  | _ =>
    { ok := false, status := .invalid,
      violations := [⟨.envelopeMalformed, js "envelope decode failed", none⟩] }

def envelopeTrustRequired : VerificationResult where
  ok := false
  status := .invalid
  violations := [⟨.trustedKeysetsRequired, js "strict mode requires trustedKeySets to be provided", none⟩]

section

variable (H : Host) (envelope : VerificationEnvelope)

def verifyEnvelopeSignature (key : KeySetKey) : Bool :=
  verifyEd25519 H envelopeV1Domain (envelopeSigningPayload envelope) (envelope.signature.getD [])
    key.publicKey

/-- The issuer and the presence of a signature. -/
def checkEnvelopeOrigin (opts : VerifyEnvelopeOptions) : List VerificationViolation :=
  check (opts.expectedIssuer.isNone || envelope.issuer = opts.expectedIssuer) .envelopeSignatureInvalid
      (js "envelope issuer does not match expectedIssuer") ++
    check (!opts.requireSignatureVerification.getD false || given envelope.signature)
      .envelopeSignatureMissing (js "signed envelope is required")

/-- Issuer and kid to look a key up with, when the signature can be checked at all. -/
def envelopeSigner : Option (JsString × JsString) :=
  if envelope.alg = some (js "Ed25519") ∧ given envelope.kid ∧ given envelope.issuer then
    some (envelope.issuer.getD [], envelope.kid.getD [])
  else none

def checkEnvelopeSignature (now : JsNumber) (trusted : Bool) (find : JsString → JsString → Option KeySetKey) :
    List VerificationViolation :=
  if !given envelope.signature then []
  else match envelopeSigner envelope with
    | none =>
      if envelope.alg ≠ some (js "Ed25519") then
        [⟨.envelopeAlgUnsupported, js "unsupported envelope signature algorithm", none⟩]
      else [⟨.envelopeSignatureInvalid, js "signed envelope requires issuer, alg, kid, signature", none⟩]
    | some (issuer, kid) =>
      if !trusted then
        [⟨.envelopeTrustMissing, js "trustedKeySets required to verify signed envelope", none⟩]
      else envelopeKeyReport.violations
        (keyOutcome now (verifyEnvelopeSignature H envelope) (find issuer kid))

/-- The snapshot and the events speak of one policy. -/
def checkEnvelopePolicy (snapshotPolicyId auditPolicyId : Option JsString) : List VerificationViolation :=
  if !given snapshotPolicyId || !given auditPolicyId then
    [⟨.policyIdMissing, js "snapshot and audit must both include policyId", none⟩]
  else check (snapshotPolicyId = auditPolicyId) .policyIdMismatch
    (js "snapshot policyId does not match audit policyId")

/-- The verdict over the parts; a missing state anchor alone leaves it open. -/
def envelopeVerdict (snapshot audit : VerificationResult) (violations : List VerificationViolation) :
    VerificationResult :=
  if snapshot.status = .invalid ∨ audit.status = .invalid ∨
      violations.any (fun v => v.code ≠ .noStateAnchor) then
    { ok := false, status := .invalid, violations := violations,
      policyId := snapshot.policyId.or audit.policyId, stateHash := snapshot.stateHash,
      auditHeadHash := audit.auditHeadHash }
  else if snapshot.status = .inconclusive ∨ audit.status = .inconclusive then
    { ok := false, status := .inconclusive, violations := violations,
      policyId := snapshot.policyId.or audit.policyId, stateHash := snapshot.stateHash,
      auditHeadHash := audit.auditHeadHash }
  else
    { ok := true, status := .ok, violations := [], policyId := snapshot.policyId,
      stateHash := snapshot.stateHash, auditHeadHash := audit.auditHeadHash }

def envelopeSnapshotResult (syntaxError : JsString → JsString) (opts : VerifyEnvelopeOptions) :
    VerificationResult :=
  verifySnapshot H.toPlatform syntaxError envelope.snapshot opts.expectedPolicyId

def envelopeAuditResult (opts : VerifyEnvelopeOptions) : VerificationResult :=
  verifyAuditEvents H.toPlatform (.arr envelope.events)
    { expectedPolicyId := opts.expectedPolicyId, mode := opts.mode }

/-- The violations of the parts, with those of the signature. -/
def envelopeViolations (syntaxError : JsString → JsString) (opts : VerifyEnvelopeOptions)
    (signature : List VerificationViolation) : List VerificationViolation :=
  let snapshot := envelopeSnapshotResult H envelope syntaxError opts
  let audit := envelopeAuditResult H envelope opts
  checkEnvelopeOrigin envelope opts ++ signature ++ (snapshot.violations ++ audit.violations) ++
    checkEnvelopePolicy snapshot.policyId audit.policyId

def verifyDecodedEnvelope (syntaxError : JsString → JsString) (clock : JsNumber)
    (opts : VerifyEnvelopeOptions) (find : JsString → JsString → Option KeySetKey) : VerificationResult :=
  let trusted := !(trustedList opts.trustedKeySets).isEmpty
  if opts.mode = some .strict ∧ trusted = false then envelopeTrustRequired
  else envelopeVerdict (envelopeSnapshotResult H envelope syntaxError opts)
    (envelopeAuditResult H envelope opts)
    (sortViolations (envelopeViolations H envelope syntaxError opts
      (checkEnvelopeSignature H envelope (opts.now.getD clock) trusted find)))

end

/-- Verification with the key lookup as an argument. -/
def verifyEnvelopeBy (H : Host) (syntaxError : JsString → JsString) (clock : JsNumber) (bytes : List Byte)
    (opts : VerifyEnvelopeOptions) (find : JsString → JsString → Option KeySetKey) : VerificationResult :=
  match decodeEnvelope syntaxError bytes with
  | .error e => malformedEnvelope e
  | .ok envelope => verifyDecodedEnvelope H envelope syntaxError clock opts find

def verifyEnvelope (H : Host) (syntaxError : JsString → JsString) (clock : JsNumber) (bytes : List Byte)
    (opts : VerifyEnvelopeOptions) : VerificationResult :=
  verifyEnvelopeBy H syntaxError clock bytes opts (fun issuer kid =>
    findKeyInKeySets (trustedList opts.trustedKeySets) (.str issuer) kid .ed25519)

section

variable {snapshot audit : VerificationResult} {violations : List VerificationViolation}

theorem envelopeVerdict_ok : (envelopeVerdict snapshot audit violations).ok = true ↔
    snapshot.status = .ok ∧ audit.status = .ok ∧ ∀ v ∈ violations, v.code = .noStateAnchor := by
  have hany : violations.any (fun v => v.code ≠ .noStateAnchor) = false ↔
      ∀ v ∈ violations, v.code = .noStateAnchor := by simp
  rw [← hany]
  unfold envelopeVerdict
  cases violations.any (fun v => v.code ≠ .noStateAnchor) with
  | true => simp
  | false => cases snapshot.status <;> cases audit.status <;> simp

/-- An invalid verdict reports every violation. -/
theorem envelopeVerdict_invalid (h : (envelopeVerdict snapshot audit violations).status = .invalid) :
    (envelopeVerdict snapshot audit violations).violations = violations := by
  unfold envelopeVerdict at h ⊢
  split
  · rfl
  · rename_i hnot
    rw [if_neg hnot] at h
    split at h <;> cases h

theorem envelopeVerdict_of_mem {v : VerificationViolation} (hmem : v ∈ violations)
    (hv : v.code ≠ .noStateAnchor) : (envelopeVerdict snapshot audit violations).status = .invalid := by
  have hany : violations.any (fun v => v.code ≠ .noStateAnchor) = true :=
    List.any_eq_true.mpr ⟨v, hmem, by simpa using hv⟩
  rw [envelopeVerdict, if_pos (.inr (.inr hany))]

end

section

variable {P : Platform} {syntaxError : JsString → JsString} {bytes : List Byte}
  {expected : Option JsString} {events : List JsValue} {auditOpts : VerifyAuditOptions}

theorem verifySnapshot_violations (h : (verifySnapshot P syntaxError bytes expected).status = .ok) :
    (verifySnapshot P syntaxError bytes expected).violations = [] := by
  unfold verifySnapshot at h ⊢
  split at h
  · cases h
  · rename_i snapshot _
    unfold verifyDecodedSnapshot at h ⊢
    dsimp only at h ⊢
    split at h
    · cases h
    · rename_i h1
      split at h
      · cases h
      · rename_i h2
        split at h
        · cases h
        · rename_i h3
          rw [if_neg h1, if_neg h2, if_neg h3]
          cases hs : snapshotStateHash P snapshot with
          | ok hash => rfl
          | error e =>
            rw [hs] at h
            cases h

theorem auditVerdict_violations {policyId : Option JsString} {head : JsString}
    {violations : List VerificationViolation} (h : (auditVerdict violations policyId head).status = .ok) :
    (auditVerdict violations policyId head).violations = [] := by
  unfold auditVerdict at h ⊢
  split at h
  · cases h
  · rename_i h1
    split at h
    · cases h
    · rename_i h2
      rw [if_neg h1, if_neg h2]

theorem verifyAuditEvents_violations
    (h : (verifyAuditEvents P (.arr events) auditOpts).status = .ok) :
    (verifyAuditEvents P (.arr events) auditOpts).violations = [] := auditVerdict_violations h

end

/-- All that is checked without a key. -/
structure EnvelopeHolds (H : Host) (syntaxError : JsString → JsString) (opts : VerifyEnvelopeOptions)
    (envelope : VerificationEnvelope) : Prop where
  snapshot : (envelopeSnapshotResult H envelope syntaxError opts).status = .ok
  audit : (envelopeAuditResult H envelope opts).status = .ok
  origin : checkEnvelopeOrigin envelope opts = []
  policy : checkEnvelopePolicy (envelopeSnapshotResult H envelope syntaxError opts).policyId
    (envelopeAuditResult H envelope opts).policyId = []

section

variable {H : Host} {syntaxError : JsString → JsString} {opts : VerifyEnvelopeOptions}
  {envelope : VerificationEnvelope} {signature : List VerificationViolation}

theorem checkEnvelopeOrigin_code {v : VerificationViolation} (h : v ∈ checkEnvelopeOrigin envelope opts) :
    v.code ≠ .noStateAnchor := by
  rcases List.mem_append.mp h with h | h
  · unfold check at h
    split at h
    · cases h
    · obtain rfl := List.mem_singleton.mp h
      decide
  · unfold check at h
    split at h
    · cases h
    · obtain rfl := List.mem_singleton.mp h
      decide

theorem checkEnvelopePolicy_code {v : VerificationViolation} {a b : Option JsString}
    (h : v ∈ checkEnvelopePolicy a b) : v.code ≠ .noStateAnchor := by
  unfold checkEnvelopePolicy check at h
  split at h
  · obtain rfl := List.mem_singleton.mp h
    decide
  · split at h
    · cases h
    · obtain rfl := List.mem_singleton.mp h
      decide

/-- Accepted exactly if the parts hold and the signature adds no violation. -/
theorem envelopeVerdict_accepts (hsig : ∀ v ∈ signature, v.code ≠ .noStateAnchor) :
    (envelopeVerdict (envelopeSnapshotResult H envelope syntaxError opts)
        (envelopeAuditResult H envelope opts)
        (sortViolations (envelopeViolations H envelope syntaxError opts signature))).ok = true ↔
      EnvelopeHolds H syntaxError opts envelope ∧ signature = [] := by
  have hnil : ∀ {vs : List VerificationViolation}, (∀ v ∈ vs, v.code ≠ .noStateAnchor) →
      (∀ v ∈ vs, v.code = .noStateAnchor) → vs = [] := by
    intro vs hne heq
    exact List.eq_nil_iff_forall_not_mem.mpr fun v hv => hne v hv (heq v hv)
  rw [envelopeVerdict_ok]
  simp only [mem_sortViolations, envelopeViolations, List.mem_append, or_imp, forall_and]
  constructor
  · rintro ⟨hs, ha, ⟨⟨horigin, hsignature⟩, -⟩, hpolicy⟩
    exact ⟨⟨hs, ha, hnil (fun _ => checkEnvelopeOrigin_code) horigin,
      hnil (fun _ => checkEnvelopePolicy_code) hpolicy⟩, hnil hsig hsignature⟩
  · rintro ⟨h, rfl⟩
    have hs : (envelopeSnapshotResult H envelope syntaxError opts).violations = [] :=
      verifySnapshot_violations h.snapshot
    have ha : (envelopeAuditResult H envelope opts).violations = [] := verifyAuditEvents_violations h.audit
    simp [h.snapshot, h.audit, h.origin, h.policy, hs, ha]

end

end OxDeAI
