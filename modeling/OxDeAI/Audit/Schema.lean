import OxDeAI.Snapshot.Serialize
import OxDeAI.Verification.Result

/-! The wire schema of audit events and of the parts of an envelope. -/

namespace OxDeAI

open Js

inductive IssueCode
  | type
  | required
  | enum
  | format
  | additional
  | value
  deriving DecidableEq

def IssueCode.text : IssueCode → JsString
  | type => js "TYPE"
  | required => js "REQUIRED"
  | enum => js "ENUM"
  | format => js "FORMAT"
  | additional => js "ADDITIONAL"
  | value => js "VALUE"

structure SchemaValidationIssue where
  path : JsString
  code : IssueCode
  message : JsString
  deriving DecidableEq

/-- By path, then code, then message. -/
def sortedIssues (issues : List SchemaValidationIssue) : List SchemaValidationIssue :=
  issues.insertionSort (fun a b => a.path < b.path ∨ (a.path = b.path ∧
    (a.code.text < b.code.text ∨ (a.code.text = b.code.text ∧ a.message ≤ b.message))))

def issueUnless (holds : Bool) (path : JsString) (code : IssueCode) (message : JsString) :
    List SchemaValidationIssue :=
  if holds then [] else [⟨path, code, message⟩]

@[simp] theorem issueUnless_eq_nil {holds : Bool} {path : JsString} {code : IssueCode}
    {message : JsString} : issueUnless holds path code message = [] ↔ holds = true := by
  cases holds <;> simp [issueUnless]

theorem sortedIssues_eq_nil {issues : List SchemaValidationIssue} :
    sortedIssues issues = [] ↔ issues = [] := by
  rw [← List.length_eq_zero_iff, sortedIssues, List.length_insertionSort, List.length_eq_zero_iff]

def intNonNegative : JsValue → Bool
  | .num n => n.isInteger && n.ge (.int 0)
  | _ => false

/-- The path of a field of the root. -/
def fieldPath (field : JsString) : JsString := js "$." ++ field

def pushAdditional (value : JsValue) (allowed : List JsString) : List SchemaValidationIssue :=
  (sortKeys ((value.entries.map Prod.fst).filter (fun k => !allowed.contains k))).map
    (fun key => ⟨fieldPath key, .additional, js "unknown field"⟩)

theorem pushAdditional_eq_nil {value : JsValue} {allowed : List JsString} :
    pushAdditional value allowed = [] ↔ ∀ e ∈ value.entries, e.1 ∈ allowed := by
  rw [pushAdditional, List.map_eq_nil_iff, ← List.length_eq_zero_iff, sortKeys,
    List.length_insertionSort, List.length_eq_zero_iff, List.filter_eq_nil_iff]
  simp

section

variable (value : JsValue)

def nonEmptyString (field : JsString) : List SchemaValidationIssue :=
  issueUnless (value.field field).hasText (fieldPath field) .type (js "must be non-empty string")

def anyString (field : JsString) : List SchemaValidationIssue :=
  issueUnless (value.field field).isString (fieldPath field) .type (js "must be string")

def stringArrayField (field : JsString) : List SchemaValidationIssue :=
  issueUnless (match value.field field with
    | .arr xs => xs.all JsValue.isString
    | _ => false) (fieldPath field) .type (js "must be string array")

/-- The fields an event of this type carries besides its type, timestamp and policy. -/
def eventFields (type : JsString) : List JsString :=
  if type = js "INTENT_RECEIVED" then [js "intent_hash", js "agent_id"]
  else if type = js "DECISION" then
    [js "intent_hash", js "decision", js "reasons", js "policy_version"]
  else if type = js "AUTH_EMITTED" then [js "authorization_id", js "intent_hash", js "expires_at"]
  else if type = js "EXECUTION_ATTESTED" then [js "intent_hash", js "execution_ref"]
  else [js "stateHash"]

def eventKeys (type : JsString) : List JsString :=
  js "type" :: eventFields type ++ [js "timestamp", js "policyId"]

def eventTypeIssues (type : JsString) : List SchemaValidationIssue :=
  if type = js "INTENT_RECEIVED" then
    nonEmptyString value (js "intent_hash") ++ anyString value (js "agent_id") ++
      pushAdditional value (eventKeys type)
  else if type = js "DECISION" then
    nonEmptyString value (js "intent_hash") ++
      issueUnless ((value.field (js "decision")).isText (js "ALLOW") ||
        (value.field (js "decision")).isText (js "DENY")) (js "$.decision") .enum
          (js "must be ALLOW or DENY") ++
      stringArrayField value (js "reasons") ++ anyString value (js "policy_version") ++
      pushAdditional value (eventKeys type)
  else if type = js "AUTH_EMITTED" then
    nonEmptyString value (js "authorization_id") ++ nonEmptyString value (js "intent_hash") ++
      issueUnless (intNonNegative (value.field (js "expires_at"))) (js "$.expires_at") .type
        (js "must be non-negative integer") ++
      pushAdditional value (eventKeys type)
  else if type = js "EXECUTION_ATTESTED" then
    nonEmptyString value (js "intent_hash") ++ anyString value (js "execution_ref") ++
      pushAdditional value (eventKeys type)
  else if type = js "STATE_CHECKPOINT" then
    nonEmptyString value (js "stateHash") ++ pushAdditional value (eventKeys type)
  else [⟨js "$.type", .enum, js "unsupported event type"⟩]

def validateAuditEventJson : List SchemaValidationIssue :=
  if !value.isRecord then [⟨js "$", .type, js "must be object"⟩]
  else match value.field (js "type") with
    | .str type =>
      sortedIssues (
        issueUnless (intNonNegative (value.field (js "timestamp"))) (js "$.timestamp") .type
          (js "timestamp must be non-negative integer") ++
        issueUnless (!value.has (js "policyId") || (value.field (js "policyId")).isString)
          (js "$.policyId") .type (js "policyId must be string") ++
        eventTypeIssues value type)
    | _ => [⟨js "$.type", .required, js "missing type"⟩]

end

def mapIssuesToViolation (code : ViolationCode) (issues : List SchemaValidationIssue)
    (index : Option ℕ) : List VerificationViolation :=
  issues.map (fun issue => ⟨code, issue.path ++ js ": " ++ issue.message, index⟩)

/-- What a schema-valid event has. -/
theorem validateAuditEventJson_eq_nil {value : JsValue} (h : validateAuditEventJson value = []) :
    value.isRecord = true ∧ (∃ type, value.field (js "type") = .str type) ∧
      (∃ t : ℕ, value.field (js "timestamp") = .num (.int t)) ∧
      (value.has (js "policyId") = true → ∃ p, value.field (js "policyId") = .str p) := by
  unfold validateAuditEventJson at h
  split at h
  · cases h
  · rename_i hrec
    split at h
    · rename_i type htype
      rw [sortedIssues_eq_nil] at h
      simp only [List.append_eq_nil_iff, issueUnless_eq_nil] at h
      obtain ⟨⟨hts, hp⟩, -⟩ := h
      refine ⟨by simpa using hrec, ⟨type, htype⟩, ?_, ?_⟩
      · cases hv : value.field (js "timestamp") with
        | num n =>
          rw [hv, intNonNegative, Bool.and_eq_true] at hts
          obtain ⟨z, rfl⟩ := JsNumber.exists_int_of_isInteger hts.1
          have h0 : 0 ≤ z := by simpa using hts.2
          exact ⟨z.toNat, by rw [Int.toNat_of_nonneg h0]⟩
        | _ =>
          rw [hv] at hts
          cases hts
      · intro hhas
        rw [hhas] at hp
        cases hv : value.field (js "policyId") with
        | str p => exact ⟨p, rfl⟩
        | _ =>
          rw [hv] at hp
          cases hp
    · cases h

end OxDeAI
