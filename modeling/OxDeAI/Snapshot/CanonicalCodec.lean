import OxDeAI.Audit.Schema
import OxDeAI.Js.Json

/-! Canonical states on the wire: the decoder and the schema of the decoded value. -/

namespace OxDeAI

open Js

/-- `JSON.parse(new TextDecoder().decode(bytes))`. The text of a syntax error is
the host's. -/
def parseBytes (syntaxError : JsString → JsString) (bytes : List Byte) : Except JsError JsValue :=
  match parseJson (textDecode bytes) with
  | some value => .ok value
  | none => .error (.error (syntaxError (textDecode bytes)))

/-- `value === 1`. -/
def isOne : JsValue → Bool
  | .num n => n = .int 1
  | _ => false

/-- A decoded state, of format version 1. -/
structure CanonicalState where
  engineVersion : JsString
  policyId : JsString
  modules : JsValue
  isRecord : modules.isRecord = true

namespace CanonicalState

variable (state : CanonicalState)

def toValue : JsValue :=
  .obj [(js "formatVersion", .num (.int 1)), (js "engineVersion", .str state.engineVersion),
    (js "policyId", .str state.policyId), (js "modules", state.modules)]

end CanonicalState

section

variable (value : JsValue)

def invalidState (detail : JsString) : JsError := .error (js "invalid canonical state" ++ detail)

def assertCanonicalState : Except JsError CanonicalState :=
  if !value.isRecord then .error (invalidState [])
  else if !value.has (js "formatVersion") then .error (invalidState (js ": missing formatVersion"))
  else if !isOne (value.field (js "formatVersion")) then
    .error (invalidState (js ": unsupported formatVersion"))
  else match value.field (js "engineVersion"), value.field (js "policyId") with
    | .str engineVersion, .str policyId =>
      if h : (value.field (js "modules")).isRecord = true then .ok ⟨engineVersion, policyId, _, h⟩
      else .error (invalidState (js ": modules"))
    | .str _, _ => .error (invalidState (js ": policyId"))
    | _, _ => .error (invalidState (js ": engineVersion"))

/-- The required keys that are not there. -/
def missingKeys (keys : List JsString) : List SchemaValidationIssue :=
  keys.flatMap (fun key => issueUnless (value.has key) (js "$") .required (js "missing " ++ key))

/-- A check of a field that only a value with this field can fail. -/
def whenPresent (key : JsString) (holds : Bool) (code : IssueCode) (message : JsString) :
    List SchemaValidationIssue :=
  issueUnless (!value.has key || holds) (fieldPath key) code message

def canonicalStateKeys : List JsString :=
  [js "formatVersion", js "engineVersion", js "policyId", js "modules"]

def validateCanonicalStateJson : List SchemaValidationIssue :=
  if !value.isRecord then [⟨js "$", .type, js "must be object"⟩]
  else sortedIssues (
    missingKeys value canonicalStateKeys ++ pushAdditional value canonicalStateKeys ++
      whenPresent value (js "formatVersion") (isOne (value.field (js "formatVersion"))) .value
        (js "must equal 1") ++
      whenPresent value (js "engineVersion") (value.field (js "engineVersion")).isString .type
        (js "must be string") ++
      whenPresent value (js "policyId") (value.field (js "policyId")).hasText .type
        (js "must be non-empty string") ++
      whenPresent value (js "modules") (value.field (js "modules")).isRecord .type (js "must be object"))

end

def decodeCanonicalState (syntaxError : JsString → JsString) (bytes : List Byte) :
    Except JsError CanonicalState :=
  (parseBytes syntaxError bytes).bind assertCanonicalState

end OxDeAI
