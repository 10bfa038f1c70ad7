import OxDeAI.Snapshot.CanonicalCodec

/-! `verifySnapshot`: the state hash of an encoded snapshot. -/

namespace OxDeAI

open Js

def corruptSnapshot (message : JsString) (policyId : Option JsString) : VerificationResult where
  ok := false
  status := .invalid
  violations := [⟨.snapshotCorrupt, message, none⟩]
  policyId := policyId

section

variable (P : Platform)

/-- Each module's hash under its id; an id `__proto__` is hashed and then dropped. -/
def snapshotModuleHashes (modules : JsValue) : Except JsError JsValue :=
  ((sortEntries modules.entries).mapM (fun e =>
    (sha256HexFromJson P e.2).map (fun hash => (e.1, JsValue.str hash)))).map buildObject

def snapshotStateHash (snapshot : CanonicalState) : Except JsError JsString :=
  (snapshotModuleHashes P snapshot.modules).bind (fun moduleHashes =>
    sha256HexFromJson P (.obj [(js "formatVersion", .num (.int 1)),
      (js "engineVersion", .str snapshot.engineVersion), (js "policyId", .str snapshot.policyId),
      (js "modules", moduleHashes)]))

/-- The format version and the shape of the modules are checked by the decoder. -/
def verifyDecodedSnapshot (snapshot : CanonicalState) (expectedPolicyId : Option JsString) :
    VerificationResult :=
  let issues := validateCanonicalStateJson snapshot.toValue
  if issues ≠ [] then
    { ok := false, status := .invalid, policyId := some snapshot.policyId,
      violations := sortViolations (mapIssuesToViolation .snapshotCorrupt issues none) }
  else if snapshot.policyId = [] then
    { ok := false, status := .invalid,
      violations := [⟨.policyIdMissing, js "snapshot policyId is required", none⟩] }
  else if expectedPolicyId.getD [] ≠ [] ∧ expectedPolicyId ≠ some snapshot.policyId then
    { ok := false, status := .invalid, policyId := some snapshot.policyId,
      violations := [⟨.policyIdMismatch, js "snapshot policyId does not match expected policyId", none⟩] }
  else match snapshotStateHash P snapshot with
    | .error _ => corruptSnapshot (js "snapshot modules are malformed") (some snapshot.policyId)
    | .ok stateHash =>
      { ok := true, status := .ok, violations := [], stateHash := some stateHash,
        policyId := some snapshot.policyId }

def verifySnapshot (syntaxError : JsString → JsString) (bytes : List Byte)
    (expectedPolicyId : Option JsString) : VerificationResult :=
  match decodeCanonicalState syntaxError bytes with
  | .error _ => corruptSnapshot (js "snapshot decode failed") none
  | .ok snapshot => verifyDecodedSnapshot P snapshot expectedPolicyId

end

end OxDeAI
