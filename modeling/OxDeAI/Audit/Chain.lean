import OxDeAI.Audit.Schema
import OxDeAI.Engine.Audit

/-! The three ways the chain of an event list is built: by appending, by the audit
verifier and by the replay verifier. -/

namespace OxDeAI

open Js

section

variable (P : Platform)

/-- The event as it is hashed: `{ ...event, policyId: event.policyId ?? null }`. -/
def canonicalEntry (event : JsValue) : JsValue :=
  let policyId := event.field (js "policyId")
  event.spreadSet (js "policyId") (if policyId.isNullish then .null else policyId)

def chainHash (prev : JsString) (event : JsValue) : Except JsError JsString :=
  (canonicalJson P.nfc (canonicalEntry event)).map (fun text =>
    P.sha256Hex (utf8Encode prev ++ utf8Encode (js "\n") ++ utf8Encode text))

/-- The head of a chain of events from a seed. -/
def headFrom (seed : JsString) (events : List JsValue) : Except JsError JsString :=
  events.foldlM (chainHash P) seed

structure HashChainedEntry where
  event : JsValue
  prevHash : JsString
  hash : JsString

structure HashChainedLog where
  chain : List HashChainedEntry
  head : JsString

namespace HashChainedLog

def empty : HashChainedLog := ⟨[], auditGenesisHash P⟩

def append (log : HashChainedLog) (event : JsValue) : Except JsError HashChainedLog :=
  (chainHash P log.head event).map (fun hash => ⟨log.chain ++ [⟨event, log.head, hash⟩], hash⟩)

def appendAll (log : HashChainedLog) (events : List JsValue) : Except JsError HashChainedLog :=
  events.foldlM (append P) log

/-- Whether every link is the hash of its event after the one before it. -/
def verifyFrom (head : JsString) : JsString → List HashChainedEntry → Except JsError Bool
  | prev, [] => .ok (prev = head)
  | prev, e :: chain =>
    if e.prevHash ≠ prev then .ok false
    else (chainHash P e.prevHash e.event).bind (fun expected =>
      if expected ≠ e.hash then .ok false else verifyFrom head e.hash chain)

def verify (log : HashChainedLog) : Except JsError Bool :=
  verifyFrom P log.head (auditGenesisHash P) log.chain

end HashChainedLog

structure VerifyAuditOptions where
  expectedPolicyId : Option JsString := none
  mode : Option VerifyMode := none
  requireStateAnchors : Option Bool := none

/-- What the loop of the verifier has seen. -/
structure AuditScan where
  violations : List VerificationViolation
  policyIds : List JsString
  hasStateAnchor : Bool
  head : JsString
  lastTimestamp : Option JsNumber

def policyIdViolations (opts : VerifyAuditOptions) (event : JsValue) (i : ℕ) :
    List VerificationViolation :=
  match opts.expectedPolicyId with
  | none => []
  | some expected =>
    match event.field (js "policyId") with
    | .str (u :: us) =>
      if u :: us = expected then []
      else [⟨.policyIdMismatch, js "event.policyId mismatch (expected=" ++ expected ++ js ", got=" ++
        (u :: us) ++ js ")", some i⟩]
    | _ => [⟨.policyIdMissing, js "event.policyId is required when expectedPolicyId is provided", some i⟩]

def timestampViolations (last : Option JsNumber) (timestamp : JsNumber) (i : ℕ) :
    List VerificationViolation :=
  match last with
  | none => []
  | some prev =>
    if timestamp.lt prev then
      [⟨.nonMonotonicTimestamp, js "event timestamps must be non-decreasing (prev=" ++ prev.text ++
        js ", next=" ++ timestamp.text ++ js ")", some i⟩]
    else []

/-- `policyIds.add`, for a non-empty text. -/
def addPolicyId (ids : List JsString) (policyId : JsValue) : List JsString :=
  match policyId with
  | .str (u :: us) => if ids.contains (u :: us) then ids else ids ++ [u :: us]
  | _ => ids

def scanEvent (opts : VerifyAuditOptions) (scan : AuditScan) (i : ℕ) (event : JsValue) : AuditScan :=
  if !event.isRecord then
    { scan with violations := scan.violations ++ [⟨.malformedEvent, js "event must be an object", some i⟩] }
  else
    let schemaIssues := validateAuditEventJson event
    if !schemaIssues.isEmpty then
      { scan with violations := scan.violations ++
          mapIssuesToViolation .malformedEvent schemaIssues (some i) }
    else match event.field (js "timestamp") with
      | .num timestamp =>
        if !timestamp.isFinite then
          { scan with violations := scan.violations ++
              [⟨.malformedEvent, js "event.timestamp must be a finite number", some i⟩] }
        else
          let violations := scan.violations ++ timestampViolations scan.lastTimestamp timestamp i ++
            policyIdViolations opts event i
          let anchored := scan.hasStateAnchor ||
            ((event.field (js "type")).isText (js "STATE_CHECKPOINT") &&
              (event.field (js "stateHash")).isString)
          let policyIds := addPolicyId scan.policyIds (event.field (js "policyId"))
          match chainHash P scan.head event with
          | .ok head => ⟨violations, policyIds, anchored, head, some timestamp⟩
          | .error _ =>
            ⟨violations ++ [⟨.hashChainInvalid, js "failed to recompute hash chain", none⟩], policyIds,
              anchored, scan.head, some timestamp⟩
      | _ => { scan with violations := scan.violations ++
          [⟨.malformedEvent, js "event.timestamp must be a finite number", some i⟩] }

def scanEvents (opts : VerifyAuditOptions) : AuditScan → ℕ → List JsValue → AuditScan
  | scan, _, [] => scan
  | scan, i, event :: events => scanEvents opts (scanEvent P opts scan i event) (i + 1) events

/-- A missing anchor alone leaves the verdict open. -/
def auditVerdict (violations : List VerificationViolation) (policyId : Option JsString)
    (head : JsString) : VerificationResult :=
  if violations.any (fun v => v.code ≠ .noStateAnchor) then
    { ok := false, status := .invalid, violations := violations, policyId := policyId,
      auditHeadHash := some head }
  else if violations.any (fun v => v.code = .noStateAnchor) then
    { ok := false, status := .inconclusive, violations := violations, policyId := policyId,
      auditHeadHash := some head }
  else
    { ok := true, status := .ok, violations := [], policyId := policyId, auditHeadHash := some head }

def verifyAuditEvents (events : JsValue) (opts : VerifyAuditOptions) : VerificationResult :=
  match events with
  | .arr events =>
    let mode := opts.mode.getD .strict
    let requireStateAnchors := opts.requireStateAnchors.getD (mode = .strict)
    let scan := scanEvents P opts ⟨[], [], false, auditGenesisHash P, none⟩ 0 events
    let mixed := if 1 < scan.policyIds.length then
      [⟨.mixedPolicyId, js "multiple distinct policyId values observed", none⟩] else []
    let inferredPolicyId := if scan.policyIds.length = 1 then scan.policyIds.head? else none
    let unanchored := if requireStateAnchors && !scan.hasStateAnchor then
      [⟨.noStateAnchor, js "no STATE_CHECKPOINT event with stateHash found", none⟩] else []
    auditVerdict (sortViolations (scan.violations ++ mixed ++ unanchored)) inferredPolicyId scan.head
  | _ => { ok := false, status := .invalid, violations := [⟨.malformedEvent, js "events must be an array", none⟩] }

/-- An event with a numeric timestamp, as the type of the log has it. -/
structure AuditEntry where
  value : JsValue
  timestamp : JsNumber
  record : value.isRecord = true
  stamped : value.field (js "timestamp") = .num timestamp

inductive VerifyStatus
  | ok
  | violation
  | inconclusive
  deriving DecidableEq

structure VerifyViolation where
  code : JsString
  position : Option ℕ := none
  detail : Option JsString := none

structure VerifyOptions where
  policyId : Option JsString := none
  mode : Option VerifyMode := none

structure VerifyResult where
  ok : Bool
  status : VerifyStatus
  violations : List VerifyViolation
  expectedPolicyId : Option JsString
  observedPolicyId : Option JsString
  auditHeadHash : JsString

/-- `/^[0-9a-f]{64}$/`. -/
def isStateHash : JsValue → Bool
  | .str s => s.length = 64 && s.all (fun u => (48 ≤ u.val && u.val ≤ 57) || (97 ≤ u.val && u.val ≤ 102))
  | _ => false

structure ReplayScan where
  violations : List VerifyViolation
  checkpointCount : ℕ
  head : JsString

def isCheckpoint (e : AuditEntry) : Bool := (e.value.field (js "type")).isText (js "STATE_CHECKPOINT")

def replayEvents (scan : ReplayScan) : ℕ → Option AuditEntry → List AuditEntry → Except JsError ReplayScan
  | _, _, [] => .ok scan
  | i, prev, e :: events =>
    let late := if prev.any (fun p => e.timestamp.lt p.timestamp) then
      [⟨js "NON_MONOTONIC_TIMESTAMP", some i, none⟩] else []
    let malformed := if isCheckpoint e && !isStateHash (e.value.field (js "stateHash")) then
      [⟨js "INVALID_STATE_HASH", some i, none⟩] else []
    (chainHash P scan.head e.value).bind (fun head =>
      replayEvents ⟨scan.violations ++ late ++ malformed,
        scan.checkpointCount + (if isCheckpoint e then 1 else 0), head⟩ (i + 1) (some e) events)

def replaySeed : JsString := js "GENESIS"

/-- Truthiness of an optional text. -/
def present? : Option JsString → Option JsString
  | some (u :: us) => some (u :: us)
  | _ => none

def replayVerdict (violations : List VerifyViolation) (mode : VerifyMode) (checkpointCount : ℕ) :
    VerifyStatus × List VerifyViolation :=
  if !violations.isEmpty then (.violation, violations)
  else if mode = .strict ∧ checkpointCount = 0 then
    (.inconclusive, [⟨js "NO_STATE_ANCHOR", none, none⟩])
  else (.ok, [])

def verifyReplayEvents (events : List AuditEntry) (opts : VerifyOptions) : Except JsError VerifyResult :=
  (replayEvents P ⟨[], 0, replaySeed⟩ 0 none events).map (fun scan =>
    let definedPolicyIds := events.filterMap (fun e => (e.value.field (js "policyId")).text?)
    let observedPolicyId := definedPolicyIds.head?
    let mixed := if definedPolicyIds.any (fun p => observedPolicyId ≠ some p) then
      [⟨js "MIXED_POLICY_ID", none, some (js "observed multiple policyId values")⟩] else []
    let mismatch := match present? opts.policyId, present? observedPolicyId with
      | some expected, some observed =>
        if expected = observed then [] else
          [⟨js "POLICY_ID_MISMATCH", none, some (js "expected=" ++ expected ++ js ", observed=" ++ observed)⟩]
      | _, _ => []
    let verdict := replayVerdict (scan.violations ++ mixed ++ mismatch) (opts.mode.getD .strict)
      scan.checkpointCount
    ⟨verdict.1 = .ok, verdict.1, verdict.2, opts.policyId, observedPolicyId, scan.head⟩)

end

end OxDeAI
