import OxDeAI.Engine.Options

/-! The hash-chained audit log and the checkpoints written to it. -/

namespace OxDeAI

open Js

inductive AuditEvent
  | intentReceived (intentHash agentId : JsString) (timestamp : JsNumber) (policyId : JsString)
  | decision (intentHash : JsString) (allow : Bool) (reasons : List ReasonCode)
      (policyVersion : JsString) (timestamp : JsNumber) (policyId : JsString)
  | authEmitted (authorizationId intentHash : JsString) (expiresAt timestamp : JsNumber)
      (policyId : JsString)
  | stateCheckpoint (stateHash : JsString) (timestamp : JsNumber) (policyId : JsString)

def AuditEvent.value : AuditEvent → JsValue
  | intentReceived intentHash agentId timestamp policyId =>
    .obj [(js "type", .str (js "INTENT_RECEIVED")), (js "intent_hash", .str intentHash),
      (js "agent_id", .str agentId), (js "timestamp", .num timestamp), (js "policyId", .str policyId)]
  | decision intentHash allow reasons policyVersion timestamp policyId =>
    .obj [(js "type", .str (js "DECISION")), (js "intent_hash", .str intentHash),
      (js "decision", .str (if allow then js "ALLOW" else js "DENY")),
      (js "reasons", .arr (reasons.map (fun r => .str r.text))),
      (js "policy_version", .str policyVersion), (js "timestamp", .num timestamp),
      (js "policyId", .str policyId)]
  | authEmitted authorizationId intentHash expiresAt timestamp policyId =>
    .obj [(js "type", .str (js "AUTH_EMITTED")), (js "authorization_id", .str authorizationId),
      (js "intent_hash", .str intentHash), (js "expires_at", .num expiresAt),
      (js "timestamp", .num timestamp), (js "policyId", .str policyId)]
  | stateCheckpoint stateHash timestamp policyId =>
    .obj [(js "type", .str (js "STATE_CHECKPOINT")), (js "stateHash", .str stateHash),
      (js "timestamp", .num timestamp), (js "policyId", .str policyId)]

structure ChainedEntry where
  event : AuditEvent
  prevHash : JsString
  hash : JsString

/-- The log of an engine and its count of emitted events. -/
structure AuditLog where
  chain : List ChainedEntry
  head : JsString
  auditEventCount : ℕ

/-- Steps that may throw and that append to the audit log. What was appended
before a throw stays. -/
def Eval (α : Type) := AuditLog → Except JsError α × AuditLog

namespace Eval

variable {α β : Type}

def bind (x : Eval α) (f : α → Eval β) : Eval β := fun log =>
  match x log with
  | (.ok a, log') => f a log'
  | (.error err, log') => (.error err, log')

instance : Monad Eval where
  pure a log := (.ok a, log)
  bind := Eval.bind

/-- A pure step: it throws or returns, and leaves the log alone. -/
def lift (x : Except JsError α) : Eval α := fun log => (x, log)

theorem bind_ok {x : Eval α} {f : α → Eval β} {b : β} {log log' : AuditLog} :
    (x >>= f) log = (.ok b, log') ↔ ∃ a log₁, x log = (.ok a, log₁) ∧ f a log₁ = (.ok b, log') := by
  change Eval.bind x f log = _ ↔ _
  unfold Eval.bind
  rcases x log with ⟨r, l⟩
  cases r with
  | error err => simp
  | ok a => simp

end Eval

section

variable (P : Platform)

def auditGenesisHash : JsString := P.sha256Hex (utf8Encode (js "OxDeAI::GENESIS::v1"))

def computeNextHash (prevHash : JsString) (event : AuditEvent) : Except JsError JsString :=
  (canonicalJson P.nfc event.value).map (fun text =>
    P.sha256Hex (utf8Encode prevHash ++ utf8Encode (js "\n") ++ utf8Encode text))

def AuditLog.initial : AuditLog := ⟨[], auditGenesisHash P, 0⟩

def AuditLog.append (log : AuditLog) (event : AuditEvent) : Except JsError AuditLog :=
  (computeNextHash P log.head event).map (fun hash =>
    ⟨log.chain ++ [⟨event, log.head, hash⟩], hash, log.auditEventCount + 1⟩)

def emitAudit (event : AuditEvent) : Eval Unit := fun log =>
  match log.append P event with
  | .ok log' => (.ok (), log')
  | .error err => (.error err, log)

/-- Whether a checkpoint is due after this many events. -/
def checkpointDue (every : Option JsNumber) (count : ℕ) : Bool :=
  match every with
  | some (.int n) => 0 < n && (count : ℤ) % n = 0
  | _ => false

def maybeEmitCheckpoint (e : PolicyEngine) (policyId : JsString) (timestamp : JsNumber)
    (state : State) : Eval Unit := fun log =>
  if checkpointDue e.opts.checkpointEveryNEvents log.auditEventCount then
    (do
      let hash ← Eval.lift (computeStateHash P e state)
      emitAudit P (.stateCheckpoint hash timestamp policyId)) log
  else (.ok (), log)

end

end OxDeAI
