import OxDeAI.Audit.Heads
import OxDeAI.Core.Framing

/-! Logs that are appended to and drained: the retained entries are linked, from the
head at which the log was last drained. -/

namespace OxDeAI

open Js

inductive LogOp
  | append (event : JsValue)
  | drain

def LogOp.isAppend : LogOp → Bool
  | append _ => true
  | drain => false

namespace HashChainedLog

/-- The events, and the log without them. The head stays. -/
def drain (log : HashChainedLog) : List JsValue × HashChainedLog :=
  (log.chain.map HashChainedEntry.event, { log with chain := [] })

section

variable (P : Platform)

/-- An append that throws leaves the log as it is. -/
def step (log : HashChainedLog) : LogOp → HashChainedLog
  | .append event =>
    match log.append P event with
    | .ok log' => log'
    | .error _ => log
  | .drain => log.drain.2

def run (ops : List LogOp) : HashChainedLog := ops.foldl (step P) (empty P)

/-- Each entry is the hash of its event after the one before it, from `prev` to `head`. -/
def Linked : JsString → List HashChainedEntry → JsString → Prop
  | prev, [], head => prev = head
  | prev, e :: chain, head =>
    e.prevHash = prev ∧ chainHash P prev e.event = .ok e.hash ∧ Linked e.hash chain head

end

variable {P : Platform} {prev head hash : JsString} {chain : List HashChainedEntry} {log : HashChainedLog}
  {event : JsValue} {ops : List LogOp}

theorem Linked.append (h : Linked P prev chain head) (hhash : chainHash P head event = .ok hash) :
    Linked P prev (chain ++ [⟨event, head, hash⟩]) hash := by
  induction chain generalizing prev with
  | nil =>
    obtain rfl : prev = head := h
    exact ⟨rfl, hhash, rfl⟩
  | cons e chain ih => exact ⟨h.1, h.2.1, ih h.2.2⟩

/-- A linked chain verifies exactly when it starts from the seed. -/
theorem Linked.verifyFrom (h : Linked P prev chain head) (seed : JsString) :
    verifyFrom P head seed chain = .ok (decide (prev = seed)) := by
  induction chain generalizing prev seed with
  | nil =>
    obtain rfl : prev = head := h
    simp [HashChainedLog.verifyFrom, eq_comm]
  | cons e chain ih =>
    obtain ⟨rfl, hhash, hrest⟩ := h
    by_cases hseed : e.prevHash = seed
    · simp [HashChainedLog.verifyFrom, hseed ▸ hhash, hseed, Except.bind, ih hrest e.hash]
    · simp [HashChainedLog.verifyFrom, hseed]

/-- The operations before the log was last drained, and none where it was not. -/
def beforeLastDrain (ops : List LogOp) : List LogOp :=
  ((ops.reverse.dropWhile LogOp.isAppend).drop 1).reverse

theorem beforeLastDrain_append (ops : List LogOp) (event : JsValue) :
    beforeLastDrain (ops ++ [.append event]) = beforeLastDrain ops := by
  rw [beforeLastDrain, List.reverse_concat, List.dropWhile_cons_of_pos rfl]
  rfl

theorem beforeLastDrain_drain (ops : List LogOp) : beforeLastDrain (ops ++ [.drain]) = ops := by
  simp [beforeLastDrain, LogOp.isAppend]

theorem run_snoc (ops : List LogOp) (op : LogOp) : run P (ops ++ [op]) = (run P ops).step P op :=
  List.foldl_append

theorem Linked.step_append (h : Linked P prev log.chain log.head) (event : JsValue) :
    Linked P prev (log.step P (.append event)).chain (log.step P (.append event)).head := by
  cases happend : log.append P event with
  | error err =>
    simp only [step, happend]
    exact h
  | ok log' =>
    obtain ⟨hash, hhash, rfl⟩ := map_eq_ok.mp happend
    simp only [step, happend]
    exact h.append hhash

/-- The retained entries are linked from the head at the last drain. -/
theorem run_linked (ops : List LogOp) :
    Linked P (run P (beforeLastDrain ops)).head (run P ops).chain (run P ops).head := by
  induction ops using List.reverseRecOn with
  | nil => rfl
  | append_singleton ops op ih =>
    cases op with
    | append event =>
      rw [run_snoc, beforeLastDrain_append]
      exact ih.step_append event
    | drain =>
      rw [run_snoc, beforeLastDrain_drain]
      rfl

/-- The log verifies, and what it retains is one chain that ends in the head. -/
def Integral (P : Platform) (log : HashChainedLog) : Prop :=
  log.verify P = .ok true ∧ ∃ prev, Linked P prev log.chain log.head

/-- An append succeeds with an event whose entry is canonical. -/
theorem chainHash_ok {prev : JsString} : (∃ hash, chainHash P prev event = .ok hash) ↔
    Canonical P.nfc (canonicalEntry event) := by
  constructor
  · rintro ⟨hash, hhash⟩
    obtain ⟨text, htext, -⟩ := map_eq_ok.mp hhash
    exact ((canonicalizeToJson_ok _ _).mp htext).1
  · intro hc
    exact ⟨_, map_eq_ok.mpr ⟨_, canonicalJson_ok hc, rfl⟩⟩

/-- No append leads back to the seed. -/
theorem chainHash_ne_genesis (hP : PlatformLaws P) {prev : JsString} (h : chainHash P prev event = .ok hash) :
    hash ≠ auditGenesisHash P := by
  rintro rfl
  obtain ⟨text, -, heq⟩ := map_eq_ok.mp h
  exact framed_ne (by decide) (hP.injective heq)

/-- The head is the seed as long as no append has succeeded. -/
theorem run_head (hP : PlatformLaws P) (ops : List LogOp) : (run P ops).head = auditGenesisHash P ↔
    ∀ event, .append event ∈ ops → ¬ Canonical P.nfc (canonicalEntry event) := by
  induction ops using List.reverseRecOn with
  | nil => exact ⟨fun _ event hmem => absurd hmem List.not_mem_nil, fun _ => rfl⟩
  | append_singleton ops op ih =>
    rw [run_snoc]
    cases op with
    | drain =>
      rw [step, drain, ih]
      simp
    | append event =>
      by_cases hc : Canonical P.nfc (canonicalEntry event)
      · obtain ⟨hash, hhash⟩ : ∃ hash, chainHash P (run P ops).head event = .ok hash := chainHash_ok.mpr hc
        have happend : (run P ops).append P event = .ok ⟨_, hash⟩ := map_eq_ok.mpr ⟨hash, hhash, rfl⟩
        rw [step, happend]
        refine ⟨fun h => absurd h (chainHash_ne_genesis hP hhash), fun h => absurd hc (h event (by simp))⟩
      · have hsame : (run P ops).step P (.append event) = run P ops := by
          cases happend : (run P ops).append P event with
          | error err => simp only [step, happend]
          | ok log =>
            obtain ⟨hash, hhash, -⟩ := map_eq_ok.mp happend
            exact absurd (chainHash_ok.mp ⟨hash, hhash⟩) hc
        rw [hsame, ih]
        constructor
        · intro h event' hmem
          rcases List.mem_append.mp hmem with hmem | hmem
          · exact h event' hmem
          · obtain rfl := LogOp.append.inj (List.mem_singleton.mp hmem)
            exact hc
        · exact fun h event' hmem => h event' (List.mem_append_left _ hmem)

/-- What `verify` answers is whether the head at the last drain was the seed. -/
theorem verify_run (ops : List LogOp) : (run P ops).verify P =
    .ok (decide ((run P (beforeLastDrain ops)).head = auditGenesisHash P)) := by
  rw [verify, (run_linked ops).verifyFrom]

/-- A log has its integrity exactly when no append succeeded before it was last drained. -/
theorem integral_iff (hP : PlatformLaws P) (ops : List LogOp) : Integral P (run P ops) ↔
    ∀ event, .append event ∈ beforeLastDrain ops → ¬ Canonical P.nfc (canonicalEntry event) := by
  rw [← run_head hP, Integral, verify_run]
  constructor
  · intro h
    exact of_decide_eq_true (Except.ok.inj h.1)
  · intro h
    exact ⟨congrArg Except.ok (decide_eq_true h), _, run_linked ops⟩

theorem canonical_receivedEntry : Canonical samplePlatform.nfc (canonicalEntry receivedEntry.value) :=
  (isCanonical_iff _).mp (by decide)

/-- An event that cannot be written, a drain, and two events. -/
theorem integral_iff_sample : Integral samplePlatform (run samplePlatform
    [.append (.obj [(js "tool", .function)]), .drain, .append receivedEntry.value, .append receivedEntry.value]) := by
  refine (integral_iff samplePlatform_laws _).mpr fun event hmem hc => ?_
  obtain rfl := LogOp.append.inj (List.mem_singleton.mp hmem)
  exact absurd ((isCanonical_iff _).mpr hc) (by decide)

/-- One event is appended and drained. -/
theorem drained_log_fails : ¬ ∀ (P : Platform) (ops : List LogOp), PlatformLaws P → Integral P (run P ops) := by
  intro hall
  have hverify := (hall samplePlatform ([LogOp.append receivedEntry.value] ++ [.drain]) samplePlatform_laws).1
  rw [verify_run, beforeLastDrain_drain] at hverify
  have hhead := of_decide_eq_true (Except.ok.inj hverify)
  exact (run_head samplePlatform_laws _).mp hhead _ (List.mem_singleton.mpr rfl) canonical_receivedEntry

end HashChainedLog

end OxDeAI
