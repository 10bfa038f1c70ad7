import OxDeAI.Audit.Chain
import OxDeAI.Engine.Issue

/-! The heads of one list of events: the log and the audit verifier agree, and
the replay verifier, which starts from another seed, never does. -/

namespace OxDeAI

open Js

section

variable {P : Platform} {events : List JsValue} {seed : JsString}

theorem headFrom_cons {event : JsValue} {head : JsString} :
    headFrom P seed (event :: events) = .ok head ↔
      ∃ next, chainHash P seed event = .ok next ∧ headFrom P next events = .ok head := by
  rw [headFrom, List.foldlM_cons]
  exact bind_eq_ok

/-- The events of the engine carry their policy. -/
theorem computeNextHash_eq (prev : JsString) (event : AuditEvent) :
    computeNextHash P prev event = chainHash P prev event.value := by
  cases event <;> rfl

theorem appendAll_head {log log' : HashChainedLog} (h : log.appendAll P events = .ok log') :
    headFrom P log.head events = .ok log'.head := by
  induction events generalizing log with
  | nil =>
    cases h
    rfl
  | cons event events ih =>
    obtain ⟨next, hnext, hrest⟩ := bind_eq_ok.mp h
    obtain ⟨hash, hh, rfl⟩ := map_eq_ok.mp hnext
    exact headFrom_cons.mpr ⟨hash, hh, ih hrest⟩

theorem scanEvent_head {opts : VerifyAuditOptions} {scan : AuditScan} {i : ℕ} {event : JsValue}
    {head : JsString} (hv : validateAuditEventJson event = [])
    (h : chainHash P scan.head event = .ok head) : (scanEvent P opts scan i event).head = head := by
  obtain ⟨hrec, -, ⟨t, ht⟩, -⟩ := validateAuditEventJson_eq_nil hv
  have hfinite : (JsNumber.int t).isFinite = true := rfl
  simp only [scanEvent, hrec, hv, ht, hfinite, h, Bool.not_true, Bool.false_eq_true, if_false,
    List.isEmpty_nil]

theorem scanEvents_head {opts : VerifyAuditOptions} {scan : AuditScan} {i : ℕ} {head : JsString}
    (hv : ∀ event ∈ events, validateAuditEventJson event = [])
    (h : headFrom P scan.head events = .ok head) : (scanEvents P opts scan i events).head = head := by
  induction events generalizing scan i with
  | nil =>
    cases h
    rfl
  | cons event events ih =>
    obtain ⟨next, hnext, hrest⟩ := headFrom_cons.mp h
    have hhead : (scanEvent P opts scan i event).head = next := scanEvent_head (hv event (by simp)) hnext
    rw [scanEvents]
    apply ih (fun x hx => hv x (List.mem_cons_of_mem _ hx))
    rw [hhead]
    exact hrest

theorem auditVerdict_auditHeadHash (violations : List VerificationViolation) (policyId : Option JsString)
    (head : JsString) : (auditVerdict violations policyId head).auditHeadHash = some head := by
  unfold auditVerdict
  split
  · rfl
  · split <;> rfl

theorem verifyAuditEvents_auditHeadHash (opts : VerifyAuditOptions) :
    (verifyAuditEvents P (.arr events) opts).auditHeadHash =
      some (scanEvents P opts ⟨[], [], false, auditGenesisHash P, none⟩ 0 events).head := by
  simp only [verifyAuditEvents, auditVerdict_auditHeadHash]

/-- The audit verifier recomputes the head of the log. -/
theorem verifyAuditEvents_head {log : HashChainedLog} (opts : VerifyAuditOptions)
    (hv : ∀ event ∈ events, validateAuditEventJson event = [])
    (h : (HashChainedLog.empty P).appendAll P events = .ok log) :
    (verifyAuditEvents P (.arr events) opts).auditHeadHash = some log.head := by
  rw [verifyAuditEvents_auditHeadHash, scanEvents_head hv (appendAll_head h)]

theorem replayEvents_head {scan scan' : ReplayScan} {i : ℕ} {prev : Option AuditEntry}
    {entries : List AuditEntry} (h : replayEvents P scan i prev entries = .ok scan') :
    headFrom P scan.head (entries.map AuditEntry.value) = .ok scan'.head := by
  induction entries generalizing scan i prev with
  | nil =>
    cases h
    rfl
  | cons e entries ih =>
    obtain ⟨head, hh, hrest⟩ := bind_eq_ok.mp h
    exact headFrom_cons.mpr ⟨head, hh, ih hrest⟩

theorem verifyReplayEvents_head {entries : List AuditEntry} {opts : VerifyOptions} {r : VerifyResult}
    (h : verifyReplayEvents P entries opts = .ok r) :
    headFrom P replaySeed (entries.map AuditEntry.value) = .ok r.auditHeadHash := by
  obtain ⟨scan, hscan, rfl⟩ := map_eq_ok.mp h
  exact replayEvents_head hscan

theorem wellFormed_hex {s : JsString} (h : s.all isHexUnit = true) : WellFormed s := by
  apply wellFormed_of_basic
  rw [List.all_eq_true] at h ⊢
  intro u hu
  have := h u hu
  simp only [isHexUnit, Bool.or_eq_true, Bool.and_eq_true, decide_eq_true_eq] at this
  simp only [isBasic, decide_eq_true_eq]
  omega

/-- One event keeps two heads apart. -/
theorem chainHash_inj (hP : PlatformLaws P) {a b h : JsString} {event : JsValue} (ha : WellFormed a)
    (hb : WellFormed b) (h₁ : chainHash P a event = .ok h) (h₂ : chainHash P b event = .ok h) : a = b := by
  obtain ⟨text, ht, rfl⟩ := map_eq_ok.mp h₁
  obtain ⟨text', ht', heq⟩ := map_eq_ok.mp h₂
  rw [ht] at ht'
  obtain rfl := Except.ok.inj ht'
  have hbytes := hP.injective heq
  rw [List.append_assoc, List.append_assoc] at hbytes
  exact (utf8Encode_inj hb ha (List.append_cancel_right hbytes)).symm

theorem chainHash_wellFormed (hP : PlatformLaws P) {a h : JsString} {event : JsValue}
    (h₁ : chainHash P a event = .ok h) : WellFormed h := by
  obtain ⟨text, -, rfl⟩ := map_eq_ok.mp h₁
  exact wellFormed_hex (hP.hex _).1

/-- Chains of the same events have one head only from one seed. -/
theorem headFrom_inj (hP : PlatformLaws P) {a b h : JsString} (ha : WellFormed a) (hb : WellFormed b)
    (h₁ : headFrom P a events = .ok h) (h₂ : headFrom P b events = .ok h) : a = b := by
  induction events generalizing a b with
  | nil =>
    cases h₁
    cases h₂
    rfl
  | cons event events ih =>
    obtain ⟨x, hx, hx'⟩ := headFrom_cons.mp h₁
    obtain ⟨y, hy, hy'⟩ := headFrom_cons.mp h₂
    obtain rfl := ih (chainHash_wellFormed hP hx) (chainHash_wellFormed hP hy) hx' hy'
    exact chainHash_inj hP ha hb hx hy

theorem replaySeed_ne_genesis (hP : PlatformLaws P) : replaySeed ≠ auditGenesisHash P := by
  intro h
  have hhex := (hP.hex (utf8Encode (js "OxDeAI::GENESIS::v1"))).1
  change (auditGenesisHash P).all isHexUnit = true at hhex
  rw [← h] at hhex
  exact absurd hhex (by decide)

/-- The log holds a head, both verifiers return it. -/
def HeadsAgree (P : Platform) (entries : List AuditEntry) (auditOpts : VerifyAuditOptions)
    (replayOpts : VerifyOptions) : Prop :=
  ∃ log r, (HashChainedLog.empty P).appendAll P (entries.map AuditEntry.value) = .ok log ∧
    verifyReplayEvents P entries replayOpts = .ok r ∧
    (verifyAuditEvents P (.arr (entries.map AuditEntry.value)) auditOpts).auditHeadHash = some log.head ∧
    r.auditHeadHash = log.head

theorem not_headsAgree (hP : PlatformLaws P) (entries : List AuditEntry) (auditOpts : VerifyAuditOptions)
    (replayOpts : VerifyOptions) : ¬ HeadsAgree P entries auditOpts replayOpts := by
  rintro ⟨log, r, hlog, hr, -, heq⟩
  have hl := appendAll_head hlog
  have hreplay := verifyReplayEvents_head hr
  rw [heq] at hreplay
  have hg : WellFormed (auditGenesisHash P) := wellFormed_hex (hP.hex _).1
  exact replaySeed_ne_genesis hP (headFrom_inj hP (wellFormed_of_basic (by decide)) hg hreplay hl)

/-- Appending keeps the log verifiable. -/
theorem verifyFrom_append {head hash : JsString} {chain : List HashChainedEntry} {event : JsValue}
    {prev : JsString} (h : HashChainedLog.verifyFrom P head prev chain = .ok true)
    (hh : chainHash P head event = .ok hash) :
    HashChainedLog.verifyFrom P hash prev (chain ++ [⟨event, head, hash⟩]) = .ok true := by
  induction chain generalizing prev with
  | nil =>
    simp only [HashChainedLog.verifyFrom, Except.ok.injEq, decide_eq_true_eq] at h
    subst h
    simp [HashChainedLog.verifyFrom, hh, Except.bind]
  | cons e chain ih =>
    simp only [HashChainedLog.verifyFrom] at h
    split at h
    · cases h
    · rename_i hprev
      obtain ⟨expected, hexp, h⟩ := bind_eq_ok.mp h
      split at h
      · cases h
      · rename_i hne
        simp only [List.cons_append, HashChainedLog.verifyFrom, if_neg hprev, hexp, Except.bind,
          if_neg hne]
        exact ih h

theorem appendAll_verify {log log' : HashChainedLog} (hlog : log.verify P = .ok true)
    (h : log.appendAll P events = .ok log') : log'.verify P = .ok true := by
  induction events generalizing log with
  | nil =>
    cases h
    exact hlog
  | cons event events ih =>
    obtain ⟨next, hnext, hrest⟩ := bind_eq_ok.mp h
    obtain ⟨hash, hh, rfl⟩ := map_eq_ok.mp hnext
    apply ih _ hrest
    rw [HashChainedLog.verify] at hlog ⊢
    exact verifyFrom_append hlog hh

/-- The log and the audit verifier agree on every list that appends, and the
replay verifier agrees with them on none. -/
theorem audit_heads (hP : PlatformLaws P) (entries : List AuditEntry)
    (hv : ∀ e ∈ entries, validateAuditEventJson e.value = []) (auditOpts : VerifyAuditOptions)
    (replayOpts : VerifyOptions) :
    ¬ HeadsAgree P entries auditOpts replayOpts ∧
      ∀ log, (HashChainedLog.empty P).appendAll P (entries.map AuditEntry.value) = .ok log →
        (verifyAuditEvents P (.arr (entries.map AuditEntry.value)) auditOpts).auditHeadHash =
          some log.head := by
  refine ⟨not_headsAgree hP entries auditOpts replayOpts, ?_⟩
  intro log hlog
  refine verifyAuditEvents_head auditOpts ?_ hlog
  intro event hevent
  obtain ⟨e, he, rfl⟩ := List.mem_map.mp hevent
  exact hv e he

end

def receivedEntry : AuditEntry where
  value := (AuditEvent.intentReceived (js "00") (js "a") (.int 1000) (js "p")).value
  timestamp := .int 1000
  record := rfl
  stamped := rfl

theorem validate_receivedEntry : validateAuditEventJson receivedEntry.value = [] := by decide

theorem appendAll_receivedEntry :
    ∃ log, (HashChainedLog.empty samplePlatform).appendAll samplePlatform [receivedEntry.value] = .ok log := by
  have hc : Canonical samplePlatform.nfc (canonicalEntry receivedEntry.value) :=
    (isCanonical_iff _).mp (by decide)
  exact ⟨_, bind_eq_ok.mpr ⟨_, map_eq_ok.mpr ⟨_, map_eq_ok.mpr ⟨_, canonicalJson_ok hc, rfl⟩, rfl⟩, rfl⟩⟩

theorem replay_head_differs : validateAuditEventJson receivedEntry.value = [] ∧
    (∃ log, (HashChainedLog.empty samplePlatform).appendAll samplePlatform [receivedEntry.value] = .ok log) ∧
      ¬ HeadsAgree samplePlatform [receivedEntry] {} {} :=
  ⟨validate_receivedEntry, appendAll_receivedEntry, not_headsAgree samplePlatform_laws _ _ _⟩

theorem audit_heads_sample : ∃ log,
    (HashChainedLog.empty samplePlatform).appendAll samplePlatform [receivedEntry.value] = .ok log ∧
      (verifyAuditEvents samplePlatform (.arr [receivedEntry.value]) {}).auditHeadHash = some log.head := by
  obtain ⟨log, hlog⟩ := appendAll_receivedEntry
  have hv : ∀ e ∈ [receivedEntry], validateAuditEventJson e.value = [] := by
    intro e he
    rw [List.mem_singleton.mp he]
    exact validate_receivedEntry
  exact ⟨log, hlog, (audit_heads samplePlatform_laws [receivedEntry] hv {} {}).2 log hlog⟩

end OxDeAI
