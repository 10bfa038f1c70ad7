import OxDeAI.Audit.Heads
import OxDeAI.Lib.Run

/-! What the loop of the audit verifier keeps of the events it accepts, and when it
reports nothing. -/

namespace OxDeAI

open Js Run

theorem violations_auditVerdict (violations : List VerificationViolation) (policyId : Option JsString)
    (head : JsString) : (auditVerdict violations policyId head).violations = violations := by
  unfold auditVerdict
  split
  · rfl
  · rename_i hcode
    split
    · rfl
    · rename_i hanchor
      rw [Bool.not_eq_true, List.any_eq_false] at hcode hanchor
      refine (List.eq_nil_iff_forall_not_mem.mpr fun v hv => ?_).symm
      have hne := hcode v hv
      have heq := hanchor v hv
      simp only [decide_eq_true_eq, not_not] at hne heq
      exact heq hne

section

variable {P : Platform} {opts : VerifyAuditOptions} {scan : AuditScan} {i : ℕ} {event : JsValue}
  {events : List JsValue} {head : JsString}

/-- A valid event with a hash after the head so far. -/
theorem scanEvent_valid (opts : VerifyAuditOptions) (i : ℕ) (hv : validateAuditEventJson event = []) {t : JsNumber}
    (ht : event.field (js "timestamp") = .num t) (h : chainHash P scan.head event = .ok head) :
    scanEvent P opts scan i event =
      ⟨scan.violations ++ timestampViolations scan.lastTimestamp t i ++ policyIdViolations opts event i,
        addPolicyId scan.policyIds (event.field (js "policyId")),
        scan.hasStateAnchor || ((event.field (js "type")).isText (js "STATE_CHECKPOINT") &&
          (event.field (js "stateHash")).isString), head, some t⟩ := by
  obtain ⟨hrec, -, ⟨n, hn⟩, -⟩ := validateAuditEventJson_eq_nil hv
  rw [ht] at hn
  cases hn
  have hfinite : (JsNumber.int n).isFinite = true := rfl
  simp only [scanEvent, hrec, hv, ht, hfinite, h, Bool.not_true, Bool.false_eq_true, if_false,
    List.isEmpty_nil]

/-- Neither a malformed event nor one without a hash. -/
def Unbroken (violations : List VerificationViolation) : Prop :=
  ∀ v ∈ violations, v.code ≠ .malformedEvent ∧ v.code ≠ .hashChainInvalid

theorem Unbroken.of_append {vs ws : List VerificationViolation} (h : Unbroken (vs ++ ws)) :
    Unbroken vs ∧ Unbroken ws :=
  ⟨fun v hv => h v (List.mem_append_left _ hv), fun v hv => h v (List.mem_append_right _ hv)⟩

theorem not_unbroken_malformed {message : JsString} {index : Option ℕ} {vs : List VerificationViolation} :
    ¬ Unbroken (vs ++ [⟨.malformedEvent, message, index⟩]) :=
  fun h => (h.of_append.2 _ (List.mem_singleton_self _)).1 rfl

/-- One event the verifier accepts, and the heads before and after it. -/
def AcceptedLink (P : Platform) (prev : JsString) (event : JsValue) (head : JsString) : Prop :=
  validateAuditEventJson event = [] ∧ chainHash P prev event = .ok head

theorem scanEvent_violations (P : Platform) (opts : VerifyAuditOptions) (scan : AuditScan) (i : ℕ)
    (event : JsValue) : ∃ vs, (scanEvent P opts scan i event).violations = scan.violations ++ vs := by
  unfold scanEvent
  split
  · exact ⟨_, rfl⟩
  · simp only
    split
    · exact ⟨_, rfl⟩
    · split
      · split
        · exact ⟨_, rfl⟩
        · split
          · exact ⟨_, by rw [List.append_assoc]⟩
          · exact ⟨_, by rw [List.append_assoc, List.append_assoc]⟩
      · exact ⟨_, rfl⟩

theorem scanEvents_violations (P : Platform) (opts : VerifyAuditOptions) (scan : AuditScan) (i : ℕ)
    (events : List JsValue) : ∃ vs, (scanEvents P opts scan i events).violations = scan.violations ++ vs := by
  induction events generalizing scan i with
  | nil => exact ⟨[], (List.append_nil _).symm⟩
  | cons event events ih =>
    obtain ⟨vs, hvs⟩ := scanEvent_violations P opts scan i event
    obtain ⟨ws, hws⟩ := ih (scanEvent P opts scan i event) (i + 1)
    exact ⟨vs ++ ws, by rw [scanEvents, hws, hvs, List.append_assoc]⟩

theorem scanEvent_accepted (h : Unbroken (scanEvent P opts scan i event).violations) :
    AcceptedLink P scan.head event (scanEvent P opts scan i event).head := by
  unfold scanEvent at h ⊢
  split at h
  · exact absurd h not_unbroken_malformed
  · rename_i hrec
    rw [if_neg hrec]
    simp only at h ⊢
    split at h
    · rename_i hissues
      rw [Bool.not_eq_true', List.isEmpty_eq_false_iff_exists_mem] at hissues
      obtain ⟨issue, hissue⟩ := hissues
      exact absurd rfl (h.of_append.2 _ (List.mem_map_of_mem hissue)).1
    · rename_i hissues
      rw [if_neg hissues]
      have hv : validateAuditEventJson event = [] := by simpa using hissues
      split at h
      · split at h
        · exact absurd h not_unbroken_malformed
        · rename_i t ht hfinite
          rw [if_neg hfinite]
          cases hhash : chainHash P scan.head event with
          | ok head => exact ⟨hv, hhash⟩
          | error err =>
            rw [hhash] at h
            exact absurd rfl (h.of_append.2 _ (List.mem_singleton_self _)).2
      · exact absurd h not_unbroken_malformed

/-- The verifier's head is the end of a chain of all the events. -/
theorem scanEvents_accepted (scan : AuditScan) (i : ℕ) (h : Unbroken (scanEvents P opts scan i events).violations) :
    Trace (AcceptedLink P) scan.head events (scanEvents P opts scan i events).head := by
  induction events generalizing scan i with
  | nil => exact .nil
  | cons event events ih =>
    rw [scanEvents] at h ⊢
    have hfirst : Unbroken (scanEvent P opts scan i event).violations := by
      obtain ⟨vs, hvs⟩ := scanEvents_violations P opts (scanEvent P opts scan i event) (i + 1) events
      rw [hvs] at h
      exact h.of_append.1
    have hone : Trace (AcceptedLink P) scan.head [event] (scanEvent P opts scan i event).head :=
      Trace.snoc .nil (scanEvent_accepted hfirst)
    exact hone.append (ih _ _ h)

theorem verifyAuditEvents_accepted (h : Unbroken (verifyAuditEvents P (.arr events) opts).violations) :
    ∃ head, (verifyAuditEvents P (.arr events) opts).auditHeadHash = some head ∧
      Trace (AcceptedLink P) (auditGenesisHash P) events head := by
  refine ⟨_, verifyAuditEvents_auditHeadHash opts, scanEvents_accepted ⟨_, _, _, _, _⟩ 0 ?_⟩
  intro v hv
  apply h
  simp only [verifyAuditEvents, violations_auditVerdict, mem_sortViolations]
  exact List.mem_append_left _ (List.mem_append_left _ hv)

/-- The second event is not stamped before the first. -/
def NotBefore (event event' : JsValue) : Prop :=
  ∀ s t, event.field (js "timestamp") = .num s → event'.field (js "timestamp") = .num t → t.lt s = false

def isAnchor (event : JsValue) : Bool :=
  (event.field (js "type")).isText (js "STATE_CHECKPOINT") && (event.field (js "stateHash")).isString

/-- Nothing reported so far, and no policy seen but this one. -/
structure CleanScan (policyId : JsString) (scan : AuditScan) : Prop where
  violations : scan.violations = []
  policyIds : scan.policyIds = [] ∨ scan.policyIds = [policyId]

theorem addPolicyId_same {ids : List JsString} {policyId : JsString} (hids : ids = [] ∨ ids = [policyId]) :
    addPolicyId ids (.str policyId) = [] ∨ addPolicyId ids (.str policyId) = [policyId] := by
  cases policyId with
  | nil => exact hids
  | cons u us =>
    right
    rcases hids with rfl | rfl
    · rfl
    · simp [addPolicyId]

theorem policyIdViolations_same {policyId : JsString} (hne : policyId ≠ [])
    (hexp : opts.expectedPolicyId = some policyId ∨ opts.expectedPolicyId = none)
    (hp : event.field (js "policyId") = .str policyId) (i : ℕ) : policyIdViolations opts event i = [] := by
  cases policyId with
  | nil => exact absurd rfl hne
  | cons u us =>
    rcases hexp with hexp | hexp
    · simp [policyIdViolations, hexp, hp]
    · simp [policyIdViolations, hexp]

/-- A list of valid events of one policy, in the order of their timestamps. -/
theorem scanEvents_clean (scan : AuditScan) (i : ℕ) {policyId : JsString} (hne : policyId ≠ [])
    (hexp : opts.expectedPolicyId = some policyId ∨ opts.expectedPolicyId = none)
    (hv : ∀ event ∈ events, validateAuditEventJson event = [])
    (hp : ∀ event ∈ events, event.field (js "policyId") = .str policyId)
    (hmono : events.Pairwise NotBefore)
    (hlast : ∀ last, scan.lastTimestamp = some last → ∀ event ∈ events, ∀ t,
      event.field (js "timestamp") = .num t → t.lt last = false)
    (hhead : headFrom P scan.head events = .ok head) (hscan : CleanScan policyId scan) :
    CleanScan policyId (scanEvents P opts scan i events) ∧
      (scanEvents P opts scan i events).hasStateAnchor = (scan.hasStateAnchor || events.any isAnchor) ∧
      (scanEvents P opts scan i events).head = head := by
  induction events generalizing scan i with
  | nil =>
    cases hhead
    exact ⟨hscan, by simp [scanEvents], rfl⟩
  | cons event events ih =>
    rw [List.forall_mem_cons] at hv hp
    rw [List.pairwise_cons] at hmono
    obtain ⟨next, hnext, hrest⟩ := headFrom_cons.mp hhead
    obtain ⟨-, -, ⟨t, ht⟩, -⟩ := validateAuditEventJson_eq_nil hv.1
    have hstep := scanEvent_valid opts i hv.1 ht hnext
    have htime : timestampViolations scan.lastTimestamp (.int t) i = [] := by
      cases hl : scan.lastTimestamp with
      | none => rfl
      | some last =>
        have := hlast last hl event List.mem_cons_self _ ht
        simp [timestampViolations, this]
    rw [htime, policyIdViolations_same hne hexp hp.1, hscan.violations, hp.1] at hstep
    have hih := ih (scanEvent P opts scan i event) (i + 1) hv.2 hp.2 hmono.2
      (by
        rw [hstep]
        intro last hl e he s hs
        obtain rfl := Option.some.inj hl
        exact hmono.1 e he _ _ ht hs)
      (by rw [hstep]; exact hrest)
      (by rw [hstep]; exact ⟨rfl, addPolicyId_same hscan.policyIds⟩)
    rw [scanEvents]
    refine ⟨hih.1, ?_, hih.2.2⟩
    rw [hih.2.1, hstep, List.any_cons, Bool.or_assoc]
    rfl

theorem scanEvents_anchor (opts : VerifyAuditOptions) (scan : AuditScan) (i : ℕ) (hv : ∀ event ∈ events, validateAuditEventJson event = [])
    (hhead : headFrom P scan.head events = .ok head) :
    (scanEvents P opts scan i events).hasStateAnchor = (scan.hasStateAnchor || events.any isAnchor) := by
  induction events generalizing scan i with
  | nil => simp [scanEvents]
  | cons event events ih =>
    rw [List.forall_mem_cons] at hv
    obtain ⟨next, hnext, hrest⟩ := headFrom_cons.mp hhead
    obtain ⟨-, -, ⟨t, ht⟩, -⟩ := validateAuditEventJson_eq_nil hv.1
    have hstep := scanEvent_valid opts i hv.1 ht hnext
    rw [scanEvents, ih _ _ hv.2 (by rw [hstep]; exact hrest), hstep, List.any_cons, Bool.or_assoc]
    rfl

/-- The violations that single events give. -/
def eventCodes : List ViolationCode :=
  [.malformedEvent, .nonMonotonicTimestamp, .policyIdMismatch, .policyIdMissing, .hashChainInvalid]

def OfCodes (codes : List ViolationCode) (violations : List VerificationViolation) : Prop :=
  ∀ v ∈ violations, v.code ∈ codes

theorem OfCodes.append {codes : List ViolationCode} {vs ws : List VerificationViolation} (hv : OfCodes codes vs)
    (hw : OfCodes codes ws) : OfCodes codes (vs ++ ws) :=
  fun v hmem => (List.mem_append.mp hmem).elim (hv v) (hw v)

theorem ofCodes_singleton {codes : List ViolationCode} {code : ViolationCode} {message : JsString}
    {index : Option ℕ} (h : code ∈ codes) : OfCodes codes [⟨code, message, index⟩] := by
  intro w hw
  rw [List.mem_singleton.mp hw]
  exact h

theorem timestampViolations_codes (last : Option JsNumber) (t : JsNumber) (i : ℕ) :
    OfCodes eventCodes (timestampViolations last t i) := by
  unfold timestampViolations
  split
  · exact nofun
  · split
    · exact ofCodes_singleton (by decide)
    · exact nofun

theorem policyIdViolations_codes (opts : VerifyAuditOptions) (event : JsValue) (i : ℕ) :
    OfCodes eventCodes (policyIdViolations opts event i) := by
  unfold policyIdViolations
  split
  · exact nofun
  · split
    · split
      · exact nofun
      · exact ofCodes_singleton (by decide)
    · exact ofCodes_singleton (by decide)

theorem scanEvent_codes (h : OfCodes eventCodes scan.violations) :
    OfCodes eventCodes (scanEvent P opts scan i event).violations := by
  have hmalformed : ∀ {message : JsString} {index : Option ℕ},
      OfCodes eventCodes [⟨.malformedEvent, message, index⟩] := ofCodes_singleton (by decide)
  unfold scanEvent
  split
  · exact h.append hmalformed
  · simp only
    split
    · refine h.append fun v hv => ?_
      obtain ⟨issue, -, rfl⟩ := List.mem_map.mp hv
      exact List.mem_cons_self
    · split
      · split
        · exact h.append hmalformed
        · rename_i t _ _
          have hboth := (h.append (timestampViolations_codes scan.lastTimestamp t i)).append
            (policyIdViolations_codes opts event i)
          split
          · exact hboth
          · exact hboth.append (ofCodes_singleton (by decide))
      · exact h.append hmalformed

theorem scanEvents_codes (scan : AuditScan) (i : ℕ) (h : OfCodes eventCodes scan.violations) :
    OfCodes eventCodes (scanEvents P opts scan i events).violations := by
  induction events generalizing scan i with
  | nil => exact h
  | cons event events ih => exact ih _ _ (scanEvent_codes h)

/-- The loop itself never misses an anchor. -/
def NotAnchor (violations : List VerificationViolation) : Prop := ∀ v ∈ violations, v.code ≠ .noStateAnchor

theorem OfCodes.notAnchor {violations : List VerificationViolation} (h : OfCodes eventCodes violations) :
    NotAnchor violations := by
  intro v hv hcode
  have hmem := h v hv
  rw [hcode] at hmem
  exact absurd hmem (by decide)

theorem auditVerdict_inconclusive {violations : List VerificationViolation} {policyId : Option JsString}
    (h : (auditVerdict violations policyId head).status = .inconclusive) :
    ∃ v ∈ violations, v.code = .noStateAnchor := by
  unfold auditVerdict at h
  split at h
  · cases h
  · split at h
    · rename_i hany
      simpa using hany
    · cases h

/-- A list of valid events with an anchor is not left open. -/
theorem verifyAuditEvents_anchored (hv : ∀ event ∈ events, validateAuditEventJson event = [])
    (hhead : headFrom P (auditGenesisHash P) events = .ok head) (hanchor : events.any isAnchor = true) :
    (verifyAuditEvents P (.arr events) opts).status ≠ .inconclusive := by
  intro hstatus
  have hscan := scanEvents_anchor opts ⟨[], [], false, auditGenesisHash P, none⟩ 0 hv hhead
  rw [hanchor, Bool.or_true] at hscan
  obtain ⟨v, hmem, hcode⟩ := auditVerdict_inconclusive hstatus
  rw [mem_sortViolations, hscan, Bool.not_true, Bool.and_false, if_neg Bool.false_ne_true, List.append_nil] at hmem
  rcases List.mem_append.mp hmem with hmem | hmem
  · have hnil : OfCodes eventCodes [] := fun v hv => absurd hv List.not_mem_nil
    exact (scanEvents_codes ⟨_, _, _, _, _⟩ 0 hnil).notAnchor v hmem hcode
  · split at hmem
    · rw [List.mem_singleton.mp hmem] at hcode
      cases hcode
    · cases hmem

def anchorsRequired (opts : VerifyAuditOptions) : Bool :=
  opts.requireStateAnchors.getD (decide (opts.mode.getD .strict = .strict))

/-- A list of valid events of one policy, in the order of their timestamps, with a head. -/
structure CleanEvents (P : Platform) (policyId : JsString) (events : List JsValue) (head : JsString) : Prop where
  nonempty : policyId ≠ []
  valid : ∀ event ∈ events, validateAuditEventJson event = []
  policy : ∀ event ∈ events, event.field (js "policyId") = .str policyId
  ordered : events.Pairwise NotBefore
  head : headFrom P (auditGenesisHash P) events = .ok head

variable {policyId : JsString}

/-- Nothing but a missing anchor is reported. -/
theorem CleanEvents.verdict (h : CleanEvents P policyId events head)
    (hexp : opts.expectedPolicyId = some policyId ∨ opts.expectedPolicyId = none) :
    ∃ observed, verifyAuditEvents P (.arr events) opts =
      auditVerdict (if anchorsRequired opts && !events.any isAnchor then
        [⟨.noStateAnchor, js "no STATE_CHECKPOINT event with stateHash found", none⟩] else []) observed head := by
  obtain ⟨hclean, hanchor, hhead⟩ := scanEvents_clean ⟨[], [], false, auditGenesisHash P, none⟩ 0
    h.nonempty hexp h.valid h.policy h.ordered (by simp) h.head ⟨rfl, .inl rfl⟩
  rw [Bool.false_or] at hanchor
  generalize hscan : scanEvents P opts ⟨[], [], false, auditGenesisHash P, none⟩ 0 events = scan at *
  have hids : ¬ 1 < scan.policyIds.length := by
    rcases hclean.policyIds with hids | hids <;> simp [hids]
  refine ⟨if scan.policyIds.length = 1 then scan.policyIds.head? else none, ?_⟩
  simp only [verifyAuditEvents, hscan, if_neg hids, hclean.violations, hanchor, hhead, List.nil_append]
  rw [← anchorsRequired]
  split <;> rfl

theorem CleanEvents.auditHeadHash (h : CleanEvents P policyId events head)
    (hexp : opts.expectedPolicyId = some policyId ∨ opts.expectedPolicyId = none) :
    (verifyAuditEvents P (.arr events) opts).auditHeadHash = some head := by
  obtain ⟨observed, hv⟩ := h.verdict hexp
  rw [hv, auditVerdict_auditHeadHash]

/-- The list is accepted exactly when it holds an anchor, where one is required. -/
theorem CleanEvents.ok_iff (h : CleanEvents P policyId events head)
    (hexp : opts.expectedPolicyId = some policyId ∨ opts.expectedPolicyId = none) :
    (verifyAuditEvents P (.arr events) opts).ok = true ↔
      (anchorsRequired opts = true → events.any isAnchor = true) := by
  obtain ⟨observed, hv⟩ := h.verdict hexp
  rw [hv]
  cases anchorsRequired opts with
  | false => simp [auditVerdict]
  | true => cases events.any isAnchor <;> simp [auditVerdict]

theorem CleanEvents.inconclusive_iff (h : CleanEvents P policyId events head)
    (hexp : opts.expectedPolicyId = some policyId ∨ opts.expectedPolicyId = none) :
    (verifyAuditEvents P (.arr events) opts).status = .inconclusive ↔
      anchorsRequired opts = true ∧ events.any isAnchor = false := by
  obtain ⟨observed, hv⟩ := h.verdict hexp
  rw [hv]
  cases anchorsRequired opts with
  | false => simp [auditVerdict]
  | true => cases events.any isAnchor <;> simp [auditVerdict]

theorem CleanEvents.unbroken (h : CleanEvents P policyId events head)
    (hexp : opts.expectedPolicyId = some policyId ∨ opts.expectedPolicyId = none) :
    Unbroken (verifyAuditEvents P (.arr events) opts).violations := by
  obtain ⟨observed, hv⟩ := h.verdict hexp
  rw [hv, violations_auditVerdict]
  intro v hmem
  split at hmem
  · obtain rfl := List.mem_singleton.mp hmem
    exact ⟨nofun, nofun⟩
  · cases hmem

end

end OxDeAI
