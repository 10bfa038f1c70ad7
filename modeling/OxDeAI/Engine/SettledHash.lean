import OxDeAI.Engine.LeaseHash
import OxDeAI.Engine.ToolWindow
import OxDeAI.Engine.VelocityWindow

/-! When the state that a permitted intent charges still has a hash. -/

namespace OxDeAI

open Js

section

variable (nfc : JsString → JsString) (intent : Intent) (state : State) (t : JsNumber)

/-- The intent is charged as a tool call. -/
def namesTool (intent : Intent) : Bool := intent.tool.any (fun tool => tool ≠ [])

/-- No other id under which something is charged normalizes to that of the acting agent. -/
structure ChargesApart : Prop where
  nonces : Apart nfc state.replay.nonces (some ∘ noncesPayload) intent.agentId
  spent : intent.kind = .execute → Apart nfc state.budget.spentInPeriod (some ∘ amountText) intent.agentId
  counters : intent.kind = .execute → Apart nfc state.velocity.counters (Option.map counterPayload) intent.agentId
  calls : intent.kind = .execute → namesTool intent = true →
    Apart nfc state.toolLimits.calls (some ∘ callsPayload) intent.agentId

/-- The leases that leave the table: those expired, and the one a RELEASE gives up. -/
def leasesRemoved : ℕ :=
  match intent.kind with
  | .execute => expiredCount t (residentLeases state intent.agentId)
  | .release => expiredCount t (residentLeases state intent.agentId) + 1

/-- The actions in flight after the intent. -/
def activeAfter : JsNumber := nextActive intent (activeCount state intent.agentId) (leasesRemoved intent state t)

/-- They are a number from zero to the limit of the agent. -/
structure ActiveFits : Prop where
  count : isNonNegInt (activeAfter intent state t) = true
  limit : (countOr0 state.concurrency.maxConcurrent intent.agentId).lt (activeAfter intent state t) = false
  safe : intent.agentId ≠ protoKey → (activeAfter intent state t).isSafeInteger = true

/-- What a charge needs for the state it leaves to have a hash. -/
structure Chargeable : Prop where
  apart : ChargesApart nfc intent state
  fits : ActiveFits intent state t

end

section

variable {α : Type}

theorem forall_entries_set {r : Record α} {p : α → Prop} (h : ∀ e ∈ r.entries, p e.2) (key : JsString) {x : α}
    (hx : p x) : ∀ e ∈ (r.set key x).entries, p e.2 := by
  rintro ⟨k, y⟩ he
  rw [← Record.own?_eq_some, Record.own?_set] at he
  split at he
  · rw [← Option.some.inj he]
    exact hx
  · exact h (k, y) (r.own?_eq_some.mp he)

end

section

variable {P : Platform} {e : PolicyEngine} {intent : Intent} {state : State} {context : PolicyEvaluationContext}
  {c : Charge} {t : JsNumber} {auths : Record Lease} {removed : ℕ}

/-- Of a state with a hash, no agent with a budget is called `ts`. -/
theorem agent_ne_ts (hn : NfcLaws P.nfc) (h : Hashable P state) (hleaves : NumericLeaves state intent.agentId)
    (hne : intent.agentId ≠ protoKey) : P.nfc intent.agentId ≠ tsKey := by
  obtain ⟨limit, hlimit⟩ := hleaves.budgetLimit
  intro hts
  have hbudget := ((canonical_budget hn).mp (h .budget).2).1
  have hwritten : written state.budget.budgetLimit (some ∘ amountText) intent.agentId = some (amountText limit) := by
    rw [written_of_ne hne, hlimit]
    rfl
  have hstamp := hbudget.timestamp _ _ hwritten hts
  cases hstamp

theorem own_nonces {agent : JsString} {list : List NonceEntry} (h : nonceList state agent = .ok list) :
    state.replay.nonces.own? agent = some list ∨ list = [] := by
  rw [← Record.value?_get]
  unfold nonceList at h
  split at h
  · rename_i l hget
    obtain rfl := Except.ok.inj h
    rw [hget]
    exact .inl rfl
  · exact .inr (Except.ok.inj h).symm
  · cases h

theorem hashable_replay_charged (hn : NfcLaws P.nfc)
    (h : Serializable state .replay ∧ Canonical P.nfc (payload state .replay))
    (ha : ReplayAdmits intent state context c.pruned) (ht : isProtocolSeconds context.evaluationTime = true)
    (hts : intent.agentId ≠ protoKey → P.nfc intent.agentId ≠ tsKey) :
    (Serializable (settle intent state context c) .replay ∧
        Canonical P.nfc (payload (settle intent state context c) .replay)) ↔
      Apart P.nfc state.replay.nonces (some ∘ noncesPayload) intent.agentId := by
  obtain ⟨⟨hlists, hwindow, hmax⟩, hcan⟩ := h
  obtain ⟨hsafeWindow, hsafeMax, hrecord⟩ := (canonical_replay hn).mp hcan
  obtain ⟨list, hlist, hpruned⟩ := ha.own
  obtain ⟨n, hnow, hle⟩ := isProtocolSeconds_iff.mp ht
  have hsub : ∀ x ∈ c.pruned, x ∈ list := by
    intro x hx
    rw [hpruned] at hx
    exact List.mem_of_mem_filter hx
  have hok : NoncesOk list := by
    rcases own_nonces hlist with hown | rfl
    · exact hlists _ ((Record.own?_eq_some _).mp hown)
    · exact ⟨by simp, List.nodup_nil⟩
  have hnext : NoncesOk (c.pruned ++ [⟨nonceKey intent, context.evaluationTime⟩]) := by
    constructor
    · intro x hx
      rcases List.mem_append.mp hx with hx | hx
      · exact hok.1 x (hsub x hx)
      · obtain rfl := List.mem_singleton.mp hx
        rw [hnow]
        rfl
    · refine List.nodup_append.mpr ⟨?_, List.nodup_singleton _, ?_⟩
      · rw [hpruned]
        exact hok.2.filter _
      · rintro x hx y hy rfl
        obtain rfl := List.mem_singleton.mp hy
        exact ha.unused _ hx rfl
  have hsafe : intent.agentId ≠ protoKey →
      Canonical P.nfc (noncesPayload (c.pruned ++ [⟨nonceKey intent, context.evaluationTime⟩])) := by
    intro hne
    have hold : ∀ x ∈ list, x.ts.isSafeInteger = true := by
      rcases own_nonces hlist with hown | rfl
      · refine (canonical_noncesPayload hn).mp (hrecord.value intent.agentId _ ?_)
        rw [written_of_ne hne, hown]
        rfl
      · simp
    rw [canonical_noncesPayload hn]
    intro x hx
    rcases List.mem_append.mp hx with hx | hx
    · exact hold x (hsub x hx)
    · obtain rfl := List.mem_singleton.mp hx
      rw [hnow]
      exact JsNumber.isSafeInteger_int.mpr (by simpa using hle)
  have hset : CanonicalRecord P.nfc (settle intent state context c).replay.nonces (some ∘ noncesPayload) ↔
      Apart P.nfc state.replay.nonces (some ∘ noncesPayload) intent.agentId :=
    canonicalRecord_set hrecord rfl hsafe hts
  rw [canonical_replay hn, hset]
  constructor
  · rintro ⟨-, -, -, hapart⟩
    exact hapart
  · intro hapart
    exact ⟨⟨forall_entries_set hlists _ hnext, hwindow, hmax⟩, hsafeWindow, hsafeMax, hapart⟩

theorem hashable_budget_charged (context : PolicyEvaluationContext) (c : Charge) (hn : NfcLaws P.nfc)
    (h : Hashable P state)
    (hts : intent.agentId ≠ protoKey → P.nfc intent.agentId ≠ tsKey) :
    Canonical P.nfc (payload (settle intent state context c) .budget) ↔
      (intent.kind = .execute → Apart P.nfc state.budget.spentInPeriod (some ∘ amountText) intent.agentId) := by
  obtain ⟨hlimit, hspent, hcap⟩ := (canonical_budget hn).mp (h .budget).2
  cases hk : intent.kind with
  | release =>
    have hsame : (settle intent state context c).budget = state.budget := by
      rw [settle, proposed, hk]
    rw [canonical_budget hn, hsame]
    exact ⟨fun _ hexec => (by cases hexec), fun _ => ⟨hlimit, hspent, hcap⟩⟩
  | execute =>
    have hcharged : (settle intent state context c).budget = chargeBudget intent state := by
      rw [settle, proposed, hk]
    have hset : CanonicalRecord P.nfc (chargeBudget intent state).spentInPeriod (some ∘ amountText) ↔
        Apart P.nfc state.budget.spentInPeriod (some ∘ amountText) intent.agentId :=
      canonicalRecord_set hspent rfl (fun _ => .str _) hts
    rw [canonical_budget hn, hcharged, hset]
    exact ⟨fun hall _ => hall.2.1, fun hapart => ⟨hlimit, hapart rfl, hcap⟩⟩

/-- A new counter has safe fields. -/
theorem nextCounter_safe {now : JsNumber} {counter : Option VelocityCounter} {next : VelocityCounter}
    (hnow : isProtocolSeconds now = true) (hconfig : validVelocityConfig state.velocity.config = true)
    (hread : readCounter state intent.agentId now = some counter)
    (hnext : nextCounter state.velocity.config now counter = some next) :
    ∃ start count : ℕ, next = ⟨.int start, .int count⟩ ∧ start ≤ JsNumber.maxSafeInteger ∧
      count ≤ JsNumber.maxSafeInteger := by
  obtain ⟨t, rfl, ht⟩ := isProtocolSeconds_iff.mp hnow
  obtain ⟨window, max, hcfg, -, hmax⟩ := validVelocityConfig_int hconfig
  rw [hcfg] at hnext
  obtain ⟨start, count, rfl, hstep⟩ := nextCounter_step ht (readCounter_own hread).2 hnext
  obtain ⟨hstart, hcount⟩ := hstep.bounds
  have hstart : (start : ℤ) ≤ t := hstart
  exact ⟨start, count, rfl, by omega, le_trans hcount hmax⟩

theorem hashable_velocity_charged (hn : NfcLaws P.nfc) (h : Hashable P state)
    (ha : Admitted intent state context c) (ht : isProtocolSeconds context.evaluationTime = true)
    (hts : intent.agentId ≠ protoKey → P.nfc intent.agentId ≠ tsKey) :
    (Serializable (settle intent state context c) .velocity ∧
        Canonical P.nfc (payload (settle intent state context c) .velocity)) ↔
      (intent.kind = .execute →
        Apart P.nfc state.velocity.counters (Option.map counterPayload) intent.agentId) := by
  obtain ⟨⟨hwindow, hmax, hcounters⟩, hcan⟩ := h .velocity
  obtain ⟨hconfig, hrecord⟩ := (canonical_velocity hn).mp hcan
  cases hk : intent.kind with
  | release =>
    obtain ⟨-, hcounter⟩ := ha.release hk
    have hsame : (settle intent state context c).velocity = state.velocity := by
      rw [settle, proposed, hcounter]
    rw [canonical_velocity hn, Serializable, hsame]
    exact ⟨fun _ hexec => (by cases hexec), fun _ => ⟨⟨hwindow, hmax, hcounters⟩, hconfig, hrecord⟩⟩
  | execute =>
    have hx := ha.execute hk
    obtain ⟨counter, next, hread, hnext, hcharge⟩ := hx.velocity
    obtain ⟨start, count, rfl, hstart, hcount⟩ := nextCounter_safe ht hx.velocityConfig hread hnext
    have hsame : (settle intent state context c).velocity = { state.velocity with
        counters := state.velocity.counters.set intent.agentId (some ⟨.int start, .int count⟩) } := by
      rw [settle, proposed, hcharge]
    have hcan : Canonical P.nfc (counterPayload ⟨.int start, .int count⟩) :=
      (canonical_counterPayload hn).mpr ⟨JsNumber.isSafeInteger_int.mpr (by simpa using hstart),
        JsNumber.isSafeInteger_int.mpr (by simpa using hcount)⟩
    have hok : ∀ k, some (VelocityCounter.mk (.int start) (.int count)) = some k → CounterOk k := by
      rintro k hk
      obtain rfl := Option.some.inj hk
      exact ⟨rfl, by simp [isNonNegInt]⟩
    have hset := canonicalRecord_set (x := some (VelocityCounter.mk (.int start) (.int count))) hrecord rfl
      (fun _ => hcan) hts
    rw [canonical_velocity hn, Serializable, hsame, hset]
    constructor
    · intro hall _
      exact hall.2.2
    · intro hapart
      have hall := forall_entries_set (p := fun y => ∀ k, y = some k → CounterOk k) hcounters intent.agentId hok
      exact ⟨⟨hwindow, hmax, hall⟩, hconfig, hapart rfl⟩

theorem own_calls {agent : JsString} {calls : List ToolCall} (h : currentCalls state.toolLimits agent = some calls) :
    (∃ own, state.toolLimits.calls.own? agent = some own ∧ own.getD [] = calls) ∨ calls = [] := by
  rw [← Record.value?_get]
  unfold currentCalls at h
  split at h
  · rename_i own hget
    rw [hget]
    exact .inl ⟨own, rfl, Option.some.inj h⟩
  · exact .inr (Option.some.inj h).symm
  · cases h

/-- What an admitted tool call charges, and that nothing else is charged as one. -/
theorem admitted_events (hk : intent.kind = .execute) (hx : ExecuteAdmitted intent state context c) :
    if namesTool intent then ∃ tool max calls, intent.tool = some tool ∧
        RecordedCall state intent.agentId tool context.evaluationTime (toolDelta intent state c.events) max calls ∧
        c.events = some (pruneCalls state.toolLimits context.evaluationTime calls ++
          [⟨context.evaluationTime, some tool⟩])
    else c.events = none := by
  have htool := hx.tool
  have hcharge : ∀ events, toolDelta intent state c.events = toolDelta intent state events → c.events = events :=
    fun events => toolDelta_inj
  rw [toolAmplificationModule, hk] at htool
  cases hname : intent.tool with
  | none =>
    rw [hname] at htool
    have hnone : c.events = none := hcharge none (PolicyResult.allow.inj (Except.ok.inj htool)).symm
    rw [if_neg (by simp [namesTool, hname])]
    exact hnone
  | some tool =>
    rw [hname] at htool
    by_cases hne : tool = []
    · rw [if_neg (by simp [namesTool, hname, hne])]
      simp only [hne, if_true] at htool
      exact hcharge none (PolicyResult.allow.inj (Except.ok.inj htool)).symm
    · rw [if_pos (by simp [namesTool, hname, hne])]
      simp only [if_neg hne] at htool
      obtain ⟨max, calls, hrec⟩ := limitToolCall_allow hk hname hne (Except.ok.inj htool)
      exact ⟨tool, max, calls, rfl, hrec, hcharge (some _) hrec.delta⟩

theorem hashable_tools_charged (hn : NfcLaws P.nfc) (h : Hashable P state)
    (ha : Admitted intent state context c) (ht : isProtocolSeconds context.evaluationTime = true)
    (hts : intent.agentId ≠ protoKey → P.nfc intent.agentId ≠ tsKey) :
    (Serializable (settle intent state context c) .toolAmplification ∧
        Canonical P.nfc (payload (settle intent state context c) .toolAmplification)) ↔
      (intent.kind = .execute → namesTool intent = true →
        Apart P.nfc state.toolLimits.calls (some ∘ callsPayload) intent.agentId) := by
  have hold := h .toolAmplification
  obtain ⟨⟨hmax, hbyTool, hcalls, hwindow⟩, hcan⟩ := hold
  obtain ⟨hsafeWindow, hcanMax, hcanByTool, hrecord⟩ := (canonical_toolLimits hn).mp hcan
  have hkept : c.events = none → (Serializable (settle intent state context c) .toolAmplification ∧
      Canonical P.nfc (payload (settle intent state context c) .toolAmplification)) := by
    intro hnone
    have hsame : (settle intent state context c).toolLimits = state.toolLimits := by
      rw [settle, proposed, hnone]
    rw [canonical_toolLimits hn, Serializable, hsame]
    exact ⟨⟨hmax, hbyTool, hcalls, hwindow⟩, hsafeWindow, hcanMax, hcanByTool, hrecord⟩
  cases hk : intent.kind with
  | release => exact ⟨fun _ hexec => (by cases hexec), fun _ => hkept (ha.release hk).1⟩
  | execute =>
    have hevents := admitted_events hk (ha.execute hk)
    split at hevents
    · rename_i hname
      obtain ⟨tool, max, calls, -, hrec, hcharge⟩ := hevents
      obtain ⟨t, hnow, hle⟩ := isProtocolSeconds_iff.mp ht
      have hentries : ∀ x ∈ pruneCalls state.toolLimits context.evaluationTime calls ++
          [⟨context.evaluationTime, some tool⟩], x.ts.isSafeInteger = true := by
        intro x hx
        rcases List.mem_append.mp hx with hx | hx
        · have hcoherent := hrec.coherent
          simp only [coherentCalls, Bool.and_eq_true, List.all_eq_true] at hcoherent
          have hvalid := hcoherent.1.1.1 x (List.mem_of_mem_filter hx)
          simp only [isValidEvent, isNonNegativeSafeInteger, Bool.and_eq_true] at hvalid
          exact hvalid.1.1
        · obtain rfl := List.mem_singleton.mp hx
          rw [hnow]
          exact JsNumber.isSafeInteger_int.mpr (by simpa using hle)
      have hok : CallsOk (some (pruneCalls state.toolLimits context.evaluationTime calls ++
          [⟨context.evaluationTime, some tool⟩])) := by
        intro x hx
        obtain ⟨z, hz, -⟩ := JsNumber.exists_int_of_isSafeInteger (hentries x hx)
        rw [hz]
        rfl
      have hsame : (settle intent state context c).toolLimits = { state.toolLimits with
          calls := state.toolLimits.calls.set intent.agentId (some (pruneCalls state.toolLimits
            context.evaluationTime calls ++ [⟨context.evaluationTime, some tool⟩])) } := by
        rw [settle, proposed, hcharge]
      have hcanCalls : Canonical P.nfc (callsPayload (some (pruneCalls state.toolLimits context.evaluationTime calls ++
          [⟨context.evaluationTime, some tool⟩]))) := (canonical_callsPayload hn).mpr hentries
      have hset := canonicalRecord_set hrecord rfl (fun _ => hcanCalls) hts
      rw [canonical_toolLimits hn, Serializable, hsame, hset]
      constructor
      · intro hall _ _
        exact hall.2.2.2.2
      · intro hapart
        exact ⟨⟨hmax, hbyTool, forall_entries_set hcalls _ hok, hwindow⟩, hsafeWindow, hcanMax, hcanByTool,
          hapart rfl hname⟩
    · rename_i hname
      exact ⟨fun _ _ hn => absurd hn hname, fun _ => hkept hevents⟩

theorem removed_eq (h : LeaseStep intent state t auths removed) : removed = leasesRemoved intent state t := by
  rcases h.transition with ⟨hk, -, hr⟩ | ⟨hk, -, -, -, -, -, hr⟩
  · rw [leasesRemoved, hk, hr]
  · rw [leasesRemoved, hk, hr]

/-- A charge drops leases and adds none. -/
theorem own_auths (h : LeaseStep intent state t auths removed) {k : JsString} {lease : Lease}
    (ho : auths.own? k = some lease) : (listedLeases state.concurrency intent.agentId).own? k = some lease := by
  rcases h.transition with ⟨-, rfl, -⟩ | ⟨-, authId, -, -, -, rfl, -⟩
  · exact ((Record.own?_filter _).mp ho).1
  · rw [Record.own?_without] at ho
    split at ho
    · cases ho
    · exact ((Record.own?_filter _).mp ho).1

theorem listedLeases_settle (intent : Intent) (state : State) (context : PolicyEvaluationContext) (c : Charge)
    (agent : JsString) : listedLeases (settle intent state context c).concurrency agent =
      if agent = intent.agentId then c.auths else listedLeases state.concurrency agent := by
  split
  · rename_i h
    subst h
    have hget : (settle intent state context c).concurrency.activeAuths.get intent.agentId = .own c.auths :=
      Record.get_of_own? _ (Record.own?_set_self _ _ _)
    rw [listedLeases, hget]
  · rename_i h
    have hget := Record.get_congr (r := (settle intent state context c).concurrency.activeAuths)
      (s := state.concurrency.activeAuths) (Record.own?_set_of_ne _ h _)
    rw [listedLeases, listedLeases, hget]

theorem mem_concurrencyAgents (hleaves : NumericLeaves state intent.agentId) :
    intent.agentId ∈ concurrencyAgents state.concurrency := by
  obtain ⟨max, hmax, -⟩ := hleaves.maxConcurrent
  rw [concurrencyAgents, sortKeys, List.mem_insertionSort, List.mem_dedup]
  exact List.mem_append_left _ (List.mem_append_left _ ((Record.mem_keys _).mpr (by rw [hmax]; rfl)))

theorem concurrencyAgents_settle (context : PolicyEvaluationContext) (hleaves : NumericLeaves state intent.agentId)
    (c : Charge) :
    concurrencyAgents (settle intent state context c).concurrency = concurrencyAgents state.concurrency := by
  obtain ⟨max, hmax, -⟩ := hleaves.maxConcurrent
  refine concurrencyAgents_charged rfl ((Record.mem_keys _).mpr (by rw [hmax]; rfl)) ?_ fun _ hk => mem_keys_set hk
  intro k hk
  have hown : (settle intent state context c).concurrency.active.own? k = state.concurrency.active.own? k :=
    Record.own?_assign_of_ne _ hk _
  rw [Record.mem_keys, Record.mem_keys, hown]

theorem chargedActive_eq (h : LeaseStep intent state t c.auths c.removed) :
    chargedActive intent state c = activeAfter intent state t := by
  rw [chargedActive, removed_eq h, activeAfter]

theorem hashable_concurrency_charged (context : PolicyEvaluationContext) (hn : NfcLaws P.nfc) (h : Hashable P state)
    (hleaves : NumericLeaves state intent.agentId) (ha : LeaseStep intent state t c.auths c.removed) :
    (Serializable (settle intent state context c) .concurrency ∧
        Canonical P.nfc (payload (settle intent state context c) .concurrency)) ↔ ActiveFits intent state t := by
  obtain ⟨hser, hcan⟩ := h .concurrency
  have hagents := concurrencyAgents_settle context hleaves c
  have hleases := listedLeases_settle intent state context c
  have hmem := mem_concurrencyAgents hleaves
  have hagent := hser _ hmem
  have hactive : (settle intent state context c).concurrency.active =
      state.concurrency.active.set intent.agentId (activeAfter intent state t) := by
    rw [← chargedActive_eq ha]
    exact assign_of_not_inherited hagent.activeRead _
  have hcount : ∀ agent, countOr0 (settle intent state context c).concurrency.active agent =
      if agent = intent.agentId then activeAfter intent state t else countOr0 state.concurrency.active agent := by
    intro agent
    rw [countOr0, hactive, Record.own?_set]
    split <;> rfl
  constructor
  · rintro ⟨hser', hcan'⟩
    have hagent' := hser' intent.agentId (by rw [hagents]; exact hmem)
    refine ⟨?_, ?_, fun hne => ?_⟩
    · have := hagent'.active
      rwa [hcount, if_pos rfl] at this
    · have := hagent'.le
      rwa [hcount, if_pos rfl] at this
    · simp only [payload, canonical_concurrency hn, List.map_map, Function.comp_def] at hcan'
      rw [hagents] at hcan'
      have hvalue := canonical_of_buildObject hcan'.2.1 hmem hne
      simp only [agentConcurrency] at hvalue
      rwa [hcount, if_pos rfl, canonical_num_iff] at hvalue
  · intro hfits
    constructor
    · intro agent hin
      rw [hagents] at hin
      have hok := hser agent hin
      by_cases heq : agent = intent.agentId
      · subst heq
        refine ⟨hok.maxRead, ?_, hok.max, ?_, ?_, ?_⟩
        · rw [hactive, Record.get_of_own? _ (Record.own?_set_self _ _ _)]
          rfl
        · rw [hcount, if_pos rfl]
          exact hfits.count
        · rw [hcount, if_pos rfl]
          exact hfits.limit
        · rw [hleases, if_pos rfl]
          rintro ⟨k, lease⟩ hk
          exact hok.leases (k, lease) ((Record.own?_eq_some _).mp (own_auths ha ((Record.own?_eq_some _).mpr hk)))
      · refine ⟨hok.maxRead, ?_, hok.max, ?_, ?_, ?_⟩
        · rw [hactive, Record.get_congr (Record.own?_set_of_ne _ heq _)]
          exact hok.activeRead
        · rw [hcount, if_neg heq]
          exact hok.active
        · rw [hcount, if_neg heq]
          exact hok.le
        · rw [hleases, if_neg heq]
          exact hok.leases
    · simp only [payload, canonical_concurrency hn, List.map_map, Function.comp_def] at hcan ⊢
      rw [hagents]
      refine ⟨hcan.1, canonical_buildObject_mono hcan.2.1 ?_ ?_, canonical_buildObject_mono hcan.2.2 ?_ ?_⟩
      · intro k hne hk
        simp only [agentConcurrency] at hk ⊢
        rw [hcount]
        split
        · rename_i heq
          exact hfits.safe (heq ▸ hne)
        · exact hk
      · intro k hin hne hk
        simp only [agentConcurrency] at hk ⊢
        rw [hcount]
        split
        · rename_i heq
          exact canonical_num_iff.mpr (hfits.safe (heq ▸ hne))
        · exact hk
      · intro k _ hk
        simp only [agentConcurrency, leasesPayload, buildObject] at hk
        cases hk
      · intro k hin _ hk
        simp only [agentConcurrency, canonical_leasesPayload] at hk ⊢
        rw [hleases]
        split
        · rename_i heq
          subst heq
          exact hk.mono fun k lease => own_auths ha
        · exact hk

/-- An admitted charge leaves a state with a hash exactly when it is chargeable. -/
theorem hashable_settle (hn : NfcLaws P.nfc) (h : Hashable P state) (hleaves : NumericLeaves state intent.agentId)
    (ha : Admitted intent state context c) (ht : isProtocolSeconds context.evaluationTime = true) :
    Hashable P (settle intent state context c) ↔ Chargeable P.nfc intent state context.evaluationTime := by
  have hts := agent_ne_ts hn h hleaves
  have hreplay := hashable_replay_charged hn (h .replay) ha.replay ht hts
  have hbudget := hashable_budget_charged context c hn h hts
  have hvelocity := hashable_velocity_charged hn h ha ht hts
  have htools := hashable_tools_charged hn h ha ht hts
  have hconcurrency := hashable_concurrency_charged context hn h hleaves ha.leases
  constructor
  · intro hall
    exact ⟨⟨hreplay.mp (hall .replay), hbudget.mp (hall .budget).2, hvelocity.mp (hall .velocity),
      htools.mp (hall .toolAmplification)⟩, hconcurrency.mp (hall .concurrency)⟩
  · rintro ⟨hapart, hfits⟩ id
    cases id with
    | allowlist => exact h .allowlist
    | budget => exact ⟨trivial, hbudget.mpr hapart.spent⟩
    | concurrency => exact hconcurrency.mpr hfits
    | killSwitch => exact h .killSwitch
    | recursionDepth => exact h .recursionDepth
    | replay => exact hreplay.mpr hapart.nonces
    | toolAmplification => exact htools.mpr hapart.calls
    | velocity => exact hvelocity.mpr hapart.counters

end

end OxDeAI
