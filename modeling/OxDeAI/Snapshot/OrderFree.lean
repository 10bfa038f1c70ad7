import OxDeAI.Core.SameState
import OxDeAI.Lib.StableSort
import OxDeAI.Snapshot.CanonicalRecord

/-! What the codecs write for states that differ in order only: the same, but for tool
calls of one second of which some name no tool and others the empty one. -/

namespace OxDeAI

open Js StableSort

theorem sortKeys_perm {keys keys' : List JsString} (h : keys.Perm keys') : sortKeys keys = sortKeys keys' :=
  insertionSort_eq_of_perm ⟨fun a _ b _ => le_total a b, fun _ _ _ _ _ _ => le_trans⟩ h fun _ _ _ _ => le_antisymm

section

variable {α : Type} {R : α → α → Prop} {r r' : Record α} {g : α → Option JsValue}

theorem keys_sortEntries (r : Record α) : (sortEntries r.entries).map Prod.fst = sortKeys r.keys :=
  List.map_insertionSort _ _ _ _ fun _ _ _ _ => Iff.rfl

/-- The object a codec writes for a record, read off its keys. -/
theorem buildObject_recordMembers (r : Record α) (g : α → Option JsValue) :
    buildObject (recordMembers r g) = .obj ((sortKeys r.keys).filterMap (fun k => (written r g k).map (fun v => (k, v)))) := by
  rw [buildObject, recordMembers, ← keys_sortEntries, List.filterMap_map, List.filter_filterMap]
  congr 1
  refine List.filterMap_congr fun e he => ?_
  obtain ⟨k, x⟩ := e
  have hown : r.own? k = some x := r.own?_eq_some.mpr (mem_sortEntries.mp he)
  by_cases hk : k = protoKey
  · cases g x <;> simp [written, hk]
  · cases hg : g x <;> simp [written_of_ne hk, hown, hk, hg]

/-- Records with the same keys and the same members are written alike. -/
theorem buildObject_congr (hkeys : r.keys.Perm r'.keys) (h : ∀ k, written r g k = written r' g k) :
    buildObject (recordMembers r g) = buildObject (recordMembers r' g) := by
  rw [buildObject_recordMembers, buildObject_recordMembers, sortKeys_perm hkeys]
  simp only [h]

theorem written_congr (h : SameRecord R r r') (hg : ∀ x y k, r.own? k = some x → R x y → g x = g y) (k : JsString) :
    written r g k = written r' g k := by
  rw [written, written]
  split
  · rfl
  · have hk := h k
    have hgk := fun x y => hg x y k
    generalize r.own? k = o at hk hgk
    generalize r'.own? k = o' at hk
    cases hk with
    | none => rfl
    | some hxy => exact hgk _ _ rfl hxy

theorem record_congr (h : SameRecord R r r') (hg : ∀ x y k, r.own? k = some x → R x y → g x = g y) :
    buildObject (recordMembers r g) = buildObject (recordMembers r' g) :=
  buildObject_congr h.keys_perm (written_congr h hg)

theorem record_eq_congr (h : SameRecord (· = ·) r r') (g : α → Option JsValue) :
    buildObject (recordMembers r g) = buildObject (recordMembers r' g) :=
  record_congr h fun _ _ _ _ hxy => by rw [hxy]

end

/-- By time, then by text. -/
def stampLe (p q : JsNumber × JsString) : Bool := p.1.lt q.1 || (!q.1.lt p.1 && p.2 ≤ q.2)

theorem stampLe_int {x y : ℤ} {s s' : JsString} :
    stampLe (.int x, s) (.int y, s') = true ↔ x < y ∨ (x = y ∧ s ≤ s') := by
  simp only [stampLe, JsNumber.lt_int, Bool.or_eq_true, Bool.and_eq_true, Bool.not_eq_true', decide_eq_true_eq,
    decide_eq_false_iff_not, not_lt]
  constructor
  · rintro (h | ⟨h, hs⟩)
    · exact .inl h
    · rcases h.lt_or_eq with hlt | heq
      · exact .inl hlt
      · exact .inr ⟨heq, hs⟩
  · rintro (h | ⟨rfl, hs⟩)
    · exact .inl h
    · exact .inr ⟨le_refl x, hs⟩

section

variable {α : Type} {stamp : α → JsNumber × JsString} {l : List α}

/-- Entries with integral times are ordered by their stamps. -/
theorem ordersOn_stamps (stamp : α → JsNumber × JsString) (h : ∀ a ∈ l, (stamp a).1.isInteger = true) :
    OrdersOn (fun a b => stampLe (stamp a) (stamp b) = true) l where
  total a ha b hb := by
    obtain ⟨x, hx⟩ := JsNumber.exists_int_of_isInteger (h a ha)
    obtain ⟨y, hy⟩ := JsNumber.exists_int_of_isInteger (h b hb)
    rw [← Prod.mk.eta (p := stamp a), ← Prod.mk.eta (p := stamp b), hx, hy, stampLe_int, stampLe_int]
    rcases lt_trichotomy x y with hlt | heq | hgt
    · exact .inl (.inl hlt)
    · rcases le_total (stamp a).2 (stamp b).2 with hs | hs
      · exact .inl (.inr ⟨heq, hs⟩)
      · exact .inr (.inr ⟨heq.symm, hs⟩)
    · exact .inr (.inl hgt)
  trans a ha b hb c hc := by
    obtain ⟨x, hx⟩ := JsNumber.exists_int_of_isInteger (h a ha)
    obtain ⟨y, hy⟩ := JsNumber.exists_int_of_isInteger (h b hb)
    obtain ⟨z, hz⟩ := JsNumber.exists_int_of_isInteger (h c hc)
    rw [← Prod.mk.eta (p := stamp a), ← Prod.mk.eta (p := stamp b), ← Prod.mk.eta (p := stamp c), hx, hy, hz,
      stampLe_int, stampLe_int, stampLe_int]
    rintro (hab | ⟨rfl, hab⟩) (hbc | ⟨rfl, hbc⟩)
    · exact .inl (hab.trans hbc)
    · exact .inl hab
    · exact .inl hbc
    · exact .inr ⟨rfl, hab.trans hbc⟩

theorem stamps_antisymm {p q : JsNumber × JsString} (hp : p.1.isInteger = true) (hq : q.1.isInteger = true)
    (hpq : stampLe p q = true) (hqp : stampLe q p = true) : p = q := by
  obtain ⟨n, s⟩ := p
  obtain ⟨m, s'⟩ := q
  obtain ⟨x, rfl⟩ := JsNumber.exists_int_of_isInteger hp
  obtain ⟨y, rfl⟩ := JsNumber.exists_int_of_isInteger hq
  rw [stampLe_int] at hpq hqp
  rcases hpq with hlt | ⟨rfl, hs⟩
  · rcases hqp with hgt | ⟨heq, -⟩
    · exact absurd hlt (by omega)
    · exact absurd hlt (by omega)
  · rcases hqp with hgt | ⟨-, hs'⟩
    · exact absurd hgt (by omega)
    · rw [le_antisymm hs hs']

end

/-- Nonces have no ties, so they are written alike. -/
theorem noncesPayload_congr {list list' : List NonceEntry} (hok : NoncesOk list) (h : list.Perm list') :
    noncesPayload list = noncesPayload list' := by
  have hstamp : ∀ x ∈ list, (x.ts, x.nonce).1.isInteger = true := hok.1
  have hsort : sortNonces list = sortNonces list' := by
    refine insertionSort_eq_of_perm (ordersOn_stamps (fun x : NonceEntry => (x.ts, x.nonce)) hstamp) h ?_
    intro a ha b hb hab hba
    obtain ⟨hts, hnonce⟩ := Prod.mk.inj (stamps_antisymm (hstamp a ha) (hstamp b hb) hab hba)
    cases a
    cases b
    simp only [NonceEntry.mk.injEq]
    exact ⟨hnonce, hts⟩
  rw [noncesPayload, noncesPayload, hsort]

def callStamp (call : ToolCall) : JsNumber × JsString := (call.ts, call.tool.getD [])

/-- A call of a given second without the name of a tool: none, or the empty one. -/
def unnamedAt (ts : JsNumber) (call : ToolCall) : Bool := call.ts = ts ∧ call.tool.getD [] = []

/-- The unnamed calls of each second come in the same order. -/
def TiesAgree (calls calls' : List ToolCall) : Prop := ∀ ts, calls.filter (unnamedAt ts) = calls'.filter (unnamedAt ts)

section

variable {calls calls' : List ToolCall}

theorem tied_calls (hints : ∀ x ∈ calls, x.ts.isInteger = true) {a b : ToolCall} (ha : a ∈ calls) (hb : b ∈ calls) :
    tied (fun a b => toolCallLe a b = true) a b = true ↔ callStamp a = callStamp b := by
  rw [tied_iff]
  constructor
  · rintro ⟨hab, hba⟩
    exact stamps_antisymm (p := callStamp a) (q := callStamp b) (hints a ha) (hints b hb) hab hba
  · intro heq
    have hrefl : stampLe (callStamp b) (callStamp b) = true := by
      have htotal := (ordersOn_stamps callStamp (l := calls) hints).total b hb b hb
      exact htotal.elim id id
    have hab : stampLe (callStamp a) (callStamp b) = true := by rw [heq]; exact hrefl
    have hba : stampLe (callStamp b) (callStamp a) = true := by rw [heq]; exact hrefl
    exact ⟨hab, hba⟩

/-- Calls with one stamp are equal, unless they name no tool. -/
theorem eq_of_callStamp {a b : ToolCall} (h : callStamp a = callStamp b) (hne : a.tool.getD [] ≠ []) : a = b := by
  obtain ⟨ts, tool⟩ := a
  obtain ⟨ts', tool'⟩ := b
  simp only [callStamp, Prod.mk.injEq] at h hne
  obtain ⟨rfl, htool⟩ := h
  cases tool with
  | none => simp at hne
  | some tool =>
    cases tool' with
    | none => exact absurd htool hne
    | some tool' =>
      simp only [Option.getD_some] at htool
      rw [htool]

/-- Rearranged calls sort alike exactly when their ties come in the same order. -/
theorem sortCalls_eq_iff (hints : ∀ x ∈ calls, x.ts.isInteger = true) (h : calls.Perm calls') :
    sortCalls calls = sortCalls calls' ↔ TiesAgree calls calls' := by
  have hmem : ∀ b, b ∈ calls' → b ∈ calls := fun b hb => h.mem_iff.mpr hb
  have hunnamed : ∀ a ∈ calls, a.tool.getD [] = [] → ∀ k : List ToolCall, (∀ b ∈ k, b ∈ calls) →
      k.filter (tied (fun a b => toolCallLe a b = true) a) = k.filter (unnamedAt a.ts) := by
    intro a ha hnone k hk
    refine List.filter_congr fun b hb => ?_
    rw [Bool.eq_iff_iff, tied_calls hints ha (hk b hb)]
    simp only [callStamp, hnone, unnamedAt, Prod.mk.injEq, decide_eq_true_eq]
    exact ⟨fun hs => ⟨hs.1.symm, hs.2.symm⟩, fun hs => ⟨hs.1.symm, hs.2.symm⟩⟩
  have hordered : OrdersOn (fun a b => toolCallLe a b = true) calls := ordersOn_stamps callStamp hints
  rw [sortCalls, sortCalls, insertionSort_eq_iff hordered h]
  constructor
  · intro hties ts
    by_cases hex : ∃ a ∈ calls, unnamedAt ts a = true
    · obtain ⟨a, ha, hts⟩ := hex
      simp only [unnamedAt, decide_eq_true_eq] at hts
      obtain ⟨rfl, hnone⟩ := hts
      rw [← hunnamed a ha hnone calls fun _ hb => hb, ← hunnamed a ha hnone calls' hmem]
      exact hties a ha
    · push Not at hex
      have hnil : ∀ k : List ToolCall, (∀ b ∈ k, b ∈ calls) → k.filter (unnamedAt ts) = [] :=
        fun k hk => List.filter_eq_nil_iff.mpr fun b hb => by simpa using hex b (hk b hb)
      rw [hnil calls fun _ hb => hb, hnil calls' hmem]
  · intro hties a ha
    by_cases hnone : a.tool.getD [] = []
    · have heq := hties a.ts
      rw [← hunnamed a ha hnone calls fun _ hb => hb, ← hunnamed a ha hnone calls' hmem] at heq
      exact heq
    · have hconst : ∀ k : List ToolCall, (∀ b ∈ k, b ∈ calls) →
          ∀ b ∈ k.filter (tied (fun a b => toolCallLe a b = true) a), b = a := by
        intro k hk b hb
        obtain ⟨hb, htied⟩ := List.mem_filter.mp hb
        exact (eq_of_callStamp ((tied_calls hints ha (hk b hb)).mp htied) hnone).symm
      have hperm := h.filter (tied (fun a b => toolCallLe a b = true) a)
      exact (List.eq_replicate_of_mem (hconst calls fun _ hb => hb)).trans (by
        rw [hperm.length_eq]
        exact (List.eq_replicate_of_mem (hconst calls' hmem)).symm)

theorem TiesAgree.filter (h : TiesAgree calls calls') (p : ToolCall → Bool) :
    TiesAgree (calls.filter p) (calls'.filter p) := by
  intro ts
  rw [List.filter_filter, List.filter_filter]
  simp only [Bool.and_comm, ← List.filter_filter]
  rw [h ts]

theorem TiesAgree.append (h : TiesAgree calls calls') (more : List ToolCall) :
    TiesAgree (calls ++ more) (calls' ++ more) := by
  intro ts
  rw [List.filter_append, List.filter_append, h ts]

end

section

variable {s s' : State} {c c' : ConcurrencyState} {tl tl' : ToolLimitsState}

theorem concurrencyAgents_congr (h : SameConcurrency c c') : concurrencyAgents c = concurrencyAgents c' := by
  refine sortKeys_perm ((List.perm_ext_iff_of_nodup (List.nodup_dedup _) (List.nodup_dedup _)).mpr fun k => ?_)
  simp only [List.mem_dedup, List.mem_append, h.maxConcurrent.mem_keys, h.active.mem_keys, h.activeAuths.mem_keys]

theorem listedLeases_congr (h : SameConcurrency c c') (agent : JsString) :
    SameRecord (· = ·) (listedLeases c agent) (listedLeases c' agent) := by
  have hread := h.activeAuths.get agent
  rw [listedLeases, listedLeases]
  generalize c.activeAuths.get agent = r at hread
  generalize c'.activeAuths.get agent = r' at hread
  cases hread with
  | own hr => exact hr
  | inherited i => exact .refl (fun _ => rfl) _
  | absent => exact .refl (fun _ => rfl) _

theorem countOr0_congr {r r' : Record JsNumber} (h : SameRecord (· = ·) r r') (agent : JsString) :
    countOr0 r agent = countOr0 r' agent := by rw [countOr0, countOr0, h.own?_eq]

theorem AgentConcurrencyOk.congr (h : SameConcurrency c c') {agent : JsString} (hok : AgentConcurrencyOk c agent) :
    AgentConcurrencyOk c' agent where
  maxRead := h.maxConcurrent.get_eq agent ▸ hok.maxRead
  activeRead := h.active.get_eq agent ▸ hok.activeRead
  max := countOr0_congr h.maxConcurrent agent ▸ hok.max
  active := countOr0_congr h.active agent ▸ hok.active
  le := by
    rw [← countOr0_congr h.maxConcurrent agent, ← countOr0_congr h.active agent]
    exact hok.le
  leases := ((listedLeases_congr h agent).forall_entries_eq fun lease => lease.expiresAt.isInteger = true).mp
    hok.leases

theorem noncesOk_congr {list list' : List NonceEntry} (h : list.Perm list') : NoncesOk list ↔ NoncesOk list' := by
  rw [NoncesOk, NoncesOk, h.nodup_iff]
  simp only [h.mem_iff]

theorem callsOk_congr {calls calls' : Option (List ToolCall)} (h : Option.Rel List.Perm calls calls') :
    CallsOk calls ↔ CallsOk calls' := by
  cases h with
  | none => exact Iff.rfl
  | some hp => simp only [CallsOk, Option.getD_some, hp.mem_iff]

theorem tools_congr {tools tools' : Option (Record (Option JsNumber))}
    (h : Option.Rel (SameRecord (· = ·)) tools tools') :
    SameRecord (· = ·) (tools.getD Record.empty) (tools'.getD Record.empty) := by
  cases h with
  | none => exact .refl (fun _ => rfl) _
  | some hr => exact hr

theorem toolsOk_congr {tools tools' : Option (Record (Option JsNumber))}
    (h : Option.Rel (SameRecord (· = ·)) tools tools') : ToolsOk tools ↔ ToolsOk tools' :=
  (tools_congr h).forall_entries_eq CountOk

theorem byTool_congr (h : SameToolState tl tl') : SameRecord (Option.Rel (SameRecord (· = ·)))
    (tl.maxCallsByTool.getD Record.empty) (tl'.maxCallsByTool.getD Record.empty) := by
  have hby := h.maxCallsByTool
  generalize tl.maxCallsByTool = o at hby
  generalize tl'.maxCallsByTool = o' at hby
  cases hby with
  | none => exact fun _ => .none
  | some hr => exact hr

/-- A codec accepts both states or neither. -/
theorem serializable_congr (h : SameState s s') {id : ModuleId} (hs : Serializable s id) : Serializable s' id := by
  cases id with
  | allowlist => trivial
  | budget => trivial
  | killSwitch => trivial
  | concurrency =>
    intro agent hagent
    rw [← concurrencyAgents_congr h.concurrency] at hagent
    exact (hs agent hagent).congr h.concurrency
  | recursionDepth => exact (h.recursion.forall_entries_eq fun n => isNonNegInt n = true).mp hs
  | replay =>
    obtain ⟨hlists, hwindow, hmax⟩ := hs
    exact ⟨(h.replay.nonces.forall_entries fun _ _ => noncesOk_congr).mp hlists, h.replay.windowSeconds ▸ hwindow,
      h.replay.maxNoncesPerAgent ▸ hmax⟩
  | toolAmplification =>
    obtain ⟨hmax, hby, hcalls, hwindow⟩ := hs
    exact ⟨(h.toolLimits.maxCalls.forall_entries_eq CountOk).mp hmax,
      ((byTool_congr h.toolLimits).forall_entries fun _ _ => toolsOk_congr).mp hby,
      (h.toolLimits.calls.forall_entries fun _ _ => callsOk_congr).mp hcalls, h.toolLimits.windowSeconds ▸ hwindow⟩
  | velocity =>
    obtain ⟨hwindow, hmax, hcounters⟩ := hs
    refine ⟨h.velocity.config ▸ hwindow, h.velocity.config ▸ hmax, ?_⟩
    exact (h.velocity.counters.forall_entries_eq fun o => ∀ c, o = some c → CounterOk c).mp hcounters

theorem uniqSorted_congr {l l' : List JsString} (h : l.Perm l') : uniqSorted l = uniqSorted l' :=
  sortKeys_perm h.dedup

theorem perm_getD {α : Type} {o o' : Option (List α)} (h : Option.Rel List.Perm o o') : (o.getD []).Perm (o'.getD []) := by
  cases h with
  | none => exact .refl _
  | some hp => exact hp

/-- Apart from tool calls, states that differ in order only are written alike. -/
theorem payload_congr (h : SameState s s') {id : ModuleId} (hs : Serializable s id) (hid : id ≠ .toolAmplification) :
    payload s id = payload s' id := by
  cases id with
  | allowlist =>
    simp only [payload, normalizeAllowlists, uniqSorted_congr (perm_getD h.allowlists.assets),
      uniqSorted_congr (perm_getD h.allowlists.targets),
      uniqSorted_congr ((perm_getD h.allowlists.actionTypes).map ActionType.text)]
  | budget =>
    simp only [payload, normalizeBudget, record_eq_congr h.budget.budgetLimit,
      record_eq_congr h.budget.spentInPeriod, record_eq_congr h.maxAmountPerAction]
  | killSwitch =>
    simp only [payload, normalizeKillSwitch, h.killSwitch.globalSwitch, record_eq_congr h.killSwitch.agents]
  | concurrency =>
    have hagent : agentConcurrency s.concurrency = agentConcurrency s'.concurrency := by
      funext agent
      simp only [agentConcurrency, countOr0_congr h.concurrency.maxConcurrent, countOr0_congr h.concurrency.active,
        leasesPayload, record_eq_congr (listedLeases_congr h.concurrency agent)]
    simp only [payload, concurrencyAgents_congr h.concurrency, hagent]
  | recursionDepth => simp only [payload, record_eq_congr h.recursion]
  | replay =>
    have hnonces : buildObject (recordMembers s.replay.nonces (some ∘ noncesPayload)) =
        buildObject (recordMembers s'.replay.nonces (some ∘ noncesPayload)) := by
      refine record_congr h.replay.nonces fun x y k hx hxy => ?_
      have hok := hs.1 (k, x) (s.replay.nonces.own?_eq_some.mp hx)
      rw [Function.comp_apply, Function.comp_apply, noncesPayload_congr hok hxy]
    simp only [payload, replayPayload, h.replay.windowSeconds, h.replay.maxNoncesPerAgent, hnonces]
  | toolAmplification => exact absurd rfl hid
  | velocity => simp only [payload, velocityPayload, h.velocity.config, record_eq_congr h.velocity.counters]

theorem toolsPayload_congr {tools tools' : Option (Record (Option JsNumber))}
    (h : Option.Rel (SameRecord (· = ·)) tools tools') : toolsPayload tools = toolsPayload tools' :=
  record_eq_congr (tools_congr h) _

/-- The unnamed calls of every agent whose calls are written come in the same order. -/
def CallsAgree (tl tl' : ToolLimitsState) : Prop :=
  ∀ agent calls calls', agent ≠ protoKey → tl.calls.own? agent = some calls → tl'.calls.own? agent = some calls' →
    TiesAgree (calls.getD []) (calls'.getD [])

theorem calls_ints (hs : Serializable s .toolAmplification) {agent : JsString} {calls : Option (List ToolCall)}
    (hown : s.toolLimits.calls.own? agent = some calls) : ∀ x ∈ calls.getD [], x.ts.isInteger = true :=
  hs.2.2.1 (agent, calls) (s.toolLimits.calls.own?_eq_some.mp hown)

theorem own_calls_perm (h : SameToolState tl tl') {agent : JsString} {calls calls' : Option (List ToolCall)}
    (hown : tl.calls.own? agent = some calls) (hown' : tl'.calls.own? agent = some calls') :
    (calls.getD []).Perm (calls'.getD []) := by
  have hk := h.calls agent
  rw [hown, hown'] at hk
  cases hk with
  | some hp => exact perm_getD hp

/-- Calls whose ties agree are written alike. -/
theorem toolPayload_congr (h : SameState s s') (hs : Serializable s .toolAmplification)
    (hties : CallsAgree s.toolLimits s'.toolLimits) : payload s .toolAmplification = payload s' .toolAmplification := by
  have hby : buildObject (recordMembers (s.toolLimits.maxCallsByTool.getD Record.empty) (some ∘ toolsPayload)) =
      buildObject (recordMembers (s'.toolLimits.maxCallsByTool.getD Record.empty) (some ∘ toolsPayload)) :=
    record_congr (byTool_congr h.toolLimits) fun x y _ _ hxy => congrArg some (toolsPayload_congr hxy)
  have hcalls : buildObject (recordMembers s.toolLimits.calls (some ∘ callsPayload)) =
      buildObject (recordMembers s'.toolLimits.calls (some ∘ callsPayload)) := by
    refine buildObject_congr h.toolLimits.calls.keys_perm fun k => ?_
    by_cases hk : k = protoKey
    · rw [written, written, if_pos hk, if_pos hk]
    · rw [written_of_ne hk, written_of_ne hk]
      have hrel := h.toolLimits.calls k
      cases hown : s.toolLimits.calls.own? k with
      | none =>
        rw [hown] at hrel
        cases hown' : s'.toolLimits.calls.own? k with
        | none => rfl
        | some calls' =>
          rw [hown'] at hrel
          cases hrel
      | some calls =>
        cases hown' : s'.toolLimits.calls.own? k with
        | none =>
          rw [hown, hown'] at hrel
          cases hrel
        | some calls' =>
          have hsort := (sortCalls_eq_iff (calls_ints hs hown) (own_calls_perm h.toolLimits hown hown')).mpr
            (hties k calls calls' hk hown hown')
          simp only [Option.bind_some, Function.comp_apply, callsPayload, hsort]
  simp only [payload, toolLimitsPayload, h.toolLimits.windowSeconds, record_eq_congr h.toolLimits.maxCalls, hby, hcalls]

end

section

variable {nfc : JsString → JsString} {s s' : State}

/-- Acceptance of a record whose members turn into others that are accepted as well. -/
theorem CanonicalRecord.transfer {α : Type} {r r' : Record α} {g : α → Option JsValue} (h : CanonicalRecord nfc r g)
    (hw : ∀ k v', written r' g k = some v' → ∃ v, written r g k = some v ∧ (Canonical nfc v → Canonical nfc v') ∧
      (isTimestamp v = true → isTimestamp v' = true)) : CanonicalRecord nfc r' g where
  value k v' hv' := by
    obtain ⟨v, hv, hcan, -⟩ := hw k v' hv'
    exact hcan (h.value k v hv)
  timestamp k v' hv' hts := by
    obtain ⟨v, hv, -, hstamp⟩ := hw k v' hv'
    exact hstamp (h.timestamp k v hv hts)
  apart k k' v v' hv hv' heq := by
    obtain ⟨w, hw₁, -⟩ := hw k v hv
    obtain ⟨w', hw₂, -⟩ := hw k' v' hv'
    exact h.apart k k' w w' hw₁ hw₂ heq

theorem canonicalRecord_congr {α : Type} {r r' : Record α} {g : α → Option JsValue} (h : CanonicalRecord nfc r g)
    (hw : ∀ k, written r g k = written r' g k) : CanonicalRecord nfc r' g :=
  h.transfer fun k v' hv' => ⟨v', by rw [hw, hv'], id, id⟩

theorem canonical_callsPayload_congr (hn : NfcLaws nfc) {calls calls' : Option (List ToolCall)}
    (h : Option.Rel List.Perm calls calls') (hcan : Canonical nfc (callsPayload calls)) :
    Canonical nfc (callsPayload calls') := by
  rw [canonical_callsPayload hn] at hcan ⊢
  intro x hx
  exact hcan x ((perm_getD h).mem_iff.mpr hx)

/-- Canonical JSON accepts the tool limits of both states or of neither. -/
theorem canonical_toolLimits_congr (hn : NfcLaws nfc) (h : SameState s s')
    (hcan : Canonical nfc (payload s .toolAmplification)) : Canonical nfc (payload s' .toolAmplification) := by
  obtain ⟨hwindow, hmax, hby, hcalls⟩ := (canonical_toolLimits hn).mp hcan
  refine (canonical_toolLimits hn).mpr ⟨h.toolLimits.windowSeconds ▸ hwindow, ?_, ?_, ?_⟩
  · exact canonicalRecord_congr hmax (written_congr h.toolLimits.maxCalls fun x y _ _ hxy => by rw [hxy])
  · exact canonicalRecord_congr hby (written_congr (byTool_congr h.toolLimits) fun x y _ _ hxy =>
      congrArg some (toolsPayload_congr hxy))
  · refine hcalls.transfer fun k v' hv' => ?_
    by_cases hk : k = protoKey
    · rw [written, if_pos hk] at hv'
      cases hv'
    · rw [written_of_ne hk] at hv' ⊢
      have hrel := h.toolLimits.calls k
      obtain ⟨calls', hown', hv'⟩ := Option.bind_eq_some_iff.mp hv'
      obtain rfl := Option.some.inj hv'
      rw [hown'] at hrel
      cases hown : s.toolLimits.calls.own? k with
      | none =>
        rw [hown] at hrel
        cases hrel
      | some calls =>
        rw [hown] at hrel
        cases hrel with
        | some hp =>
          refine ⟨callsPayload calls, rfl, canonical_callsPayload_congr hn hp, fun hnone => ?_⟩
          cases hnone

/-- Objects of one normal form have as many members. -/
theorem length_of_normalForm {es es' : List (JsString × JsValue)}
    (h : normalForm nfc (.obj es) = normalForm nfc (.obj es')) : es.length = es'.length := by
  simp only [normalForm, JsValue.obj.injEq] at h
  have hlength : ∀ l : List (JsString × JsValue), (sortMembers (normalMembers nfc l)).length = l.length := by
    intro l
    rw [← List.length_map Prod.fst, keys_sortMembers, sortUtf8Lex, List.length_insertionSort, normalMembers_eq_map,
      List.length_map, List.length_map]
  rw [← hlength es, h, hlength]

/-- Calls with one stamp and one normal form are equal. -/
theorem eq_of_normalForm {a b : ToolCall} (hstamp : callStamp a = callStamp b)
    (h : normalForm nfc (toolCallPayload a) = normalForm nfc (toolCallPayload b)) : a = b := by
  by_cases hne : a.tool.getD [] = []
  · have hlength := length_of_normalForm h
    obtain ⟨ts, tool⟩ := a
    obtain ⟨ts', tool'⟩ := b
    simp only [callStamp, Prod.mk.injEq] at hstamp
    obtain ⟨rfl, hname⟩ := hstamp
    -- one of them has a member more than the other
    cases tool with
    | none =>
      cases tool' with
      | none => rfl
      | some tool' => simp [optionalField] at hlength
    | some tool =>
      cases tool' with
      | none => simp [optionalField] at hlength
      | some tool' =>
        simp only [Option.getD_some] at hname
        rw [hname]
  · exact eq_of_callStamp hstamp hne

theorem eq_of_maps_eq {α β γ : Type} {f : α → β} {g : α → γ} {l l' : List α} (hf : l.map f = l'.map f)
    (hg : l.map g = l'.map g) (hinj : ∀ a b, f a = f b → g a = g b → a = b) : l = l' := by
  induction l generalizing l' with
  | nil => exact (List.map_eq_nil_iff.mp hf.symm).symm
  | cons a l ih =>
    cases l' with
    | nil => simp at hf
    | cons b l' =>
      simp only [List.map_cons, List.cons.injEq] at hf hg
      rw [hinj a b hf.1 hg.1, ih hf.2 hg.2]

/-- The stamps of sorted calls do not depend on how the calls were arranged. -/
theorem stamps_sortCalls {calls calls' : List ToolCall} (hints : ∀ x ∈ calls, x.ts.isInteger = true)
    (h : calls.Perm calls') : (sortCalls calls).map callStamp = (sortCalls calls').map callStamp := by
  have hsorted : ∀ l : List ToolCall, (sortCalls l).map callStamp =
      (l.map callStamp).insertionSort (fun p q => stampLe p q = true) :=
    fun l => List.map_insertionSort _ _ _ _ fun _ _ _ _ => Iff.rfl
  have hstamps : ∀ p ∈ calls.map callStamp, p.1.isInteger = true := by
    intro p hp
    obtain ⟨x, hx, rfl⟩ := List.mem_map.mp hp
    exact hints x hx
  rw [hsorted, hsorted]
  exact insertionSort_eq_of_perm (ordersOn_stamps id hstamps) (h.map _) fun p hp q hq =>
    stamps_antisymm (hstamps p hp) (hstamps q hq)

/-- Calls of one normal form have the ties in one order. -/
theorem tiesAgree_of_normalForm {calls calls' : Option (List ToolCall)}
    (hints : ∀ x ∈ calls.getD [], x.ts.isInteger = true) (hp : (calls.getD []).Perm (calls'.getD []))
    (h : normalForm nfc (callsPayload calls) = normalForm nfc (callsPayload calls')) :
    TiesAgree (calls.getD []) (calls'.getD []) := by
  simp only [callsPayload, normalForm, JsValue.arr.injEq, normalElements_eq_map, List.map_map] at h
  exact (sortCalls_eq_iff hints hp).mp (eq_of_maps_eq (stamps_sortCalls hints hp) h fun a b => eq_of_normalForm)

theorem member_of_buildObject {α : Type} {r : Record α} {g : α → Option JsValue} {k : JsString} {v : JsValue}
    (h : written r g k = some v) : (k, v) ∈ (recordMembers r g).filter (fun e => e.1 ≠ protoKey) :=
  mem_writtenMembers.mpr h

theorem canonicalMembers_of_record {α : Type} {r : Record α} {g : α → Option JsValue} (h : CanonicalRecord nfc r g) :
    CanonicalMembers nfc ((recordMembers r g).filter (fun e => e.1 ≠ protoKey)) := by
  have hcan := canonical_record.mpr h
  rw [buildObject] at hcan
  cases hcan with
  | obj hm _ => exact hm

/-- Accepted tool limits of one normal form have the calls of every agent in one form. -/
theorem callsPayload_of_normalForm (hn : NfcLaws nfc) (hcan : Canonical nfc (payload s .toolAmplification))
    (hcan' : Canonical nfc (payload s' .toolAmplification))
    (heq : normalForm nfc (payload s .toolAmplification) = normalForm nfc (payload s' .toolAmplification))
    {agent : JsString} {calls calls' : Option (List ToolCall)} (hne : agent ≠ protoKey)
    (hown : s.toolLimits.calls.own? agent = some calls) (hown' : s'.toolLimits.calls.own? agent = some calls') :
    normalForm nfc (callsPayload calls) = normalForm nfc (callsPayload calls') := by
  obtain ⟨-, -, -, hrecord⟩ := (canonical_toolLimits hn).mp hcan
  obtain ⟨-, -, -, hrecord'⟩ := (canonical_toolLimits hn).mp hcan'
  have hmembers : ∀ state : State, Canonical nfc (payload state .toolAmplification) →
      ∃ es, payload state .toolAmplification = .obj es ∧ CanonicalMembers nfc es ∧
        (js "calls", buildObject (recordMembers state.toolLimits.calls (some ∘ callsPayload))) ∈ es := by
    intro state hstate
    rw [payload, toolLimitsPayload] at hstate ⊢
    cases hstate with
    | obj hm _ => exact ⟨_, rfl, hm, by simp⟩
  obtain ⟨es, hes, hm, hin⟩ := hmembers s hcan
  obtain ⟨es', hes', hm', hin'⟩ := hmembers s' hcan'
  rw [hes, hes'] at heq
  have hcalls := normalForm_member hm hm' heq hin hin' rfl
  have hwritten : written s.toolLimits.calls (some ∘ callsPayload) agent = some (callsPayload calls) := by
    rw [written_of_ne hne, hown]
    rfl
  have hwritten' : written s'.toolLimits.calls (some ∘ callsPayload) agent = some (callsPayload calls') := by
    rw [written_of_ne hne, hown']
    rfl
  exact normalForm_member (canonicalMembers_of_record hrecord) (canonicalMembers_of_record hrecord') hcalls
    (member_of_buildObject hwritten) (member_of_buildObject hwritten') rfl

/-- Accepted tool limits of one normal form have the ties of every agent in one order. -/
theorem callsAgree_of_normalForm (hn : NfcLaws nfc) (h : SameState s s') (hs : Serializable s .toolAmplification)
    (hcan : Canonical nfc (payload s .toolAmplification))
    (heq : normalForm nfc (payload s .toolAmplification) = normalForm nfc (payload s' .toolAmplification)) :
    CallsAgree s.toolLimits s'.toolLimits := by
  have hcan' := canonical_toolLimits_congr hn h hcan
  intro agent calls calls' hne hown hown'
  have hpayload := callsPayload_of_normalForm hn hcan hcan' heq hne hown hown'
  exact tiesAgree_of_normalForm (calls_ints hs hown) (own_calls_perm h.toolLimits hown hown') hpayload

end

end OxDeAI
