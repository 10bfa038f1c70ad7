import OxDeAI.Snapshot.RereadModules

/-! When the codecs read their own payloads again: tool calls, and the leases of an agent, whose
three tables list one set of agents. -/

namespace OxDeAI

open Js

section

variable {nfc : JsString → JsString} {state s : State}

theorem ordersOn_calls {calls : List ToolCall} (h : ∀ x ∈ calls, x.ts.isInteger = true) :
    StableSort.OrdersOn (fun a b : ToolCall => toolCallLe a b = true) calls := ordersOn_stamps callStamp h

/-- The members of a call in the order of the bytes. -/
def toolCallForm (call : ToolCall) : JsValue :=
  .obj (optionalField (js "tool") (call.tool.map .str) ++ [(js "ts", JsValue.num call.ts)])

theorem normalForm_call (hn : NfcLaws nfc) (x : ToolCall) :
    normalForm nfc (toolCallPayload x) = toolCallForm (normalCall nfc x) := by
  obtain ⟨ts, tool⟩ := x
  cases tool with
  | none =>
    have hpayload : toolCallPayload ⟨ts, none⟩ = .obj [(js "ts", .num ts)] := rfl
    rw [hpayload, normalForm_plain hn _ (.refl _)]
    · rfl
    · simp only [List.map_cons, List.map_nil]
      decide
    · simp only [List.map_cons, List.map_nil]
      decide
    · simp only [List.forall_mem_cons]
      decide
  | some tool =>
    have hswap : [(js "ts", JsValue.num ts), (js "tool", JsValue.str tool)].Perm
        [(js "tool", .str tool), (js "ts", .num ts)] := List.Perm.swap _ _ []
    have hpayload : toolCallPayload ⟨ts, some tool⟩ = .obj [(js "ts", .num ts), (js "tool", .str tool)] := rfl
    rw [hpayload, normalForm_plain hn _ hswap]
    · rfl
    · simp only [List.map_cons, List.map_nil]
      decide
    · simp only [List.map_cons, List.map_nil]
      decide
    · simp only [List.forall_mem_cons]
      decide

theorem toolCallForm_injective : Function.Injective toolCallForm := by
  intro a b h
  obtain ⟨ts, tool⟩ := a
  obtain ⟨ts', tool'⟩ := b
  cases tool <;> cases tool' <;> simp_all [toolCallForm, optionalField]

theorem normalForm_calls (hn : NfcLaws nfc) (calls : Option (List ToolCall)) : normalForm nfc (callsPayload calls) =
    .arr (((sortCalls (calls.getD [])).map (normalCall nfc)).map toolCallForm) := by
  rw [callsPayload, normalForm, normalElements_eq_map, List.map_map, List.map_map]
  congr 1
  apply List.map_congr_left
  intro x _
  exact normalForm_call hn x

theorem decodeToolCall_form {path : JsString} {x : ToolCall} (h : x.ts.isInteger = true) :
    decodeToolCall path (toolCallForm x) = .ok x := by
  obtain ⟨ts, tool⟩ := x
  cases tool with
  | none =>
    refine bind_eq_ok.mpr ⟨_, rfl, bind_eq_ok.mpr ⟨none, rfl, bind_eq_ok.mpr ⟨ts, ?_, rfl⟩⟩⟩
    exact assertInt_num.mpr ⟨h, rfl⟩
  | some tool =>
    refine bind_eq_ok.mpr ⟨_, rfl, bind_eq_ok.mpr ⟨some tool, rfl, bind_eq_ok.mpr ⟨ts, ?_, rfl⟩⟩⟩
    exact assertInt_num.mpr ⟨h, rfl⟩

theorem decodeCalls_form {agent : JsString} {l : List ToolCall} (h : ∀ x ∈ l, x.ts.isInteger = true) :
    decodeCalls agent (.arr (l.map toolCallForm)) = .ok (sortCalls l) := by
  have hread := mapM_indexed (f := fun i => decodeToolCall (indexed (js "tool_limits.calls." ++ agent) i))
    (fun x hx i => decodeToolCall_form (h x hx)) 0
  exact map_eq_ok.mpr ⟨l, hread, rfl⟩

/-- Calls are read as they were written when normalization leaves them in order. -/
theorem reread_calls_iff (hn : NfcLaws nfc) (agent : JsString) {calls : Option (List ToolCall)} (h : CallsOk calls) :
    ∃ y, decodeCalls agent (normalForm nfc (callsPayload calls)) = .ok y ∧ CallsOk (some y) ∧
      (normalForm nfc (callsPayload (some y)) = normalForm nfc (callsPayload calls) ↔
        ((sortCalls (calls.getD [])).map (normalCall nfc)).Pairwise (fun a b => toolCallLe a b)) := by
  have hints : ∀ x ∈ (sortCalls (calls.getD [])).map (normalCall nfc), x.ts.isInteger = true := by
    intro x hx
    obtain ⟨y, hy, rfl⟩ := List.mem_map.mp hx
    rw [sortCalls, List.mem_insertionSort] at hy
    exact h y hy
  have hfixed : ∀ x ∈ (sortCalls (calls.getD [])).map (normalCall nfc), normalCall nfc x = x := by
    intro x hx
    obtain ⟨y, -, rfl⟩ := List.mem_map.mp hx
    rw [normalCall, normalCall, Option.map_map]
    congr 2
    exact funext hn.idem
  rw [normalForm_calls hn]
  generalize (sortCalls (calls.getD [])).map (normalCall nfc) = l at hints hfixed
  have hsame : normalForm nfc (callsPayload (some (sortCalls l))) = .arr ((sortCalls l).map toolCallForm) := by
    have htwice : sortCalls (sortCalls l) = sortCalls l :=
      List.Pairwise.insertionSort_eq (StableSort.pairwise_insertionSort (ordersOn_calls hints))
    have hmap : (sortCalls l).map (normalCall nfc) = sortCalls l := by
      conv_rhs => rw [← List.map_id (sortCalls l)]
      apply List.map_congr_left
      intro x hx
      rw [sortCalls, List.mem_insertionSort] at hx
      exact hfixed x hx
    rw [normalForm_calls hn, Option.getD_some, htwice, hmap]
  have hsorted : sortCalls l = l ↔ l.Pairwise (fun a b => toolCallLe a b) :=
    insertionSort_eq_self_iff (ordersOn_calls hints)
  refine ⟨sortCalls l, decodeCalls_form hints, fun x hx => ?_, ?_⟩
  · rw [Option.getD_some, sortCalls, List.mem_insertionSort] at hx
    exact hints x hx
  · rw [hsame, JsValue.arr.injEq, ← hsorted]
    exact ⟨fun heq => List.map_injective_iff.mpr toolCallForm_injective heq, fun heq => congrArg _ heq⟩

theorem normalForm_toolLimits (hn : NfcLaws nfc) (state : State) : normalForm nfc (payload state .toolAmplification) =
    .obj [(js "calls", .obj (recordForm nfc state.toolLimits.calls (some ∘ callsPayload))),
      (js "max_calls", .obj (recordForm nfc state.toolLimits.maxCalls (Option.map .num))),
      (js "max_calls_by_tool",
        .obj (recordForm nfc (state.toolLimits.maxCallsByTool.getD Record.empty) (some ∘ toolsPayload))),
      (js "window_seconds", .num state.toolLimits.windowSeconds)] := by
  have hperm : ∀ a b c d : JsValue,
      [(js "window_seconds", a), (js "max_calls", b), (js "max_calls_by_tool", c), (js "calls", d)].Perm
      [(js "calls", d), (js "max_calls", b), (js "max_calls_by_tool", c), (js "window_seconds", a)] := by
    intro a b c d
    have hlast : ([(js "window_seconds", a), (js "max_calls", b), (js "max_calls_by_tool", c)] ++ [(js "calls", d)]).Perm
        ([(js "calls", d)] ++ [(js "window_seconds", a), (js "max_calls", b), (js "max_calls_by_tool", c)]) :=
      List.perm_append_comm
    have hfirst : ([(js "window_seconds", a)] ++ [(js "max_calls", b), (js "max_calls_by_tool", c)]).Perm
        ([(js "max_calls", b), (js "max_calls_by_tool", c)] ++ [(js "window_seconds", a)]) := List.perm_append_comm
    exact hlast.trans (hfirst.cons _)
  rw [payload, toolLimitsPayload, normalForm_plain hn _ (hperm _ _ _ _)]
  · rfl
  · simp only [List.map_cons, List.map_nil]
    decide
  · simp only [List.map_cons, List.map_nil]
    decide
  · simp only [List.forall_mem_cons]
    decide

theorem deserializeToolLimits_eq {A B C : List (JsString × JsValue)} {window : JsNumber} :
    deserializeState (.obj [(js "calls", .obj A), (js "max_calls", .obj B), (js "max_calls_by_tool", .obj C),
      (js "window_seconds", .num window)]) .toolAmplification = (do
        let maxCalls ← decodeCounts (.obj B) (js "tool_limits.max_calls")
        let maxCallsByTool ← decodeMembers (.obj C) decodeTools
        let calls ← decodeMembers (.obj A) decodeCalls
        let windowSeconds ← assertPosInt (.num window) (js "tool_limits.window_seconds")
        return ⟨windowSeconds, .ofPrimitives (someValues maxCalls), some (.ofObjects (someValues maxCallsByTool)),
          .ofObjects (someValues calls)⟩) := rfl

theorem calls_of_read {A B C : List (JsString × JsValue)} {window : JsNumber} (hA : NormalMembers nfc A)
    (h : deserializeState (.obj [(js "calls", .obj A), (js "max_calls", .obj B), (js "max_calls_by_tool", .obj C),
      (js "window_seconds", .num window)]) .toolAmplification = .ok (s.part .toolAmplification)) :
    decodeMembers (.obj A) (fun k v => (decodeCalls k v).map some) = .ok s.toolLimits.calls.entries := by
  rw [deserializeToolLimits_eq] at h
  obtain ⟨_, -, h⟩ := bind_eq_ok.mp h
  obtain ⟨_, -, h⟩ := bind_eq_ok.mp h
  obtain ⟨calls, hcalls, h⟩ := bind_eq_ok.mp h
  obtain ⟨_, -, h⟩ := bind_eq_ok.mp h
  have hfilled : Filled.ofObjects (someValues calls) = .ofRecord s.toolLimits.calls :=
    congrArg ToolLimitsPart.calls (Except.ok.inj h)
  rw [← assignedObjects_iff hA, decodeMembers_map]
  exact ⟨_, map_eq_ok.mpr ⟨calls, hcalls, rfl⟩, hfilled⟩

/-- A tool table is read as it was written. -/
theorem reread_tools (h : Exports nfc state) (agent : JsString) {tools : Option (Record (Option JsNumber))}
    (hok : ToolsOk tools) (hc : Canonical nfc (toolsPayload tools)) (hd : DistinctEncodings nfc (toolsPayload tools)) :
    ∃ r : Record (Option JsNumber), decodeTools agent (normalForm nfc (toolsPayload tools)) = .ok (.ofRecord r) ∧
      ToolsOk (some r) ∧ normalForm nfc (toolsPayload (some r)) = normalForm nfc (toolsPayload tools) := by
  have hcanonical := canonical_record.mp hc
  have hM := h.members hcanonical hd
  obtain ⟨r, hr, hcounts, hform⟩ := exists_reread (Q := CountOk) (g := Option.map JsValue.num) hM hcanonical
    (d := fun key v =>
      (assertNonNegInt v (js "tool_limits.max_calls_by_tool." ++ agent ++ js "." ++ key)).map some)
    (fun k n v hn hv _ => by
      obtain ⟨m, rfl, rfl⟩ := Option.map_eq_some_iff.mp hv
      have hm := hok (k, some m) ((Record.own?_eq_some _).mp hn)
      exact ⟨some m, map_eq_ok.mpr ⟨m, rereads_count (hm m rfl), rfl⟩, rfl, hm⟩)
  refine ⟨r, ?_, hcounts, hform⟩
  obtain ⟨es, hes, hfilled⟩ := (assigned_iff hM).mpr hr
  rw [decodeMembers_map, map_eq_ok] at hes
  obtain ⟨es', hes', rfl⟩ := hes
  refine bind_eq_ok.mpr ⟨_, rfl, bind_eq_ok.mpr ⟨es', hes', ?_⟩⟩
  rw [← hfilled]
  rfl

theorem distinct_record {α : Type} {r : Record α} {g : α → Option JsValue}
    (h : DistinctEncodings nfc (buildObject (recordMembers r g))) {k : JsString} {v : JsValue}
    (hw : written r g k = some v) : DistinctEncodings nfc v :=
  distinct_members h (k, v) (mem_writtenMembers.mpr hw)

theorem recordMembers_mapValues {α β : Type} (r : Record α) (f : α → β) (g : β → Option JsValue) :
    recordMembers (r.mapValues f) g = recordMembers r (g ∘ f) := by
  have hsort : sortEntries (r.mapValues f).entries = (sortEntries r.entries).map (fun e => (e.1, f e.2)) :=
    (List.map_insertionSort _ _ (fun e : JsString × α => (e.1, f e.2)) r.entries fun _ _ _ _ => Iff.rfl).symm
  rw [recordMembers, hsort, List.filterMap_map]
  rfl

theorem rereads_toolLimits (h : Exports nfc state) :
    (∃ s, Rereads nfc (normalForm nfc (payload state .toolAmplification)) .toolAmplification s) ↔
      ReadsBack nfc state .toolAmplification := by
  obtain ⟨-, cmax, cbyTool, ccalls⟩ := (canonical_toolLimits h.laws).mp (h.canonical .toolAmplification)
  obtain ⟨hmax, hbyTool, hcalls, hwindow⟩ := h.accepted .toolAmplification
  have hdistinct := distinct_members (h.distinct .toolAmplification)
  simp only [List.forall_mem_cons] at hdistinct
  obtain ⟨-, dmax, dbyTool, dcalls, -⟩ := hdistinct
  have hA := h.members ccalls dcalls
  have hB := h.members cmax dmax
  have hC := h.members cbyTool dbyTool
  have hlists : (∃ r : Record (Option (List ToolCall)),
      decodeMembers (.obj (recordForm nfc state.toolLimits.calls (some ∘ callsPayload)))
        (fun k v => (decodeCalls k v).map some) = .ok r.entries ∧
      normalForm nfc (buildObject (recordMembers r (some ∘ callsPayload))) =
        .obj (recordForm nfc state.toolLimits.calls (some ∘ callsPayload))) ↔ ReadsBack nfc state .toolAmplification := by
    rw [rereads_record hA ccalls]
    constructor
    · intro hall k calls hk hown
      have hok := hcalls (k, calls) ((Record.own?_eq_some _).mp hown)
      obtain ⟨x, hx, hform⟩ := hall k _ (written_some.mpr ⟨hk, calls, hown, rfl⟩)
      obtain ⟨y, hy, rfl⟩ := map_eq_ok.mp hx
      obtain ⟨y', hy', -, hiff⟩ := reread_calls_iff h.laws _ hok
      obtain rfl := Except.ok.inj (hy.symm.trans hy')
      exact hiff.mp (Option.some.inj hform)
    · intro hback k v hw
      obtain ⟨hk, calls, hown, hv⟩ := written_some.mp hw
      obtain rfl := Option.some.inj hv
      have hok := hcalls (k, calls) ((Record.own?_eq_some _).mp hown)
      obtain ⟨y, hy, -, hiff⟩ := reread_calls_iff h.laws (nfc k) hok
      exact ⟨some y, map_eq_ok.mpr ⟨y, hy, rfl⟩, congrArg some (hiff.mpr (hback k calls hk hown))⟩
  rw [← hlists, normalForm_toolLimits h.laws]
  constructor
  · rintro ⟨s, hs⟩
    have hform := hs.form
    rw [normalForm_toolLimits h.laws] at hform
    simp only [JsValue.obj.injEq, List.cons.injEq, Prod.mk.injEq, true_and, and_true] at hform
    exact ⟨_, calls_of_read hA hs.read, congrArg JsValue.obj hform.1⟩
  · rintro ⟨rcalls, hrcalls, fcalls⟩
    have hokCalls := forall_reread (Q := CallsOk) hA ccalls hrcalls fun k v y hw hy => by
      obtain ⟨-, calls, hown, hv⟩ := written_some.mp hw
      obtain rfl := Option.some.inj hv
      obtain ⟨z, hz, rfl⟩ := map_eq_ok.mp hy
      obtain ⟨z', hz', hok, -⟩ := reread_calls_iff h.laws (nfc k) (hcalls (k, calls) ((Record.own?_eq_some _).mp hown))
      rwa [Except.ok.inj (hz.symm.trans hz')]
    obtain ⟨rmax, hrmax, hokMax, fmax⟩ := exists_reread (Q := CountOk) (g := Option.map JsValue.num) hB cmax
      (d := fun key v => (assertNonNegInt v (js "tool_limits.max_calls" ++ js "." ++ key)).map some)
      (fun k n v hn hv _ => by
        obtain ⟨m, rfl, rfl⟩ := Option.map_eq_some_iff.mp hv
        have hm := hmax (k, some m) ((Record.own?_eq_some _).mp hn)
        exact ⟨some m, map_eq_ok.mpr ⟨m, rereads_count (hm m rfl), rfl⟩, rfl, hm⟩)
    obtain ⟨rtool, hrtool, hokTool, ftool⟩ := exists_reread (d := decodeTools)
      (Q := fun y => Filled.ofRecord y.own = y ∧ ToolsOk (some y.own)) (g := fun y => some (toolsPayload (some y.own)))
      hC cbyTool (fun k tools v hown hv hw => by
        have hdistinct := distinct_record dbyTool hw
        have hcanonical := cbyTool.value k v hw
        obtain rfl := Option.some.inj hv
        obtain ⟨r, hr, hok, hform⟩ :=
          reread_tools h (nfc k) (hbyTool (k, tools) ((Record.own?_eq_some _).mp hown)) hcanonical hdistinct
        exact ⟨.ofRecord r, hr, congrArg some hform, rfl, hok⟩)
    refine ⟨{ state with toolLimits := { state.toolLimits with
      maxCalls := rmax, maxCallsByTool := some (rtool.mapValues fun y => some y.own), calls := rcalls } }, ?_, ?_, ?_⟩
    · have hrsome : decodeMembers (.obj (recordForm nfc (state.toolLimits.maxCallsByTool.getD Record.empty)
          (some ∘ toolsPayload))) (fun k v => (decodeTools k v).map some) = .ok (rtool.mapValues some).entries := by
        rw [decodeMembers_map, hrtool]
        rfl
      obtain ⟨_, hmaxes, filledMax⟩ := (assigned_iff hB).mpr hrmax
      obtain ⟨_, htools, filledTools⟩ := (assignedObjects_iff hC).mpr hrsome
      obtain ⟨_, hlists, filledCalls⟩ := (assignedObjects_iff hA).mpr hrcalls
      rw [decodeMembers_map, map_eq_ok] at hmaxes htools hlists
      obtain ⟨maxes, hmaxes, rfl⟩ := hmaxes
      obtain ⟨tools, htools, rfl⟩ := htools
      obtain ⟨lists, hlists, rfl⟩ := hlists
      have hsame : (rtool.mapValues fun y => some y.own).mapValues (Option.map Filled.ofRecord) = rtool.mapValues some := by
        apply record_ext
        simp only [Record.mapValues, List.map_map]
        apply List.map_congr_left
        intro e he
        simp only [Function.comp_apply, Option.map_some, (hokTool e he).1]
      rw [deserializeToolLimits_eq]
      refine bind_eq_ok.mpr ⟨maxes, hmaxes, bind_eq_ok.mpr ⟨tools, htools, bind_eq_ok.mpr ⟨lists, hlists, ?_⟩⟩⟩
      refine bind_eq_ok.mpr ⟨state.toolLimits.windowSeconds, assertPosInt_num.mpr ⟨hwindow, rfl⟩, ?_⟩
      simp only [State.part, Option.map_some, hsame]
      rw [← filledMax, ← filledTools, ← filledCalls]
      rfl
    · refine ⟨hokMax, ?_, hokCalls, hwindow⟩
      intro e he
      obtain ⟨y, hy, rfl⟩ := List.mem_map.mp he
      exact (hokTool y hy).2
    · rw [normalForm_toolLimits h.laws, ← normalForm_recordForm, ← normalForm_recordForm, ← normalForm_recordForm, fcalls, fmax]
      simp only [Option.getD_some, recordMembers_mapValues]
      rw [← ftool]
      rfl

/-- One value for each agent. -/
def table {α : Type} (agents : List JsString) (hnd : agents.Nodup) (f : JsString → α) : Record α where
  entries := agents.map (fun a => (a, f a))
  nodup := by
    rw [List.map_map]
    exact (List.map_id agents).symm ▸ hnd

theorem own?_table {α : Type} {agents : List JsString} {hnd : agents.Nodup} {f : JsString → α} {a : JsString} {x : α} :
    (table agents hnd f).own? a = some x ↔ a ∈ agents ∧ f a = x := by
  rw [Record.own?_eq_some, table, List.mem_map]
  constructor
  · rintro ⟨b, hb, hpair⟩
    obtain ⟨rfl, rfl⟩ := Prod.mk.inj hpair
    exact ⟨hb, rfl⟩
  · rintro ⟨ha, rfl⟩
    exact ⟨a, ha, rfl⟩

theorem recordMembers_table {α : Type} {agents : List JsString} {hnd : agents.Nodup} (hsorted : agents.Pairwise (· ≤ ·))
    (f : JsString → α) (g : α → JsValue) :
    recordMembers (table agents hnd f) (some ∘ g) = agents.map (fun a => (a, g (f a))) := by
  have hsort : sortEntries (table agents hnd f).entries = agents.map (fun a => (a, f a)) :=
    List.Pairwise.insertionSort_eq (List.pairwise_map.mpr hsorted)
  rw [recordMembers, hsort, List.filterMap_map]
  exact congrFun List.filterMap_eq_map agents

theorem nodup_concurrencyAgents (c : ConcurrencyState) : (concurrencyAgents c).Nodup := by
  rw [concurrencyAgents, sortKeys, (List.perm_insertionSort _ _).nodup_iff]
  exact List.nodup_dedup _

def maxTable (c : ConcurrencyState) : Record JsNumber :=
  table (concurrencyAgents c) (nodup_concurrencyAgents c) (countOr0 c.maxConcurrent)

def activeTable (c : ConcurrencyState) : Record JsNumber :=
  table (concurrencyAgents c) (nodup_concurrencyAgents c) (countOr0 c.active)

def authsTable (c : ConcurrencyState) : Record (Record Lease) :=
  table (concurrencyAgents c) (nodup_concurrencyAgents c) (listedLeases c)

/-- Every agent is written in all three objects. -/
theorem payload_concurrency (state : State) : payload state .concurrency =
    .obj [(js "max_concurrent", buildObject (recordMembers (maxTable state.concurrency) (some ∘ .num))),
      (js "active", buildObject (recordMembers (activeTable state.concurrency) (some ∘ .num))),
      (js "active_auths", buildObject (recordMembers (authsTable state.concurrency) (some ∘ leasesPayload)))] := by
  have hsorted : (concurrencyAgents state.concurrency).Pairwise (· ≤ ·) := pairwise_sortKeys _
  rw [maxTable, activeTable, authsTable, recordMembers_table hsorted, recordMembers_table hsorted,
    recordMembers_table hsorted, payload, concurrencyPayload]
  simp only [List.map_map]
  rfl

theorem normalForm_concurrency (hn : NfcLaws nfc) (state : State) : normalForm nfc (payload state .concurrency) =
    .obj [(js "active", .obj (recordForm nfc (activeTable state.concurrency) (some ∘ .num))),
      (js "active_auths", .obj (recordForm nfc (authsTable state.concurrency) (some ∘ leasesPayload))),
      (js "max_concurrent", .obj (recordForm nfc (maxTable state.concurrency) (some ∘ .num)))] := by
  have hrotate : ∀ a b c : JsValue, [(js "max_concurrent", a), (js "active", b), (js "active_auths", c)].Perm
      [(js "active", b), (js "active_auths", c), (js "max_concurrent", a)] :=
    fun a b c => (List.Perm.swap _ _ _).trans ((List.Perm.swap _ _ []).cons _)
  rw [payload_concurrency, normalForm_plain hn _ (hrotate _ _ _)]
  · rfl
  · simp only [List.map_cons, List.map_nil]
    decide
  · simp only [List.map_cons, List.map_nil]
    decide
  · simp only [List.forall_mem_cons]
    decide

theorem written_table {α : Type} {agents : List JsString} {hnd : agents.Nodup} {f : JsString → α} {g : α → JsValue}
    {a : JsString} {v : JsValue} : written (table agents hnd f) (some ∘ g) a = some v ↔
      (a ≠ protoKey ∧ a ∈ agents) ∧ g (f a) = v := by
  rw [written_some]
  simp only [own?_table, Function.comp_apply, Option.some.injEq]
  constructor
  · rintro ⟨hne, _, ⟨ha, rfl⟩, hv⟩
    exact ⟨⟨hne, ha⟩, hv⟩
  · rintro ⟨⟨hne, ha⟩, hv⟩
    exact ⟨hne, _, ⟨ha, rfl⟩, hv⟩

theorem keys_recordForm_table {α : Type} (nfc : JsString → JsString) {agents : List JsString} (hnd : agents.Nodup)
    (hsorted : agents.Pairwise (· ≤ ·)) (f : JsString → α) (g : α → JsValue) : (recordForm nfc (table agents hnd f) (some ∘ g)).map Prod.fst =
      sortUtf8Lex ((agents.filter (· ≠ protoKey)).map nfc) := by
  rw [recordForm, keys_sortMembers, normalMembers_keys, recordMembers_table hsorted, List.filter_map, List.map_map]
  rfl

theorem entries_eq_map {α : Type} (r : Record α) (d : α) : r.entries = r.keys.map (fun a => (a, (r.own? a).getD d)) := by
  rw [Record.keys, List.map_map]
  conv_lhs => rw [← List.map_id r.entries]
  apply List.map_congr_left
  intro e he
  have hown : r.own? e.1 = some e.2 := (Record.own?_eq_some r).mpr he
  simp only [Function.comp_apply, hown, Option.getD_some, id_eq]

def decodeLeases (agent : JsString) (value : JsValue) : Except JsError (Filled Lease) := do
  let path := js "concurrency.active_auths." ++ agent
  let agentAuthsRaw ← asObjectOrEmpty value path
  let agentAuths ← decodeMembers agentAuthsRaw (decodeLease path)
  return .ofObjects agentAuths

theorem normalForm_lease (hn : NfcLaws nfc) (lease : Lease) : normalForm nfc (leasePayload lease) = leasePayload lease := by
  rw [leasePayload, normalForm_plain hn _ (.refl _)]
  · rfl
  · simp only [List.map_cons, List.map_nil]
    decide
  · simp only [List.map_cons, List.map_nil]
    decide
  · simp only [List.forall_mem_cons]
    decide

/-- The leases of an agent are read as they were written. -/
theorem reread_leases (h : Exports nfc state) (agent : JsString) {auths : Record Lease} (hok : LeasesOk auths)
    (hc : Canonical nfc (leasesPayload auths)) (hd : DistinctEncodings nfc (leasesPayload auths)) :
    ∃ r : Record Lease, decodeLeases agent (normalForm nfc (leasesPayload auths)) = .ok (.ofRecord r) ∧
      LeasesOk r ∧ normalForm nfc (leasesPayload r) = normalForm nfc (leasesPayload auths) := by
  have hcanonical := canonical_record.mp hc
  have hM := h.members hcanonical hd
  obtain ⟨r, hr, hints, hform⟩ := exists_reread (Q := fun lease : Lease => lease.expiresAt.isInteger = true)
    (g := some ∘ leasePayload) hM hcanonical (d := decodeLease (js "concurrency.active_auths." ++ agent))
    (fun k lease v hlease hv _ => by
      obtain rfl := Option.some.inj hv
      have hint := hok (k, lease) ((Record.own?_eq_some _).mp hlease)
      refine ⟨lease, ?_, rfl, hint⟩
      rw [normalForm_lease h.laws]
      exact bind_eq_ok.mpr ⟨_, rfl, bind_eq_ok.mpr ⟨_, assertInt_num.mpr ⟨hint, rfl⟩, rfl⟩⟩)
  refine ⟨r, ?_, hints, hform⟩
  obtain ⟨es, hes, hfilled⟩ := (assignedObjects_iff hM).mpr hr
  refine bind_eq_ok.mpr ⟨_, rfl, bind_eq_ok.mpr ⟨es, hes, ?_⟩⟩
  rw [hfilled]
  rfl

theorem decodeAgentConcurrency_ok {B A C : List (JsString × JsValue)} {agent : JsString} {max act : JsNumber}
    {leases : JsValue} {auths : Filled Lease} (hmax : ownEntry agent B = some (.num max))
    (hact : ownEntry agent A = some (.num act)) (hauths : ownEntry agent C = some leases)
    (hmaxOk : isNonNegInt max = true) (hactOk : isNonNegInt act = true) (hle : max.lt act = false)
    (hleases : decodeLeases agent leases = .ok auths) :
    decodeAgentConcurrency (.obj B) (.obj A) (.obj C) agent = .ok ⟨max, act, auths⟩ := by
  have hreadMax : readMember (.obj B) agent = .num max := by
    rw [readMember, JsValue.entries, hmax]
  have hreadAct : readMember (.obj A) agent = .num act := by
    rw [readMember, JsValue.entries, hact]
  have hreadAuths : readMember (.obj C) agent = leases := by
    rw [readMember, JsValue.entries, hauths]
  rw [decodeAgentConcurrency, hreadMax, hreadAct, hreadAuths]
  refine bind_eq_ok.mpr ⟨max, assertNonNegInt_num.mpr ⟨hmaxOk, rfl⟩, ?_⟩
  refine bind_eq_ok.mpr ⟨act, assertNonNegInt_num.mpr ⟨hactOk, rfl⟩, ?_⟩
  rw [if_neg (by rw [hle]; exact Bool.false_ne_true)]
  obtain ⟨raw, hraw, hrest⟩ := bind_eq_ok.mp hleases
  obtain ⟨es, hes, hfilled⟩ := bind_eq_ok.mp hrest
  obtain rfl := Except.ok.inj hfilled
  exact bind_eq_ok.mpr ⟨raw, hraw, bind_eq_ok.mpr ⟨es, hes, rfl⟩⟩

theorem ownEntry_recordForm {α : Type} {r : Record α} {g : α → Option JsValue} (hc : CanonicalRecord nfc r g)
    (hM : NormalMembers nfc (recordForm nfc r g)) {k : JsString} {v : JsValue} (hw : written r g k = some v) :
    ownEntry (nfc k) (recordForm nfc r g) = some (normalForm nfc v) :=
  ownEntry_of_mem hM.nodup ((mem_recordForm hc).mpr ⟨k, v, hw, rfl⟩)

/-- The agents of three objects that list the same ones. -/
theorem sortKeys_thrice {K : List JsString} (h : K.Nodup) : sortKeys (K ++ K ++ K).dedup = sortKeys K := by
  apply sortKeys_perm
  apply (List.perm_ext_iff_of_nodup (List.nodup_dedup _) h).mpr
  intro a
  simp only [List.mem_dedup, List.mem_append, or_self]

theorem sortKeys_idem (keys : List JsString) : sortKeys (sortKeys keys) = sortKeys keys :=
  List.Pairwise.insertionSort_eq (pairwise_sortKeys keys)

theorem listedLeases_eq (c : ConcurrencyState) (agent : JsString) :
    listedLeases c agent = (c.activeAuths.own? agent).getD Record.empty := by
  rw [listedLeases, ← Record.value?_get]
  cases c.activeAuths.get agent <;> rfl

theorem mapM_eq_map {α β : Type} {f : α → Except JsError β} {g : α → β} {l : List α} (h : ∀ x ∈ l, f x = .ok (g x)) :
    l.mapM f = .ok (l.map g) := by
  induction l with
  | nil => rfl
  | cons x l ih =>
    rw [mapM_cons_ok]
    exact ⟨g x, l.map g, h x List.mem_cons_self, ih fun y hy => h y (List.mem_cons_of_mem _ hy), rfl⟩

theorem deserializeConcurrency_eq {A B C : List (JsString × JsValue)} :
    deserializeState (.obj [(js "active", .obj A), (js "active_auths", .obj C), (js "max_concurrent", .obj B)])
      .concurrency = (do
        let decoded ← (sortKeys (B.map Prod.fst ++ A.map Prod.fst ++ C.map Prod.fst).dedup).mapM (fun agent =>
          (decodeAgentConcurrency (.obj B) (.obj A) (.obj C) agent).map (fun c => (agent, c)))
        return ⟨.ofPrimitives (decoded.map (fun e => (e.1, e.2.max))),
          .ofPrimitives (decoded.map (fun e => (e.1, e.2.active))),
          .ofObjects (decoded.map (fun e => (e.1, e.2.auths)))⟩) := rfl

theorem rereads_concurrency (h : Exports nfc state) :
    ∃ s, Rereads nfc (normalForm nfc (payload state .concurrency)) .concurrency s := by
  have hcanonical := h.canonical .concurrency
  have hdistinct := h.distinct .concurrency
  have haccepted := h.accepted .concurrency
  rw [payload_concurrency] at hcanonical hdistinct
  have hfields := distinct_members hdistinct
  rw [canonical_plain h.laws (by simp only [List.map_cons, List.map_nil]; decide)
    (by simp only [List.map_cons, List.map_nil]; decide)] at hcanonical
  simp only [List.forall_mem_cons] at hcanonical hfields
  obtain ⟨cmax, cact, cauths, -⟩ := hcanonical
  obtain ⟨dmax, dact, dauths, -⟩ := hfields
  rw [canonical_record] at cmax cact cauths
  have hB := h.members cmax dmax
  have hA := h.members cact dact
  have hC := h.members cauths dauths
  have hsorted : (concurrencyAgents state.concurrency).Pairwise (· ≤ ·) := pairwise_sortKeys _
  have hcount : ∀ (f : JsString → JsNumber), (∀ agent ∈ concurrencyAgents state.concurrency, isNonNegInt (f agent) = true) →
      ∀ k n v, (table (concurrencyAgents state.concurrency) (nodup_concurrencyAgents _) f).own? k = some n →
        (some ∘ JsValue.num) n = some v → ∃ y : JsNumber, assertNonNegInt (normalForm nfc v) [] = .ok y ∧
          ((some ∘ JsValue.num) y).map (normalForm nfc) = some (normalForm nfc v) ∧ isNonNegInt y = true := by
    intro f hf k n v hn hv
    obtain ⟨hk, rfl⟩ := own?_table.mp hn
    obtain rfl := Option.some.inj hv
    exact ⟨f k, rereads_count (hf k hk), rfl, hf k hk⟩
  obtain ⟨rmax, hrmax, hokMax, fmax⟩ := exists_reread (Q := fun n => isNonNegInt n = true) (g := some ∘ JsValue.num) hB cmax
    (d := fun _ v => assertNonNegInt v []) fun k n v hn hv _ =>
      hcount _ (fun agent hagent => (haccepted agent hagent).max) k n v hn hv
  obtain ⟨ract, hract, hokAct, fact⟩ := exists_reread (Q := fun n => isNonNegInt n = true) (g := some ∘ JsValue.num) hA cact
    (d := fun _ v => assertNonNegInt v []) fun k n v hn hv _ =>
      hcount _ (fun agent hagent => (haccepted agent hagent).active) k n v hn hv
  obtain ⟨rauths, hrauths, hokAuths, fauths⟩ := exists_reread (d := decodeLeases)
    (Q := fun y => Filled.ofRecord y.own = y ∧ LeasesOk y.own) (g := fun y => some (leasesPayload y.own)) hC cauths
    fun k auths v hown hv hw => by
      have hd := distinct_record dauths hw
      have hc := cauths.value k v hw
      obtain ⟨hk, rfl⟩ := own?_table.mp hown
      obtain rfl := Option.some.inj hv
      obtain ⟨r, hr, hok, hform⟩ := reread_leases h (nfc k) (haccepted k hk).leases hc hd
      exact ⟨.ofRecord r, hr, congrArg some hform, rfl, hok⟩
  have dmaxs := Decoded.of_entries hB hrmax
  have dacts := Decoded.of_entries hA hract
  have dauthss := Decoded.of_entries hC hrauths
  have kmax := keys_recordForm_table nfc (nodup_concurrencyAgents state.concurrency) hsorted
    (countOr0 state.concurrency.maxConcurrent) JsValue.num
  have kact := keys_recordForm_table nfc (nodup_concurrencyAgents state.concurrency) hsorted
    (countOr0 state.concurrency.active) JsValue.num
  have kauths := keys_recordForm_table nfc (nodup_concurrencyAgents state.concurrency) hsorted
    (listedLeases state.concurrency) leasesPayload
  have hnodup := hB.nodup
  have kmaxs := dmaxs.keys
  have kacts := dacts.keys
  have kauthss := dauthss.keys
  rw [maxTable, kmax] at hnodup
  rw [maxTable, kmax] at kmaxs
  rw [activeTable, kact] at kacts
  rw [authsTable, kauths] at kauthss
  have hsource : ∀ agent ∈ sortUtf8Lex (((concurrencyAgents state.concurrency).filter (· ≠ protoKey)).map nfc),
      ∃ a, nfc a = agent ∧ a ≠ protoKey ∧ a ∈ concurrencyAgents state.concurrency := by
    intro agent hagent
    obtain ⟨a, ha, rfl⟩ := List.mem_map.mp (mem_sortUtf8Lex.mp hagent)
    obtain ⟨ha, hne⟩ := List.mem_filter.mp ha
    exact ⟨a, rfl, of_decide_eq_true hne, ha⟩
  generalize sortUtf8Lex (((concurrencyAgents state.concurrency).filter (· ≠ protoKey)).map nfc) = K at *
  have hdecode : ∀ agent ∈ sortKeys K, decodeAgentConcurrency
      (.obj (recordForm nfc (maxTable state.concurrency) (some ∘ .num)))
      (.obj (recordForm nfc (activeTable state.concurrency) (some ∘ .num)))
      (.obj (recordForm nfc (authsTable state.concurrency) (some ∘ leasesPayload))) agent =
      .ok ⟨(rmax.own? agent).getD (.int 0), (ract.own? agent).getD (.int 0), (rauths.own? agent).getD .empty⟩ ∧
      ((rmax.own? agent).getD (.int 0)).lt ((ract.own? agent).getD (.int 0)) = false := by
    intro agent hagent
    obtain ⟨a, rfl, hne, ha⟩ := hsource agent ((List.mem_insertionSort _).mp hagent)
    have hok := haccepted a ha
    have hmax := ownEntry_recordForm cmax hB (written_table.mpr ⟨⟨hne, ha⟩, rfl⟩)
    have hact := ownEntry_recordForm cact hA (written_table.mpr ⟨⟨hne, ha⟩, rfl⟩)
    have hauths := ownEntry_recordForm cauths hC (written_table.mpr ⟨⟨hne, ha⟩, rfl⟩)
    obtain ⟨x, hx, hreadMax⟩ := dmaxs.read _ (ownEntry_mem hmax)
    obtain ⟨y, hy, hreadAct⟩ := dacts.read _ (ownEntry_mem hact)
    obtain ⟨z, hz, hreadAuths⟩ := dauthss.read _ (ownEntry_mem hauths)
    obtain ⟨hmaxOk, rfl⟩ := assertNonNegInt_num.mp hreadMax
    obtain ⟨hactOk, rfl⟩ := assertNonNegInt_num.mp hreadAct
    rw [hx, hy, hz]
    exact ⟨decodeAgentConcurrency_ok hmax hact hauths hmaxOk hactOk hok.le hreadAuths, hok.le⟩
  have hagents : ∀ c : ConcurrencyState, c.maxConcurrent.keys = sortKeys K → c.active.keys = sortKeys K →
      c.activeAuths.keys = sortKeys K → concurrencyAgents c = sortKeys K := by
    intro c hmax hact hauths
    have hnd : (sortKeys K).Nodup := (List.perm_insertionSort _ K).nodup_iff.mpr hnodup
    rw [concurrencyAgents, hmax, hact, hauths, sortKeys_thrice hnd, sortKeys_idem]
  have kown : (rauths.mapValues Filled.own).keys = sortKeys K := by
    rw [← kauthss, Record.keys, Record.keys, Record.mapValues, List.map_map]
    rfl
  have hc := hagents ⟨rmax, ract, rauths.mapValues Filled.own⟩ kmaxs kacts kown
  refine ⟨{ state with concurrency := ⟨rmax, ract, rauths.mapValues Filled.own⟩ }, ?_, ?_, ?_⟩
  · have hdecoded : (sortKeys K).mapM (fun agent => (decodeAgentConcurrency
        (.obj (recordForm nfc (maxTable state.concurrency) (some ∘ .num)))
        (.obj (recordForm nfc (activeTable state.concurrency) (some ∘ .num)))
        (.obj (recordForm nfc (authsTable state.concurrency) (some ∘ leasesPayload))) agent).map (fun c => (agent, c))) =
        .ok ((sortKeys K).map fun agent => (agent, ⟨(rmax.own? agent).getD (.int 0), (ract.own? agent).getD (.int 0),
          (rauths.own? agent).getD .empty⟩)) :=
      mapM_eq_map fun agent hagent => by rw [(hdecode agent hagent).1]; rfl
    rw [normalForm_concurrency h.laws]
    have hagentsOf : sortKeys ((recordForm nfc (maxTable state.concurrency) (some ∘ JsValue.num)).map Prod.fst ++
        (recordForm nfc (activeTable state.concurrency) (some ∘ JsValue.num)).map Prod.fst ++
        (recordForm nfc (authsTable state.concurrency) (some ∘ leasesPayload)).map Prod.fst).dedup = sortKeys K := by
      rw [maxTable, activeTable, authsTable, kmax, kact, kauths, sortKeys_thrice hnodup]
    rw [deserializeConcurrency_eq, hagentsOf]
    refine bind_eq_ok.mpr ⟨_, hdecoded, ?_⟩
    have hown : (rauths.mapValues Filled.own).mapValues Filled.ofRecord = rauths := by
      apply record_ext
      simp only [Record.mapValues, List.map_map]
      conv_rhs => rw [← List.map_id rauths.entries]
      apply List.map_congr_left
      intro e he
      simp only [Function.comp_apply, (hokAuths e he).1, id_eq]
    simp only [List.map_map, State.part, hown]
    rw [← dmaxs.filled, ← dacts.filled, ← dauthss.filledObjects, entries_eq_map rmax (.int 0),
      entries_eq_map ract (.int 0), entries_eq_map rauths .empty, kmaxs, kacts, kauthss]
    rfl
  · intro agent hagent
    rw [hc] at hagent
    have hmax := (Record.mem_keys rmax).mp (kmaxs ▸ hagent)
    have hact := (Record.mem_keys ract).mp (kacts ▸ hagent)
    have hauths := (Record.mem_keys rauths).mp (kauthss ▸ hagent)
    obtain ⟨max, hmax⟩ := Option.isSome_iff_exists.mp hmax
    obtain ⟨act, hact⟩ := Option.isSome_iff_exists.mp hact
    obtain ⟨auths, hauths⟩ := Option.isSome_iff_exists.mp hauths
    have hle := (hdecode agent hagent).2
    rw [hmax, hact, Option.getD_some, Option.getD_some] at hle
    have hleases : listedLeases ⟨rmax, ract, rauths.mapValues Filled.own⟩ agent = auths.own := by
      rw [listedLeases_eq, Record.own?, Record.mapValues, ownEntry_map, ← Record.own?, hauths]
      rfl
    refine ⟨?_, ?_, ?_, ?_, ?_, ?_⟩
    · rw [Record.get_of_own? _ hmax]
      rfl
    · rw [Record.get_of_own? _ hact]
      rfl
    · rw [countOr0, hmax]
      exact hokMax (agent, max) ((Record.own?_eq_some _).mp hmax)
    · rw [countOr0, hact]
      exact hokAct (agent, act) ((Record.own?_eq_some _).mp hact)
    · rw [countOr0, countOr0, hmax, hact]
      exact hle
    · rw [hleases]
      exact (hokAuths (agent, auths) ((Record.own?_eq_some _).mp hauths)).2
  · have tmax : maxTable ⟨rmax, ract, rauths.mapValues Filled.own⟩ = rmax := by
      apply record_ext
      rw [maxTable, table, entries_eq_map rmax (.int 0), kmaxs]
      simp only [hc]
      rfl
    have tact : activeTable ⟨rmax, ract, rauths.mapValues Filled.own⟩ = ract := by
      apply record_ext
      rw [activeTable, table, entries_eq_map ract (.int 0), kacts]
      simp only [hc]
      rfl
    have tauths : authsTable ⟨rmax, ract, rauths.mapValues Filled.own⟩ = rauths.mapValues Filled.own := by
      apply record_ext
      rw [authsTable, table, entries_eq_map (rauths.mapValues Filled.own) .empty, kown]
      simp only [hc, listedLeases_eq]
    rw [normalForm_concurrency h.laws, ← normalForm_recordForm, ← normalForm_recordForm, ← normalForm_recordForm, tmax, tact, tauths,
      fmax, fact, recordMembers_mapValues]
    rw [normalForm_concurrency h.laws, ← fauths]
    rfl

end

end OxDeAI
