import OxDeAI.Engine.Replay
import OxDeAI.Snapshot.RoundTrip

/-! Imported states: what the codecs read of an exported state is plain, so it is judged as the
state that was exported. -/

namespace OxDeAI

open Js

section

variable {nfc : JsString → JsString} {state s : State}

section

variable {α : Type} {M : List (JsString × JsValue)} {d : JsString → JsValue → Except JsError α} {r : Record α} {p : α → Prop}

theorem plain_of_decoded (hM : NormalMembers nfc M) (h : decodeMembers (.obj M) d = .ok r.entries)
    (hp : ∀ k v x, (k, v) ∈ M → d k v = .ok x → p x) : PlainRecord nfc p r := by
  intro k x hx
  obtain ⟨v, hv, hread⟩ := (Decoded.of_entries hM h).source k x hx
  exact ⟨⟨hM.proto (k, v) hv, hM.key (k, v) hv⟩, hp k v x hv hread⟩

theorem plain_of_assigned (hM : NormalMembers nfc M) {es : List (JsString × α)} (h : decodeMembers (.obj M) d = .ok es)
    (hr : Filled.ofPrimitives es = .ofRecord r) (hp : ∀ k v x, (k, v) ∈ M → d k v = .ok x → p x) : PlainRecord nfc p r :=
  plain_of_decoded hM ((assigned_iff hM).mp ⟨es, h, hr⟩) hp

theorem plain_of_assignedObjects (hM : NormalMembers nfc M) {es : List (JsString × α)}
    (h : decodeMembers (.obj M) d = .ok es) (hr : Filled.ofObjects es = .ofRecord r)
    (hp : ∀ k v x, (k, v) ∈ M → d k v = .ok x → p x) : PlainRecord nfc p r :=
  plain_of_decoded hM ((assignedObjects_iff hM).mp ⟨es, h, hr⟩) hp

theorem decodeMembers_some {es : List (JsString × α)} (h : decodeMembers (.obj M) d = .ok es) :
    decodeMembers (.obj M) (fun k v => (d k v).map some) = .ok (someValues es) := by
  rw [decodeMembers_map, h]
  rfl

theorem exists_of_map_some {x : Except JsError α} {o : Option α} (h : x.map some = .ok o) : ∃ a, o = some a := by
  obtain ⟨a, -, rfl⟩ := map_eq_ok.mp h
  exact ⟨a, rfl⟩

end

theorem deserializeKillSwitch_eq {M : List (JsString × JsValue)} {b : Bool} :
    deserializeState (.obj [(js "agents", .obj M), (js "global", .bool b)]) .killSwitch = (do
      let agents ← decodeMembers (.obj M) decodeSwitch
      return ⟨b, .ofPrimitives agents⟩) := rfl

theorem deserializeRecursion_eq {M : List (JsString × JsValue)} :
    deserializeState (.obj [(js "max_depth", .obj M)]) .recursionDepth = (do
      let maxDepth ← decodeCounts (.obj M) (js "recursion.max_depth")
      return ⟨.ofPrimitives maxDepth⟩) := rfl

theorem deserializeVelocity_eq {M : List (JsString × JsValue)} {window actions : JsNumber} :
    deserializeState (.obj [(js "config", .obj [(js "max_actions", .num actions), (js "window_seconds", .num window)]),
      (js "counters", .obj M)]) .velocity = (do
        let counters ← decodeMembers (.obj M) decodeCounter
        let windowSeconds ← assertPosInt (.num window) (js "velocity.config.window_seconds")
        let maxActions ← assertNonNegInt (.num actions) (js "velocity.config.max_actions")
        return ⟨⟨windowSeconds, maxActions⟩, .ofObjects (someValues counters)⟩) := rfl

theorem plain_killSwitch (h : Exports nfc state)
    (hs : deserializeState (normalForm nfc (payload state .killSwitch)) .killSwitch = .ok (s.part .killSwitch)) :
    PlainRecord nfc (fun _ => True) s.killSwitch.agents := by
  have hc := canonical_record.mp (canonical_member (h.canonical .killSwitch) (List.mem_cons_of_mem _ List.mem_cons_self))
  have hM := h.members hc (distinct_members (h.distinct .killSwitch) _ (List.mem_cons_of_mem _ List.mem_cons_self))
  rw [normalForm_killSwitch h.laws, deserializeKillSwitch_eq] at hs
  obtain ⟨es, hes, hs⟩ := bind_eq_ok.mp hs
  exact plain_of_assigned hM hes (congrArg KillSwitchPart.agents (Except.ok.inj hs)) fun _ _ _ _ _ => trivial

theorem plain_recursion (h : Exports nfc state)
    (hs : deserializeState (normalForm nfc (payload state .recursionDepth)) .recursionDepth = .ok (s.part .recursionDepth)) :
    PlainRecord nfc (fun _ => True) s.recursion.maxDepth := by
  have hc := canonical_record.mp (canonical_member (h.canonical .recursionDepth) List.mem_cons_self)
  have hM := h.members hc (distinct_members (h.distinct .recursionDepth) _ List.mem_cons_self)
  rw [normalForm_recursion h.laws, deserializeRecursion_eq] at hs
  obtain ⟨es, hes, hs⟩ := bind_eq_ok.mp hs
  exact plain_of_assigned hM hes (congrArg RecursionPart.maxDepth (Except.ok.inj hs)) fun _ _ _ _ _ => trivial

theorem plain_velocity (h : Exports nfc state)
    (hs : deserializeState (normalForm nfc (payload state .velocity)) .velocity = .ok (s.part .velocity)) :
    PlainRecord nfc (fun counter => ∃ c, counter = some c) s.velocity.counters := by
  obtain ⟨-, hc⟩ := (canonical_velocity h.laws).mp (h.canonical .velocity)
  have hM := h.members hc (distinct_members (h.distinct .velocity) _ (List.mem_cons_of_mem _ List.mem_cons_self))
  rw [normalForm_velocity h.laws, deserializeVelocity_eq] at hs
  obtain ⟨es, hes, hs⟩ := bind_eq_ok.mp hs
  obtain ⟨_, -, hs⟩ := bind_eq_ok.mp hs
  obtain ⟨_, -, hs⟩ := bind_eq_ok.mp hs
  exact plain_of_assignedObjects hM (decodeMembers_some hes) (congrArg VelocityPart.counters (Except.ok.inj hs))
    fun _ _ _ _ hx => exists_of_map_some hx

theorem plain_budget (h : Exports nfc state)
    (hs : deserializeState (normalForm nfc (payload state .budget)) .budget = .ok (s.part .budget)) :
    PlainRecord nfc (fun _ => True) s.budget.budgetLimit ∧ PlainRecord nfc (fun _ => True) s.budget.spentInPeriod ∧
      PlainRecord nfc (fun cap => ∃ z, cap = some z) s.maxAmountPerAction := by
  obtain ⟨hlimit, hspent, hmax⟩ := (canonical_budget h.laws).mp (h.canonical .budget)
  have hdistinct := distinct_members (h.distinct .budget)
  simp only [List.forall_mem_cons] at hdistinct
  obtain ⟨dlimit, dspent, dmax, -⟩ := hdistinct
  have hA := h.members hlimit dlimit
  have hB := h.members hspent dspent
  have hC := h.members hmax dmax
  rw [normalForm_budget h.laws] at hs
  obtain ⟨rlimit, rspent, rmax⟩ := (deserializeBudget_iff hA hB hC).mp hs
  exact ⟨plain_of_decoded hA rlimit fun _ _ _ _ _ => trivial, plain_of_decoded hB rspent fun _ _ _ _ _ => trivial,
    plain_of_decoded hC rmax fun _ _ _ _ hx => exists_of_map_some hx⟩

/-- A list of nonces as an import reads it. -/
theorem plainNonces_of_read (hn : NfcLaws nfc) {agent : JsString} {list list' : List NonceEntry}
    (hok : ∀ x ∈ list, x.ts.isInteger = true) (h : decodeNonces agent (normalForm nfc (noncesPayload list)) = .ok list') :
    PlainNonces nfc list' := by
  have hints : ∀ x ∈ (sortNonces list).map (normalNonce nfc), x.ts.isInteger = true := by
    intro x hx
    obtain ⟨y, hy, rfl⟩ := List.mem_map.mp hx
    exact hok y ((List.mem_insertionSort _).mp hy)
  rw [normalForm_nonces hn] at h
  obtain ⟨-, rfl⟩ := (decodeNonces_payload hints).mp h
  intro x hx
  obtain ⟨y, -, rfl⟩ := List.mem_map.mp ((List.mem_insertionSort _).mp hx)
  exact hn.idem _

theorem plain_replay (h : Exports nfc state)
    (hs : deserializeState (normalForm nfc (payload state .replay)) .replay = .ok (s.part .replay)) :
    PlainRecord nfc (PlainNonces nfc) s.replay.nonces := by
  obtain ⟨-, -, hc⟩ := (canonical_replay h.laws).mp (h.canonical .replay)
  have hdistinct := distinct_members (h.distinct .replay)
  simp only [List.forall_mem_cons] at hdistinct
  have hM := h.members hc hdistinct.2.2.1
  rw [normalForm_replay h.laws] at hs
  refine plain_of_decoded hM ((deserializeReplay_iff hM).mp hs).1 ?_
  intro k v list hv hread
  obtain ⟨k', w, hw, hpair⟩ := (mem_recordForm hc).mp hv
  obtain ⟨-, rfl⟩ := Prod.mk.inj hpair
  obtain ⟨-, list', hlist', hvalue⟩ := written_some.mp hw
  obtain rfl := Option.some.inj hvalue
  exact plainNonces_of_read h.laws ((h.accepted .replay).1 (k', list') ((Record.own?_eq_some _).mp hlist')).1 hread

theorem plainCalls_of_read (hn : NfcLaws nfc) {agent : JsString} {calls : Option (List ToolCall)} {calls' : List ToolCall}
    (hok : CallsOk calls) (h : decodeCalls agent (normalForm nfc (callsPayload calls)) = .ok calls') :
    PlainCalls nfc (some calls') := by
  have hints : ∀ x ∈ (sortCalls (calls.getD [])).map (normalCall nfc), x.ts.isInteger = true := by
    intro x hx
    obtain ⟨y, hy, rfl⟩ := List.mem_map.mp hx
    exact hok y ((List.mem_insertionSort _).mp hy)
  rw [normalForm_calls hn, decodeCalls_form hints] at h
  obtain rfl := Except.ok.inj h
  refine ⟨_, rfl, ?_⟩
  intro x hx
  obtain ⟨y, -, rfl⟩ := List.mem_map.mp ((List.mem_insertionSort _).mp hx)
  rw [normalCall, Option.map_map]
  congr 1
  exact funext hn.idem

theorem plainTools_of_read (h : Exports nfc state) {agent : JsString} {tools : Option (Record (Option JsNumber))}
    (hc : Canonical nfc (toolsPayload tools)) (hd : DistinctEncodings nfc (toolsPayload tools))
    {caps : Record (Option JsNumber)} (hread : decodeTools agent (normalForm nfc (toolsPayload tools)) = .ok (.ofRecord caps)) :
    PlainRecord nfc (fun cap => ∃ n, cap = some n) caps := by
  have hM := h.members (canonical_record.mp hc) hd
  obtain ⟨object, hobject, hread⟩ := bind_eq_ok.mp hread
  obtain rfl := Except.ok.inj hobject
  obtain ⟨es, hes, hread⟩ := bind_eq_ok.mp hread
  exact plain_of_assigned hM (decodeMembers_some hes) (Except.ok.inj hread) fun _ _ _ _ hx => exists_of_map_some hx

theorem own?_mapValues {α β : Type} (r : Record α) (f : α → β) (k : JsString) :
    (r.mapValues f).own? k = (r.own? k).map f := by
  rw [Record.own?, Record.mapValues, ownEntry_map, ← Record.own?]

theorem plain_toolLimits (h : Exports nfc state)
    (hs : deserializeState (normalForm nfc (payload state .toolAmplification)) .toolAmplification =
      .ok (s.part .toolAmplification)) :
    PlainRecord nfc (fun cap => ∃ n, cap = some n) s.toolLimits.maxCalls ∧
      PlainRecord nfc (PlainTools nfc) (s.toolLimits.maxCallsByTool.getD Record.empty) ∧
      PlainRecord nfc (PlainCalls nfc) s.toolLimits.calls := by
  obtain ⟨-, cmax, cbyTool, ccalls⟩ := (canonical_toolLimits h.laws).mp (h.canonical .toolAmplification)
  have hdistinct := distinct_members (h.distinct .toolAmplification)
  simp only [List.forall_mem_cons] at hdistinct
  obtain ⟨-, dmax, dbyTool, dcalls, -⟩ := hdistinct
  have hA := h.members ccalls dcalls
  have hB := h.members cmax dmax
  have hC := h.members cbyTool dbyTool
  rw [normalForm_toolLimits h.laws, deserializeToolLimits_eq] at hs
  obtain ⟨maxes, hmaxes, hs⟩ := bind_eq_ok.mp hs
  obtain ⟨tables, htables, hs⟩ := bind_eq_ok.mp hs
  obtain ⟨lists, hlists, hs⟩ := bind_eq_ok.mp hs
  obtain ⟨_, -, hs⟩ := bind_eq_ok.mp hs
  have hpart := Except.ok.inj hs
  refine ⟨plain_of_assigned hB (decodeMembers_some hmaxes) (congrArg ToolLimitsPart.maxCalls hpart)
    fun _ _ _ _ hx => exists_of_map_some hx, ?_, ?_⟩
  · have hbyTool := congrArg ToolLimitsPart.maxCallsByTool hpart
    cases htool : s.toolLimits.maxCallsByTool with
    | none =>
      rw [State.part, htool] at hbyTool
      cases hbyTool
    | some byTool =>
      rw [State.part, htool] at hbyTool
      have hassigned := (assignedObjects_iff hC).mp ⟨_, decodeMembers_some htables, Option.some.inj hbyTool⟩
      intro k tools htools
      have hown : (byTool.mapValues (Option.map Filled.ofRecord)).own? k = some (tools.map .ofRecord) := by
        rw [own?_mapValues]
        exact congrArg (Option.map _) htools
      obtain ⟨v, hv, hread⟩ := (Decoded.of_entries hC hassigned).source k _ hown
      obtain ⟨filled, hfilled, hsome⟩ := map_eq_ok.mp hread
      obtain ⟨caps, rfl, hcaps⟩ := Option.map_eq_some_iff.mp hsome.symm
      refine ⟨⟨hC.proto _ hv, hC.key _ hv⟩, caps, rfl, ?_⟩
      obtain ⟨k', w, hw, hpair⟩ := (mem_recordForm cbyTool).mp hv
      obtain ⟨-, rfl⟩ := Prod.mk.inj hpair
      have hdist := distinct_record dbyTool hw
      have hcan := cbyTool.value k' w hw
      obtain ⟨-, tools', -, hvalue⟩ := written_some.mp hw
      obtain rfl := Option.some.inj hvalue
      rw [← hcaps] at hfilled
      exact plainTools_of_read h hcan hdist hfilled
  · refine plain_of_assignedObjects hA (decodeMembers_some hlists) (congrArg ToolLimitsPart.calls hpart) ?_
    intro k v calls hv hread
    obtain ⟨list, hlist, rfl⟩ := map_eq_ok.mp hread
    obtain ⟨k', w, hw, hpair⟩ := (mem_recordForm ccalls).mp hv
    obtain ⟨-, rfl⟩ := Prod.mk.inj hpair
    obtain ⟨-, calls', hcalls', hvalue⟩ := written_some.mp hw
    obtain rfl := Option.some.inj hvalue
    exact plainCalls_of_read h.laws ((h.accepted .toolAmplification).2.2.1 (k', calls') ((Record.own?_eq_some _).mp hcalls'))
      hlist

theorem plain_allowlists (hn : NfcLaws nfc)
    (hs : deserializeState (normalForm nfc (payload state .allowlist)) .allowlist = .ok (s.part .allowlist)) :
    (∀ name ∈ s.allowlists.assets.getD [], nfc name = name) ∧ ∀ name ∈ s.allowlists.targets.getD [], nfc name = name := by
  have hkept : ∀ (names : List JsString) (part : Option (List JsString)),
      some (uniqSorted ((uniqSorted names).map nfc)) = part → ∀ name ∈ part.getD [], nfc name = name := by
    rintro names _ rfl name hname
    obtain ⟨x, -, rfl⟩ := List.mem_map.mp (mem_uniqSorted.mp hname)
    exact hn.idem x
  rw [normalForm_allowlists hn, deserializeAllowlists_eq] at hs
  have hpart := Except.ok.inj hs
  exact ⟨hkept _ _ (congrArg AllowListsPart.assets hpart), hkept _ _ (congrArg AllowListsPart.targets hpart)⟩

theorem entries_of_filled {α : Type} {es : List (JsString × α)} {r : Record α} (hnd : (es.map Prod.fst).Nodup)
    (hproto : ∀ e ∈ es, e.1 ≠ protoKey) (h : Filled.ofPrimitives es = .ofRecord r) : r.entries = es := by
  rw [Filled.ofPrimitives_entries ⟨es, hnd⟩ hproto] at h
  exact congrArg Record.entries (Filled.ofRecord_injective h).symm

theorem plainLeases_of_read (h : Exports nfc state) {agent : JsString} {A B C : List (JsString × JsValue)}
    {c : DecodedConcurrency} {auths auths' : Record Lease} (hc : Canonical nfc (leasesPayload auths))
    (hd : DistinctEncodings nfc (leasesPayload auths)) (hown : ownEntry agent C = some (normalForm nfc (leasesPayload auths)))
    (hread : decodeAgentConcurrency (.obj B) (.obj A) (.obj C) agent = .ok c) (hauths : c.auths = .ofRecord auths') :
    PlainRecord nfc (fun _ => True) auths' := by
  have hM := h.members (canonical_record.mp hc) hd
  have hmember : readMember (.obj C) agent = normalForm nfc (leasesPayload auths) := by
    rw [readMember, JsValue.entries, hown]
  rw [decodeAgentConcurrency, hmember] at hread
  obtain ⟨max, -, hread⟩ := bind_eq_ok.mp hread
  obtain ⟨act, -, hread⟩ := bind_eq_ok.mp hread
  split at hread
  · cases hread
  · obtain ⟨_, hobject, hread⟩ := bind_eq_ok.mp hread
    obtain rfl := Except.ok.inj hobject
    obtain ⟨es, hes, hread⟩ := bind_eq_ok.mp hread
    obtain rfl := Except.ok.inj hread
    exact plain_of_assignedObjects hM hes hauths fun _ _ _ _ _ => trivial

/-- The tables as an import reads them: plain, and each lists every agent. -/
theorem plain_concurrency (h : Exports nfc state)
    (hs : deserializeState (normalForm nfc (payload state .concurrency)) .concurrency = .ok (s.part .concurrency)) :
    PlainRecord nfc (fun _ => True) s.concurrency.maxConcurrent ∧ PlainRecord nfc (fun _ => True) s.concurrency.active ∧
      PlainRecord nfc (PlainRecord nfc fun _ => True) s.concurrency.activeAuths ∧
      ∀ agent ∈ concurrencyAgents s.concurrency, s.concurrency.maxConcurrent.own? agent ≠ none := by
  have hcanonical := h.canonical .concurrency
  have hdistinct := h.distinct .concurrency
  rw [payload_concurrency] at hcanonical hdistinct
  have hfields := distinct_members hdistinct
  simp only [List.forall_mem_cons] at hfields
  obtain ⟨dmax, dact, dauths, -⟩ := hfields
  have cmax := canonical_record.mp (canonical_member hcanonical List.mem_cons_self)
  have cauths := canonical_record.mp
    (canonical_member hcanonical (List.mem_cons_of_mem _ (List.mem_cons_of_mem _ List.mem_cons_self)))
  have hB := h.members cmax dmax
  have hC := h.members cauths dauths
  have hsorted : (concurrencyAgents state.concurrency).Pairwise (· ≤ ·) := pairwise_sortKeys _
  have kmax := keys_recordForm_table nfc (nodup_concurrencyAgents state.concurrency) hsorted
    (countOr0 state.concurrency.maxConcurrent) JsValue.num
  have kact := keys_recordForm_table nfc (nodup_concurrencyAgents state.concurrency) hsorted
    (countOr0 state.concurrency.active) JsValue.num
  have kauths := keys_recordForm_table nfc (nodup_concurrencyAgents state.concurrency) hsorted
    (listedLeases state.concurrency) leasesPayload
  have hnodup := hB.nodup
  rw [maxTable, kmax] at hnodup
  have hkeys : ∀ k ∈ sortUtf8Lex (((concurrencyAgents state.concurrency).filter (· ≠ protoKey)).map nfc),
      ∃ v, (k, v) ∈ recordForm nfc (authsTable state.concurrency) (some ∘ leasesPayload) := by
    intro k hk
    rw [← kauths] at hk
    obtain ⟨e, he, rfl⟩ := List.mem_map.mp hk
    exact ⟨e.2, he⟩
  rw [normalForm_concurrency h.laws, deserializeConcurrency_eq] at hs
  rw [activeTable, maxTable, kmax, kact] at hs
  rw [authsTable, kauths, sortKeys_thrice hnodup] at hs
  generalize sortUtf8Lex (((concurrencyAgents state.concurrency).filter (· ≠ protoKey)).map nfc) = K at hs hnodup hkeys
  obtain ⟨decoded, hdecoded, hs⟩ := bind_eq_ok.mp hs
  have hpart := Except.ok.inj hs
  have hforall := mapM_eq_ok.mp hdecoded
  have hfirst : decoded.map Prod.fst = sortKeys K := by
    rw [← List.forall₂_eq_eq_eq, List.forall₂_map_left_iff]
    refine hforall.flip.imp fun e agent hagent => ?_
    obtain ⟨_, -, rfl⟩ := map_eq_ok.mp hagent
    rfl
  have hnd : (sortKeys K).Nodup := (List.perm_insertionSort _ K).nodup_iff.mpr hnodup
  have hfixed : ∀ k ∈ sortKeys K, k ≠ protoKey ∧ nfc k = k := by
    intro k hk
    obtain ⟨v, hv⟩ := hkeys k ((List.mem_insertionSort _).mp hk)
    exact ⟨hC.proto _ hv, hC.key _ hv⟩
  have hlisted : ∀ {α : Type} (f : DecodedConcurrency → α), (decoded.map fun e => (e.1, f e.2)).map Prod.fst = sortKeys K := by
    intro α f
    rw [List.map_map, ← hfirst]
    rfl
  have hentries : ∀ {α : Type} {f : DecodedConcurrency → α} {r : Record α},
      Filled.ofPrimitives (decoded.map fun e => (e.1, f e.2)) = .ofRecord r → r.entries = decoded.map fun e => (e.1, f e.2) := by
    intro α f r hr
    refine entries_of_filled (by rw [hlisted]; exact hnd) (fun e he => ?_) hr
    have hmem : e.1 ∈ sortKeys K := by
      rw [← hlisted f]
      exact List.mem_map_of_mem he
    exact (hfixed e.1 hmem).1
  have hmaxes := hentries (congrArg ConcurrencyPart.maxConcurrent hpart)
  have hactives := hentries (congrArg ConcurrencyPart.active hpart)
  have hobjects : Filled.ofPrimitives (decoded.map fun e => (e.1, e.2.auths)) =
      .ofRecord (s.concurrency.activeAuths.mapValues .ofRecord) := by
    rw [← Filled.ofObjects_eq]
    · exact congrArg ConcurrencyPart.activeAuths hpart
    · intro e he
      have hmem : e.1 ∈ sortKeys K := by
        rw [← hlisted DecodedConcurrency.auths]
        exact List.mem_map_of_mem he
      exact (hfixed e.1 hmem).1
  have hauths := hentries hobjects
  have hcounts : ∀ {r : Record JsNumber} {f : DecodedConcurrency → JsNumber},
      r.entries = (decoded.map fun e => (e.1, f e.2)) → PlainRecord nfc (fun _ => True) r := by
    intro r f hr k x hx
    have hmem : k ∈ sortKeys K := by
      rw [← hlisted f, ← hr]
      exact List.mem_map_of_mem ((Record.own?_eq_some r).mp hx)
    exact ⟨hfixed k hmem, trivial⟩
  refine ⟨hcounts hmaxes, hcounts hactives, ?_, ?_⟩
  · intro k auths hx
    have hown : (s.concurrency.activeAuths.mapValues Filled.ofRecord).own? k = some (.ofRecord auths) := by
      rw [own?_mapValues, hx]
      rfl
    have hmem := (Record.own?_eq_some _).mp hown
    rw [hauths] at hmem
    obtain ⟨e, he, hpair⟩ := List.mem_map.mp hmem
    obtain ⟨rfl, hleases⟩ := Prod.mk.inj hpair
    obtain ⟨agent, hagent, hread⟩ := exists_mem_of_forall₂ hforall he
    obtain ⟨c, hc, rfl⟩ := map_eq_ok.mp hread
    obtain ⟨v, hv⟩ := hkeys agent ((List.mem_insertionSort _).mp hagent)
    have hentry := ownEntry_of_mem hC.nodup hv
    obtain ⟨a, w, hw, hpair⟩ := (mem_recordForm cauths).mp hv
    obtain ⟨-, rfl⟩ := Prod.mk.inj hpair
    have hcan := cauths.value a w hw
    have hdist := distinct_record dauths hw
    obtain ⟨-, rfl⟩ := written_table.mp hw
    exact ⟨hfixed _ hagent, plainLeases_of_read h hcan hdist hentry hc hleases⟩
  · intro agent hagent
    have hmaxKeys : s.concurrency.maxConcurrent.keys = sortKeys K := by
      rw [Record.keys, hmaxes, hlisted]
    have hactiveKeys : s.concurrency.active.keys = sortKeys K := by
      rw [Record.keys, hactives, hlisted]
    have hauthsKeys : s.concurrency.activeAuths.keys = sortKeys K := by
      have hkept : (s.concurrency.activeAuths.mapValues Filled.ofRecord).keys = s.concurrency.activeAuths.keys := by
        rw [Record.keys, Record.keys, Record.mapValues, List.map_map]
        rfl
      rw [← hkept, Record.keys, hauths, hlisted]
    rw [concurrencyAgents, hmaxKeys, hactiveKeys, hauthsKeys, sortKeys_thrice hnd, sortKeys_idem, ← hmaxKeys,
      Record.mem_keys] at hagent
    exact Option.isSome_iff_ne_none.mp hagent

theorem plain_of_rereads (h : Exports nfc state) (hs : ∀ id, Rereads nfc (normalForm nfc (payload state id)) id s) :
    Plain nfc s := by
  obtain ⟨assets, targets⟩ := plain_allowlists h.laws (hs .allowlist).read
  obtain ⟨budgetLimit, spentInPeriod, maxAmountPerAction⟩ := plain_budget h (hs .budget).read
  obtain ⟨maxConcurrent, active, activeAuths, -⟩ := plain_concurrency h (hs .concurrency).read
  obtain ⟨maxCalls, maxCallsByTool, calls⟩ := plain_toolLimits h (hs .toolAmplification).read
  exact {
    switches := plain_killSwitch h (hs .killSwitch).read
    assets := assets
    targets := targets
    budgetLimit := budgetLimit
    spentInPeriod := spentInPeriod
    maxAmountPerAction := maxAmountPerAction
    counters := plain_velocity h (hs .velocity).read
    nonces := plain_replay h (hs .replay).read
    maxConcurrent := maxConcurrent
    active := active
    activeAuths := activeAuths
    maxDepth := plain_recursion h (hs .recursionDepth).read
    maxCalls := maxCalls
    maxCallsByTool := maxCallsByTool
    calls := calls }

/-- A plain state is read back when none of its amounts is negative. -/
theorem readsBack_of_plain (hplain : Plain nfc state) (haccepted : ∀ id, Serializable state id)
    (hamounts : ReadsBack nfc state .budget) (id : ModuleId) : ReadsBack nfc state id := by
  cases id with
  | allowlist =>
    have hlist : ∀ list : List JsString, (∀ name ∈ list, nfc name = name) → ((uniqSorted list).map nfc).Pairwise (· < ·) := by
      intro list hlist
      rw [map_nfc_uniqSorted hlist]
      exact uniqSorted_eq_self_iff.mp (uniqSorted_idem list)
    intro names hnames
    simp only [List.mem_cons, List.not_mem_nil, or_false] at hnames
    rcases hnames with rfl | rfl
    · exact hlist _ hplain.assets
    · exact hlist _ hplain.targets
  | budget => exact hamounts
  | replay =>
    intro k list _ hlist
    obtain ⟨hints, hnd⟩ := (haccepted .replay).1 (k, list) ((Record.own?_eq_some _).mp hlist)
    rw [map_sortNonces (hplain.nonces k list hlist).2]
    exact ⟨nodup_sortNonces.mpr hnd, StableSort.pairwise_insertionSort (ordersOn_nonces hints)⟩
  | toolAmplification =>
    intro k calls _ hcalls
    have hints := (haccepted .toolAmplification).2.2.1 (k, calls) ((Record.own?_eq_some _).mp hcalls)
    obtain ⟨-, list, rfl, hlist⟩ := hplain.calls k calls hcalls
    rw [Option.getD_some, map_sortCalls hlist]
    exact StableSort.pairwise_insertionSort (ordersOn_calls hints)
  | _ => trivial

theorem NumericLeaves.alike {intent : Intent} (h : Alike state s) (hleaves : NumericLeaves state intent.agentId)
    (hlisted : ∀ agent ∈ concurrencyAgents s.concurrency, s.concurrency.maxConcurrent.own? agent ≠ none) :
    NumericLeaves s intent.agentId where
  budgetLimit := by
    rw [← h.budget.budgetLimit.own?_eq]
    exact hleaves.budgetLimit
  spentInPeriod := by
    rw [← h.budget.spentInPeriod.get_eq]
    exact hleaves.spentInPeriod
  maxAmountPerAction := by
    rw [← h.maxAmountPerAction.own?_eq]
    exact hleaves.maxAmountPerAction
  maxConcurrent := by
    obtain ⟨n, hn, hfinite⟩ := hleaves.maxConcurrent
    have hagent := (h.concurrency.agents intent.agentId).mp (mem_concurrencyAgents hleaves)
    obtain ⟨m, hm⟩ := Option.ne_none_iff_exists'.mp (hlisted _ hagent)
    have hcount := h.concurrency.max intent.agentId
    rw [countOr0, countOr0, hn, hm, Option.getD_some, Option.getD_some] at hcount
    exact ⟨m, hm, hcount ▸ hfinite⟩
  maxDepth := by
    rw [← h.recursion.own?_eq]
    exact hleaves.maxDepth
  maxCalls := by
    have hcalls := h.toolLimits.maxCalls.own?_eq intent.agentId
    obtain ⟨n, hn, hfinite⟩ := hleaves.maxCalls
    exact ⟨n, hcalls.symm.trans hn, hfinite⟩

end

section

variable {P : Platform} {e : PolicyEngine} {state s : State}

/-- A plain state with a hash survives an export and an import: the imported state gets the same answers
to any sequence of intents. -/
theorem imported_replay (hP : PlatformLaws P) (hx : HexStable P.nfc) (hproto : ∀ k, P.nfc k = protoKey → k = protoKey)
    (e : PolicyEngine) {hash : JsString} (hhash : computeStateHash P e state = .ok hash)
    (hdistinct : ∀ id, DistinctEncodings P.nfc (payload state id)) (hplain : Plain P.nfc state)
    (hamounts : ReadsBack P.nfc state .budget) (hid : P.nfc (computePolicyId P e) = computePolicyId P e)
    (text : JsValue → Except JsError JsString) (syntaxError : JsString → JsString) (current : Option StateParts)
    (target : StateParts) (hversion : target.policyVersion = state.policyVersion) :
    ∃ bytes s imported, (exportState P e state).bind (encodeCanonicalState P.nfc) = .ok bytes ∧
      decodeCanonicalState syntaxError bytes = .ok s ∧
      importState P e text current (some target) s.snapshot =
        ⟨.ok (), some (State.parts imported), some imported.parts.clone⟩ ∧
      ∀ (intents : List Intent) (t : JsNumber) (mode : EvalMode) (log log' : AuditLog),
        (∀ intent ∈ intents, inherited? intent.agentId = none) →
        (∀ intent ∈ intents, validateStateForIntent state intent = .ok ()) →
        ExceptRel (fun r r' => SameRun P e r.outputs r'.outputs r.finalState r'.finalState)
          (replay P e state intents t mode log).1 (replay P e imported intents t mode log').1 := by
  obtain ⟨hhashable, rfl⟩ := hashable_of_computeStateHash hhash
  have hexports := exports_of_hashable hP.nfc hproto hhashable hdistinct
  obtain ⟨bytes, hexport, hdecode⟩ := exists_exportBytes (e := e) hP.nfc hhashable syntaxError
  have hread : ∀ id, ∃ s, Rereads P.nfc (normalForm P.nfc (payload state id)) id s :=
    fun id => (rereads_iff hexports id).mpr (readsBack_of_plain hplain (fun id => (hhashable id).1) hamounts id)
  obtain ⟨imported, hrereads, himported, himport⟩ :=
    exists_imported hP.nfc ((checkHeader_exported state text).mpr hid) hread current target
  refine ⟨bytes, _, imported, hexport, hdecode, himport, ?_⟩
  intro intents t mode log log' hnames hvalid
  have hplain' := plain_of_rereads hexports hrereads
  have hsame : SameHash P e state imported := ⟨_, hhash, computeStateHash_rereads hP hhashable hrereads⟩
  have htwins := twins_of_sameHash hP (hversion.symm.trans himported.symm) hplain hplain' hsame
  have hlisted := (plain_concurrency hexports (hrereads .concurrency).read).2.2.2
  have hvalid' : ∀ intent ∈ intents, validateStateForIntent imported intent = .ok () := by
    intro intent hintent
    obtain ⟨hruntime, hleaves⟩ := validateStateForIntent_ok.mp (hvalid intent hintent)
    have hsameRuntime : isRuntimeState state.listed = isRuntimeState imported.listed := isRuntimeState_congr htwins.alike.listed
    exact validateStateForIntent_ok.mpr ⟨hsameRuntime.symm.trans hruntime, hleaves.alike htwins.alike hlisted⟩
  exact sameRun_map (fun _ => rfl) (evaluateEach_twins hP hx htwins hnames hvalid hvalid')

end

theorem imported_replay_sample : ∃ bytes s imported,
    (exportState samplePlatform sampleEngine (sampleState (js "a"))).bind (encodeCanonicalState samplePlatform.nfc) =
      .ok bytes ∧ decodeCanonicalState id bytes = .ok s ∧
    importState samplePlatform sampleEngine (fun _ => .ok []) none (some (sampleState (js "b")).parts) s.snapshot =
      ⟨.ok (), some (State.parts imported), some imported.parts.clone⟩ ∧
    ExceptRel (fun r r' => SameRun samplePlatform sampleEngine r.outputs r'.outputs r.finalState r'.finalState)
      (replay samplePlatform sampleEngine (sampleState (js "a")) [sampleIntent (js "a"), sampleIntent (js "a")] (.int 1000)
        .failFast (AuditLog.initial samplePlatform)).1
      (replay samplePlatform sampleEngine imported [sampleIntent (js "a"), sampleIntent (js "a")] (.int 1000)
        .failFast (AuditLog.initial samplePlatform)).1 := by
  have hhashable : Hashable samplePlatform (sampleState (js "a")) := isHashable_iff.mp (by decide)
  have hhash : computeStateHash samplePlatform sampleEngine (sampleState (js "a")) = .ok _ :=
    (computeStateHash_ok samplePlatform_laws.nfc).mpr ⟨hhashable, rfl⟩
  have hid : samplePlatform.nfc (computePolicyId samplePlatform sampleEngine) = computePolicyId samplePlatform sampleEngine :=
    samplePlatform_laws.nfc.ascii _ (isAscii_of_hex (samplePlatform_laws.hex _).1)
  have hversion : (sampleState (js "b")).parts.policyVersion = (sampleState (js "a")).policyVersion := rfl
  have hnames : ∀ intent ∈ [sampleIntent (js "a"), sampleIntent (js "a")], inherited? intent.agentId = none := by decide
  have hvalid : ∀ intent ∈ [sampleIntent (js "a"), sampleIntent (js "a")],
      validateStateForIntent (sampleState (js "a")) intent = .ok () := by decide
  obtain ⟨bytes, s, imported, hexport, hdecode, himport, hreplay⟩ := imported_replay samplePlatform_laws hexStable_sample
    (fun k => sampleNfc_proto) sampleEngine hhash (fun id => distinctEncodings_of_check (by cases id <;> decide))
    plain_sample.1 (readsBack_sample .budget) hid (fun _ => .ok []) id none (sampleState (js "b")).parts hversion
  exact ⟨bytes, s, imported, hexport, hdecode, himport, hreplay _ _ _ _ _ hnames hvalid⟩

end OxDeAI
