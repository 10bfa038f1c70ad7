import OxDeAI.Snapshot.RereadLimits

/-! States that say the same: neither an evaluation nor a codec tells an empty list from
none, a repeated name from one, or a zero counter from no counter. -/

namespace OxDeAI

open Js

def AllowLists.listed (a : AllowLists) : AllowLists :=
  ⟨some (a.actionTypes.getD []).dedup, some (a.assets.getD []).dedup, some (a.targets.getD []).dedup⟩

/-- Every agent of one table in all three. -/
def ConcurrencyState.listed (c : ConcurrencyState) : ConcurrencyState := ⟨maxTable c, activeTable c, authsTable c⟩

def ToolLimitsState.listed (tl : ToolLimitsState) : ToolLimitsState :=
  { tl with maxCallsByTool := some (tl.maxCallsByTool.getD Record.empty) }

/-- The parts of a state as an import leaves them. No codec writes the period. -/
def State.listed (s : State) : State :=
  { s with
    periodId := []
    allowlists := s.allowlists.listed
    concurrency := s.concurrency.listed
    toolLimits := s.toolLimits.listed }

def SameNames {α : Type} (names names' : Option (List α)) : Prop := ∀ v, v ∈ names.getD [] ↔ v ∈ names'.getD []

structure AlikeAllowLists (a a' : AllowLists) : Prop where
  actionTypes : SameNames a.actionTypes a'.actionTypes
  assets : SameNames a.assets a'.assets
  targets : SameNames a.targets a'.targets

structure AlikeConcurrency (c c' : ConcurrencyState) : Prop where
  agents : ∀ agent, agent ∈ concurrencyAgents c ↔ agent ∈ concurrencyAgents c'
  max : ∀ agent, countOr0 c.maxConcurrent agent = countOr0 c'.maxConcurrent agent
  active : ∀ agent, countOr0 c.active agent = countOr0 c'.active agent
  leases : ∀ agent, SameRecord (· = ·) (listedLeases c agent) (listedLeases c' agent)

structure Alike (s s' : State) : Prop where
  policyVersion : s.policyVersion = s'.policyVersion
  killSwitch : SameKillSwitch s.killSwitch s'.killSwitch
  allowlists : AlikeAllowLists s.allowlists s'.allowlists
  budget : SameBudget s.budget s'.budget
  maxAmountPerAction : SameRecord (· = ·) s.maxAmountPerAction s'.maxAmountPerAction
  velocity : SameVelocity s.velocity s'.velocity
  replay : SameReplay s.replay s'.replay
  concurrency : AlikeConcurrency s.concurrency s'.concurrency
  recursion : SameRecord (· = ·) s.recursion.maxDepth s'.recursion.maxDepth
  toolLimits : SameToolState s.toolLimits.listed s'.toolLimits.listed

section

variable {s s' s'' : State} {c c' c'' : ConcurrencyState} {tl tl' : ToolLimitsState}

theorem perm_trans {α : Type} (l l' l'' : List α) (h : l.Perm l') (h' : l'.Perm l'') : l.Perm l'' := h.trans h'

theorem sameRecord_eq_trans {α : Type} {r r' r'' : Record α} (h : SameRecord (· = ·) r r')
    (h' : SameRecord (· = ·) r' r'') : SameRecord (· = ·) r r'' :=
  fun k => rel_eq.mpr ((h.own?_eq k).trans (h'.own?_eq k))

theorem SameToolState.trans {tl'' : ToolLimitsState} (h : SameToolState tl tl') (h' : SameToolState tl' tl'') :
    SameToolState tl tl'' where
  windowSeconds := h.windowSeconds.trans h'.windowSeconds
  maxCalls := sameRecord_eq_trans h.maxCalls h'.maxCalls
  maxCallsByTool := by
    have htools : ∀ o o' o'' : Option (Record (Option JsNumber)), Option.Rel (SameRecord (· = ·)) o o' →
        Option.Rel (SameRecord (· = ·)) o' o'' → Option.Rel (SameRecord (· = ·)) o o'' :=
      fun _ _ _ => rel_trans fun _ _ _ => sameRecord_eq_trans
    exact rel_trans (fun _ _ _ hr hr' => hr.trans htools hr') h.maxCallsByTool h'.maxCallsByTool
  calls := h.calls.trans (fun _ _ _ => rel_trans perm_trans) h'.calls

theorem AlikeConcurrency.symm (h : AlikeConcurrency c c') : AlikeConcurrency c' c where
  agents agent := (h.agents agent).symm
  max agent := (h.max agent).symm
  active agent := (h.active agent).symm
  leases agent := (h.leases agent).symm fun _ _ => Eq.symm

theorem AlikeConcurrency.trans (h : AlikeConcurrency c c') (h' : AlikeConcurrency c' c'') : AlikeConcurrency c c'' where
  agents agent := (h.agents agent).trans (h'.agents agent)
  max agent := (h.max agent).trans (h'.max agent)
  active agent := (h.active agent).trans (h'.active agent)
  leases agent := sameRecord_eq_trans (h.leases agent) (h'.leases agent)

theorem Alike.refl (s : State) : Alike s s where
  policyVersion := rfl
  killSwitch := (SameState.refl s).killSwitch
  allowlists := ⟨fun _ => Iff.rfl, fun _ => Iff.rfl, fun _ => Iff.rfl⟩
  budget := (SameState.refl s).budget
  maxAmountPerAction := (SameState.refl s).maxAmountPerAction
  velocity := (SameState.refl s).velocity
  replay := (SameState.refl s).replay
  concurrency := ⟨fun _ => Iff.rfl, fun _ => rfl, fun _ => rfl, fun _ => .refl (fun _ => rfl) _⟩
  recursion := (SameState.refl s).recursion
  toolLimits := (SameState.refl { s with toolLimits := s.toolLimits.listed }).toolLimits

theorem Alike.symm (h : Alike s s') : Alike s' s where
  policyVersion := h.policyVersion.symm
  killSwitch := ⟨h.killSwitch.globalSwitch.symm, h.killSwitch.agents.symm fun _ _ => Eq.symm⟩
  allowlists := ⟨fun v => (h.allowlists.actionTypes v).symm, fun v => (h.allowlists.assets v).symm,
    fun v => (h.allowlists.targets v).symm⟩
  budget := ⟨h.budget.budgetLimit.symm fun _ _ => Eq.symm, h.budget.spentInPeriod.symm fun _ _ => Eq.symm⟩
  maxAmountPerAction := h.maxAmountPerAction.symm fun _ _ => Eq.symm
  velocity := ⟨h.velocity.config.symm, h.velocity.counters.symm fun _ _ => Eq.symm⟩
  replay := ⟨h.replay.windowSeconds.symm, h.replay.maxNoncesPerAgent.symm,
    h.replay.nonces.symm fun _ _ => List.Perm.symm⟩
  concurrency := h.concurrency.symm
  recursion := h.recursion.symm fun _ _ => Eq.symm
  toolLimits := ⟨h.toolLimits.windowSeconds.symm, h.toolLimits.maxCalls.symm fun _ _ => Eq.symm,
    rel_symm (fun _ _ hr => hr.symm fun _ _ ho => rel_symm (fun _ _ ht => ht.symm fun _ _ => Eq.symm) ho)
      h.toolLimits.maxCallsByTool,
    h.toolLimits.calls.symm fun _ _ ho => rel_symm (fun _ _ => List.Perm.symm) ho⟩

theorem Alike.trans (h : Alike s s') (h' : Alike s' s'') : Alike s s'' where
  policyVersion := h.policyVersion.trans h'.policyVersion
  killSwitch := ⟨h.killSwitch.globalSwitch.trans h'.killSwitch.globalSwitch,
    sameRecord_eq_trans h.killSwitch.agents h'.killSwitch.agents⟩
  allowlists := ⟨fun v => (h.allowlists.actionTypes v).trans (h'.allowlists.actionTypes v),
    fun v => (h.allowlists.assets v).trans (h'.allowlists.assets v),
    fun v => (h.allowlists.targets v).trans (h'.allowlists.targets v)⟩
  budget := ⟨sameRecord_eq_trans h.budget.budgetLimit h'.budget.budgetLimit,
    sameRecord_eq_trans h.budget.spentInPeriod h'.budget.spentInPeriod⟩
  maxAmountPerAction := sameRecord_eq_trans h.maxAmountPerAction h'.maxAmountPerAction
  velocity := ⟨h.velocity.config.trans h'.velocity.config,
    sameRecord_eq_trans h.velocity.counters h'.velocity.counters⟩
  replay := ⟨h.replay.windowSeconds.trans h'.replay.windowSeconds,
    h.replay.maxNoncesPerAgent.trans h'.replay.maxNoncesPerAgent, h.replay.nonces.trans perm_trans h'.replay.nonces⟩
  concurrency := h.concurrency.trans h'.concurrency
  recursion := sameRecord_eq_trans h.recursion h'.recursion
  toolLimits := h.toolLimits.trans h'.toolLimits

theorem SameConcurrency.alike (h : SameConcurrency c c') : AlikeConcurrency c c' where
  agents agent := by rw [concurrencyAgents_congr h]
  max := countOr0_congr h.maxConcurrent
  active := countOr0_congr h.active
  leases := listedLeases_congr h

theorem SameToolState.listed (h : SameToolState tl tl') : SameToolState tl.listed tl'.listed where
  windowSeconds := h.windowSeconds
  maxCalls := h.maxCalls
  maxCallsByTool := .some (byTool_congr h)
  calls := h.calls

theorem sameNames_of_perm {α : Type} {names names' : Option (List α)} (h : Option.Rel List.Perm names names') :
    SameNames names names' := fun _ => (perm_getD h).mem_iff

/-- States that differ in order only say the same. -/
theorem SameState.alike (h : SameState s s') : Alike s s' where
  policyVersion := h.policyVersion
  killSwitch := h.killSwitch
  allowlists := ⟨sameNames_of_perm h.allowlists.actionTypes, sameNames_of_perm h.allowlists.assets,
    sameNames_of_perm h.allowlists.targets⟩
  budget := h.budget
  maxAmountPerAction := h.maxAmountPerAction
  velocity := h.velocity
  replay := h.replay
  concurrency := h.concurrency.alike
  recursion := h.recursion
  toolLimits := h.toolLimits.listed

theorem own?_table_eq {α : Type} {agents : List JsString} {hnd : agents.Nodup} {f : JsString → α} (a : JsString) :
    (table agents hnd f).own? a = if a ∈ agents then some (f a) else none := by
  by_cases ha : a ∈ agents
  · rw [if_pos ha]
    exact own?_table.mpr ⟨ha, rfl⟩
  · rw [if_neg ha, Option.eq_none_iff_forall_not_mem]
    intro x hx
    exact ha (own?_table.mp hx).1

theorem own?_agentTable {α : Type} {agent : JsString} (f : JsString → α) (h : agent ∈ concurrencyAgents c) :
    (table (concurrencyAgents c) (nodup_concurrencyAgents c) f).own? agent = some (f agent) := own?_table.mpr ⟨h, rfl⟩

theorem sameRecord_table {α : Type} {R : α → α → Prop} {agents agents' : List JsString} (hnd : agents.Nodup)
    (hnd' : agents'.Nodup) {f f' : JsString → α} (hagents : ∀ a, a ∈ agents ↔ a ∈ agents') (h : ∀ a, R (f a) (f' a)) :
    SameRecord R (table agents hnd f) (table agents' hnd' f') := by
  intro a
  rw [own?_table_eq, own?_table_eq]
  by_cases ha : a ∈ agents
  · rw [if_pos ha, if_pos ((hagents a).mp ha)]
    exact .some (h a)
  · rw [if_neg ha, if_neg (mt (hagents a).mpr ha)]
    exact .none

theorem AlikeConcurrency.listed (h : AlikeConcurrency c c') : SameConcurrency c.listed c'.listed where
  maxConcurrent := sameRecord_table (nodup_concurrencyAgents c) (nodup_concurrencyAgents c') h.agents h.max
  active := sameRecord_table (nodup_concurrencyAgents c) (nodup_concurrencyAgents c') h.agents h.active
  activeAuths := sameRecord_table (nodup_concurrencyAgents c) (nodup_concurrencyAgents c') h.agents h.leases

theorem SameNames.perm {α : Type} [DecidableEq α] {names names' : Option (List α)} (h : SameNames names names') :
    (names.getD []).dedup.Perm (names'.getD []).dedup := by
  rw [List.perm_ext_iff_of_nodup (List.nodup_dedup _) (List.nodup_dedup _)]
  intro v
  rw [List.mem_dedup, List.mem_dedup]
  exact h v

/-- States that say the same are listed alike. -/
theorem Alike.listed (h : Alike s s') : SameState s.listed s'.listed where
  policyVersion := h.policyVersion
  periodId := rfl
  killSwitch := h.killSwitch
  allowlists := ⟨.some h.allowlists.actionTypes.perm, .some h.allowlists.assets.perm, .some h.allowlists.targets.perm⟩
  budget := h.budget
  maxAmountPerAction := h.maxAmountPerAction
  velocity := h.velocity
  replay := h.replay
  concurrency := h.concurrency.listed
  recursion := h.recursion
  toolLimits := h.toolLimits

theorem mem_concurrencyAgents_iff {agent : JsString} : agent ∈ concurrencyAgents c ↔
    c.maxConcurrent.own? agent ≠ none ∨ c.active.own? agent ≠ none ∨ c.activeAuths.own? agent ≠ none := by
  have hkey : ∀ {α : Type} (r : Record α), agent ∈ r.keys ↔ r.own? agent ≠ none := by
    intro α r
    rw [Record.mem_keys, Option.isSome_iff_ne_none]
  rw [concurrencyAgents, sortKeys, List.mem_insertionSort, List.mem_dedup, List.mem_append, List.mem_append, hkey, hkey, hkey,
    or_assoc]

theorem mem_concurrencyAgents_listed {agent : JsString} : agent ∈ concurrencyAgents c.listed ↔ agent ∈ concurrencyAgents c := by
  rw [mem_concurrencyAgents_iff]
  simp only [ConcurrencyState.listed, maxTable, activeTable, authsTable, own?_table_eq]
  by_cases ha : agent ∈ concurrencyAgents c
  · simp only [ha, if_true, ne_eq, reduceCtorEq, not_false_eq_true, true_or]
  · simp only [ha, if_false, ne_eq, not_true_eq_false, or_self]

theorem countOr0_table {r : Record JsNumber} {agents : List JsString} (hnd : agents.Nodup) {agent : JsString}
    (h : r.own? agent ≠ none → agent ∈ agents) : countOr0 (table agents hnd (countOr0 r)) agent = countOr0 r agent := by
  rw [countOr0, own?_table_eq]
  by_cases ha : agent ∈ agents
  · rw [if_pos ha, Option.getD_some]
  · have hnone : r.own? agent = none := not_not.mp (mt h ha)
    rw [if_neg ha, countOr0, hnone]

theorem listedLeases_listed (c : ConcurrencyState) (agent : JsString) :
    listedLeases c.listed agent = listedLeases c agent := by
  rw [listedLeases_eq, ConcurrencyState.listed, authsTable, own?_table_eq]
  by_cases ha : agent ∈ concurrencyAgents c
  · rw [if_pos ha, Option.getD_some]
  · have hnone : c.activeAuths.own? agent = none := not_not.mp fun h => ha (mem_concurrencyAgents_iff.mpr (.inr (.inr h)))
    rw [if_neg ha, listedLeases_eq, hnone]

theorem alikeConcurrency_listed (c : ConcurrencyState) : AlikeConcurrency c c.listed where
  agents agent := mem_concurrencyAgents_listed.symm
  max agent := (countOr0_table (nodup_concurrencyAgents c) fun h => mem_concurrencyAgents_iff.mpr (.inl h)).symm
  active agent := (countOr0_table (nodup_concurrencyAgents c) fun h => mem_concurrencyAgents_iff.mpr (.inr (.inl h))).symm
  leases agent := by
    rw [listedLeases_listed]
    exact .refl (fun _ => rfl) _

theorem sameNames_dedup {α : Type} [DecidableEq α] (names : Option (List α)) :
    SameNames names (some (names.getD []).dedup) := by
  intro v
  rw [Option.getD_some, List.mem_dedup]

/-- A state says the same as its listed form. -/
theorem alike_listed (s : State) : Alike s s.listed :=
  { Alike.refl s with
    allowlists := ⟨sameNames_dedup _, sameNames_dedup _, sameNames_dedup _⟩
    concurrency := alikeConcurrency_listed _ }

theorem concurrencyAgents_alike (h : AlikeConcurrency c c') : concurrencyAgents c = concurrencyAgents c' := by
  have hsorted : ∀ c : ConcurrencyState, sortKeys (concurrencyAgents c) = concurrencyAgents c := fun c => sortKeys_idem _
  rw [← hsorted c, ← hsorted c']
  exact sortKeys_perm ((List.perm_ext_iff_of_nodup (nodup_concurrencyAgents c) (nodup_concurrencyAgents c')).mpr h.agents)

theorem uniqSorted_eq_of_mem {l l' : List JsString} (h : ∀ v, v ∈ l ↔ v ∈ l') : uniqSorted l = uniqSorted l' := by
  refine sortKeys_perm ((List.perm_ext_iff_of_nodup (List.nodup_dedup _) (List.nodup_dedup _)).mpr fun v => ?_)
  rw [List.mem_dedup, List.mem_dedup]
  exact h v

theorem SameNames.uniqSorted {α : Type} {names names' : Option (List α)} (h : SameNames names names')
    (f : α → JsString) : uniqSorted ((names.getD []).map f) = uniqSorted ((names'.getD []).map f) := by
  apply uniqSorted_eq_of_mem
  intro v
  rw [List.mem_map, List.mem_map]
  simp only [h _]

theorem payload_listed (s : State) (id : ModuleId) : payload s.listed id = payload s id := by
  cases id with
  | allowlist =>
    have hactions := (sameNames_dedup s.allowlists.actionTypes).uniqSorted ActionType.text
    have hassets := (sameNames_dedup s.allowlists.assets).uniqSorted id
    have htargets := (sameNames_dedup s.allowlists.targets).uniqSorted id
    rw [List.map_id, List.map_id] at hassets htargets
    simp only [payload, normalizeAllowlists, hactions, hassets, htargets]
    rfl
  | concurrency =>
    have halike := alikeConcurrency_listed s.concurrency
    have hagent : agentConcurrency s.concurrency = agentConcurrency s.listed.concurrency := by
      funext agent
      simp only [agentConcurrency, halike.max agent, halike.active agent, ← listedLeases_listed s.concurrency agent]
      rfl
    simp only [payload, hagent, concurrencyAgents_alike halike]
    rfl
  | _ => rfl

/-- A codec that accepts a state accepts its listed form. -/
theorem serializable_listed {id : ModuleId} (h : Serializable s id) : Serializable s.listed id := by
  cases id with
  | concurrency =>
    intro agent hagent
    have hmem : agent ∈ concurrencyAgents s.concurrency := mem_concurrencyAgents_listed.mp hagent
    have hok : AgentConcurrencyOk s.concurrency agent := h agent hmem
    have halike := alikeConcurrency_listed s.concurrency
    have hread : ∀ {α : Type} (f : JsString → α), ((table (concurrencyAgents s.concurrency)
        (nodup_concurrencyAgents s.concurrency) f).get agent).isInherited = false := by
      intro α f
      rw [Record.get_of_own? _ (own?_agentTable f hmem)]
      rfl
    exact {
      maxRead := hread _
      activeRead := hread _
      max := (halike.max agent) ▸ hok.max
      active := (halike.active agent) ▸ hok.active
      le := by
        have hmax : countOr0 s.listed.concurrency.maxConcurrent agent = _ := (halike.max agent).symm
        have hactive : countOr0 s.listed.concurrency.active agent = _ := (halike.active agent).symm
        rw [hmax, hactive]
        exact hok.le
      leases := by
        have hleases : listedLeases s.listed.concurrency agent = _ := listedLeases_listed s.concurrency agent
        rw [hleases]
        exact hok.leases }
  | _ => exact h

end

end OxDeAI
