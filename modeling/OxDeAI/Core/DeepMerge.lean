import OxDeAI.Core.Types

/-! Merging a proposed delta into the state. Objects merge key by key; every
other value of the patch replaces the value below it. -/

namespace OxDeAI

open Js

section

variable {α : Type*}

/-- One own key of the patch. A key that is not an own property of the target
reads what the prototype supplies, which no patch value merges with. -/
def mergeEntry (mergeValue : α → α → α) (target : Record α) (e : JsString × α) : Record α :=
  match target.own? e.1 with
  | some dst => target.set e.1 (mergeValue dst e.2)
  | none => target.assign e.1 e.2

def mergeInto (mergeValue : α → α → α) (target source : Record α) : Record α :=
  source.entries.foldl (mergeEntry mergeValue) target

def mergeLeaf (_ src : α) : α := src

def mergeOptional (mergeValue : α → α → α) : Option α → Option α → Option α
  | some dst, some src => some (mergeValue dst src)
  | _, src => src

end

def mergeVelocityCounter (dst src : VelocityCounter) : VelocityCounter where
  windowStart := mergeLeaf dst.windowStart src.windowStart
  count := mergeLeaf dst.count src.count

def mergeBudget (dst src : BudgetState) : BudgetState where
  budgetLimit := mergeInto mergeLeaf dst.budgetLimit src.budgetLimit
  spentInPeriod := mergeInto mergeLeaf dst.spentInPeriod src.spentInPeriod

def mergeVelocity (dst src : VelocityState) : VelocityState where
  config.windowSeconds := mergeLeaf dst.config.windowSeconds src.config.windowSeconds
  config.maxActions := mergeLeaf dst.config.maxActions src.config.maxActions
  counters := mergeInto (mergeOptional mergeVelocityCounter) dst.counters src.counters

def mergeReplay (dst src : ReplayState) : ReplayState where
  windowSeconds := mergeLeaf dst.windowSeconds src.windowSeconds
  maxNoncesPerAgent := mergeLeaf dst.maxNoncesPerAgent src.maxNoncesPerAgent
  nonces := mergeInto mergeLeaf dst.nonces src.nonces

def mergeLease (dst src : Lease) : Lease := ⟨mergeLeaf dst.expiresAt src.expiresAt⟩

def mergeConcurrency (dst src : ConcurrencyState) : ConcurrencyState where
  maxConcurrent := mergeInto mergeLeaf dst.maxConcurrent src.maxConcurrent
  active := mergeInto mergeLeaf dst.active src.active
  activeAuths := mergeInto (mergeInto mergeLease) dst.activeAuths src.activeAuths

def mergeToolLimits (dst src : ToolLimitsState) : ToolLimitsState where
  windowSeconds := mergeLeaf dst.windowSeconds src.windowSeconds
  maxCalls := mergeInto mergeLeaf dst.maxCalls src.maxCalls
  maxCallsByTool := mergeOptional (mergeInto (mergeOptional (mergeInto mergeLeaf)))
    dst.maxCallsByTool src.maxCallsByTool
  calls := mergeInto mergeLeaf dst.calls src.calls

def deepMerge (base : State) (patch : StateDelta) : State :=
  { base with
    budget := patch.budget.elim base.budget (mergeBudget base.budget)
    velocity := patch.velocity.elim base.velocity (mergeVelocity base.velocity)
    replay := patch.replay.elim base.replay (mergeReplay base.replay)
    concurrency := patch.concurrency.elim base.concurrency (mergeConcurrency base.concurrency)
    toolLimits := patch.toolLimits.elim base.toolLimits (mergeToolLimits base.toolLimits) }

section

variable {α : Type*} {m : α → α → α}

theorem foldl_mergeEntry_self (hm : ∀ v, m v v = v) {es : List (JsString × α)} {t : Record α}
    (h : ∀ e ∈ es, t.own? e.1 = some e.2) : es.foldl (mergeEntry m) t = t := by
  induction es with
  | nil => rfl
  | cons e es ih =>
    have he := h e (by simp)
    have hs : mergeEntry m t e = t := by
      simp only [mergeEntry, he, hm]
      exact t.set_own he
    rw [List.foldl_cons, hs]
    exact ih (fun e' he' => h e' (by simp [he']))

theorem mergeInto_self (hm : ∀ v, m v v = v) (r : Record α) : mergeInto m r r = r :=
  foldl_mergeEntry_self hm (fun _ he => r.own?_eq_some.mpr he)

/-- Merging `{ ...r, [k]: v }` into `r` touches the one key only. -/
theorem mergeInto_set (hm : ∀ v, m v v = v) (r : Record α) (k : JsString) (v : α) :
    mergeInto m r (r.set k v) = mergeEntry m r (k, v) := by
  by_cases hk : k ∈ r.keys
  · obtain ⟨w, hw⟩ := Option.isSome_iff_exists.mp (r.mem_keys.mp hk)
    obtain ⟨pre, post, hes, hpre⟩ := r.split_own hw
    have hset : (r.set k v).entries = pre ++ (k, v) :: post := by
      simp only [Record.set, hes, setEntry_append hpre]
    have hown : ∀ e ∈ pre ++ post, r.own? e.1 = some e.2 := by
      intro e he
      rw [r.own?_eq_some, hes]
      rcases List.mem_append.mp he with he | he <;> simp [he]
    have hpost : k ∉ post.map Prod.fst := by
      have := r.nodup
      rw [hes, List.map_append, List.map_cons, List.nodup_append, List.nodup_cons] at this
      exact this.2.1.1
    rw [mergeInto, hset, List.foldl_append, List.foldl_cons,
      foldl_mergeEntry_self hm (fun e he => hown e (by simp [he]))]
    apply foldl_mergeEntry_self hm
    intro e he
    have hne : e.1 ≠ k := fun h => hpost (List.mem_map.mpr ⟨e, he, h⟩)
    simp only [mergeEntry, hw, r.own?_set_of_ne hne]
    exact hown e (by simp [he])
  · have hset : (r.set k v).entries = r.entries ++ [(k, v)] := setEntry_of_notMem hk
    rw [mergeInto, hset, List.foldl_append,
      foldl_mergeEntry_self hm (fun _ he => r.own?_eq_some.mpr he)]
    rfl

theorem mergeLeaf_self (v : α) : mergeLeaf v v = v := rfl

@[simp] theorem mergeInto_leaf_self (r : Record α) : mergeInto mergeLeaf r r = r :=
  mergeInto_self mergeLeaf_self r

@[simp] theorem mergeInto_leaf_set (r : Record α) (k : JsString) (v : α) :
    mergeInto mergeLeaf r (r.set k v) = r.assign k v := by
  rw [mergeInto_set mergeLeaf_self]
  cases h : r.own? k with
  | some w => simp [mergeEntry, h, mergeLeaf, r.assign_of_own h]
  | none => simp [mergeEntry, h]

theorem mergeOptional_self (hm : ∀ v, m v v = v) (v : Option α) : mergeOptional m v v = v := by
  cases v with
  | none => rfl
  | some v => simp [mergeOptional, hm]

end

theorem mergeVelocityCounter_eq (dst src : VelocityCounter) : mergeVelocityCounter dst src = src := rfl

theorem mergeBudget_spent (b : BudgetState) (k : JsString) (v : ℤ) :
    mergeBudget b { b with spentInPeriod := b.spentInPeriod.set k v } =
      { b with spentInPeriod := b.spentInPeriod.assign k v } := by
  simp [mergeBudget]

theorem mergeVelocity_counter (s : VelocityState) (k : JsString) (c : VelocityCounter) :
    mergeVelocity s { s with counters := s.counters.set k (some c) } =
      { s with counters := s.counters.assign k (some c) } := by
  have hm : ∀ v : Option VelocityCounter, mergeOptional mergeVelocityCounter v v = v :=
    mergeOptional_self (fun _ => rfl)
  have hc : mergeInto (mergeOptional mergeVelocityCounter) s.counters (s.counters.set k (some c)) =
      s.counters.assign k (some c) := by
    rw [mergeInto_set hm]
    cases h : s.counters.own? k with
    | none => simp [mergeEntry, h]
    | some w => cases w <;> simp [mergeEntry, h, mergeOptional, mergeVelocityCounter_eq,
        s.counters.assign_of_own h]
  simp [mergeVelocity, hc, mergeLeaf]

theorem mergeReplay_nonces (r : ReplayState) (k : JsString) (l : List NonceEntry) :
    mergeReplay r { r with nonces := r.nonces.set k l } = { r with nonces := r.nonces.assign k l } := by
  simp [mergeReplay, mergeLeaf]

theorem mergeToolLimits_calls (tl : ToolLimitsState) (k : JsString) (l : Option (List ToolCall)) :
    mergeToolLimits tl { tl with calls := tl.calls.set k l } =
      { tl with calls := tl.calls.assign k l } := by
  have hb : mergeOptional (mergeInto (mergeOptional (mergeInto mergeLeaf)))
      tl.maxCallsByTool tl.maxCallsByTool = tl.maxCallsByTool :=
    mergeOptional_self (mergeInto_self (mergeOptional_self mergeInto_leaf_self)) _
  simp [mergeToolLimits, hb, mergeLeaf]

/-- The lease map that a merge leaves behind still holds removed entries, and
the agent's own map is overwritten afterwards. -/
theorem mergeConcurrency_agent (c : ConcurrencyState) (k : JsString) (n : JsNumber)
    (auths auths' : Record Lease) :
    ({ mergeConcurrency c { c with active := c.active.set k n, activeAuths := c.activeAuths.set k auths }
        with
        activeAuths := (mergeConcurrency c { c with active := c.active.set k n, activeAuths := c.activeAuths.set k auths }).activeAuths.set k auths' } : ConcurrencyState) =
      { c with active := c.active.assign k n, activeAuths := c.activeAuths.set k auths' } := by
  have hm : ∀ r : Record Lease, mergeInto mergeLease r r = r := mergeInto_self (fun _ => rfl)
  have ha : (mergeInto (mergeInto mergeLease) c.activeAuths (c.activeAuths.set k auths)).set k auths' =
      c.activeAuths.set k auths' := by
    rw [mergeInto_set hm]
    cases h : c.activeAuths.own? k with
    | some w => simp [mergeEntry, h]
    | none =>
      simp only [mergeEntry, h, Record.assign]
      split <;> simp
  simp [mergeConcurrency, ha]

end OxDeAI
