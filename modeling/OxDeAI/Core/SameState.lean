import OxDeAI.Core.DeepMerge
import OxDeAI.Js.SameRecord

/-! States that differ only in the order things were written in: the keys of their
objects, and the entries of nonce lists, call lists and allowlists. -/

namespace OxDeAI

open Js

structure SameKillSwitch (s s' : KillSwitchState) : Prop where
  globalSwitch : s.globalSwitch = s'.globalSwitch
  agents : SameRecord (· = ·) s.agents s'.agents

structure SameAllowLists (s s' : AllowLists) : Prop where
  actionTypes : Option.Rel List.Perm s.actionTypes s'.actionTypes
  assets : Option.Rel List.Perm s.assets s'.assets
  targets : Option.Rel List.Perm s.targets s'.targets

structure SameBudget (s s' : BudgetState) : Prop where
  budgetLimit : SameRecord (· = ·) s.budgetLimit s'.budgetLimit
  spentInPeriod : SameRecord (· = ·) s.spentInPeriod s'.spentInPeriod

structure SameVelocity (s s' : VelocityState) : Prop where
  config : s.config = s'.config
  counters : SameRecord (· = ·) s.counters s'.counters

structure SameReplay (s s' : ReplayState) : Prop where
  windowSeconds : s.windowSeconds = s'.windowSeconds
  maxNoncesPerAgent : s.maxNoncesPerAgent = s'.maxNoncesPerAgent
  nonces : SameRecord List.Perm s.nonces s'.nonces

structure SameConcurrency (s s' : ConcurrencyState) : Prop where
  maxConcurrent : SameRecord (· = ·) s.maxConcurrent s'.maxConcurrent
  active : SameRecord (· = ·) s.active s'.active
  activeAuths : SameRecord (SameRecord (· = ·)) s.activeAuths s'.activeAuths

structure SameToolState (s s' : ToolLimitsState) : Prop where
  windowSeconds : s.windowSeconds = s'.windowSeconds
  maxCalls : SameRecord (· = ·) s.maxCalls s'.maxCalls
  maxCallsByTool : Option.Rel (SameRecord (Option.Rel (SameRecord (· = ·)))) s.maxCallsByTool s'.maxCallsByTool
  calls : SameRecord (Option.Rel List.Perm) s.calls s'.calls

/-- Equal as nested maps and unordered lists. -/
structure SameState (s s' : State) : Prop where
  policyVersion : s.policyVersion = s'.policyVersion
  periodId : s.periodId = s'.periodId
  killSwitch : SameKillSwitch s.killSwitch s'.killSwitch
  allowlists : SameAllowLists s.allowlists s'.allowlists
  budget : SameBudget s.budget s'.budget
  maxAmountPerAction : SameRecord (· = ·) s.maxAmountPerAction s'.maxAmountPerAction
  velocity : SameVelocity s.velocity s'.velocity
  replay : SameReplay s.replay s'.replay
  concurrency : SameConcurrency s.concurrency s'.concurrency
  recursion : SameRecord (· = ·) s.recursion.maxDepth s'.recursion.maxDepth
  toolLimits : SameToolState s.toolLimits s'.toolLimits

/-- Deltas that propose the same parts. -/
structure SameDelta (d d' : StateDelta) : Prop where
  budget : Option.Rel SameBudget d.budget d'.budget
  velocity : Option.Rel SameVelocity d.velocity d'.velocity
  replay : Option.Rel SameReplay d.replay d'.replay
  concurrency : Option.Rel SameConcurrency d.concurrency d'.concurrency
  toolLimits : Option.Rel SameToolState d.toolLimits d'.toolLimits

theorem rel_refl {α : Type*} {R : α → α → Prop} (hR : ∀ x, R x x) (o : Option α) : Option.Rel R o o := by
  cases o with
  | none => exact .none
  | some x => exact .some (hR x)

theorem SameState.refl (s : State) : SameState s s where
  policyVersion := rfl
  periodId := rfl
  killSwitch := ⟨rfl, .refl (fun _ => rfl) _⟩
  allowlists := ⟨rel_refl List.Perm.refl _, rel_refl List.Perm.refl _, rel_refl List.Perm.refl _⟩
  budget := ⟨.refl (fun _ => rfl) _, .refl (fun _ => rfl) _⟩
  maxAmountPerAction := .refl (fun _ => rfl) _
  velocity := ⟨rfl, .refl (fun _ => rfl) _⟩
  replay := ⟨rfl, rfl, .refl List.Perm.refl _⟩
  concurrency := ⟨.refl (fun _ => rfl) _, .refl (fun _ => rfl) _, .refl (SameRecord.refl fun _ => rfl) _⟩
  recursion := .refl (fun _ => rfl) _
  toolLimits := ⟨rfl, .refl (fun _ => rfl) _, rel_refl (SameRecord.refl (rel_refl (SameRecord.refl fun _ => rfl))) _,
    .refl (rel_refl List.Perm.refl) _⟩

theorem SameState.symm {s s' : State} (h : SameState s s') : SameState s' s where
  policyVersion := h.policyVersion.symm
  periodId := h.periodId.symm
  killSwitch := ⟨h.killSwitch.globalSwitch.symm, h.killSwitch.agents.symm fun _ _ => Eq.symm⟩
  allowlists := ⟨rel_symm (fun _ _ => List.Perm.symm) h.allowlists.actionTypes,
    rel_symm (fun _ _ => List.Perm.symm) h.allowlists.assets, rel_symm (fun _ _ => List.Perm.symm) h.allowlists.targets⟩
  budget := ⟨h.budget.budgetLimit.symm fun _ _ => Eq.symm, h.budget.spentInPeriod.symm fun _ _ => Eq.symm⟩
  maxAmountPerAction := h.maxAmountPerAction.symm fun _ _ => Eq.symm
  velocity := ⟨h.velocity.config.symm, h.velocity.counters.symm fun _ _ => Eq.symm⟩
  replay := ⟨h.replay.windowSeconds.symm, h.replay.maxNoncesPerAgent.symm,
    h.replay.nonces.symm fun _ _ => List.Perm.symm⟩
  concurrency := ⟨h.concurrency.maxConcurrent.symm fun _ _ => Eq.symm, h.concurrency.active.symm fun _ _ => Eq.symm,
    h.concurrency.activeAuths.symm fun _ _ hr => hr.symm fun _ _ => Eq.symm⟩
  recursion := h.recursion.symm fun _ _ => Eq.symm
  toolLimits := ⟨h.toolLimits.windowSeconds.symm, h.toolLimits.maxCalls.symm fun _ _ => Eq.symm,
    rel_symm (fun _ _ hr => hr.symm fun _ _ ho => rel_symm (fun _ _ ht => ht.symm fun _ _ => Eq.symm) ho)
      h.toolLimits.maxCallsByTool,
    h.toolLimits.calls.symm fun _ _ ho => rel_symm (fun _ _ => List.Perm.symm) ho⟩

section

variable {α : Type*} {m : α → α → α} {R : α → α → Prop}

/-- What a merge leaves under a key. -/
def mergedAt (m : α → α → α) (k : JsString) : Option α → Option α → Option α
  | dst, none => dst
  | some dst, some src => some (m dst src)
  | none, some src => if k = protoKey then none else some src

theorem own?_mergeEntry (t : Record α) (e : JsString × α) (k : JsString) :
    (mergeEntry m t e).own? k = if k = e.1 then mergedAt m k (t.own? k) (some e.2) else t.own? k := by
  obtain ⟨k', v⟩ := e
  by_cases hk : k = k'
  · subst hk
    rw [if_pos rfl, mergeEntry]
    cases ht : t.own? k with
    | some w => simp [mergedAt]
    | none =>
      simp only [mergedAt]
      by_cases hp : k = protoKey
      · simp [Record.assign, hp, hp ▸ ht]
      · simp [Record.assign_of_ne _ hp, hp]
  · rw [if_neg hk, mergeEntry]
    cases ht : t.own? k' with
    | some w => exact t.own?_set_of_ne hk _
    | none => exact t.own?_assign_of_ne hk _

theorem own?_foldl_mergeEntry {es : List (JsString × α)} (hnd : (es.map Prod.fst).Nodup) (t : Record α)
    (k : JsString) : (es.foldl (mergeEntry m) t).own? k = mergedAt m k (t.own? k) (ownEntry k es) := by
  induction es generalizing t with
  | nil => cases h : t.own? k <;> simp [ownEntry, mergedAt, h]
  | cons e es ih =>
    rw [List.map_cons, List.nodup_cons] at hnd
    rw [List.foldl_cons, ih hnd.2, own?_mergeEntry, ownEntry]
    by_cases hk : k = e.1
    · have hnone : ownEntry k es = none := ownEntry_eq_none.mpr (hk ▸ hnd.1)
      rw [if_pos hk, if_pos hk.symm, hnone]
      cases mergedAt m k (t.own? k) (some e.2) <;> rfl
    · rw [if_neg hk, if_neg (Ne.symm hk)]

theorem own?_mergeInto (t s : Record α) (k : JsString) :
    (mergeInto m t s).own? k = mergedAt m k (t.own? k) (s.own? k) := own?_foldl_mergeEntry s.nodup t k

theorem sameRecord_mergeInto (hm : ∀ x x' y y', R x x' → R y y' → R (m x y) (m x' y')) {t t' s s' : Record α}
    (ht : SameRecord R t t') (hs : SameRecord R s s') : SameRecord R (mergeInto m t s) (mergeInto m t' s') := by
  intro k
  rw [own?_mergeInto, own?_mergeInto]
  have htk := ht k
  have hsk := hs k
  generalize t.own? k = dst at htk
  generalize t'.own? k = dst' at htk
  generalize s.own? k = src at hsk
  generalize s'.own? k = src' at hsk
  cases hsk with
  | none =>
    cases htk with
    | none => exact .none
    | some hd => exact .some hd
  | some hv =>
    cases htk with
    | some hd => exact .some (hm _ _ _ _ hd hv)
    | none =>
      simp only [mergedAt]
      split
      · exact .none
      · exact .some hv

theorem rel_mergeOptional (hm : ∀ x x' y y', R x x' → R y y' → R (m x y) (m x' y')) {t t' s s' : Option α}
    (ht : Option.Rel R t t') (hs : Option.Rel R s s') :
    Option.Rel R (mergeOptional m t s) (mergeOptional m t' s') := by
  cases hs with
  | none => cases ht <;> exact .none
  | some hv =>
    cases ht with
    | none => exact .some hv
    | some hd => exact .some (hm _ _ _ _ hd hv)

theorem leaf_congr (x x' y y' : α) (_ : R x x') (h : R y y') : R (mergeLeaf x y) (mergeLeaf x' y') := h

/-- Any function respects equality. -/
theorem eq_congr (m : α → α → α) (x x' y y' : α) (hx : x = x') (hy : y = y') : m x y = m x' y' := by rw [hx, hy]

end

theorem SameBudget.merge {s s' d d' : BudgetState} (hs : SameBudget s s') (hd : SameBudget d d') :
    SameBudget (mergeBudget s d) (mergeBudget s' d') where
  budgetLimit := sameRecord_mergeInto leaf_congr hs.budgetLimit hd.budgetLimit
  spentInPeriod := sameRecord_mergeInto leaf_congr hs.spentInPeriod hd.spentInPeriod

theorem SameVelocity.merge {s s' d d' : VelocityState} (hs : SameVelocity s s') (hd : SameVelocity d d') :
    SameVelocity (mergeVelocity s d) (mergeVelocity s' d') where
  config := by
    simp only [mergeVelocity, mergeLeaf, hd.config]
  counters := sameRecord_mergeInto (eq_congr _) hs.counters hd.counters

theorem SameReplay.merge {s s' d d' : ReplayState} (hs : SameReplay s s') (hd : SameReplay d d') :
    SameReplay (mergeReplay s d) (mergeReplay s' d') where
  windowSeconds := hd.windowSeconds
  maxNoncesPerAgent := hd.maxNoncesPerAgent
  nonces := sameRecord_mergeInto leaf_congr hs.nonces hd.nonces

theorem SameConcurrency.merge {s s' d d' : ConcurrencyState} (hs : SameConcurrency s s')
    (hd : SameConcurrency d d') : SameConcurrency (mergeConcurrency s d) (mergeConcurrency s' d') where
  maxConcurrent := sameRecord_mergeInto leaf_congr hs.maxConcurrent hd.maxConcurrent
  active := sameRecord_mergeInto leaf_congr hs.active hd.active
  activeAuths := sameRecord_mergeInto (fun _ _ _ _ hx hy => sameRecord_mergeInto (eq_congr _) hx hy)
    hs.activeAuths hd.activeAuths

theorem SameToolState.merge {s s' d d' : ToolLimitsState} (hs : SameToolState s s') (hd : SameToolState d d') :
    SameToolState (mergeToolLimits s d) (mergeToolLimits s' d') where
  windowSeconds := hd.windowSeconds
  maxCalls := sameRecord_mergeInto leaf_congr hs.maxCalls hd.maxCalls
  maxCallsByTool := by
    have htools := fun x x' y y' => @sameRecord_mergeInto (Option JsNumber) mergeLeaf (· = ·) leaf_congr x x' y y'
    refine rel_mergeOptional ?_ hs.maxCallsByTool hd.maxCallsByTool
    intro x x' y y' hx hy
    refine sameRecord_mergeInto ?_ hx hy
    intro o o' p p' ho hp
    exact rel_mergeOptional htools ho hp
  calls := sameRecord_mergeInto leaf_congr hs.calls hd.calls

theorem rel_elim {α : Type*} {R : α → α → Prop} {f f' : α → α} {x x' : α} {o o' : Option α} (hx : R x x')
    (hf : ∀ y y', R y y' → R (f y) (f' y')) (h : Option.Rel R o o') : R (o.elim x f) (o'.elim x' f') := by
  cases h with
  | none => exact hx
  | some hy => exact hf _ _ hy

/-- The merge respects the order things were written in as little as its arguments do. -/
theorem SameState.merge {s s' : State} {d d' : StateDelta} (h : SameState s s') (hd : SameDelta d d') :
    SameState (deepMerge s d) (deepMerge s' d') where
  policyVersion := h.policyVersion
  periodId := h.periodId
  killSwitch := h.killSwitch
  allowlists := h.allowlists
  budget := rel_elim h.budget (fun _ _ => h.budget.merge) hd.budget
  maxAmountPerAction := h.maxAmountPerAction
  velocity := rel_elim h.velocity (fun _ _ => h.velocity.merge) hd.velocity
  replay := rel_elim h.replay (fun _ _ => h.replay.merge) hd.replay
  concurrency := rel_elim h.concurrency (fun _ _ => h.concurrency.merge) hd.concurrency
  recursion := h.recursion
  toolLimits := rel_elim h.toolLimits (fun _ _ => h.toolLimits.merge) hd.toolLimits

end OxDeAI
