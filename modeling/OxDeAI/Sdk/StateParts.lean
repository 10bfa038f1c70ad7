import OxDeAI.Core.Types
import OxDeAI.Sdk.StateReader

/-! The states among the runtime values, and the state that is read of one that was stored. -/

namespace OxDeAI

open Js

namespace Reader

def actionType : Reader ActionType
  | .str s => [.payment, .purchase, .provision, .onchainTx].find? (fun a => a.text = s)
  | _ => none

def counter : Reader VelocityCounter :=
  into (both (member (js "window_start") number) (member (js "count") number)) (fun p => ⟨p.1, p.2⟩)

def nonceEntry : Reader NonceEntry :=
  into (both (member (js "nonce") text) (member (js "ts") number)) (fun p => ⟨p.1, p.2⟩)

def lease : Reader Lease := into (member (js "expires_at") number) (fun n => ⟨n⟩)

def toolCall : Reader ToolCall :=
  into (both (member (js "ts") number) (member (js "tool") (optional text))) (fun p => ⟨p.1, p.2⟩)

def killSwitch : Reader KillSwitchState :=
  into (both (member (js "global") flag) (member (js "agents") (record flag))) (fun p => ⟨p.1, p.2⟩)

def allowlists : Reader AllowLists :=
  ofRecord (into (both (member (js "action_types") (optional (list actionType)))
    (both (member (js "assets") (optional (list text))) (member (js "targets") (optional (list text)))))
    (fun p => ⟨p.1, p.2.1, p.2.2⟩))

def budget (limits : Reader (Record ℤ)) : Reader BudgetState :=
  into (both (member (js "budget_limit") limits) (member (js "spent_in_period") limits)) (fun p => ⟨p.1, p.2⟩)

def velocityConfig : Reader VelocityConfig :=
  into (both (member (js "window_seconds") number) (member (js "max_actions") number)) (fun p => ⟨p.1, p.2⟩)

def velocity : Reader VelocityState :=
  into (both (member (js "config") velocityConfig) (member (js "counters") (record (optional counter))))
    (fun p => ⟨p.1, p.2⟩)

def replay : Reader ReplayState :=
  into (both (member (js "window_seconds") number) (both (member (js "max_nonces_per_agent") number)
    (member (js "nonces") (record (list nonceEntry))))) (fun p => ⟨p.1, p.2.1, p.2.2⟩)

def concurrency : Reader ConcurrencyState :=
  into (both (member (js "max_concurrent") (record number)) (both (member (js "active") (record number))
    (member (js "active_auths") (record (record lease))))) (fun p => ⟨p.1, p.2.1, p.2.2⟩)

def recursion : Reader RecursionState := into (member (js "max_depth") (record number)) (fun r => ⟨r⟩)

def toolLimits : Reader ToolLimitsState :=
  into (both (member (js "window_seconds") number) (both (member (js "max_calls") (record (optional number)))
    (both (member (js "max_calls_by_tool") (optional (record (optional (record (optional number))))))
      (member (js "calls") (record (optional (list toolCall))))))) (fun p => ⟨p.1, p.2.1, p.2.2.1, p.2.2.2⟩)

/-- With readers for the maps of bigints. -/
def stateOf (limits : Reader (Record ℤ)) (caps : Reader (Record (Option ℤ))) : Reader State :=
  into (both (member (js "policy_version") text) (both (member (js "period_id") text)
    (both (member (js "kill_switch") killSwitch) (both (member (js "allowlists") allowlists)
    (both (member (js "budget") (budget limits)) (both (member (js "max_amount_per_action") caps)
    (both (member (js "velocity") velocity) (both (member (js "replay") replay)
    (both (member (js "concurrency") concurrency) (both (member (js "recursion") recursion)
      (member (js "tool_limits") toolLimits)))))))))))
    (fun p => ⟨p.1, p.2.1, p.2.2.1, p.2.2.2.1, p.2.2.2.2.1, p.2.2.2.2.2.1, p.2.2.2.2.2.2.1, p.2.2.2.2.2.2.2.1,
      p.2.2.2.2.2.2.2.2.1, p.2.2.2.2.2.2.2.2.2.1, p.2.2.2.2.2.2.2.2.2.2⟩)

def state : Reader State := stateOf (record amount) (record (optional amount))

/-- A state whose bigints are still to be read. -/
def fileState : Reader State := stateOf (bigInts amount) (bigInts (optional amount))

end Reader

/-- The limits, with the calls related one by one. -/
structure SameLimits (C : ToolCall → ToolCall → Prop) (a b : ToolLimitsState) : Prop where
  windowSeconds : a.windowSeconds = b.windowSeconds
  maxCalls : ButProto (· = ·) a.maxCalls b.maxCalls
  maxCallsByTool : Option.Rel (ButProto (Option.Rel (ButProto (· = ·)))) a.maxCallsByTool b.maxCallsByTool
  calls : ButProto (Option.Rel (List.Forall₂ C)) a.calls b.calls

/-- The parts agree but for `__proto__`, and the calls of an agent are related one by one. -/
structure Reloaded (C : ToolCall → ToolCall → Prop) (s s' : State) : Prop where
  policyVersion : s.policyVersion = s'.policyVersion
  periodId : s.periodId = s'.periodId
  globalSwitch : s.killSwitch.globalSwitch = s'.killSwitch.globalSwitch
  agents : ButProto (· = ·) s.killSwitch.agents s'.killSwitch.agents
  allowlists : s.allowlists = s'.allowlists
  budgetLimit : ButProto (· = ·) s.budget.budgetLimit s'.budget.budgetLimit
  spentInPeriod : ButProto (· = ·) s.budget.spentInPeriod s'.budget.spentInPeriod
  maxAmountPerAction : ButProto (· = ·) s.maxAmountPerAction s'.maxAmountPerAction
  config : s.velocity.config = s'.velocity.config
  counters : ButProto (· = ·) s.velocity.counters s'.velocity.counters
  replayWindow : s.replay.windowSeconds = s'.replay.windowSeconds
  maxNonces : s.replay.maxNoncesPerAgent = s'.replay.maxNoncesPerAgent
  nonces : ButProto (· = ·) s.replay.nonces s'.replay.nonces
  maxConcurrent : ButProto (· = ·) s.concurrency.maxConcurrent s'.concurrency.maxConcurrent
  active : ButProto (· = ·) s.concurrency.active s'.concurrency.active
  activeAuths : ButProto (ButProto (· = ·)) s.concurrency.activeAuths s'.concurrency.activeAuths
  maxDepth : ButProto (· = ·) s.recursion.maxDepth s'.recursion.maxDepth
  toolLimits : SameLimits C s.toolLimits s'.toolLimits

/-- One call, perhaps with a name where there was none. -/
structure CallDrift (c c' : ToolCall) : Prop where
  ts : c.ts = c'.ts
  tool : Drift c.tool c'.tool

def Given (v : JsValue) : Prop := v ≠ .undefined

/-- Where a number can stand it is finite, and what can be left out is not there with no value. -/
structure Writable (v : JsValue) : Prop where
  allowlists : Within (js "allowlists") (fun x => Within (js "action_types") Given x ∧ Within (js "assets") Given x ∧
    Within (js "targets") Given x) v
  maxAmountPerAction : Within (js "max_amount_per_action") (Each Given) v
  velocity : Within (js "velocity") (fun x => Within (js "config") (fun c => Within (js "window_seconds") FiniteNumber c ∧
      Within (js "max_actions") FiniteNumber c) x ∧
    Within (js "counters") (Each (Defined (fun c => Within (js "window_start") FiniteNumber c ∧
      Within (js "count") FiniteNumber c))) x) v
  replay : Within (js "replay") (fun x => Within (js "window_seconds") FiniteNumber x ∧
    Within (js "max_nonces_per_agent") FiniteNumber x ∧
      Within (js "nonces") (Each (Items (Within (js "ts") FiniteNumber))) x) v
  concurrency : Within (js "concurrency") (fun x => Within (js "max_concurrent") (Each FiniteNumber) x ∧
    Within (js "active") (Each FiniteNumber) x ∧
      Within (js "active_auths") (Each (Each (Within (js "expires_at") FiniteNumber))) x) v
  recursion : Within (js "recursion") (Within (js "max_depth") (Each FiniteNumber)) v
  toolLimits : Within (js "tool_limits") (fun x => Within (js "window_seconds") FiniteNumber x ∧
    Within (js "max_calls") (Each (Defined FiniteNumber)) x ∧
    Within (js "max_calls_by_tool") (Defined (Each (Defined (Each (Defined FiniteNumber))))) x ∧
    Within (js "calls") (Each (Defined (Items (fun c => Within (js "ts") FiniteNumber c ∧ Within (js "tool") Given c)))) x) v

section

variable {sourceText : JsValue → JsString} {α β : Type} {f f' : Reader α} {g g' : Reader β} {W R W' R' : α → α → Prop}
  {k k' : JsValue → Prop} {key : JsString} {v : JsValue}

theorem Reloads.congr (h : Reloads sourceText f f' W R k) (hW : ∀ a a', W a a' → W' a a') (hR : ∀ a a', R a a' ↔ R' a a')
    (hk : ∀ v, k v ↔ k' v) : Reloads sourceText f f' W' R' k' where
  related hv ha ha' := hW _ _ (h.related hv ha ha')
  kept_iff hv ha := by
    rw [← hk, ← h.kept_iff hv ha]
    simp only [hR]

@[simp] theorem within_true : Within key (fun _ => True) = fun _ => True := by
  funext v
  simp [Within]

@[simp] theorem items_true : Items (fun _ => True) = fun _ => True := by
  funext v
  simp [Items]

@[simp] theorem each_true : Each (fun _ => True) = fun _ => True := by
  funext v
  simp [Each]

@[simp] theorem defined_true : Defined (fun _ => True) = Given := by
  funext v
  simp [Defined, Given]

theorem forall₂_eq {l l' : List α} : List.Forall₂ (· = ·) l l' ↔ l = l' := by rw [List.forall₂_eq_eq_eq]

theorem reloads_actionType : Reloads sourceText Reader.actionType Reader.actionType (· = ·) (· = ·) (fun _ => True) where
  related {v a a'} _ h h' := by
    cases v with
    | str s => exact Option.some.inj (h.symm.trans h')
    | _ => cases h
  kept_iff {v a} _ h := by
    cases v with
    | str s => exact ⟨fun _ => trivial, fun _ => ⟨a, h, rfl⟩⟩
    | _ => cases h

/-- Of a number under a key. -/
theorem reloads_numberAt (hkey : key ≠ protoKey) : Reloads sourceText (Reader.member key Reader.number)
    (Reader.member key Reader.number) (· = ·) (· = ·) (Within key FiniteNumber) :=
  reloads_number.member hkey (keepsAbsence_of_none rfl)

theorem reloads_textAt (hkey : key ≠ protoKey) : Reloads sourceText (Reader.member key Reader.text)
    (Reader.member key Reader.text) (· = ·) (· = ·) (fun _ => True) :=
  (reloads_text.member hkey (keepsAbsence_of_none rfl)).congr (fun _ _ h => h) (fun _ _ => Iff.rfl) (by simp)

theorem bothRel_eq {p q : α × β} : BothRel (· = ·) (· = ·) p q ↔ p = q := Prod.ext_iff.symm

theorem optionRel_eq {o o' : Option α} : Option.Rel (· = ·) o o' ↔ o = o' := by
  constructor
  · intro h
    cases h with
    | some h => rw [h]
    | none => rfl
  · rintro rfl
    cases o with
    | none => exact .none
    | some a => exact .some rfl

/-- Related as their parts are. -/
theorem Reloads.made {m : α → β} (parts : β → α) (hparts : ∀ a, parts (m a) = a)
    (hf : Reloads sourceText f f' W R k) : Reloads sourceText (Reader.into f m) (Reader.into f' m)
      (fun b b' => W (parts b) (parts b')) (fun b b' => R (parts b) (parts b')) k := by
  apply hf.into
  · intro a a' h
    rw [hparts, hparts]
    exact h
  · intro a a'
    rw [hparts, hparts]

theorem Reloads.madeEq {make : α → β} (hinj : Function.Injective make)
    (hf : Reloads sourceText f f' (· = ·) (· = ·) k) :
    Reloads sourceText (Reader.into f make) (Reader.into f' make) (· = ·) (· = ·) k :=
  hf.into (fun _ _ h => congrArg make h) (fun _ _ => hinj.eq_iff)

theorem Reloads.bothEq {k' : JsValue → Prop} (hf : Reloads sourceText f f' (· = ·) (· = ·) k)
    (hg : Reloads sourceText g g' (· = ·) (· = ·) k') :
    Reloads sourceText (Reader.both f g) (Reader.both f' g') (· = ·) (· = ·) (fun v => k v ∧ k' v) :=
  (hf.both hg).congr (fun _ _ h => bothRel_eq.mp h) (fun _ _ => bothRel_eq) (fun _ => Iff.rfl)

theorem Reloads.listEq (hf : Reloads sourceText f f' (· = ·) (· = ·) k) :
    Reloads sourceText (Reader.list f) (Reader.list f') (· = ·) (· = ·) (Items k) :=
  hf.list.congr (fun _ _ h => forall₂_eq.mp h) (fun _ _ => forall₂_eq) (fun _ => Iff.rfl)

theorem Reloads.optionalEq (hf : Reloads sourceText f f' (· = ·) (· = ·) k) (htext : ∀ s, f' (.str s) = none) :
    Reloads sourceText (Reader.optional f) (Reader.optional f') (· = ·) (· = ·) (Defined k) :=
  (hf.optional htext).congr (fun _ _ h => optionRel_eq.mp h) (fun _ _ => optionRel_eq) (fun _ => Iff.rfl)

theorem reloads_counter : Reloads sourceText Reader.counter Reader.counter (· = ·) (· = ·)
    (fun c => Within (js "window_start") FiniteNumber c ∧ Within (js "count") FiniteNumber c) := by
  apply Reloads.madeEq
  · rintro ⟨a, b⟩ ⟨a', b'⟩ h
    cases h
    rfl
  · exact (reloads_numberAt (by decide)).bothEq (reloads_numberAt (by decide))

theorem reloads_nonceEntry : Reloads sourceText Reader.nonceEntry Reader.nonceEntry (· = ·) (· = ·)
    (Within (js "ts") FiniteNumber) := by
  apply Reloads.madeEq
  · rintro ⟨a, b⟩ ⟨a', b'⟩ h
    cases h
    rfl
  · have hboth := (@reloads_textAt sourceText _ (by decide : js "nonce" ≠ protoKey)).bothEq
      (reloads_numberAt (by decide : js "ts" ≠ protoKey))
    exact hboth.congr (fun _ _ h => h) (fun _ _ => Iff.rfl) (fun _ => by simp)

theorem reloads_lease : Reloads sourceText Reader.lease Reader.lease (· = ·) (· = ·)
    (Within (js "expires_at") FiniteNumber) := by
  apply Reloads.madeEq
  · rintro a a' h
    cases h
    rfl
  · exact reloads_numberAt (by decide)

theorem reloads_velocityConfig : Reloads sourceText Reader.velocityConfig Reader.velocityConfig (· = ·) (· = ·)
    (fun c => Within (js "window_seconds") FiniteNumber c ∧ Within (js "max_actions") FiniteNumber c) := by
  apply Reloads.madeEq
  · rintro ⟨a, b⟩ ⟨a', b'⟩ h
    cases h
    rfl
  · exact (reloads_numberAt (by decide)).bothEq (reloads_numberAt (by decide))

/-- A name may be read where there was none. -/
theorem reloads_toolCall : Reloads sourceText Reader.toolCall Reader.toolCall CallDrift (· = ·)
    (fun c => Within (js "ts") FiniteNumber c ∧ Within (js "tool") Given c) := by
  have htool := (@reloads_name sourceText).member (by decide : js "tool" ≠ protoKey)
    (keepsAbsence_optional (.inl rfl) rfl)
  apply ((reloads_numberAt (by decide)).both htool).into
  · intro a a' h
    exact ⟨h.1, h.2⟩
  · rintro ⟨a, b⟩ ⟨a', b'⟩
    simp [BothRel]

/-- A list that may be left out. -/
theorem reloads_listAt (hkey : key ≠ protoKey) (hf : Reloads sourceText f f (· = ·) (· = ·) (fun _ => True)) :
    Reloads sourceText (Reader.member key (Reader.optional (Reader.list f)))
      (Reader.member key (Reader.optional (Reader.list f))) (· = ·) (· = ·) (Within key Given) := by
  have hlist := (hf.listEq.optionalEq (fun _ => rfl)).member hkey (keepsAbsence_optional rfl rfl)
  exact hlist.congr (fun _ _ h => h) (fun _ _ => Iff.rfl) (fun _ => by simp)

theorem reloads_allowlists : Reloads sourceText Reader.allowlists Reader.allowlists (· = ·) (· = ·)
    (fun x => Within (js "action_types") Given x ∧ Within (js "assets") Given x ∧ Within (js "targets") Given x) := by
  apply Reloads.ofRecord
  apply Reloads.madeEq
  · rintro ⟨a, b, c⟩ ⟨a', b', c'⟩ h
    cases h
    rfl
  · exact (reloads_listAt (by decide) reloads_actionType).bothEq
      ((reloads_listAt (by decide) reloads_text).bothEq (reloads_listAt (by decide) reloads_text))

/-- A map that is always there. -/
theorem reloads_recordAt (hkey : key ≠ protoKey) (hf : Reloads sourceText f f' W R k) :
    Reloads sourceText (Reader.member key (Reader.record f)) (Reader.member key (Reader.record f')) (ButProto W)
      (ButProto R) (Within key (Each k)) :=
  hf.record.member hkey (keepsAbsence_of_none rfl)

theorem reloads_killSwitch : Reloads sourceText Reader.killSwitch Reader.killSwitch
    (fun a b => a.globalSwitch = b.globalSwitch ∧ ButProto (· = ·) a.agents b.agents)
    (fun a b => a.globalSwitch = b.globalSwitch ∧ ButProto (· = ·) a.agents b.agents) (fun _ => True) := by
  have hflag := (@reloads_flag sourceText).member (by decide : js "global" ≠ protoKey) (keepsAbsence_of_none rfl)
  have hagents := reloads_recordAt (by decide : js "agents" ≠ protoKey) (@reloads_flag sourceText)
  have hmade := (hflag.both hagents).made (m := fun p => (⟨p.1, p.2⟩ : KillSwitchState))
    (fun s => (s.globalSwitch, s.agents)) (fun _ => rfl)
  exact hmade.congr (fun _ _ h => h) (fun _ _ => Iff.rfl) (fun _ => by simp)

theorem reloads_budget : Reloads sourceText (Reader.budget (Reader.record Reader.amount))
    (Reader.budget (Reader.bigInts Reader.amount))
    (fun a b => ButProto (· = ·) a.budgetLimit b.budgetLimit ∧ ButProto (· = ·) a.spentInPeriod b.spentInPeriod)
    (fun a b => ButProto (· = ·) a.budgetLimit b.budgetLimit ∧ ButProto (· = ·) a.spentInPeriod b.spentInPeriod)
    (fun _ => True) := by
  have hlimits (key : JsString) (hkey : key ≠ protoKey) := (@reloads_amount sourceText).bigInts.member
    hkey (keepsAbsence_of_none rfl)
  have hmade := ((hlimits (js "budget_limit") (by decide)).both (hlimits (js "spent_in_period") (by decide))).made
    (m := fun p => (⟨p.1, p.2⟩ : BudgetState)) (fun s => (s.budgetLimit, s.spentInPeriod)) (fun _ => rfl)
  exact hmade.congr (fun _ _ h => h) (fun _ _ => Iff.rfl) (fun _ => by simp)

theorem reloads_velocity : Reloads sourceText Reader.velocity Reader.velocity
    (fun a b => a.config = b.config ∧ ButProto (· = ·) a.counters b.counters)
    (fun a b => a.config = b.config ∧ ButProto (· = ·) a.counters b.counters)
    (fun x => Within (js "config") (fun c => Within (js "window_seconds") FiniteNumber c ∧
      Within (js "max_actions") FiniteNumber c) x ∧ Within (js "counters") (Each (Defined (fun c =>
        Within (js "window_start") FiniteNumber c ∧ Within (js "count") FiniteNumber c))) x) := by
  have hconfig := (@reloads_velocityConfig sourceText).member (by decide : js "config" ≠ protoKey)
    (keepsAbsence_of_none rfl)
  have hcounters := reloads_recordAt (by decide : js "counters" ≠ protoKey)
    ((@reloads_counter sourceText).optionalEq (fun _ => rfl))
  exact (hconfig.both hcounters).made (m := fun p => (⟨p.1, p.2⟩ : VelocityState)) (fun s => (s.config, s.counters))
    (fun _ => rfl)

theorem reloads_replay : Reloads sourceText Reader.replay Reader.replay
    (fun a b => a.windowSeconds = b.windowSeconds ∧ a.maxNoncesPerAgent = b.maxNoncesPerAgent ∧
      ButProto (· = ·) a.nonces b.nonces)
    (fun a b => a.windowSeconds = b.windowSeconds ∧ a.maxNoncesPerAgent = b.maxNoncesPerAgent ∧
      ButProto (· = ·) a.nonces b.nonces)
    (fun x => Within (js "window_seconds") FiniteNumber x ∧ Within (js "max_nonces_per_agent") FiniteNumber x ∧
      Within (js "nonces") (Each (Items (Within (js "ts") FiniteNumber))) x) := by
  have hnonces := reloads_recordAt (by decide : js "nonces" ≠ protoKey)
    (@reloads_nonceEntry sourceText).listEq
  have hnumber (key : JsString) (hkey : key ≠ protoKey) := @reloads_numberAt sourceText _ hkey
  exact ((hnumber (js "window_seconds") (by decide)).both ((hnumber (js "max_nonces_per_agent") (by decide)).both
    hnonces)).made (m := fun p => (⟨p.1, p.2.1, p.2.2⟩ : ReplayState)) (fun s => (s.windowSeconds, s.maxNoncesPerAgent, s.nonces))
    (fun _ => rfl)

theorem reloads_concurrency : Reloads sourceText Reader.concurrency Reader.concurrency
    (fun a b => ButProto (· = ·) a.maxConcurrent b.maxConcurrent ∧ ButProto (· = ·) a.active b.active ∧
      ButProto (ButProto (· = ·)) a.activeAuths b.activeAuths)
    (fun a b => ButProto (· = ·) a.maxConcurrent b.maxConcurrent ∧ ButProto (· = ·) a.active b.active ∧
      ButProto (ButProto (· = ·)) a.activeAuths b.activeAuths)
    (fun x => Within (js "max_concurrent") (Each FiniteNumber) x ∧ Within (js "active") (Each FiniteNumber) x ∧
      Within (js "active_auths") (Each (Each (Within (js "expires_at") FiniteNumber))) x) := by
  have hnumbers (key : JsString) (hkey : key ≠ protoKey) := reloads_recordAt hkey (@reloads_number sourceText)
  have hauths := reloads_recordAt (by decide : js "active_auths" ≠ protoKey)
    (@reloads_lease sourceText).record
  exact ((hnumbers (js "max_concurrent") (by decide)).both ((hnumbers (js "active") (by decide)).both hauths)).made
    (m := fun p => (⟨p.1, p.2.1, p.2.2⟩ : ConcurrencyState)) (fun s => (s.maxConcurrent, s.active, s.activeAuths))
    (fun _ => rfl)

theorem reloads_recursion : Reloads sourceText Reader.recursion Reader.recursion
    (fun a b => ButProto (· = ·) a.maxDepth b.maxDepth) (fun a b => ButProto (· = ·) a.maxDepth b.maxDepth)
    (Within (js "max_depth") (Each FiniteNumber)) := by
  have hdepth := reloads_recordAt (by decide : js "max_depth" ≠ protoKey) (@reloads_number sourceText)
  exact hdepth.made (m := fun r => (⟨r⟩ : RecursionState)) (fun s => s.maxDepth) (fun _ => rfl)

theorem reloads_toolLimits : Reloads sourceText Reader.toolLimits Reader.toolLimits (SameLimits CallDrift)
    (SameLimits (· = ·)) (fun x => Within (js "window_seconds") FiniteNumber x ∧
      Within (js "max_calls") (Each (Defined FiniteNumber)) x ∧
      Within (js "max_calls_by_tool") (Defined (Each (Defined (Each (Defined FiniteNumber))))) x ∧
      Within (js "calls") (Each (Defined (Items (fun c => Within (js "ts") FiniteNumber c ∧
        Within (js "tool") Given c)))) x) := by
  have hcap := (@reloads_number sourceText).optionalEq (fun _ => rfl)
  have hcaps := reloads_recordAt (by decide : js "max_calls" ≠ protoKey) hcap
  have hbyTool := (((hcap.record.optional (fun _ => rfl)).record).optional (fun _ => rfl)).member
    (by decide : js "max_calls_by_tool" ≠ protoKey) (keepsAbsence_optional .none .none)
  have hcalls := reloads_recordAt (by decide : js "calls" ≠ protoKey)
    ((@reloads_toolCall sourceText).list.optional (fun _ => rfl))
  have hmade := ((reloads_numberAt (by decide : js "window_seconds" ≠ protoKey)).both (hcaps.both (hbyTool.both hcalls))).made
    (m := fun p => (⟨p.1, p.2.1, p.2.2.1, p.2.2.2⟩ : ToolLimitsState))
    (fun s => (s.windowSeconds, s.maxCalls, s.maxCallsByTool, s.calls)) (fun _ => rfl)
  apply hmade.congr
  · intro a b h
    exact ⟨h.1, h.2.1, h.2.2.1, h.2.2.2⟩
  · intro a b
    constructor
    · intro h
      exact ⟨h.1, h.2.1, h.2.2.1, h.2.2.2⟩
    · intro h
      exact ⟨h.1, h.2, h.3, h.4⟩
  · exact fun _ => Iff.rfl

/-- The parts of a state are read apart. -/
theorem reloads_state : Reloads sourceText Reader.state Reader.fileState (Reloaded CallDrift) (Reloaded (· = ·))
    Writable := by
  have hcaps := (@reloads_cap sourceText).bigInts.member (by decide : js "max_amount_per_action" ≠ protoKey)
    (keepsAbsence_of_none rfl)
  have hmember {α : Type} {f f' : Reader α} {W R : α → α → Prop} {k : JsValue → Prop} (key : JsString)
      (hkey : key ≠ protoKey) (hnone : f .undefined = none) (hf : Reloads sourceText f f' W R k) :=
    hf.member hkey (keepsAbsence_of_none hnone)
  have hall := (reloads_textAt (by decide : js "policy_version" ≠ protoKey)).both <|
    (reloads_textAt (by decide : js "period_id" ≠ protoKey)).both <|
    (hmember (js "kill_switch") (by decide) rfl reloads_killSwitch).both <|
    (hmember (js "allowlists") (by decide) rfl reloads_allowlists).both <|
    (hmember (js "budget") (by decide) rfl reloads_budget).both <|
    hcaps.both <|
    (hmember (js "velocity") (by decide) rfl reloads_velocity).both <|
    (hmember (js "replay") (by decide) rfl reloads_replay).both <|
    (hmember (js "concurrency") (by decide) rfl reloads_concurrency).both <|
    (hmember (js "recursion") (by decide) rfl reloads_recursion).both
    (hmember (js "tool_limits") (by decide) rfl reloads_toolLimits)
  have hmade := hall.made (m := fun p => (⟨p.1, p.2.1, p.2.2.1, p.2.2.2.1, p.2.2.2.2.1, p.2.2.2.2.2.1,
      p.2.2.2.2.2.2.1, p.2.2.2.2.2.2.2.1, p.2.2.2.2.2.2.2.2.1, p.2.2.2.2.2.2.2.2.2.1,
      p.2.2.2.2.2.2.2.2.2.2⟩ : State))
    (fun s => (s.policyVersion, s.periodId, s.killSwitch, s.allowlists, s.budget, s.maxAmountPerAction, s.velocity,
      s.replay, s.concurrency, s.recursion, s.toolLimits)) (fun _ => rfl)
  apply hmade.congr
  · intro a b h
    obtain ⟨hpolicy, hperiod, ⟨hglobal, hagents⟩, hallow, ⟨hlimit, hspent⟩, hcap, ⟨hconfig, hcounters⟩,
      ⟨hwindow, hnonces, hreplay⟩, ⟨hmax, hactive, hauths⟩, hdepth, htool⟩ := h
    exact ⟨hpolicy, hperiod, hglobal, hagents, hallow, hlimit, hspent, hcap, hconfig, hcounters, hwindow, hnonces,
      hreplay, hmax, hactive, hauths, hdepth, htool⟩
  · intro a b
    constructor
    · intro h
      obtain ⟨hpolicy, hperiod, ⟨hglobal, hagents⟩, hallow, ⟨hlimit, hspent⟩, hcap, ⟨hconfig, hcounters⟩,
        ⟨hwindow, hnonces, hreplay⟩, ⟨hmax, hactive, hauths⟩, hdepth, htool⟩ := h
      exact ⟨hpolicy, hperiod, hglobal, hagents, hallow, hlimit, hspent, hcap, hconfig, hcounters, hwindow, hnonces,
        hreplay, hmax, hactive, hauths, hdepth, htool⟩
    · intro h
      exact ⟨h.policyVersion, h.periodId, ⟨h.globalSwitch, h.agents⟩, h.allowlists, ⟨h.budgetLimit, h.spentInPeriod⟩,
        h.maxAmountPerAction, ⟨h.config, h.counters⟩, ⟨h.replayWindow, h.maxNonces, h.nonces⟩,
        ⟨h.maxConcurrent, h.active, h.activeAuths⟩, h.maxDepth, h.toolLimits⟩
  · intro v
    simp only [within_true, true_and]
    constructor
    · intro h
      obtain ⟨hallow, hcap, hvelocity, hreplay, hconcurrency, hdepth, htool⟩ := h
      exact ⟨hallow, hcap, hvelocity, hreplay, hconcurrency, hdepth, htool⟩
    · intro h
      exact ⟨h.allowlists, h.maxAmountPerAction, h.velocity, h.replay, h.concurrency, h.recursion, h.toolLimits⟩

end

end OxDeAI
