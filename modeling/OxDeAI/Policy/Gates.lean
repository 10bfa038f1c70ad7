import OxDeAI.Core.StateGuards

/-! The modules that only permit or refuse: kill switch, allowlists, recursion
depth. -/

namespace OxDeAI

open Js

abbrev PolicyModule := Intent → State → PolicyEvaluationContext → Except JsError PolicyResult

def killSwitchModule : PolicyModule := fun intent state _ =>
  if state.killSwitch.globalSwitch then .ok (.deny [.killSwitch])
  else if state.killSwitch.agents.get intent.agentId = .own true then .ok (.deny [.killSwitch])
  else .ok (.allow none)

/-- An allowlist that is present and not empty, and does not hold the value. -/
def refuses {α : Type*} [DecidableEq α] (list : Option (List α)) (v : α) : Bool :=
  match list with
  | some l => !l.isEmpty && !l.contains v
  | none => false

def allowlistModule : PolicyModule := fun intent state _ =>
  let al := state.allowlists
  let action : List ReasonCode := if refuses al.actionTypes intent.actionType then [.allowlistAction] else []
  let asset : List ReasonCode := match intent.asset with
    | some a => if a ≠ [] ∧ refuses al.assets a then [.allowlistAsset] else []
    | none => []
  let target : List ReasonCode := if refuses al.targets intent.target then [.allowlistTarget] else []
  let reasons := action ++ asset ++ target
  .ok (if reasons.isEmpty then .allow none else .deny reasons)

/-- A limit read from the prototype compares as `NaN`. -/
def recursionDepthModule : PolicyModule := fun intent state _ =>
  match state.recursion.maxDepth.get intent.agentId with
  | .absent => .ok (.deny [.stateInvalid])
  | .inherited _ => .ok (.allow none)
  | .own max =>
    if max.lt (intent.depth.getD (.int 0)) then .ok (.deny [.recursionDepthExceeded])
    else .ok (.allow none)

section

variable {intent : Intent} {state : State} {context : PolicyEvaluationContext}
  {delta : Option StateDelta}

theorem allow_none_iff :
    (Except.ok (.allow none) : Except JsError PolicyResult) = .ok (.allow delta) ↔ delta = none := by
  simp [eq_comm]

theorem killSwitchModule_allow :
    killSwitchModule intent state context = .ok (.allow delta) ↔
      delta = none ∧ state.killSwitch.globalSwitch = false ∧
        state.killSwitch.agents.own? intent.agentId ≠ some true := by
  rw [ne_eq, ← Record.get_eq_own, killSwitchModule]
  cases state.killSwitch.globalSwitch with
  | true => simp
  | false =>
    by_cases ha : state.killSwitch.agents.get intent.agentId = .own true
    · simp [ha]
    · simp only [ha, Bool.false_eq_true, if_false, allow_none_iff, not_false_eq_true, and_true]

/-- Whether the module objects to the asset of the intent. -/
def assetRefused (intent : Intent) (state : State) : Bool :=
  match intent.asset with
  | some a => a ≠ [] ∧ refuses state.allowlists.assets a
  | none => false

theorem allowlistModule_allow :
    allowlistModule intent state context = .ok (.allow delta) ↔
      delta = none ∧ refuses state.allowlists.actionTypes intent.actionType = false ∧
        assetRefused intent state = false ∧
        refuses state.allowlists.targets intent.target = false := by
  simp only [allowlistModule]
  cases refuses state.allowlists.actionTypes intent.actionType with
  | true => simp
  | false =>
    cases refuses state.allowlists.targets intent.target with
    | true => simp
    | false =>
      cases ha : intent.asset with
      | none => simp [assetRefused, ha, eq_comm]
      | some a =>
        by_cases hr : a ≠ [] ∧ refuses state.allowlists.assets a = true
        · simp [assetRefused, ha, hr]
        · simp only [assetRefused, ha, hr, decide_false, Bool.false_eq_true, if_false, List.append_nil,
            List.isEmpty_nil, if_true, allow_none_iff, and_true]

theorem recursionDepthModule_allow {max : JsNumber}
    (hmax : state.recursion.maxDepth.own? intent.agentId = some max) :
    recursionDepthModule intent state context = .ok (.allow delta) ↔
      delta = none ∧ max.lt (intent.depth.getD (.int 0)) = false := by
  simp only [recursionDepthModule, Record.get_of_own? _ hmax]
  cases max.lt (intent.depth.getD (.int 0)) with
  | true => simp
  | false => simp only [Bool.false_eq_true, if_false, allow_none_iff, and_true]

end

end OxDeAI
