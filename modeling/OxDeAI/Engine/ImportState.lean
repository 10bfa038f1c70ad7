import OxDeAI.Lib.Slots
import OxDeAI.Engine.Issue
import OxDeAI.Snapshot.CanonicalCodec
import OxDeAI.Snapshot.Deserialize

/-! Importing a canonical state: the codecs write one after the other, into the
state of the caller or into a clone of the engine's own. -/

namespace OxDeAI

open Js

/-- A state by the properties that the codecs assign, and the two they leave. -/
structure StateParts where
  policyVersion : JsString
  periodId : JsString
  part : (id : ModuleId) → ModulePart id

def State.part (state : State) : (id : ModuleId) → ModulePart id
  | .allowlist => ⟨state.allowlists.actionTypes.map (List.map ActionType.text), state.allowlists.assets,
      state.allowlists.targets⟩
  | .budget => ⟨.ofRecord state.budget.budgetLimit, .ofRecord state.budget.spentInPeriod,
      .ofRecord state.maxAmountPerAction⟩
  | .concurrency => ⟨.ofRecord state.concurrency.maxConcurrent, .ofRecord state.concurrency.active,
      .ofRecord (state.concurrency.activeAuths.mapValues .ofRecord)⟩
  | .killSwitch => ⟨state.killSwitch.globalSwitch, .ofRecord state.killSwitch.agents⟩
  | .recursionDepth => ⟨.ofRecord state.recursion.maxDepth⟩
  | .replay => ⟨state.replay.windowSeconds, state.replay.maxNoncesPerAgent, .ofRecord state.replay.nonces⟩
  | .toolAmplification => ⟨state.toolLimits.windowSeconds, .ofRecord state.toolLimits.maxCalls,
      state.toolLimits.maxCallsByTool.map (fun byTool =>
        .ofRecord (byTool.mapValues (Option.map .ofRecord))),
      .ofRecord state.toolLimits.calls⟩
  | .velocity => ⟨state.velocity.config, .ofRecord state.velocity.counters⟩

def State.parts (state : State) : StateParts := ⟨state.policyVersion, state.periodId, state.part⟩

/-- A structured clone of what one codec assigns. -/
def ModulePart.clone : (id : ModuleId) → ModulePart id → ModulePart id
  | .allowlist, part => part
  | .budget, part => ⟨part.budgetLimit.clone, part.spentInPeriod.clone, part.maxAmountPerAction.clone⟩
  | .concurrency, part => ⟨part.maxConcurrent.clone, part.active.clone,
      ⟨part.activeAuths.own.mapValues Filled.clone, none⟩⟩
  | .killSwitch, part => ⟨part.globalSwitch, part.agents.clone⟩
  | .recursionDepth, part => ⟨part.maxDepth.clone⟩
  | .replay, part => ⟨part.windowSeconds, part.maxNoncesPerAgent, part.nonces.clone⟩
  | .toolAmplification, part => ⟨part.windowSeconds, part.maxCalls.clone,
      part.maxCallsByTool.map (fun byTool => ⟨byTool.own.mapValues (Option.map Filled.clone), none⟩),
      part.calls.clone⟩
  | .velocity, part => ⟨part.config, part.counters.clone⟩

/-- `structuredClone(state)`. -/
def StateParts.clone (state : StateParts) : StateParts :=
  { state with part := fun id => ModulePart.clone id (state.part id) }

/-- A value of type `CanonicalState`, of any format version. -/
structure SnapshotValue where
  formatVersion : JsValue
  policyId : JsString
  modules : JsValue
  isRecord : modules.isRecord = true

/-- How a call ends, and the two states it may have written. -/
structure ImportOutcome where
  result : Except JsError Unit
  target : Option StateParts
  current : Option StateParts

section

variable (P : Platform) (e : PolicyEngine) (text : JsValue → Except JsError JsString)

/-- The checks before any write. The text of a version is `String(version)`. -/
def checkHeader (snapshot : SnapshotValue) : Except JsError Unit :=
  if !isOne snapshot.formatVersion then
    (text snapshot.formatVersion).bind (fun version =>
      .error (.error (js "importState: unsupported formatVersion=" ++ version)))
  else if snapshot.policyId ≠ computePolicyId P e then
    .error (.error (js "importState: policyId mismatch (state=" ++ snapshot.policyId ++ js ", engine=" ++
      computePolicyId P e ++ js ")"))
  else .ok ()

/-- What the codec of a module makes of its payload in the snapshot. -/
def moduleOf (snapshot : SnapshotValue) (id : ModuleId) : Except JsError (ModulePart id) :=
  deserializeState (snapshot.modules.field id.text) id

/-- The codecs in turn, each writing into the state. -/
def writeModules (snapshot : SnapshotValue) (state : StateParts) : Except JsError Unit × StateParts :=
  let out := Slots.writeEach (moduleOf snapshot) ModuleId.sorted state.part
  (out.1, { state with part := out.2 })

/-- `importState(target, state)`, or `importState(state)` where there is no target. -/
def importState (current target : Option StateParts) (snapshot : SnapshotValue) : ImportOutcome :=
  match checkHeader P e text snapshot with
  | .error err => ⟨.error err, target, current⟩
  | .ok () =>
    match target, current with
    | some state, _ =>
      let out := writeModules snapshot state
      match out.1 with
      | .error err => ⟨.error err, some out.2, current⟩
      | .ok () => ⟨.ok (), some out.2, some out.2.clone⟩
    | none, some state =>
      let out := writeModules snapshot state.clone
      match out.1 with
      | .error err => ⟨.error err, none, current⟩
      | .ok () => ⟨.ok (), none, some out.2.clone⟩
    | none, none => ⟨.error (.error (js "importState: engine has no mutable state target")), none, none⟩

end

section

variable {P : Platform} {e : PolicyEngine} {text : JsValue → Except JsError JsString}
  {current target : Option StateParts} {snapshot : SnapshotValue}

/-- The state holds all eight modules of the snapshot. -/
def Carries (snapshot : SnapshotValue) (state : StateParts) : Prop :=
  ∀ id, moduleOf snapshot id = .ok (state.part id)

/-- A call that throws has changed nothing, and one that returns has written every module. -/
structure Atomic (current target : Option StateParts) (snapshot : SnapshotValue) (out : ImportOutcome) :
    Prop where
  unchanged : ∀ err, out.result = .error err → out.target = target ∧ out.current = current
  complete : out.result = .ok () → ∃ state, Carries snapshot state ∧
    (target.isSome = true → out.target = some state) ∧ out.current = some state.clone

theorem mem_sorted (id : ModuleId) : id ∈ ModuleId.sorted := by
  cases id <;> decide

theorem writeModules_ok {state : StateParts} :
    (writeModules snapshot state).1 = .ok () ↔ ∀ id, ∃ part, moduleOf snapshot id = .ok part := by
  rw [writeModules, Slots.writeEach_ok_iff]
  constructor
  · intro h id
    exact h id (mem_sorted id)
  · intro h id _
    exact h id

theorem carries_of_ok {state : StateParts} (h : (writeModules snapshot state).1 = .ok ()) :
    Carries snapshot (writeModules snapshot state).2 := by
  intro id
  apply Slots.writeEach_of_mem
  rw [Slots.written_of_ok fun id _ => writeModules_ok.mp h id]
  exact mem_sorted id

theorem writeModules_eq_self {state : StateParts} : (writeModules snapshot state).2 = state ↔
    ∀ id ∈ Slots.written (moduleOf snapshot) ModuleId.sorted, moduleOf snapshot id = .ok (state.part id) := by
  rw [← Slots.writeEach_eq_self_iff]
  constructor
  · intro h
    exact congrArg StateParts.part h
  · intro h
    rw [writeModules, h]

theorem importState_rejected {err : JsError} (h : checkHeader P e text snapshot = .error err) :
    importState P e text current target snapshot = ⟨.error err, target, current⟩ := by
  simp only [importState, h]

theorem importState_target {state : StateParts} (h : checkHeader P e text snapshot = .ok ()) :
    importState P e text current (some state) snapshot =
      match (writeModules snapshot state).1 with
      | .error err => ⟨.error err, some (writeModules snapshot state).2, current⟩
      | .ok () => ⟨.ok (), some (writeModules snapshot state).2,
          some (writeModules snapshot state).2.clone⟩ := by
  simp only [importState, h]

theorem importState_own {state : StateParts} (h : checkHeader P e text snapshot = .ok ()) :
    importState P e text (some state) none snapshot =
      match (writeModules snapshot state.clone).1 with
      | .error err => ⟨.error err, none, some state⟩
      | .ok () => ⟨.ok (), none, some (writeModules snapshot state.clone).2.clone⟩ := by
  simp only [importState, h]

/-- When the modules written before the first malformed one have nothing to change. -/
def WritesNothingNew (snapshot : SnapshotValue) (state : StateParts) : Prop :=
  (∀ id, ∃ part, moduleOf snapshot id = .ok part) ∨
    ∀ id ∈ Slots.written (moduleOf snapshot) ModuleId.sorted, moduleOf snapshot id = .ok (state.part id)

theorem atomic_target {state : StateParts} (h : checkHeader P e text snapshot = .ok ()) :
    Atomic current (some state) snapshot (importState P e text current (some state) snapshot) ↔
      WritesNothingNew snapshot state := by
  rw [importState_target h]
  cases hout : (writeModules snapshot state).1 with
  | ok u =>
    constructor
    · intro _
      exact .inl (writeModules_ok.mp hout)
    · intro _
      constructor
      · intro err herr
        cases herr
      · intro _
        exact ⟨_, carries_of_ok hout, fun _ => rfl, rfl⟩
  | error err =>
    have hbad : ¬ ∀ id, ∃ part, moduleOf snapshot id = .ok part := by
      intro hall
      rw [writeModules_ok.mpr hall] at hout
      cases hout
    constructor
    · intro hatomic
      obtain ⟨htarget, -⟩ := hatomic.unchanged err rfl
      exact .inr (writeModules_eq_self.mp (Option.some.inj htarget))
    · intro hnew
      have hself := writeModules_eq_self.mpr (hnew.resolve_left hbad)
      constructor
      · intro _ _
        exact ⟨by rw [hself], rfl⟩
      · intro hok
        cases hok

/-- The import into the engine works on a clone. -/
theorem atomic_own : Atomic current none snapshot (importState P e text current none snapshot) := by
  cases hheader : checkHeader P e text snapshot with
  | error err =>
    rw [importState_rejected hheader]
    constructor
    · intro _ _
      exact ⟨rfl, rfl⟩
    · intro hok
      cases hok
  | ok u =>
    cases current with
    | none =>
      simp only [importState, hheader]
      constructor
      · intro _ _
        exact ⟨rfl, rfl⟩
      · intro hok
        cases hok
    | some state =>
      rw [importState_own hheader]
      cases hout : (writeModules snapshot state.clone).1 with
      | error err =>
        constructor
        · intro _ _
          exact ⟨rfl, rfl⟩
        · intro hok
          cases hok
      | ok u =>
        constructor
        · intro err herr
          cases herr
        · intro _
          refine ⟨_, carries_of_ok hout, fun hsome => ?_, rfl⟩
          cases hsome

/-- An import is atomic exactly when it is into the engine itself, or is refused for
its header, or writes nothing new before the first malformed module. -/
theorem importState_atomic (P : Platform) (e : PolicyEngine) (text : JsValue → Except JsError JsString)
    (current target : Option StateParts) (snapshot : SnapshotValue) :
    Atomic current target snapshot (importState P e text current target snapshot) ↔
      ∀ state, target = some state → checkHeader P e text snapshot = .ok () →
        WritesNothingNew snapshot state := by
  cases target with
  | none =>
    constructor
    · intro _ state hstate
      cases hstate
    · intro _
      exact atomic_own
  | some state =>
    cases hheader : checkHeader P e text snapshot with
    | error err =>
      constructor
      · intro _ state _ hok
        cases hok
      · intro _
        rw [importState_rejected hheader]
        constructor
        · intro _ _
          exact ⟨rfl, rfl⟩
        · intro hok
          cases hok
    | ok u =>
      rw [atomic_target hheader]
      constructor
      · intro hnew state' hstate' _
        cases hstate'
        exact hnew
      · intro h
        exact h state rfl rfl

/-- A snapshot whose concurrency module is a string. -/
def malformedSnapshot (P : Platform) (e : PolicyEngine) : SnapshotValue where
  formatVersion := .num (.int 1)
  policyId := computePolicyId P e
  modules := .obj [(js "ConcurrencyModule", .str (js "bad"))]
  isRecord := rfl

theorem checkHeader_malformed (P : Platform) (e : PolicyEngine) (text : JsValue → Except JsError JsString) :
    checkHeader P e text (malformedSnapshot P e) = .ok () := by
  have hone : isOne (malformedSnapshot P e).formatVersion = true := by rfl
  simp only [checkHeader, hone, Bool.not_true, Bool.false_eq_true, if_false]
  exact if_neg (not_not.mpr rfl)

/-- It is refused, after the budgets of the target are gone. -/
theorem importState_not_atomic : ¬ ∀ (P : Platform) (e : PolicyEngine) (text : JsValue → Except JsError JsString)
    (current target : Option StateParts) (snapshot : SnapshotValue),
    Atomic current target snapshot (importState P e text current target snapshot) := by
  intro hall
  have hatomic := hall samplePlatform sampleEngine (fun _ => .ok []) none (some (sampleState (js "a")).parts)
    (malformedSnapshot samplePlatform sampleEngine)
  rcases (atomic_target (checkHeader_malformed _ _ _)).mp hatomic with hok | hsame
  · obtain ⟨part, hpart⟩ := hok .concurrency
    cases hpart
  · have hbudget := hsame .budget (by decide)
    have hempty : moduleOf (malformedSnapshot samplePlatform sampleEngine) .budget =
        .ok ⟨.empty, .empty, .empty⟩ := rfl
    rw [hempty] at hbudget
    have hlimits := congrArg BudgetPart.budgetLimit (Except.ok.inj hbudget)
    cases hlimits

end

end OxDeAI
