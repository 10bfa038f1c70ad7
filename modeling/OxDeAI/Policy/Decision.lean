import OxDeAI.Core.DeepMerge
import OxDeAI.Policy.Replay
import OxDeAI.Policy.Concurrency
import OxDeAI.Policy.Budget
import OxDeAI.Policy.ToolAmplification

/-! The decision phase: every module judges the same state, and the proposed
deltas are merged in module order. -/

namespace OxDeAI

open Js

inductive DecisionResult
  | allow (nextState : State)
  | deny (reasons : List ReasonCode)

/-- Results in module order. In fail-fast mode the first refusal ends the loop. -/
def collectResults (mode : EvalMode) (working : State) (denyReasons : List ReasonCode) :
    List PolicyResult → DecisionResult
  | [] => if denyReasons.isEmpty then .allow working else .deny denyReasons
  | .deny reasons :: rest =>
    match mode with
    | .failFast =>
      if (denyReasons ++ reasons).isEmpty then .allow working else .deny (denyReasons ++ reasons)
    | .collectAll => collectResults mode working (denyReasons ++ reasons) rest
  | .allow (some stateDelta) :: rest =>
    collectResults mode (deepMerge working stateDelta) denyReasons rest
  | .allow none :: rest => collectResults mode working denyReasons rest

def runDecisionModules (intent : Intent) (state : State) (context : PolicyEvaluationContext)
    (mode : EvalMode) (modules : List PolicyModule) : Except JsError DecisionResult :=
  (modules.mapM (fun m : PolicyModule => m intent state context)).map (collectResults mode state [])

def releaseModules : List PolicyModule := [killSwitchModule, replayModule, concurrencyModule]

def executeModules : List PolicyModule :=
  [killSwitchModule, allowlistModule, replayModule, recursionDepthModule, concurrencyModule,
    toolAmplificationModule, budgetModule, velocityModule]

def modulesFor (intent : Intent) : List PolicyModule :=
  match intent.kind with
  | .release => releaseModules
  | .execute => executeModules

def Explains (m : PolicyModule) : Prop :=
  ∀ intent state context, m intent state context ≠ .ok (.deny [])

def Attributes (m : PolicyModule) : Prop :=
  ∀ intent state context reasons, m intent state context = .ok (.deny reasons) →
    reasons ≠ [] ∧ ReasonCode.internalError ∉ reasons

theorem Attributes.explains {m : PolicyModule} (h : Attributes m) : Explains m :=
  fun intent state context hm => (h intent state context [] hm).1 rfl

theorem killSwitchModule_attributes : Attributes killSwitchModule := by
  intro intent state context reasons h
  simp only [killSwitchModule] at h
  split at h
  · cases h; simp
  · split at h
    · cases h; simp
    · cases h

theorem allowlistModule_attributes : Attributes allowlistModule := by
  intro intent state context reasons h
  have hgoal : ∀ rs : List ReasonCode, ReasonCode.internalError ∉ rs →
      (if rs.isEmpty then PolicyResult.allow none else .deny rs) = .deny reasons →
        reasons ≠ [] ∧ ReasonCode.internalError ∉ reasons := by
    intro rs hrs heq
    split at heq
    · cases heq
    · rename_i hne
      cases heq
      exact ⟨by simpa using hne, hrs⟩
  refine hgoal _ ?_ (Except.ok.inj h)
  have hif : ∀ (p : Prop) [Decidable p] (r : ReasonCode), r ≠ .internalError →
      ReasonCode.internalError ∉ (if p then [r] else []) := by
    intro p _ r hr
    split
    · simpa using hr.symm
    · simp
  rw [List.mem_append, List.mem_append, not_or, not_or]
  refine ⟨⟨hif _ _ (by decide), ?_⟩, hif _ _ (by decide)⟩
  split
  · exact hif _ _ (by decide)
  · simp

theorem replayModule_attributes : Attributes replayModule := by
  intro intent state context reasons h
  simp only [replayModule] at h
  split at h
  · cases h; simp
  · obtain ⟨list, -, h⟩ := map_eq_ok.mp h
    split at h
    · cases h; simp
    · split at h
      · cases h; simp [replayCapacityExhaustedReason]
      · cases h

theorem recursionDepthModule_attributes : Attributes recursionDepthModule := by
  intro intent state context reasons h
  simp only [recursionDepthModule] at h
  split at h
  · cases h; simp
  · cases h
  · split at h
    · cases h; simp
    · cases h

theorem concurrencyModule_attributes : Attributes concurrencyModule := by
  intro intent state context reasons h
  simp only [concurrencyModule] at h
  split at h
  · cases h; simp
  · split at h
    · cases h; simp
    · split at h
      · split at h
        · cases h; simp
        · cases h
      · split at h
        · cases h; simp
        · cases h

theorem toolAmplificationModule_attributes : Attributes toolAmplificationModule := by
  intro intent state context reasons h
  simp only [toolAmplificationModule] at h
  split at h
  · simp only [limitToolCall, Except.ok.injEq] at h
    split at h
    · cases h
    · split at h
      · cases h; simp
      · split at h
        · cases h
        · split at h
          · cases h; simp
          · split at h
            · cases h; simp
            · split at h
              · cases h; simp
              · cases h
  · cases h

theorem budgetModule_attributes : Attributes budgetModule := by
  intro intent state context reasons h
  simp only [budgetModule] at h
  split at h
  · cases h; simp
  · split at h
    · cases h; simp
    · cases h; simp
    · split at h
      · cases h; simp
      · split at h
        · cases h; simp
        · cases h

theorem velocityModule_attributes : Attributes velocityModule := by
  intro intent state context reasons h
  simp only [velocityModule] at h
  split at h
  · cases h; simp
  · split at h
    · cases h; simp
    · split at h
      · cases h; simp
      · cases h

theorem modulesFor_attribute {intent : Intent} {m : PolicyModule} (h : m ∈ modulesFor intent) :
    Attributes m := by
  simp only [modulesFor] at h
  split at h
  · simp only [releaseModules, List.mem_cons, List.not_mem_nil, or_false] at h
    rcases h with rfl | rfl | rfl
    · exact killSwitchModule_attributes
    · exact replayModule_attributes
    · exact concurrencyModule_attributes
  · simp only [executeModules, List.mem_cons, List.not_mem_nil, or_false] at h
    rcases h with rfl | rfl | rfl | rfl | rfl | rfl | rfl | rfl
    · exact killSwitchModule_attributes
    · exact allowlistModule_attributes
    · exact replayModule_attributes
    · exact recursionDepthModule_attributes
    · exact concurrencyModule_attributes
    · exact toolAmplificationModule_attributes
    · exact budgetModule_attributes
    · exact velocityModule_attributes

theorem modulesFor_explain {intent : Intent} {m : PolicyModule} (h : m ∈ modulesFor intent) :
    Explains m := (modulesFor_attribute h).explains

def applyDelta (working : State) : Option StateDelta → State
  | some stateDelta => deepMerge working stateDelta
  | none => working

theorem collectResults_denied {mode : EvalMode} {working next : State} {reasons : List ReasonCode}
    (hr : reasons ≠ []) (results : List PolicyResult) :
    collectResults mode working reasons results ≠ .allow next := by
  induction results generalizing working reasons with
  | nil => simp [collectResults, hr]
  | cons r results ih =>
    cases r with
    | allow stateDelta => cases stateDelta <;> exact ih hr
    | deny rs =>
      cases mode with
      | failFast => simp [collectResults, hr]
      | collectAll => exact ih (by simp [hr])

theorem collectResults_allow {mode : EvalMode} {working next : State} {results : List PolicyResult}
    (hr : PolicyResult.deny [] ∉ results) :
    collectResults mode working [] results = .allow next ↔
      ∃ deltas : List (Option StateDelta), results = deltas.map .allow ∧ next = deltas.foldl applyDelta working := by
  induction results generalizing working with
  | nil => simp [collectResults, eq_comm]
  | cons r results ih =>
    rw [List.mem_cons, not_or] at hr
    cases r with
    | allow stateDelta =>
      have hstep : collectResults mode working [] (.allow stateDelta :: results) =
          collectResults mode (applyDelta working stateDelta) [] results := by
        cases stateDelta <;> rfl
      rw [hstep, ih hr.2]
      constructor
      · rintro ⟨deltas, rfl, rfl⟩
        exact ⟨stateDelta :: deltas, rfl, rfl⟩
      · rintro ⟨deltas, hd, rfl⟩
        cases deltas with
        | nil => cases hd
        | cons d deltas =>
          cases hd
          exact ⟨deltas, rfl, rfl⟩
    | deny rs =>
      have hrs : rs ≠ [] := fun h => hr.1 (by rw [h])
      constructor
      · intro h
        cases mode with
        | failFast => simp [collectResults, hrs] at h
        | collectAll => exact absurd h (collectResults_denied (by simpa using hrs) results)
      · rintro ⟨deltas, hd, -⟩
        cases deltas <;> cases hd

/-- The phase permits exactly when every module does, in either mode. -/
theorem runDecisionModules_allow {intent : Intent} {state next : State}
    {context : PolicyEvaluationContext} {mode : EvalMode} {modules : List PolicyModule}
    (hm : ∀ m ∈ modules, Explains m) :
    runDecisionModules intent state context mode modules = .ok (.allow next) ↔
      ∃ deltas, List.Forall₂ (fun (m : PolicyModule) d => m intent state context = .ok (.allow d)) modules deltas ∧
        next = deltas.foldl applyDelta state := by
  rw [runDecisionModules, map_eq_ok]
  simp only [mapM_eq_ok]
  constructor
  · rintro ⟨results, hres, hcol⟩
    have hr : PolicyResult.deny [] ∉ results := by
      intro hmem
      obtain ⟨m, hmm, hmr⟩ := exists_mem_of_forall₂ hres hmem
      exact hm m hmm _ _ _ hmr
    obtain ⟨deltas, rfl, rfl⟩ := (collectResults_allow hr).mp hcol
    exact ⟨deltas, (List.forall₂_map_right_iff (f := PolicyResult.allow)).mp hres, rfl⟩
  · rintro ⟨deltas, hd, rfl⟩
    refine ⟨deltas.map .allow, (List.forall₂_map_right_iff (f := PolicyResult.allow)).mpr hd, ?_⟩
    exact (collectResults_allow (by simp)).mpr ⟨deltas, rfl, rfl⟩

theorem collectResults_deny {mode : EvalMode} {working : State} {reasons : List ReasonCode}
    {denied : List ReasonCode} (hd : ReasonCode.internalError ∉ denied) {results : List PolicyResult}
    (hr : ∀ rs, PolicyResult.deny rs ∈ results → ReasonCode.internalError ∉ rs)
    (h : collectResults mode working denied results = .deny reasons) :
    ReasonCode.internalError ∉ reasons := by
  induction results generalizing working denied with
  | nil =>
    simp only [collectResults] at h
    split at h
    · cases h
    · cases h
      exact hd
  | cons r results ih =>
    have hrest : ∀ rs, PolicyResult.deny rs ∈ results → ReasonCode.internalError ∉ rs :=
      fun rs hrs => hr rs (List.mem_cons_of_mem _ hrs)
    cases r with
    | allow stateDelta => cases stateDelta <;> exact ih hd hrest h
    | deny rs =>
      have hrs : ReasonCode.internalError ∉ denied ++ rs := by
        rw [List.mem_append, not_or]
        exact ⟨hd, hr rs (by simp)⟩
      cases mode with
      | collectAll => exact ih hrs hrest h
      | failFast =>
        simp only [collectResults] at h
        split at h
        · cases h
        · cases h
          exact hrs

theorem runDecisionModules_deny {intent : Intent} {state : State} {context : PolicyEvaluationContext}
    {mode : EvalMode} {reasons : List ReasonCode}
    (h : runDecisionModules intent state context mode (modulesFor intent) = .ok (.deny reasons)) :
    ReasonCode.internalError ∉ reasons := by
  obtain ⟨results, hres, hcol⟩ := map_eq_ok.mp h
  rw [mapM_eq_ok] at hres
  refine collectResults_deny (by simp) ?_ hcol
  intro rs hrs
  obtain ⟨m, hm, hmr⟩ := exists_mem_of_forall₂ hres hrs
  exact (modulesFor_attribute hm _ _ _ _ hmr).2

end OxDeAI
