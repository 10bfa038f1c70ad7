import OxDeAI.Engine.Issue

/-! The two modes of evaluation decide alike: collecting every refusal only adds reasons
after those of the first one. -/

namespace OxDeAI

open Js

/-- The same decision phase in the two modes. -/
inductive DecisionsAgree : DecisionResult → DecisionResult → Prop
  | allow (next : State) : DecisionsAgree (.allow next) (.allow next)
  | deny {reasons all : List ReasonCode} (h : reasons <+: all) : DecisionsAgree (.deny reasons) (.deny all)

/-- The same evaluation in the two modes. -/
inductive OutcomesAgree : Except JsError EvaluatePureOutput → Except JsError EvaluatePureOutput → Prop
  | throws (err : JsError) : OutcomesAgree (.error err) (.error err)
  | allow (authorization : Authorization) (next : State) :
    OutcomesAgree (.ok (.allow authorization next)) (.ok (.allow authorization next))
  | deny {reasons all : List ReasonCode} (h : reasons <+: all) :
    OutcomesAgree (.ok (.deny reasons)) (.ok (.deny all))

theorem OutcomesAgree.refl (r : Except JsError EvaluatePureOutput) : OutcomesAgree r r := by
  cases r with
  | error err => exact .throws err
  | ok out =>
    cases out with
    | allow authorization next => exact .allow authorization next
    | deny reasons => exact .deny (List.prefix_refl reasons)

section

variable {working : State} {results : List PolicyResult}

/-- Once something is refused, further results only add reasons. -/
theorem collectAll_denied (working : State) {denied : List ReasonCode} (h : denied ≠ []) (results : List PolicyResult) :
    ∃ more, collectResults .collectAll working denied results = .deny (denied ++ more) := by
  induction results generalizing working denied with
  | nil => exact ⟨[], by simp [collectResults, h]⟩
  | cons r results ih =>
    cases r with
    | allow delta => cases delta <;> exact ih _ h
    | deny reasons =>
      obtain ⟨more, hmore⟩ := ih working (show denied ++ reasons ≠ [] by simp [h])
      exact ⟨reasons ++ more, by rw [collectResults, hmore, List.append_assoc]⟩

/-- The loop in the two modes, where every refusal has a reason. -/
theorem collectResults_agree (hr : PolicyResult.deny [] ∉ results) :
    DecisionsAgree (collectResults .failFast working [] results) (collectResults .collectAll working [] results) := by
  induction results generalizing working with
  | nil => exact .allow working
  | cons r results ih =>
    rw [List.mem_cons, not_or] at hr
    cases r with
    | allow delta => cases delta <;> exact ih hr.2
    | deny reasons =>
      have hne : reasons ≠ [] := fun h => hr.1 (by rw [h])
      obtain ⟨more, hmore⟩ := collectAll_denied working hne results
      rw [collectResults, collectResults, List.nil_append, hmore, List.isEmpty_eq_false_iff.mpr hne,
        if_neg Bool.false_ne_true]
      exact .deny (List.prefix_append reasons more)

end

section

variable {P : Platform} {e : PolicyEngine} {intent : Intent} {state : State} {t : JsNumber}
  {context : PolicyEvaluationContext}

/-- Every module runs before the loop, so a module that throws does so in either mode. -/
theorem runDecisionModules_modes (intent : Intent) (state : State) (context : PolicyEvaluationContext) :
    (∃ err, ∀ mode, runDecisionModules intent state context mode (modulesFor intent) = .error err) ∨
    ∃ first all, runDecisionModules intent state context .failFast (modulesFor intent) = .ok first ∧
      runDecisionModules intent state context .collectAll (modulesFor intent) = .ok all ∧ DecisionsAgree first all := by
  unfold runDecisionModules
  cases hres : (modulesFor intent).mapM (fun m : PolicyModule => m intent state context) with
  | error err => exact .inl ⟨err, fun _ => rfl⟩
  | ok results =>
    refine .inr ⟨_, _, rfl, rfl, collectResults_agree ?_⟩
    intro hmem
    obtain ⟨m, hm, hdeny⟩ := exists_mem_of_forall₂ (mapM_eq_ok.mp hres) hmem
    exact modulesFor_explain hm _ _ _ hdeny

theorem withCheckpoint_deny {reasons all : List ReasonCode} (h : reasons <+: all) (count : ℕ) :
    OutcomesAgree (withCheckpoint P e state count (.deny reasons)) (withCheckpoint P e state count (.deny all)) := by
  unfold withCheckpoint
  split
  · cases computeStateHash P e state with
    | error err => exact .throws err
    | ok hash => exact .deny h
  · exact .deny h

theorem outcomeAfterGate_modes (count : ℕ) (hash : JsString) :
    OutcomesAgree (outcomeAfterGate P e intent state t .failFast count hash)
      (outcomeAfterGate P e intent state t .collectAll count hash) := by
  unfold outcomeAfterGate
  rcases runDecisionModules_modes intent state (moduleContext e t) with ⟨err, herr⟩ | ⟨first, all, hfirst, hall, hagree⟩
  · rw [herr, herr]
    exact .throws err
  · rw [hfirst, hall]
    cases hagree with
    | allow next => exact .refl _
    | deny h => exact withCheckpoint_deny h _

theorem outcome_modes (count : ℕ) :
    OutcomesAgree (outcome P e intent state t .failFast count) (outcome P e intent state t .collectAll count) := by
  unfold outcome
  cases intentHash P intent with
  | error err => exact .throws err
  | ok hash =>
    simp only [Except.bind]
    cases verifyTrustedTime intent.timestamp t e.opts.maxClockSkewSeconds e.opts.maxIntentAgeSeconds with
    | error err => exact .throws err
    | ok freshness =>
      cases freshness with
      | deny reasons => exact .refl _
      | allow delta => exact outcomeAfterGate_modes count hash

theorem OutcomesAgree.caught {a b : Except JsError EvaluatePureOutput} (h : OutcomesAgree a b) :
    OutcomesAgree (caught a) (caught b) := by
  cases h with
  | throws err => exact .refl _
  | allow authorization next => exact .allow authorization next
  | deny h => exact .deny h

/-- An engine decides alike in the two modes. -/
theorem evaluatePure_modes (hn : NfcLaws P.nfc) (e : PolicyEngine) (intent : Intent) (state : State) (t : JsNumber)
    (log : AuditLog) : OutcomesAgree (evaluatePure P e intent state t .failFast log).1
      (evaluatePure P e intent state t .collectAll log).1 := by
  rw [evaluatePure_fst hn, evaluatePure_fst hn]
  cases precheck e intent state t with
  | error early => exact .refl early
  | ok u => exact (outcome_modes log.auditEventCount).caught

end

/-- A refusal with two reasons, of which the first ends the evaluation in one mode. -/
theorem evaluatePure_modes_sample :
    OutcomesAgree
      (evaluatePure samplePlatform sampleEngine { sampleIntent (js "a") with amount := 60, depth := some (.int 9) }
        (sampleState (js "a")) (.int 1000) .failFast (AuditLog.initial samplePlatform)).1
      (evaluatePure samplePlatform sampleEngine { sampleIntent (js "a") with amount := 60, depth := some (.int 9) }
        (sampleState (js "a")) (.int 1000) .collectAll (AuditLog.initial samplePlatform)).1 :=
  evaluatePure_modes samplePlatform_laws.nfc _ _ _ _ _

end OxDeAI
