import OxDeAI.Guard.BoundaryEvents

/-! Trusted premises against declared claims: what the secure guard's normalizer makes
of an intent, and what it records and refuses. -/

namespace OxDeAI

open Js Async

abbrev NonEmptyText := {s : JsString // s ≠ []}

structure TrustedPremises extends TrustedExecutionContext where
  principalId : NonEmptyText
  agentId : NonEmptyText
  adapterId : NonEmptyText
  tool : Option NonEmptyText
  routeClassification : Option NonEmptyText
  depth : {d : ℕ // d ≤ JsNumber.maxSafeInteger}
  tenant : tenantId ≠ some []

def requireString (value : JsValue) (field : JsString) : Except GuardError NonEmptyText :=
  match value with
  | .str (u :: us) => .ok ⟨u :: us, List.cons_ne_nil u us⟩
  | _ => .error (.configuration (js "TrustedExecutionContext." ++ field ++
      js " must be a non-empty string. Context construction failed."))

def optionalString (value : JsValue) (field : JsString) : Except GuardError (Option NonEmptyText) :=
  if value.isUndefined then .ok none else (requireString value field).map some

def requireDepth (value : JsValue) : Except GuardError {d : ℕ // d ≤ JsNumber.maxSafeInteger} :=
  let refused : GuardError := .configuration
    (js "TrustedExecutionContext.depth is required and must be a non-negative safe integer derived from the protected execution chain. It is never defaulted: a missing depth would silently represent a nested call as a root call. Context construction failed.")
  match value with
  | .num (.int z) => if h : 0 ≤ z ∧ z.natAbs ≤ JsNumber.maxSafeInteger then .ok ⟨z.natAbs, h.2⟩ else .error refused
  | _ => .error refused

theorem tenant_ne (tenantId : Option NonEmptyText) : tenantId.map Subtype.val ≠ some [] := by
  cases tenantId with
  | none => nofun
  | some s => exact fun h => s.property (Option.some.inj h)

def createTrustedExecutionContext (input : JsValue) : Except GuardError TrustedPremises := do
  match input with
  | .obj _ | .instance _ | .arr _ => pure ()
  | _ => throw (.configuration (js "TrustedExecutionContext input must be an object. Context construction failed."))
  let principalId ← requireString (input.field (js "principalId")) (js "principalId")
  let agentId ← requireString (input.field (js "agentId")) (js "agentId")
  let adapterId ← requireString (input.field (js "adapterId")) (js "adapterId")
  let tenantId ← optionalString (input.field (js "tenantId")) (js "tenantId")
  let tool ← optionalString (input.field (js "tool")) (js "tool")
  let routeClassification ← optionalString (input.field (js "routeClassification")) (js "routeClassification")
  let depth ← requireDepth (input.field (js "depth"))
  return { tenantId := tenantId.map Subtype.val, principalId := principalId, agentId := agentId,
           adapterId := adapterId, tool := tool, routeClassification := routeClassification, depth := depth,
           tenant := tenant_ne tenantId }

/-- The own enumerable properties that `{ ...value }` copies. -/
def spread : JsValue → List (JsString × JsValue)
  | .arr xs => xs.zipIdx.map (fun p => (natDecimal p.2, p.1))
  | .str s => s.zipIdx.map (fun p => (natDecimal p.2, .str [p.1]))
  | v => v.entries

/-- A row of the comparison. Claims come from the proposer's context, and from the
intent where it has the field; only then is the premise applied to it. -/
structure ProvenanceField where
  name : JsString
  derived : TrustedPremises → Option JsValue
  inIntent : Bool

def claimsOf (values : List JsValue) : List JsValue := values.filter (fun v => !v.isNullish)

namespace ProvenanceField

variable (field : ProvenanceField)

def claims (intent context : JsValue) : List JsValue :=
  claimsOf (if field.inIntent then [intent.field field.name, context.field field.name] else [context.field field.name])

def apply (intent : List (JsString × JsValue)) (premise : JsValue) : List (JsString × JsValue) :=
  if field.inIntent then setEntry field.name premise intent else intent

end ProvenanceField

namespace ProvenanceField

def agentId : ProvenanceField := ⟨js "agent_id", fun ctx => some (.str ctx.agentId.val), true⟩

def tool : ProvenanceField := ⟨js "tool", fun ctx => ctx.tool.map (fun t => .str t.val), true⟩

def depth : ProvenanceField := ⟨js "depth", fun ctx => some (.num (.int ctx.depth.val)), true⟩

def principalId : ProvenanceField := ⟨js "principal_id", fun ctx => some (.str ctx.principalId.val), false⟩

def tenantId : ProvenanceField := ⟨js "tenant_id", fun ctx => ctx.tenantId.map .str, false⟩

def adapterId : ProvenanceField := ⟨js "adapter_id", fun ctx => some (.str ctx.adapterId.val), false⟩

def routeClassification : ProvenanceField :=
  ⟨js "route_classification", fun ctx => ctx.routeClassification.map (fun r => .str r.val), false⟩

end ProvenanceField

def provenanceFields : List ProvenanceField :=
  [.agentId, .tool, .depth, .principalId, .tenantId, .adapterId, .routeClassification]

structure Reconciling where
  merged : List (JsString × JsValue)
  provenance : ProvenanceRecord
  conflicts : List JsString

structure ReconciliationResult where
  intent : JsValue
  provenance : ProvenanceRecord

section

variable (intent : JsValue) (ctx : TrustedPremises) (actionContext : JsValue) (synthesized : List JsString)

/-- The body of the loop. -/
def reconcileField (r : Reconciling) (field : ProvenanceField) : Reconciling :=
  let claims := field.claims intent actionContext
  match field.derived ctx with
  | none => { r with provenance := setEntry field.name (if claims.isEmpty then .absent else .unverified) r.provenance }
  | some premise =>
    if claims.isEmpty then
      { r with provenance := setEntry field.name .absent r.provenance, merged := field.apply r.merged premise }
    else if claims.any (fun claim => !claim.strictEquals premise) then
      { r with provenance := setEntry field.name .conflict r.provenance, conflicts := r.conflicts ++ [field.name] }
    else
      { r with
        provenance := setEntry field.name (if synthesized.contains field.name then .absent else .matched) r.provenance
        merged := field.apply r.merged premise }

def reconcileAll (fields : List ProvenanceField) (r : Reconciling) : Reconciling :=
  fields.foldl (reconcileField intent ctx actionContext synthesized) r

def reconcileWithTrustedContext : Except GuardError ReconciliationResult :=
  if intent.isNullish then .error (runtimeError .typeError)
  else
    let r := reconcileAll intent ctx actionContext synthesized provenanceFields ⟨spread intent, [], []⟩
    if r.conflicts.isEmpty then .ok ⟨.obj r.merged, r.provenance⟩
    else .error (.provenanceConflict r.conflicts r.provenance)

end

/-- `{ ...action, context: { ...action.context, agent_id } }`. -/
def supplied (ctx : TrustedPremises) (action : JsValue) : JsValue :=
  .obj (setEntry (js "context")
    (.obj (setEntry (js "agent_id") (.str ctx.agentId) (spread (action.field (js "context"))))) (spread action))

/-- What the configured normalizer is given: the action, with the trusted identity when
the proposer named none. -/
def forNormalization (ctx : TrustedPremises) (action : JsValue) : JsValue :=
  if ((action.field (js "context")).field (js "agent_id")).isNullish then supplied ctx action else action

def synthesizedFields (action : JsValue) : List JsString :=
  if ((action.field (js "context")).field (js "agent_id")).isNullish then [js "agent_id"] else []

/-- The normalizer that the secure guard hands to the shared body. -/
def secureNormalize (baseNormalize : JsValue → Except GuardError JsValue) (ctx : TrustedPremises) (action : JsValue) :
    Except GuardError ReconciliationResult :=
  if action.isNullish then .error (runtimeError .typeError)
  else do
    let proposed ← baseNormalize (forNormalization ctx action)
    reconcileWithTrustedContext proposed ctx (action.field (js "context")) (synthesizedFields action)

/-- A claim for a field, in the normalized intent or in the proposer's context. -/
inductive Declares (intent context : JsValue) (field : ProvenanceField) : JsValue → Prop
  | normalized (h : field.inIntent = true) (hclaim : (intent.field field.name).isNullish = false) :
      Declares intent context field (intent.field field.name)
  | proposed (hclaim : (context.field field.name).isNullish = false) :
      Declares intent context field (context.field field.name)

/-- A declared claim differs from the premise that is supplied. -/
def Contradicted (intent : JsValue) (ctx : TrustedPremises) (context : JsValue) (field : ProvenanceField) : Prop :=
  ∃ premise, field.derived ctx = some premise ∧ ∃ claim, Declares intent context field claim ∧ claim ≠ premise

section

variable {intent context : JsValue} {ctx : TrustedPremises} {synthesized : List JsString} {field : ProvenanceField}

theorem mem_claims {claim : JsValue} : claim ∈ field.claims intent context ↔ Declares intent context field claim := by
  unfold ProvenanceField.claims claimsOf
  rw [List.mem_filter]
  constructor
  · rintro ⟨hmem, hclaim⟩
    have hclaim : claim.isNullish = false := by simpa using hclaim
    by_cases hin : field.inIntent = true
    · rw [if_pos hin] at hmem
      rcases List.mem_cons.mp hmem with rfl | hmem
      · exact .normalized hin hclaim
      · obtain rfl := List.mem_singleton.mp hmem
        exact .proposed hclaim
    · rw [if_neg hin] at hmem
      obtain rfl := List.mem_singleton.mp hmem
      exact .proposed hclaim
  · rintro (⟨hin, hclaim⟩ | hclaim)
    · exact ⟨by simp [hin], by simp [hclaim]⟩
    · refine ⟨?_, by simp [hclaim]⟩
      split <;> simp

/-- What is recorded for a field. -/
def ProvenanceField.outcome (field : ProvenanceField) (intent : JsValue) (ctx : TrustedPremises) (context : JsValue)
    (synthesized : List JsString) : ClaimProvenance :=
  let claims := field.claims intent context
  match field.derived ctx with
  | none => if claims.isEmpty then .absent else .unverified
  | some premise =>
    if claims.isEmpty then .absent
    else if claims.any (fun claim => !claim.strictEquals premise) then .conflict
    else if synthesized.contains field.name then .absent else .matched

/-- The premises of the table are texts and numbers. -/
def ProvenanceField.Plain (field : ProvenanceField) : Prop :=
  ∀ ctx premise, field.derived ctx = some premise →
    ∀ claim : JsValue, claim.strictEquals premise = true ↔ claim = premise

theorem strictEquals_int {v : JsValue} {z : ℤ} : v.strictEquals (.num (.int z)) = true ↔ v = .num (.int z) := by
  cases v with
  | num n =>
    cases n <;> simp [JsValue.strictEquals, JsNumber.isNaN]
  | _ => simp [JsValue.strictEquals]

theorem provenanceFields_plain : ∀ field ∈ provenanceFields, field.Plain := by
  simp only [provenanceFields, List.forall_mem_cons, List.not_mem_nil, false_implies, implies_true, and_true]
  refine ⟨?_, ?_, ?_, ?_, ?_, ?_, ?_⟩ <;> intro ctx premise hpremise claim
  · obtain rfl := Option.some.inj hpremise
    exact JsValue.strictEquals_str
  · obtain ⟨tool, -, rfl⟩ := Option.map_eq_some_iff.mp hpremise
    exact JsValue.strictEquals_str
  · obtain rfl := Option.some.inj hpremise
    exact strictEquals_int
  · obtain rfl := Option.some.inj hpremise
    exact JsValue.strictEquals_str
  · obtain ⟨tenant, -, rfl⟩ := Option.map_eq_some_iff.mp hpremise
    exact JsValue.strictEquals_str
  · obtain rfl := Option.some.inj hpremise
    exact JsValue.strictEquals_str
  · obtain ⟨route, -, rfl⟩ := Option.map_eq_some_iff.mp hpremise
    exact JsValue.strictEquals_str

theorem isEmpty_claims : (field.claims intent context).isEmpty = true ↔ ∀ claim, ¬ Declares intent context field claim := by
  rw [List.isEmpty_iff, List.eq_nil_iff_forall_not_mem]
  exact forall_congr' fun claim => not_congr mem_claims

theorem any_differs {premise : JsValue} (hplain : field.Plain) (hpremise : field.derived ctx = some premise) :
    ((field.claims intent context).any fun claim => !claim.strictEquals premise) = true ↔
      ∃ claim, Declares intent context field claim ∧ claim ≠ premise := by
  rw [List.any_eq_true]
  refine exists_congr fun claim => and_congr mem_claims ?_
  rw [Bool.not_eq_true', ← Bool.not_eq_true, hplain ctx premise hpremise claim]

theorem outcome_conflict (hplain : field.Plain) :
    field.outcome intent ctx context synthesized = .conflict ↔ Contradicted intent ctx context field := by
  unfold ProvenanceField.outcome Contradicted
  cases hpremise : field.derived ctx with
  | none =>
    dsimp only
    split <;> simp
  | some premise =>
    have hany := @any_differs intent context _ _ _ hplain hpremise
    simp only [Option.some.injEq, exists_eq_left']
    rw [← hany]
    by_cases hempty : (field.claims intent context).isEmpty = true
    · have hnil := List.isEmpty_iff.mp hempty
      simp [hnil]
    · rw [if_neg hempty]
      by_cases hdiffers : ((field.claims intent context).any fun claim => !claim.strictEquals premise) = true
      · simp [hdiffers]
      · rw [if_neg hdiffers]
        split <;> simp [hdiffers]

/-- A field is recorded as matched when there are claims, all of them are the premise,
and the guard has not supplied it. -/
theorem outcome_matched (hplain : field.Plain) : field.outcome intent ctx context synthesized = .matched ↔
    field.name ∉ synthesized ∧ (∃ claim, Declares intent context field claim) ∧
      ∃ premise, field.derived ctx = some premise ∧ ∀ claim, Declares intent context field claim → claim = premise := by
  unfold ProvenanceField.outcome
  cases hpremise : field.derived ctx with
  | none =>
    dsimp only
    split <;> simp
  | some premise =>
    have hempty := @isEmpty_claims intent context field
    have hany := @any_differs intent context _ _ _ hplain hpremise
    dsimp only
    split_ifs with h1 h2 h3
    · simp [hempty.mp h1]
    · obtain ⟨claim, hclaim, hne⟩ := hany.mp h2
      simp only [Option.some.injEq, exists_eq_left', false_iff, not_and]
      exact fun _ _ hall => hne (hall claim hclaim)
    · simp [List.contains_iff_mem.mp h3]
    · have hsome : ∃ claim, Declares intent context field claim := by
        by_contra hno
        exact h1 (hempty.mpr fun claim hclaim => hno ⟨claim, hclaim⟩)
      have hall : ∀ claim, Declares intent context field claim → claim = premise := by
        intro claim hclaim
        by_contra hne
        exact h2 (hany.mpr ⟨claim, hclaim, hne⟩)
      simp only [Option.some.injEq, exists_eq_left', true_iff]
      exact ⟨fun hmem => h3 (List.contains_iff_mem.mpr hmem), hsome, hall⟩

/-- One turn of the loop: what it records, which conflict it adds, and the premise it
applies. -/
theorem reconcileField_eq (r : Reconciling) :
    reconcileField intent ctx context synthesized r field =
      { provenance := setEntry field.name (field.outcome intent ctx context synthesized) r.provenance
        conflicts := if field.outcome intent ctx context synthesized = .conflict then r.conflicts ++ [field.name]
          else r.conflicts
        merged := match field.derived ctx with
          | some premise => if field.outcome intent ctx context synthesized = .conflict then r.merged
            else field.apply r.merged premise
          | none => r.merged } := by
  unfold reconcileField ProvenanceField.outcome
  cases field.derived ctx with
  | none =>
    dsimp only
    split <;> simp
  | some premise =>
    dsimp only
    by_cases hempty : (field.claims intent context).isEmpty = true
    · simp [hempty]
    · by_cases hdiffers : ((field.claims intent context).any fun claim => !claim.strictEquals premise) = true
      · simp only [if_neg hempty, if_pos hdiffers, if_true]
      · simp only [if_neg hempty, if_neg hdiffers]
        by_cases hsynthesized : field.name ∈ synthesized <;> simp [hsynthesized]

variable {fields : List ProvenanceField}

theorem reconcileAll_cons (r : Reconciling) : reconcileAll intent ctx context synthesized (field :: fields) r =
    reconcileAll intent ctx context synthesized fields (reconcileField intent ctx context synthesized r field) := rfl

theorem conflicts_reconcileAll (r : Reconciling) :
    (reconcileAll intent ctx context synthesized fields r).conflicts =
      r.conflicts ++ (fields.filter (fun field => field.outcome intent ctx context synthesized = .conflict)).map
        ProvenanceField.name := by
  induction fields generalizing r with
  | nil => simp [reconcileAll]
  | cons field fields ih =>
    rw [reconcileAll_cons, ih, reconcileField_eq]
    by_cases hconflict : field.outcome intent ctx context synthesized = .conflict <;> simp [hconflict]

theorem provenance_reconcileAll_of_notMem {key : JsString} (h : key ∉ fields.map ProvenanceField.name) (r : Reconciling) :
    ownEntry key (reconcileAll intent ctx context synthesized fields r).provenance = ownEntry key r.provenance := by
  induction fields generalizing r with
  | nil => rfl
  | cons field fields ih =>
    rw [List.map_cons, List.mem_cons, not_or] at h
    rw [reconcileAll_cons, ih h.2, reconcileField_eq, ownEntry_setEntry, if_neg h.1]

theorem provenance_reconcileAll (hnodup : (fields.map ProvenanceField.name).Nodup) (hfield : field ∈ fields)
    (r : Reconciling) : ownEntry field.name (reconcileAll intent ctx context synthesized fields r).provenance =
      some (field.outcome intent ctx context synthesized) := by
  induction fields generalizing r with
  | nil => cases hfield
  | cons head fields ih =>
    rw [List.map_cons, List.nodup_cons] at hnodup
    rw [reconcileAll_cons]
    rcases List.mem_cons.mp hfield with rfl | hmem
    · rw [provenance_reconcileAll_of_notMem hnodup.1, reconcileField_eq, ownEntry_setEntry, if_pos rfl]
    · exact ih hnodup.2 hmem _

/-- A key that no supplied premise is applied to keeps its value. -/
theorem merged_reconcileAll_of_notMem {key : JsString}
    (h : ∀ field ∈ fields, field.name = key → field.inIntent = true → field.derived ctx = none) (r : Reconciling) :
    ownEntry key (reconcileAll intent ctx context synthesized fields r).merged = ownEntry key r.merged := by
  induction fields generalizing r with
  | nil => rfl
  | cons field fields ih =>
    rw [reconcileAll_cons, ih fun f hf => h f (List.mem_cons_of_mem _ hf), reconcileField_eq]
    have hfield := h field List.mem_cons_self
    cases hpremise : field.derived ctx with
    | none => rfl
    | some premise =>
      dsimp only
      split
      · rfl
      · unfold ProvenanceField.apply
        split
        · rename_i hin
          rw [ownEntry_setEntry, if_neg]
          rintro rfl
          rw [hfield rfl hin] at hpremise
          cases hpremise
        · rfl

/-- Without conflicts every supplied premise is in the result. -/
theorem merged_reconcileAll (hnodup : (fields.map ProvenanceField.name).Nodup) (hfield : field ∈ fields)
    (hin : field.inIntent = true) {premise : JsValue} (hpremise : field.derived ctx = some premise)
    (hno : field.outcome intent ctx context synthesized ≠ .conflict) (r : Reconciling) :
    ownEntry field.name (reconcileAll intent ctx context synthesized fields r).merged = some premise := by
  induction fields generalizing r with
  | nil => cases hfield
  | cons head fields ih =>
    rw [List.map_cons, List.nodup_cons] at hnodup
    rw [reconcileAll_cons]
    rcases List.mem_cons.mp hfield with rfl | hmem
    · have hlater : ∀ f ∈ fields, f.name = field.name → f.inIntent = true → f.derived ctx = none :=
        fun f hf hname _ => absurd (hname ▸ List.mem_map_of_mem hf) hnodup.1
      rw [merged_reconcileAll_of_notMem hlater, reconcileField_eq, hpremise]
      simp only [if_neg hno, ProvenanceField.apply, if_pos hin]
      rw [ownEntry_setEntry, if_pos rfl]
    · exact ih hnodup.2 hmem _

/-- The premises replaced whatever was claimed, and nothing else changed. -/
structure PremisesPrevail (ctx : TrustedPremises) (proposed intent : JsValue) : Prop where
  agentId : intent.field (js "agent_id") = .str ctx.agentId
  tool : ∀ tool, ctx.tool = some tool → intent.field (js "tool") = .str tool
  depth : intent.field (js "depth") = .num (.int (ctx.depth : ℕ))
  others : ∀ key, key ≠ js "agent_id" → key ≠ js "depth" → (key = js "tool" → ctx.tool = none) →
    ownEntry key intent.entries = ownEntry key (spread proposed)

theorem nodup_provenanceFields : (provenanceFields.map ProvenanceField.name).Nodup := by decide

theorem conflicts_provenanceFields (r : Reconciling) :
    (reconcileAll intent ctx context synthesized provenanceFields r).conflicts = r.conflicts ++
      (provenanceFields.filter (fun field => field.outcome intent ctx context synthesized = .conflict)).map
        ProvenanceField.name := conflicts_reconcileAll r

open Classical in
/-- A refusal names the contradicted fields, in the order of the table. -/
theorem reconcile_conflict {fields : List JsString} :
    (∃ provenance, reconcileWithTrustedContext intent ctx context synthesized =
        .error (.provenanceConflict fields provenance)) ↔
      intent.isNullish = false ∧ (∃ field ∈ provenanceFields, Contradicted intent ctx context field) ∧
        fields = (provenanceFields.filter (fun field => Contradicted intent ctx context field)).map
          ProvenanceField.name := by
  have hfilter : provenanceFields.filter (fun field => field.outcome intent ctx context synthesized = .conflict) =
      provenanceFields.filter (fun field => Contradicted intent ctx context field) :=
    List.filter_congr fun field hfield => decide_eq_decide.mpr (outcome_conflict (provenanceFields_plain field hfield))
  unfold reconcileWithTrustedContext
  by_cases hnull : intent.isNullish = true
  · simp [hnull, runtimeError]
  · rw [if_neg hnull]
    simp only [conflicts_provenanceFields, List.nil_append, hfilter]
    by_cases hsome : ∃ field ∈ provenanceFields, Contradicted intent ctx context field
    · have hne : ¬ ((provenanceFields.filter (fun field => Contradicted intent ctx context field)).map
          ProvenanceField.name).isEmpty = true := by
        obtain ⟨field, hfield, hcontradicted⟩ := hsome
        rw [List.isEmpty_iff, List.map_eq_nil_iff, List.filter_eq_nil_iff]
        exact fun hall => hall field hfield (decide_eq_true hcontradicted)
      rw [if_neg hne]
      simp only [Except.error.injEq, GuardError.provenanceConflict.injEq, exists_and_left, exists_eq', and_true]
      exact ⟨fun h => ⟨by simpa using hnull, hsome, h.symm⟩, fun h => h.2.2.symm⟩
    · have hnil : ((provenanceFields.filter (fun field => Contradicted intent ctx context field)).map
          ProvenanceField.name).isEmpty = true := by
        rw [List.isEmpty_iff, List.map_eq_nil_iff, List.filter_eq_nil_iff]
        exact fun field hfield hcontradicted => hsome ⟨field, hfield, of_decide_eq_true hcontradicted⟩
      rw [if_pos hnil]
      exact ⟨fun ⟨_, h⟩ => (by cases h), fun h => absurd h.2.1 hsome⟩

theorem reconcile_ok {r : ReconciliationResult} (h : reconcileWithTrustedContext intent ctx context synthesized = .ok r) :
    PremisesPrevail ctx intent r.intent ∧ ∀ field ∈ provenanceFields,
      ownEntry field.name r.provenance = some (field.outcome intent ctx context synthesized) := by
  unfold reconcileWithTrustedContext at h
  split at h
  · cases h
  · dsimp only at h
    split at h
    · rename_i hnone
      obtain rfl := Except.ok.inj h
      have hno : ∀ field ∈ provenanceFields, field.outcome intent ctx context synthesized ≠ .conflict := by
        intro field hfield hconflict
        rw [conflicts_provenanceFields, List.nil_append, List.isEmpty_iff, List.map_eq_nil_iff,
          List.filter_eq_nil_iff] at hnone
        exact hnone field hfield (decide_eq_true hconflict)
      refine ⟨?_, fun field hfield => provenance_reconcileAll nodup_provenanceFields hfield _⟩
      have happlied : ∀ field ∈ provenanceFields, field.inIntent = true → ∀ premise, field.derived ctx = some premise →
          (JsValue.obj (reconcileAll intent ctx context synthesized provenanceFields
            ⟨spread intent, [], []⟩).merged).field field.name = premise := by
        intro field hfield hin premise hpremise
        rw [JsValue.field, JsValue.entries,
          merged_reconcileAll nodup_provenanceFields hfield hin hpremise (hno field hfield)]
        rfl
      constructor
      · exact happlied .agentId (by simp [provenanceFields]) rfl _ rfl
      · intro tool htool
        exact happlied .tool (by simp [provenanceFields]) rfl _ (by simp [ProvenanceField.tool, htool])
      · exact happlied .depth (by simp [provenanceFields]) rfl _ rfl
      · intro key hagent hdepth htool
        refine merged_reconcileAll_of_notMem ?_ _
        simp only [provenanceFields, List.forall_mem_cons, List.not_mem_nil, false_implies, implies_true, and_true]
        refine ⟨fun h => absurd h.symm hagent, fun h _ => ?_, fun h => absurd h.symm hdepth, ?_, ?_, ?_, ?_⟩
        · simp [ProvenanceField.tool, htool h.symm]
        all_goals
          intro _ hin
          cases hin
    · cases h

end

section

variable {σ S V : Type} {H : Host} {cfg : GuardConfig} {action delegationInput : JsValue} {evs : GuardHistory S V}

/-- Whatever is evaluated is what the normalizer returned. -/
def EvaluatesNormalized (action : JsValue) (evs : GuardHistory S V) : GuardRequest S V → Prop
  | .evaluatePure intent _ _ => ⟨.normalize action, .ok intent⟩ ∈ evs
  | _ => True

theorem evaluatesNormalized_free : AllowsFree (S := S) (V := V) (EvaluatesNormalized action) := by
  intro evs i hi
  cases i <;> trivial

theorem standardPath_evaluates {state : S} {version : V} {intent : JsValue}
    (h : ⟨.normalize action, .ok intent⟩ ∈ evs) :
    (standardPath H cfg action intent state version : GuardCall σ S V JsValue).Follows
      (EvaluatesNormalized action) evs (fun _ _ => True) := by
  have hfree : AllowsFree (S := S) (V := V) (EvaluatesNormalized action) := evaluatesNormalized_free
  refine (evaluatePolicy_follows hfree fun _ => List.mem_append_left _ h).bind fun _ _ _ => ?_
  refine (requireAuthorization_follows hfree).bind fun _ _ _ => ?_
  refine (verifyIssued_follows hfree).bind fun _ _ _ => ?_
  refine bindIntent_follows.bind fun _ _ _ => ?_
  refine (bindState_follows hfree).bind fun _ _ _ => ?_
  refine (consumeIssued_follows trivial).bind fun _ _ _ => ?_
  refine (commitState_follows trivial).bind fun _ _ _ => ?_
  refine (passGate_follows hfree).bind fun _ _ _ => ?_
  exact runExecute_follows hfree trivial

/-- The delegation path evaluates nothing. -/
theorem delegationPath_evaluates {intent : JsValue} :
    (delegationPath H cfg action delegationInput intent : GuardCall σ S V JsValue).Follows
      (EvaluatesNormalized action) evs (fun _ _ => True) := by
  have hfree : AllowsFree (S := S) (V := V) (EvaluatesNormalized action) := evaluatesNormalized_free
  refine Call.follows_modify_bind (delegatedAmount_follows.bind fun _ _ _ => ?_)
  refine snapshotDelegation_follows.bind fun _ _ _ => ?_
  refine requireAuthorities_follows.bind fun _ _ _ => ?_
  refine Call.follows_request_bind (hfree _ _ rfl) fun _ => ?_
  refine requireParentScope_follows.bind fun _ _ _ => ?_
  refine (validatedTrust_follows hfree).bind fun _ _ _ => ?_
  refine verifyParent_follows.bind fun _ _ _ => ?_
  refine (chainTrust_follows hfree).bind fun _ _ _ => ?_
  refine verifyChain_follows.bind fun _ _ _ => ?_
  refine (checkDelegationRevocation_follows hfree).bind fun _ _ _ => ?_
  refine (checkSigningKeys_follows hfree).bind fun _ _ _ => ?_
  refine (consumeDelegation_follows trivial).bind fun _ _ _ => ?_
  refine (consumeParent_follows trivial).bind fun _ _ _ => ?_
  refine (passGate_follows hfree).bind fun _ _ _ => ?_
  exact runExecute_follows hfree trivial

theorem guardCall_evaluates :
    Async.Follows (σ := σ) (EvaluatesNormalized action) (guardCall H cfg action delegationInput)
      ([] : GuardHistory S V) (fun _ _ => True) := by
  have hfree : AllowsFree (S := S) (V := V) (EvaluatesNormalized action) := evaluatesNormalized_free
  have hrequest : (runRequest H cfg action delegationInput : GuardCall σ S V JsValue).Follows
      (EvaluatesNormalized action) [] (fun _ _ => True) := by
    refine (loadState_follows hfree).bind fun loaded _ _ => ?_
    refine (normalizeAction_follows hfree).bind fun intent _ hintent => ?_
    obtain ⟨rfl, -, -⟩ := hintent
    split
    · exact delegationPath_evaluates
    · exact standardPath_evaluates (List.mem_append_right _ (List.mem_singleton_self _))
  refine (hrequest (createLifecycle .stateLoad)).bind fun settled _ _ => ?_
  obtain ⟨_ | _, lifecycle⟩ := settled
  · exact (emitBoundaryEvent_follows hfree).bind fun _ _ _ => Async.follows_pure trivial
  · exact Async.follows_pure trivial

variable {args : SecureArguments}

/-- Before the shared body a secure call asks for nothing but the event of its refusal. -/
theorem secureGuard_evaluates :
    Async.Follows (EvaluatesNormalized action) (secureGuard H cfg args action delegationInput)
      ([] : GuardHistory S V) (fun _ _ => True) := by
  have hfree : AllowsFree (S := S) (V := V) (EvaluatesNormalized action) := evaluatesNormalized_free
  have hsecure : (runSecure H cfg args action delegationInput : GuardCall Unit S V JsValue).Follows
      (EvaluatesNormalized action) [] (fun _ _ => True) := by
    unfold runSecure
    split
    · exact Call.follows_throw
    · split
      · exact Call.follows_throw
      · split
        · exact Call.follows_throw
        · exact Call.follows_throw
        · refine Call.follows_modify_bind fun t => ?_
          exact guardCall_evaluates.bind fun _ _ _ => Async.follows_pure fun _ _ => trivial
  refine (hsecure (createLifecycle .trustedContext)).bind fun settled _ _ => ?_
  obtain ⟨_ | _, lifecycle⟩ := settled
  · exact (emitBoundaryEvent_follows hfree).bind fun _ _ _ => Async.follows_pure trivial
  · exact Async.follows_pure trivial

end

/-- The intents in a history of answers are the secure normalizer's. -/
def NormalizedBy {S V : Type} (baseNormalize : JsValue → Except GuardError JsValue) (ctx : TrustedPremises)
    (action : JsValue) (evs : GuardHistory S V) : Prop :=
  ∀ intent, ⟨.normalize action, .ok intent⟩ ∈ evs →
    ∃ provenance, secureNormalize baseNormalize ctx action = .ok ⟨intent, provenance⟩

theorem secureNormalize_ok {baseNormalize : JsValue → Except GuardError JsValue} {ctx : TrustedPremises}
    {action : JsValue} {r : ReconciliationResult} (h : secureNormalize baseNormalize ctx action = .ok r) :
    ∃ proposed, baseNormalize (forNormalization ctx action) = .ok proposed ∧
      reconcileWithTrustedContext proposed ctx (action.field (js "context")) (synthesizedFields action) = .ok r := by
  unfold secureNormalize at h
  split at h
  · cases h
  · exact bind_eq_ok.mp h

/-- A claim recorded as matched is the proposer's own, where the guard supplies the
premise itself or the intent cannot carry the claim. -/
theorem secureNormalize_matched {baseNormalize : JsValue → Except GuardError JsValue} {ctx : TrustedPremises}
    {action : JsValue} {r : ReconciliationResult} (h : secureNormalize baseNormalize ctx action = .ok r)
    {field : ProvenanceField} (hfield : field ∈ provenanceFields)
    (hown : field.name = js "agent_id" ∨ field.inIntent = false)
    (hmatched : ownEntry field.name r.provenance = some .matched) :
    field.derived ctx = some ((action.field (js "context")).field field.name) := by
  obtain ⟨proposed, -, hreconciled⟩ := secureNormalize_ok h
  have houtcome := (reconcile_ok hreconciled).2 field hfield
  rw [hmatched, Option.some.injEq, eq_comm, outcome_matched (provenanceFields_plain field hfield)] at houtcome
  obtain ⟨hnot, ⟨claim, hclaim⟩, premise, hpremise, hall⟩ := houtcome
  have hdeclared : Declares proposed (action.field (js "context")) field
      ((action.field (js "context")).field field.name) := by
    rcases hown with hagent | hcontext
    · refine .proposed ?_
      rw [hagent] at hnot ⊢
      unfold synthesizedFields at hnot
      by_contra hnull
      rw [if_pos (by simpa using hnull)] at hnot
      exact hnot (List.mem_singleton_self _)
    · cases hclaim with
      | normalized hin => exact absurd hin (by simp [hcontext])
      | proposed hsome => exact .proposed hsome
  rw [hpremise, hall _ hdeclared]

open Classical in
theorem trusted_premises_win (ctx : TrustedPremises) :
    (∀ (S V : Type) (H : Host) (cfg : GuardConfig) (tenancy : TenancyPosture) (body : SharedBody)
      (baseNormalize : JsValue → Except GuardError JsValue) (action delegationInput : JsValue)
      (evs : GuardHistory S V) (intent : JsValue) (state : S) (evaluationTime : JsNumber),
      NormalizedBy baseNormalize ctx action evs →
      Async.Asks (secureGuard H cfg ⟨tenancy, some ctx.toTrustedExecutionContext, body⟩ action delegationInput) evs
        (.evaluatePure intent state evaluationTime) →
      ∃ proposed, baseNormalize (forNormalization ctx action) = .ok proposed ∧ PremisesPrevail ctx proposed intent) ∧
    (∀ (intent context : JsValue) (synthesized : List JsString),
      (∀ fields, (∃ provenance, reconcileWithTrustedContext intent ctx context synthesized =
          .error (.provenanceConflict fields provenance)) ↔
        intent.isNullish = false ∧ (∃ field ∈ provenanceFields, Contradicted intent ctx context field) ∧
          fields = (provenanceFields.filter (fun field => Contradicted intent ctx context field)).map
            ProvenanceField.name) ∧
      ∀ r, reconcileWithTrustedContext intent ctx context synthesized = .ok r →
        PremisesPrevail ctx intent r.intent ∧ ∀ field ∈ provenanceFields,
          ownEntry field.name r.provenance = some .matched ↔
            field.name ∉ synthesized ∧ (∃ claim, Declares intent context field claim) ∧
              ∃ premise, field.derived ctx = some premise ∧
                ∀ claim, Declares intent context field claim → claim = premise) ∧
    ∀ (baseNormalize : JsValue → Except GuardError JsValue) (action : JsValue) (r : ReconciliationResult),
      secureNormalize baseNormalize ctx action = .ok r → ∀ field ∈ provenanceFields,
        field.name = js "agent_id" ∨ field.inIntent = false → ownEntry field.name r.provenance = some .matched →
          field.derived ctx = some ((action.field (js "context")).field field.name) := by
  refine ⟨?_, fun intent context synthesized => ⟨fun fields => reconcile_conflict, fun r hr => ?_⟩, ?_⟩
  · intro S V H cfg tenancy body baseNormalize action delegationInput evs intent state t hnormalized hasks
    have hmem : ⟨.normalize action, .ok intent⟩ ∈ [] ++ evs := secureGuard_evaluates.asks hasks
    obtain ⟨provenance, hsecure⟩ := hnormalized intent hmem
    obtain ⟨proposed, hproposed, hreconciled⟩ := secureNormalize_ok hsecure
    exact ⟨proposed, hproposed, (reconcile_ok hreconciled).1⟩
  · obtain ⟨hprevail, houtcomes⟩ := reconcile_ok hr
    refine ⟨hprevail, fun field hfield => ?_⟩
    rw [houtcomes field hfield, Option.some.injEq]
    exact outcome_matched (provenanceFields_plain field hfield)
  · exact fun _ _ _ hr _ hfield hown hmatched => secureNormalize_matched hr hfield hown hmatched

/-- A route that names the tool, and a call of it. -/
def sampleTrustedInput : JsValue :=
  .obj [(js "principalId", .str (js "p")), (js "agentId", .str (js "a")), (js "adapterId", .str (js "http")),
    (js "tool", .str (js "gpu")), (js "depth", .num (.int 0))]

def sampleProposal : JsValue :=
  .obj [(js "name", .str (js "provision")), (js "context", .obj [(js "agent_id", .str (js "a"))])]

/-- A normalizer that names the tool itself. -/
def normalizesTool (_ : JsValue) : Except GuardError JsValue :=
  .ok (.obj [(js "agent_id", .str (js "a")), (js "tool", .str (js "gpu"))])

/-- The sample call comes to the evaluation, of the intent with the trusted premises. -/
theorem trusted_premises_win_sample : ∃ ctx, createTrustedExecutionContext sampleTrustedInput = .ok ctx ∧
    ∃ proposed intent, normalizesTool (forNormalization ctx sampleProposal) = .ok proposed ∧ PremisesPrevail ctx proposed intent ∧
      intent.field (js "depth") = .num (.int 0) := by
  obtain ⟨ctx, hctx, hdepth⟩ : ∃ ctx, createTrustedExecutionContext sampleTrustedInput = .ok ctx ∧ ctx.depth.val = 0 :=
    ⟨_, rfl, rfl⟩
  obtain ⟨r, hr⟩ : ∃ r, secureNormalize normalizesTool ctx sampleProposal = .ok r := by
    obtain rfl := Except.ok.inj hctx
    exact ⟨_, rfl⟩
  have hnull : r.intent.isNullish = false := by
    obtain rfl := Except.ok.inj hctx
    obtain rfl := Except.ok.inj hr
    rfl
  let evs : GuardHistory ℕ ℕ := loadedHistory sampleProposal 0 0 r.intent ++ [⟨.clock, .int 10⟩]
  have hnormalized : NormalizedBy normalizesTool ctx sampleProposal evs := by
    intro intent hmem
    have hanswers : (⟨.normalize sampleProposal, .ok intent⟩ : Sigma (GuardAnswer (S := ℕ) (V := ℕ))) =
        ⟨.normalize sampleProposal, .ok r.intent⟩ := by simpa [evs, loadedHistory] using hmem
    cases hanswers
    exact ⟨r.provenance, hr⟩
  have hasks : Async.Asks (secureGuard sampleHost sampleGuardConfig
      ⟨.singleTenant, some ctx.toTrustedExecutionContext, .built⟩ sampleProposal .undefined) evs
        (.evaluatePure r.intent 0 (.int 10)) := by
    obtain rfl := Except.ok.inj hctx
    obtain rfl := Except.ok.inj hr
    exact ⟨_, .ask _ (.ask _ (.ask _ (.nil _)))⟩
  obtain ⟨proposed, hproposed, hprevail⟩ := (trusted_premises_win ctx).1 ℕ ℕ sampleHost sampleGuardConfig .singleTenant
    .built normalizesTool sampleProposal .undefined evs r.intent 0 (.int 10) hnormalized hasks
  refine ⟨ctx, hctx, proposed, r.intent, hproposed, hprevail, ?_⟩
  rw [hprevail.depth, hdepth]
  rfl

/-- A tool that only the normalizer named is recorded as matched. -/
theorem normalizer_claim_matched : ¬ ∀ (ctx : TrustedPremises) (baseNormalize : JsValue → Except GuardError JsValue)
    (action : JsValue) (r : ReconciliationResult), secureNormalize baseNormalize ctx action = .ok r →
      ∀ field ∈ provenanceFields, ownEntry field.name r.provenance = some .matched →
        field.derived ctx = some ((action.field (js "context")).field field.name) := by
  intro hclaim
  have hcreated : ∃ ctx, createTrustedExecutionContext sampleTrustedInput = .ok ctx ∧
      ctx.tool.map Subtype.val = some (js "gpu") := ⟨_, rfl, rfl⟩
  obtain ⟨ctx, hctx, htool⟩ := hcreated
  obtain ⟨r, hr, hmatched⟩ : ∃ r, secureNormalize normalizesTool ctx sampleProposal = .ok r ∧
      ownEntry (js "tool") r.provenance = some .matched := by
    obtain rfl := Except.ok.inj hctx
    exact ⟨_, rfl, by decide⟩
  have hderived := hclaim ctx normalizesTool sampleProposal r hr .tool (by simp [provenanceFields]) hmatched
  rw [show ProvenanceField.derived .tool ctx = (ctx.tool.map Subtype.val).map .str by simp [ProvenanceField.tool], htool]
    at hderived
  cases Option.some.inj hderived

end OxDeAI
