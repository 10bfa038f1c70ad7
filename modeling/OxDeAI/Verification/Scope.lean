import OxDeAI.Verification.Result

/-! Delegation scopes: their field types, the inheritance of omitted fields, and
the narrowing of a child against its parent. -/

namespace OxDeAI

open Js

/-- Absent fields are `undefined`. -/
structure DelegationScope where
  tools : JsValue
  maxAmount : JsValue
  maxActions : JsValue
  maxDepth : JsValue

def isToolList : JsValue → Bool
  | .arr xs => xs.all JsValue.isString
  | _ => false

def isAmount : JsValue → Bool
  | .bigint z => 0 ≤ z
  | _ => false

def isCount : JsValue → Bool
  | .num n => n.isInteger && !n.lt (.int 0)
  | _ => false

/-- Absent, or of the type. -/
def optionally (type : JsValue → Bool) (v : JsValue) : Bool := v.isUndefined || type v

def scopeTypeViolations (scope : JsValue) (label : JsString) : List VerificationViolation :=
  if !scope.isRecord then [⟨.delegationScopeViolation, label ++ js " must be an object", none⟩]
  else
    check (optionally isToolList (scope.field (js "tools"))) .delegationScopeViolation
      (label ++ js ".tools must be an array of strings") ++
    check (optionally isAmount (scope.field (js "max_amount"))) .delegationScopeViolation
      (label ++ js ".max_amount must be a non-negative bigint") ++
    check (optionally isCount (scope.field (js "max_actions"))) .delegationScopeViolation
      (label ++ js ".max_actions must be a non-negative integer") ++
    check (optionally isCount (scope.field (js "max_depth"))) .delegationScopeViolation
      (label ++ js ".max_depth must be a non-negative integer")

/-- The child's own value, or else the parent's. -/
def inheritField (child parent : JsValue) (field : JsString) : Except JsError JsValue :=
  if child.isNullish then .error .typeError
  else if !(child.field field).isUndefined then .ok (child.field field)
  else if parent.isNullish then .error .typeError
  else .ok (parent.field field)

def resolveEffectiveChildScope (child parent : JsValue) : Except JsError DelegationScope := do
  let tools ← inheritField child parent (js "tools")
  let maxAmount ← inheritField child parent (js "max_amount")
  let maxActions ← inheritField child parent (js "max_actions")
  let maxDepth ← inheritField child parent (js "max_depth")
  return ⟨tools, maxAmount, maxActions, maxDepth⟩

def toolTexts : JsValue → List JsString
  | .arr xs => xs.filterMap JsValue.text?
  | _ => []

/-- The operator `>` between values of one type; both scopes are well typed here. -/
def exceeds : JsValue → JsValue → Bool
  | .bigint a, .bigint b => b < a
  | .num a, .num b => b.lt a
  | _, _ => false

/-- The text of an amount or a count in a message. -/
def limitText : JsValue → JsString
  | .bigint z => decimal z
  | .num n => n.text
  | _ => []

def checkTools (tools parentTools : JsValue) : List VerificationViolation :=
  let notAllowed := (toolTexts tools).filter (fun t => !(toolTexts parentTools).contains t)
  check (tools.isUndefined || parentTools.isUndefined || notAllowed.isEmpty) .delegationScopeViolation
    (js "scope.tools contains tools not in parent: " ++ List.intercalate (js ", ") notAllowed)

def checkLimit (field : JsString) (limit parentLimit : JsValue) : List VerificationViolation :=
  check (limit.isUndefined || parentLimit.isUndefined || !exceeds limit parentLimit)
    .delegationScopeViolation
    (js "scope." ++ field ++ js " " ++ limitText limit ++ js " exceeds parent " ++ field ++ js " " ++
      limitText parentLimit)

def checkScopeNarrowing (child parent : JsValue) : Except JsError (List VerificationViolation) :=
  (resolveEffectiveChildScope child parent).map (fun effective =>
    checkTools effective.tools (parent.field (js "tools")) ++
    checkLimit (js "max_amount") effective.maxAmount (parent.field (js "max_amount")) ++
    checkLimit (js "max_actions") effective.maxActions (parent.field (js "max_actions")) ++
    checkLimit (js "max_depth") effective.maxDepth (parent.field (js "max_depth")))

/-- Every limit of the parent still holds. -/
structure NarrowerThan (effective : DelegationScope) (parent : JsValue) : Prop where
  tools : (parent.field (js "tools")).isUndefined = false → ∃ ts ps : List JsString,
    effective.tools = .arr (ts.map .str) ∧ parent.field (js "tools") = .arr (ps.map .str) ∧ ts ⊆ ps
  maxAmount : (parent.field (js "max_amount")).isUndefined = false → ∃ a b : ℤ,
    effective.maxAmount = .bigint a ∧ parent.field (js "max_amount") = .bigint b ∧ 0 ≤ a ∧ a ≤ b
  maxActions : (parent.field (js "max_actions")).isUndefined = false → ∃ a b : ℤ,
    effective.maxActions = .num (.int a) ∧ parent.field (js "max_actions") = .num (.int b) ∧ 0 ≤ a ∧ a ≤ b
  maxDepth : (parent.field (js "max_depth")).isUndefined = false → ∃ a b : ℤ,
    effective.maxDepth = .num (.int a) ∧ parent.field (js "max_depth") = .num (.int b) ∧ 0 ≤ a ∧ a ≤ b

/-- A scope whose fields have the right types. -/
structure ScopeTyped (scope : JsValue) : Prop where
  isRecord : scope.isRecord = true
  tools : optionally isToolList (scope.field (js "tools")) = true
  maxAmount : optionally isAmount (scope.field (js "max_amount")) = true
  maxActions : optionally isCount (scope.field (js "max_actions")) = true
  maxDepth : optionally isCount (scope.field (js "max_depth")) = true

section

variable {child parent scope v w : JsValue} {type : JsValue → Bool} {label field : JsString}

theorem scopeTypeViolations_eq_nil : scopeTypeViolations scope label = [] ↔ ScopeTyped scope := by
  unfold scopeTypeViolations
  by_cases hr : scope.isRecord = true
  · simp only [hr, Bool.not_true, Bool.false_eq_true, if_false, List.append_eq_nil_iff, check_eq_nil]
    constructor
    · rintro ⟨⟨⟨ht, ha⟩, hc⟩, hd⟩
      exact ⟨hr, ht, ha, hc, hd⟩
    · intro h
      exact ⟨⟨⟨h.tools, h.maxAmount⟩, h.maxActions⟩, h.maxDepth⟩
  · constructor
    · intro h
      simp [hr] at h
    · intro h
      exact absurd h.isRecord hr

theorem isToolList_iff : isToolList v = true ↔ ∃ ts : List JsString, v = .arr (ts.map .str) := by
  constructor
  · intro h
    cases v with
    | arr xs =>
      rw [isToolList, List.all_eq_true] at h
      induction xs with
      | nil => exact ⟨[], rfl⟩
      | cons x xs ih =>
        obtain ⟨ts, hts⟩ := ih (fun y hy => h y (List.mem_cons_of_mem _ hy))
        have hx := h x List.mem_cons_self
        cases x with
        | str s => exact ⟨s :: ts, by rw [List.map_cons, ← JsValue.arr.inj hts]⟩
        | _ => cases hx
    | _ => cases h
  · rintro ⟨ts, rfl⟩
    simp [isToolList, JsValue.isString]

theorem isAmount_iff : isAmount v = true ↔ ∃ z : ℤ, v = .bigint z ∧ 0 ≤ z := by
  cases v <;> simp [isAmount]

theorem isCount_iff : isCount v = true ↔ ∃ z : ℤ, v = .num (.int z) ∧ 0 ≤ z := by
  cases v with
  | num n => cases n <;> simp [isCount, JsNumber.isInteger]
  | _ => simp [isCount]

theorem optionally_of_defined (h : optionally type v = true) (hv : v.isUndefined = false) :
    type v = true := by
  simpa [optionally, hv] using h

theorem not_isNullish_of_isRecord (h : v.isRecord = true) : v.isNullish = false := by
  cases v <;> first | rfl | cases h

theorem inheritField_ok (hc : child.isRecord = true) (hp : parent.isRecord = true) :
    inheritField child parent field =
      .ok (if (child.field field).isUndefined then parent.field field else child.field field) := by
  unfold inheritField
  rw [not_isNullish_of_isRecord hc, not_isNullish_of_isRecord hp]
  by_cases hu : (child.field field).isUndefined = true
  · simp [hu]
  · simp [hu]

/-- The inherited value is of the type, and defined where the parent's is. -/
theorem inherited_typed (hc : optionally type (child.field field) = true)
    (hp : optionally type (parent.field field) = true) (hdef : (parent.field field).isUndefined = false)
    (hv : inheritField child parent field = .ok v) : type v = true ∧ v.isUndefined = false := by
  unfold inheritField at hv
  split at hv
  · cases hv
  · split at hv
    · rename_i hu
      cases hv
      rw [Bool.not_eq_true'] at hu
      exact ⟨optionally_of_defined hc hu, hu⟩
    · split at hv
      · cases hv
      · cases hv
        exact ⟨optionally_of_defined hp hdef, hdef⟩

theorem resolveEffectiveChildScope_ok {effective : DelegationScope} :
    resolveEffectiveChildScope child parent = .ok effective ↔
      inheritField child parent (js "tools") = .ok effective.tools ∧
      inheritField child parent (js "max_amount") = .ok effective.maxAmount ∧
      inheritField child parent (js "max_actions") = .ok effective.maxActions ∧
      inheritField child parent (js "max_depth") = .ok effective.maxDepth := by
  unfold resolveEffectiveChildScope
  simp only [bind_eq_ok]
  constructor
  · rintro ⟨t, ht, a, ha, c, hc, d, hd, h⟩
    cases h
    exact ⟨ht, ha, hc, hd⟩
  · rintro ⟨ht, ha, hc, hd⟩
    exact ⟨_, ht, _, ha, _, hc, _, hd, rfl⟩

theorem exists_effective (hc : child.isRecord = true) (hp : parent.isRecord = true) :
    ∃ effective, resolveEffectiveChildScope child parent = .ok effective :=
  ⟨⟨_, _, _, _⟩, resolveEffectiveChildScope_ok.mpr ⟨inheritField_ok hc hp, inheritField_ok hc hp,
    inheritField_ok hc hp, inheritField_ok hc hp⟩⟩

theorem toolTexts_strings (ts : List JsString) : toolTexts (.arr (ts.map .str)) = ts := by
  rw [toolTexts, List.filterMap_map]
  exact List.filterMap_some

theorem tools_narrower (hv : isToolList v = true) (hw : isToolList w = true) (h : checkTools v w = []) :
    ∃ ts ps : List JsString, v = .arr (ts.map .str) ∧ w = .arr (ps.map .str) ∧ ts ⊆ ps := by
  obtain ⟨ts, rfl⟩ := isToolList_iff.mp hv
  obtain ⟨ps, rfl⟩ := isToolList_iff.mp hw
  refine ⟨ts, ps, rfl, rfl, ?_⟩
  intro t ht
  rw [checkTools, check_eq_nil, toolTexts_strings, toolTexts_strings] at h
  have hempty : ts.filter (fun t => !ps.contains t) = [] := by
    simpa [JsValue.isUndefined] using h
  simpa using List.filter_eq_nil_iff.mp hempty t ht

theorem amount_narrower (hv : isAmount v = true) (hw : isAmount w = true)
    (h : checkLimit field v w = []) : ∃ a b : ℤ, v = .bigint a ∧ w = .bigint b ∧ 0 ≤ a ∧ a ≤ b := by
  obtain ⟨a, rfl, ha⟩ := isAmount_iff.mp hv
  obtain ⟨b, rfl, -⟩ := isAmount_iff.mp hw
  rw [checkLimit, check_eq_nil] at h
  exact ⟨a, b, rfl, rfl, ha, by simpa [JsValue.isUndefined, exceeds] using h⟩

theorem count_narrower (hv : isCount v = true) (hw : isCount w = true)
    (h : checkLimit field v w = []) :
    ∃ a b : ℤ, v = .num (.int a) ∧ w = .num (.int b) ∧ 0 ≤ a ∧ a ≤ b := by
  obtain ⟨a, rfl, ha⟩ := isCount_iff.mp hv
  obtain ⟨b, rfl, -⟩ := isCount_iff.mp hw
  rw [checkLimit, check_eq_nil] at h
  exact ⟨a, b, rfl, rfl, ha, by simpa [JsValue.isUndefined, exceeds] using h⟩

/-- A child that passes the narrowing check never widens its parent. -/
theorem narrowerThan_of_checkScopeNarrowing {effective : DelegationScope} (hc : ScopeTyped child)
    (hp : ScopeTyped parent) (h : checkScopeNarrowing child parent = .ok [])
    (heff : resolveEffectiveChildScope child parent = .ok effective) : NarrowerThan effective parent := by
  rw [checkScopeNarrowing, heff] at h
  have hnil := Except.ok.inj h
  simp only [List.append_eq_nil_iff] at hnil
  obtain ⟨⟨⟨ht, ha⟩, hc'⟩, hd⟩ := hnil
  obtain ⟨etools, eamount, eactions, edepth⟩ := resolveEffectiveChildScope_ok.mp heff
  constructor
  · intro hdef
    exact tools_narrower (inherited_typed hc.tools hp.tools hdef etools).1
      (optionally_of_defined hp.tools hdef) ht
  · intro hdef
    exact amount_narrower (inherited_typed hc.maxAmount hp.maxAmount hdef eamount).1
      (optionally_of_defined hp.maxAmount hdef) ha
  · intro hdef
    exact count_narrower (inherited_typed hc.maxActions hp.maxActions hdef eactions).1
      (optionally_of_defined hp.maxActions hdef) hc'
  · intro hdef
    exact count_narrower (inherited_typed hc.maxDepth hp.maxDepth hdef edepth).1
      (optionally_of_defined hp.maxDepth hdef) hd

end

end OxDeAI
