import OxDeAI.Core.Clone
import OxDeAI.Engine.IntentHash
import OxDeAI.Verification.Authorization

/-! `intentHash` of a runtime value. On the value of a typed intent it is the typed
intent's hash. -/

namespace OxDeAI

open Js

mutual

/-- Undefined members are left out of objects; undefined elements stay. -/
def stripUndefinedDeep : JsValue → JsValue
  | .arr xs => .arr (stripElements xs)
  | .obj es | .instance es => .obj (stripMembers es)
  | v => v

def stripElements : List JsValue → List JsValue
  | [] => []
  | x :: xs => stripUndefinedDeep x :: stripElements xs

/-- An assignment to `__proto__` makes no member. -/
def stripMembers : List (JsString × JsValue) → List (JsString × JsValue)
  | [] => []
  | (k, v) :: es =>
    if v.isUndefined || k = protoKey then stripMembers es
    else (k, stripUndefinedDeep v) :: stripMembers es

end

/-- The fields of the intent that are defined. -/
def bindingOf (intent : JsValue) : List (JsString × JsValue) :=
  present (bindingKeys.map (fun key => (key, defined (intent.field key))))

def intentHashOf (P : Platform) (intent : JsValue) : Except JsError JsString :=
  sha256HexFromJson P (stripUndefinedDeep (.obj (bindingOf intent)))

/-- A typed intent as the object it is. -/
def intentValue (intent : Intent) : JsValue :=
  .obj (present (bindingFields intent ++ [(js "signature", some (.str intent.signature))]))

section

variable {P : Platform} {intent : Intent}

theorem ownEntry_present {fields : List (JsString × Option JsValue)} (h : (fields.map Prod.fst).Nodup)
    {f : JsString × Option JsValue} (hf : f ∈ fields) : ownEntry f.1 (present fields) = f.2 := by
  induction fields with
  | nil => simp at hf
  | cons g fields ih =>
    obtain ⟨k, v⟩ := g
    rw [List.map_cons, List.nodup_cons] at h
    have hnone : ownEntry k (present fields) = none := by
      rw [ownEntry_eq_none]
      exact fun hk => h.1 ((keys_present fields).subset hk)
    rcases List.mem_cons.mp hf with rfl | hmem
    · cases v with
      | none => exact hnone
      | some v => simp [present, ownEntry]
    · have hne : k ≠ f.1 := by
        intro hk
        have hf1 : f.1 ∈ fields.map Prod.fst := List.mem_map_of_mem hmem
        exact h.1 (hk ▸ hf1)
      cases v with
      | none => exact ih h.2 hmem
      | some v => simpa [present, ownEntry, hne] using ih h.2 hmem

theorem field_intentValue {key : JsString} {v : Option JsValue} (h : (key, v) ∈ bindingFields intent) :
    (intentValue intent).field key = v.getD .undefined := by
  have hnd : ((bindingFields intent ++ [(js "signature", some (JsValue.str intent.signature))]).map
      Prod.fst).Nodup := by
    have hkeys : (bindingFields intent ++ [(js "signature", some (JsValue.str intent.signature))]).map
        Prod.fst = bindingKeys ++ [js "signature"] := by
      rw [List.map_append, keys_bindingFields]
      rfl
    rw [hkeys]
    decide
  rw [JsValue.field, intentValue, JsValue.entries,
    ownEntry_present hnd (f := (key, v)) (List.mem_append_left _ h)]

/-- Every field of a binding is a primitive, and none of them is undefined. -/
def isPlainField (v : Option JsValue) : Bool :=
  match v with
  | some (.str _) | some (.num _) | some (.bigint _) | some (.bool _) | none => true
  | _ => false

theorem isPlainField_binding {f : JsString × Option JsValue} (h : f ∈ bindingFields intent) :
    isPlainField f.2 = true := by
  simp only [bindingFields, List.mem_cons, List.not_mem_nil, or_false] at h
  rcases h with rfl | rfl | rfl | rfl | rfl | rfl | rfl | rfl | rfl | rfl | rfl | rfl | rfl | rfl
  · rfl
  · rfl
  · rfl
  · cases intent.depth <;> rfl
  · rfl
  · cases intent.asset <;> rfl
  · rfl
  · rfl
  · rfl
  · rfl
  · cases intent.type <;> rfl
  · cases intent.authorizationId <;> rfl
  · cases intent.tool <;> rfl
  · cases intent.toolCall <;> rfl

theorem defined_getD {v : Option JsValue} (h : isPlainField v = true) :
    defined (v.getD .undefined) = v := by
  cases v with
  | none => rfl
  | some v => cases v <;> first | rfl | cases h

theorem strip_plain {v : JsValue} (h : isPlainField (some v) = true) :
    v.isUndefined = false ∧ stripUndefinedDeep v = v := by
  cases v <;> first | exact ⟨rfl, rfl⟩ | cases h

theorem bindingOf_intentValue : bindingOf (intentValue intent) = intentBinding intent := by
  rw [intentBinding_eq, bindingOf, ← keys_bindingFields intent, List.map_map]
  congr 1
  conv_rhs => rw [← List.map_id (bindingFields intent)]
  refine List.map_congr_left fun f hf => ?_
  obtain ⟨key, v⟩ := f
  rw [Function.comp_apply, field_intentValue hf, defined_getD (isPlainField_binding hf), id_eq]

theorem stripMembers_present {fields : List (JsString × Option JsValue)}
    (hplain : ∀ f ∈ fields, isPlainField f.2 = true) (hkeys : ∀ f ∈ fields, f.1 ≠ protoKey) :
    stripMembers (present fields) = present fields := by
  induction fields with
  | nil => rfl
  | cons f fields ih =>
    obtain ⟨k, v⟩ := f
    have hrest := ih (fun g hg => hplain g (List.mem_cons_of_mem _ hg))
      (fun g hg => hkeys g (List.mem_cons_of_mem _ hg))
    have hk : k ≠ protoKey := hkeys (k, v) List.mem_cons_self
    have hv : isPlainField v = true := hplain (k, v) List.mem_cons_self
    cases v with
    | none => exact hrest
    | some v =>
      obtain ⟨hdef, hstrip⟩ := strip_plain hv
      rw [present_cons, optionalField, List.singleton_append, stripMembers, hrest, hstrip, if_neg]
      simp [hdef, hk]

/-- The value of a typed intent has the intent's hash. -/
theorem intentHashOf_intentValue : intentHashOf P (intentValue intent) = intentHash P intent := by
  have hkeys : ∀ f ∈ bindingFields intent, f.1 ≠ protoKey := by
    intro f hf hproto
    have hmem : f.1 ∈ bindingKeys := keys_bindingFields intent ▸ List.mem_map_of_mem hf
    rw [hproto] at hmem
    revert hmem
    decide
  rw [intentHashOf, intentHash, bindingOf_intentValue, intentBinding_eq, stripUndefinedDeep,
    stripMembers_present (fun f hf => isPlainField_binding hf) hkeys]

end

end OxDeAI
