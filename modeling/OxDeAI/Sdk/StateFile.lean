import OxDeAI.Js.Coerce
import OxDeAI.Sift.StringifyText

/-! `JsonFileStateAdapter`: what it writes for a value, and what it loads. -/

namespace OxDeAI

open Js

/-- Own properties set on a new object in the order of their keys, as they are enumerated.
Setting `__proto__` makes none. -/
def keyOrder {β : Type} (es : List (JsString × β)) : List (JsString × β) :=
  propertyOrder ((sortedByUnits es).filter (fun e => e.1 ≠ protoKey))

section

-- what `String` gives of a function and of a symbol
variable (sourceText : JsValue → JsString)

mutual

def canonicalize : JsValue → JsValue
  | .null => .null
  | .bool b => .bool b
  | .num n => .num n
  | .str s => .str s
  | .bigint z => .str (decimal z ++ js "n")
  | .arr xs => .arr (canonicalElementsOf xs)
  | .obj es => .obj (keyOrder (canonicalMembersOf es))
  | .instance es => .obj (keyOrder (canonicalMembersOf es))
  | .undefined => .str (js "undefined")
  | .function => .str (sourceText .function)
  | .symbol => .str (sourceText .symbol)

def canonicalElementsOf : List JsValue → List JsValue
  | [] => []
  | x :: xs => canonicalize x :: canonicalElementsOf xs

def canonicalMembersOf : List (JsString × JsValue) → List (JsString × JsValue)
  | [] => []
  | (k, v) :: es => (k, canonicalize v) :: canonicalMembersOf es

end

def stringifyCanonical (value : JsValue) : JsString := stringify (canonicalize sourceText value)

/-- The bytes of the file. -/
def save (state : JsValue) : List Byte := utf8Encode (stringifyCanonical sourceText state ++ js "\n")

end

inductive LoadError
  | syntaxError
  | rangeError
  | typeError
  | error (message : JsString)

/-- `value.endsWith("n") ? value.slice(0, -1) : value`. -/
def withoutSuffix (value : JsString) : JsString :=
  if value.getLast? = some (unit 110) then value.dropLast else value

def parseBigIntLike : JsValue → Except LoadError ℤ
  | .bigint z => .ok z
  | .num (.int z) => .ok z
  | .num _ => .error .rangeError
  | .str value => match stringToBigInt? (withoutSuffix value) with
    | some z => .ok z
    | none => .error .syntaxError
  | _ => .error (.error (js "invalid bigint-like value"))

/-- The own enumerable properties. -/
def ownProperties : JsValue → List (JsString × JsValue)
  | .arr xs => xs.zipIdx.map (fun x => (natDecimal x.2, x.1))
  | .str s => s.zipIdx.map (fun u => (natDecimal u.2, .str [u.1]))
  | v => v.entries

def mapRecordBigInt (input : JsValue) : Except LoadError JsValue :=
  ((ownProperties input).mapM (fun e => (parseBigIntLike e.2).map (fun z => (e.1, JsValue.bigint z)))).map
    (fun out => .obj (out.filter (fun e => e.1 ≠ protoKey)))

def normalizeStateBigInts (raw : JsValue) : Except LoadError JsValue :=
  if raw.isNullish then .error .typeError
  else do
    let budget := raw.field (js "budget")
    let budgetLimit ← mapRecordBigInt (budget.field (js "budget_limit"))
    let spentInPeriod ← mapRecordBigInt (budget.field (js "spent_in_period"))
    let maxAmountPerAction ← mapRecordBigInt (raw.field (js "max_amount_per_action"))
    let newBudget := JsValue.obj (setEntry (js "spent_in_period") spentInPeriod
      (setEntry (js "budget_limit") budgetLimit (ownProperties budget)))
    return .obj (setEntry (js "max_amount_per_action") maxAmountPerAction
      (setEntry (js "budget") newBudget (ownProperties raw)))

def load (file : List Byte) : Except LoadError JsValue :=
  match parseJson (utf8Decode file) with
  | some raw => normalizeStateBigInts raw
  | none => .error .syntaxError

/-- A runtime value: its numbers are doubles, and no object repeats a key. -/
inductive IsValue : JsValue → Prop
  | null : IsValue .null
  | bool (b : Bool) : IsValue (.bool b)
  | num {x : JsNumber} (h : x.IsDouble) : IsValue (.num x)
  | str (s : JsString) : IsValue (.str s)
  | bigint (z : ℤ) : IsValue (.bigint z)
  | undefined : IsValue .undefined
  | function : IsValue .function
  | symbol : IsValue .symbol
  | arr {xs : List JsValue} (h : ∀ x ∈ xs, IsValue x) : IsValue (.arr xs)
  | obj {es : List (JsString × JsValue)} (hnd : (es.map Prod.fst).Nodup) (h : ∀ e ∈ es, IsValue e.2) :
      IsValue (.obj es)
  | «instance» {es : List (JsString × JsValue)} (hnd : (es.map Prod.fst).Nodup) (h : ∀ e ∈ es, IsValue e.2) :
      IsValue (.instance es)

section

variable (sourceText : JsValue → JsString)

mutual

/-- The value that the text of `canonicalize` stands for. -/
def stored : JsValue → JsValue
  | .null => .null
  | .bool b => .bool b
  | .num n => if n.isFinite then .num n else .null
  | .str s => .str s
  | .bigint z => .str (decimal z ++ js "n")
  | .arr xs => .arr (storedElements xs)
  | .obj es => .obj (keyOrder (storedMembers es))
  | .instance es => .obj (keyOrder (storedMembers es))
  | .undefined => .str (js "undefined")
  | .function => .str (sourceText .function)
  | .symbol => .str (sourceText .symbol)

def storedElements : List JsValue → List JsValue
  | [] => []
  | x :: xs => stored x :: storedElements xs

def storedMembers : List (JsString × JsValue) → List (JsString × JsValue)
  | [] => []
  | (k, v) :: es => (k, stored v) :: storedMembers es

end

end

section

variable {sourceText : JsValue → JsString} {β γ : Type} {es : List (JsString × β)}

theorem canonicalElementsOf_eq_map (xs : List JsValue) :
    canonicalElementsOf sourceText xs = xs.map (canonicalize sourceText) := by
  induction xs with
  | nil => rfl
  | cons x xs ih => rw [canonicalElementsOf, ih, List.map_cons]

theorem canonicalMembersOf_eq_map (es : List (JsString × JsValue)) :
    canonicalMembersOf sourceText es = es.map (fun e => (e.1, canonicalize sourceText e.2)) := by
  induction es with
  | nil => rfl
  | cons e es ih =>
    obtain ⟨k, v⟩ := e
    rw [canonicalMembersOf, ih, List.map_cons]

theorem storedElements_eq_map (xs : List JsValue) : storedElements sourceText xs = xs.map (stored sourceText) := by
  induction xs with
  | nil => rfl
  | cons x xs ih => rw [storedElements, ih, List.map_cons]

theorem storedMembers_eq_map (es : List (JsString × JsValue)) :
    storedMembers sourceText es = es.map (fun e => (e.1, stored sourceText e.2)) := by
  induction es with
  | nil => rfl
  | cons e es ih =>
    obtain ⟨k, v⟩ := e
    rw [storedMembers, ih, List.map_cons]

theorem perm_keyOrder (es : List (JsString × β)) : (keyOrder es).Perm (es.filter (fun e => e.1 ≠ protoKey)) :=
  (perm_propertyOrder _).trans ((List.perm_insertionSort _ _).filter _)

theorem mem_keyOrder {e : JsString × β} : e ∈ keyOrder es ↔ e ∈ es ∧ e.1 ≠ protoKey := by
  rw [(perm_keyOrder es).mem_iff, List.mem_filter, decide_eq_true_eq]

theorem nodup_keyOrder (h : (es.map Prod.fst).Nodup) : ((keyOrder es).map Prod.fst).Nodup :=
  ((perm_keyOrder es).map Prod.fst).nodup_iff.mpr (h.sublist (List.filter_sublist.map Prod.fst))

theorem keyOrder_map (f : β → γ) (es : List (JsString × β)) :
    keyOrder (es.map (fun e => (e.1, f e.2))) = (keyOrder es).map (fun e => (e.1, f e.2)) := by
  have hsorted : sortedByUnits (es.map (fun e => (e.1, f e.2))) = (sortedByUnits es).map (fun e => (e.1, f e.2)) :=
    (List.map_insertionSort (f := fun e : JsString × β => (e.1, f e.2)) _ _ _ fun _ _ _ _ => Iff.rfl).symm
  rw [keyOrder, keyOrder, hsorted, List.filter_map, ← propertyOrder_map (fun e : JsString × β => f e.2)]
  rfl

theorem ownEntry_keyOrder (h : (es.map Prod.fst).Nodup) (k : JsString) :
    ownEntry k (keyOrder es) = if k = protoKey then none else ownEntry k es := by
  by_cases hk : k = protoKey
  · rw [if_pos hk, ownEntry_eq_none]
    intro hmem
    obtain ⟨e, he, rfl⟩ := List.mem_map.mp hmem
    exact (mem_keyOrder.mp he).2 hk
  · rw [if_neg hk]
    apply Option.ext
    intro v
    constructor
    · intro hv
      exact ownEntry_of_mem h (mem_keyOrder.mp (ownEntry_mem hv)).1
    · intro hv
      exact ownEntry_of_mem (nodup_keyOrder h) (mem_keyOrder.mpr ⟨ownEntry_mem hv, hk⟩)

theorem isStrWhiteSpace_digit {u : CodeUnit} (h : isDigit u = true ∨ u.val = 45) : isStrWhiteSpace u = false := by
  simp only [isDigit, Bool.and_eq_true, decide_eq_true_eq] at h
  have hval : 45 ≤ u.val ∧ u.val ≤ 57 := by omega
  simp only [isStrWhiteSpace, List.contains_eq_mem, List.mem_cons, List.not_mem_nil, or_false, Bool.or_eq_false_iff,
    decide_eq_false_iff_not, Bool.and_eq_false_iff]
  omega

theorem trim_of_no_space {s : JsString} (h : ∀ u ∈ s, isStrWhiteSpace u = false) : trim s = s := by
  have hdrop : ∀ t : JsString, (∀ u ∈ t, isStrWhiteSpace u = false) → t.dropWhile isStrWhiteSpace = t := by
    intro t ht
    cases t with
    | nil => rfl
    | cons u us => rw [List.dropWhile_cons_of_neg (by simp [ht u List.mem_cons_self])]
  rw [trim, hdrop s h, hdrop s.reverse (fun u hu => h u (List.mem_reverse.mp hu)), List.reverse_reverse]

theorem radixLiteral?_digits {u : CodeUnit} {ds : JsString} (h : ∀ c ∈ ds, isDigit c = true) :
    radixLiteral? (u :: ds) = none := by
  cases ds with
  | nil => rfl
  | cons c ds =>
    have hc := h c List.mem_cons_self
    simp only [isDigit, Bool.and_eq_true, decide_eq_true_eq] at hc
    rw [radixLiteral?]
    split
    · rfl
    · rw [if_neg (by omega), if_neg (by omega), if_neg (by omega)]

theorem stringToBigInt?_decimal (z : ℤ) : stringToBigInt? (decimal z) = some z := by
  obtain ⟨hne, hdigits, hvalue, -⟩ := natDecimal_spec z.natAbs
  have hspace : ∀ u ∈ decimal z, isStrWhiteSpace u = false := by
    intro u hu
    apply isStrWhiteSpace_digit
    rw [decimal] at hu
    split at hu
    · rcases List.mem_cons.mp hu with rfl | hmem
      · exact .inr rfl
      · exact .inl (hdigits u hmem)
    · exact .inl (hdigits u hu)
  have hall : (natDecimal z.natAbs).all isDigit = true := List.all_eq_true.mpr hdigits
  rw [stringToBigInt?, trim_of_no_space hspace, decimal]
  by_cases hz : z < 0
  · have hminus : (unit 45).val = 45 := rfl
    rw [if_pos hz, radixLiteral?_digits hdigits]
    have habs : -((z.natAbs : ℕ) : ℤ) = z := by omega
    simp only [hminus, if_true, hne, hall, ne_eq, not_false_eq_true, and_self, hvalue, Option.map_some]
    exact congrArg some habs
  · rw [if_neg hz]
    obtain ⟨u, us, hcons⟩ := List.exists_cons_of_ne_nil hne
    have hu := hdigits u (hcons ▸ List.mem_cons_self)
    have hus : ∀ c ∈ us, isDigit c = true := fun c hc => hdigits c (hcons ▸ List.mem_cons_of_mem u hc)
    rw [hcons] at hall hvalue ⊢
    simp only [isDigit, Bool.and_eq_true, decide_eq_true_eq] at hu
    have hminus : ¬ u.val = 45 := by omega
    have hplus : ¬ u.val = 43 := by omega
    rw [radixLiteral?_digits hus]
    simp only [hminus, hplus, if_false, hall, ne_eq, reduceCtorEq, not_false_eq_true, and_self, if_true, hvalue,
      Option.map_some, Option.some.injEq]
    omega

theorem withoutSuffix_bigint (z : ℤ) : withoutSuffix (decimal z ++ js "n") = decimal z := by
  have hlast : (decimal z ++ js "n").getLast? = some (unit 110) := by
    rw [List.getLast?_append]
    rfl
  rw [withoutSuffix, if_pos hlast]
  exact List.dropLast_concat

theorem parseBigIntLike_stored (z : ℤ) : parseBigIntLike (stored sourceText (.bigint z)) = .ok z := by
  rw [stored, parseBigIntLike, withoutSuffix_bigint, stringToBigInt?_decimal]

theorem parseBigIntLike_undefined : parseBigIntLike (stored sourceText .undefined) = .error .syntaxError := by
  have hnone : stringToBigInt? (withoutSuffix (js "undefined")) = none := by decide
  rw [stored, parseBigIntLike, hnone]

theorem stringify_stored (v : JsValue) : stringify (stored sourceText v) = stringify (canonicalize sourceText v) := by
  have hmembers : ∀ es : List (JsString × JsValue),
      (∀ e ∈ es, stringify (stored sourceText e.2) = stringify (canonicalize sourceText e.2)) →
        stringify (.obj (keyOrder (storedMembers sourceText es))) =
          stringify (.obj (keyOrder (canonicalMembersOf sourceText es))) := by
    intro es ih
    rw [storedMembers_eq_map, canonicalMembersOf_eq_map, keyOrder_map, keyOrder_map, stringify, stringify,
      stringifyMembers_eq_map, stringifyMembers_eq_map, List.map_map, List.map_map]
    congr 3
    apply List.map_congr_left
    intro e he
    simp only [Function.comp_apply, ih e (mem_keyOrder.mp he).1]
  induction v using jsValue_induction with
  | null => rfl
  | bool b => rfl
  | num n =>
    rw [stored, canonicalize]
    split
    · rfl
    · cases n <;> first | rfl | simp_all [JsNumber.isFinite, JsNumber.toRat?]
  | str s => rfl
  | bigint z => rfl
  | undefined => rfl
  | function => rfl
  | symbol => rfl
  | arr xs ih =>
    rw [stored, canonicalize, storedElements_eq_map, canonicalElementsOf_eq_map, stringify, stringify,
      stringifyElements_eq_map, stringifyElements_eq_map, List.map_map, List.map_map]
    congr 3
    apply List.map_congr_left
    intro x hx
    exact ih x hx
  | obj es ih => exact hmembers es ih
  | inst es ih => exact hmembers es ih

theorem jsonOver_stored {v : JsValue} (h : IsValue v) : JsonOver IsFiniteDouble (stored sourceText v) := by
  have hmembers : ∀ es : List (JsString × JsValue), (es.map Prod.fst).Nodup →
      (∀ e ∈ es, JsonOver IsFiniteDouble (stored sourceText e.2)) →
        JsonOver IsFiniteDouble (.obj (keyOrder (storedMembers sourceText es))) := by
    intro es hnd ih
    rw [storedMembers_eq_map]
    apply JsonOver.obj
    · apply nodup_keyOrder
      simpa [List.map_map, Function.comp_def] using hnd
    · intro e he
      obtain ⟨e', he', rfl⟩ := List.mem_map.mp (mem_keyOrder.mp he).1
      exact ih e' he'
  induction h with
  | null => exact .null
  | bool b => exact .bool b
  | @num x hx =>
    rw [stored]
    by_cases hfinite : x.isFinite = true
    · rw [if_pos hfinite]
      exact .num ⟨hfinite, hx⟩
    · rw [if_neg hfinite]
      exact .null
  | str s => exact .str s
  | bigint z => exact .str _
  | undefined => exact .str _
  | function => exact .str _
  | symbol => exact .str _
  | @arr xs _ ih =>
    rw [stored, storedElements_eq_map]
    apply JsonOver.arr
    intro x hx
    obtain ⟨x', hx', rfl⟩ := List.mem_map.mp hx
    exact ih x' hx'
  | @obj es hnd _ ih => exact hmembers es hnd ih
  | @«instance» es hnd _ ih => exact hmembers es hnd ih

/-- A line end after the text does not matter. -/
theorem parseJson_line {t : JsString} {v : JsValue} (h : Reads t v) : parseJson (t ++ js "\n") = some v := by
  have hend : NumberEnd (js "\n") := ⟨by decide, by decide, by decide, by decide⟩
  have hr := h (2 * (t ++ js "\n").length + 1) (js "\n") (by simp; omega) hend
  have hblank : skipWhitespace (js "\n") = [] := by decide
  rw [parseJson, hr]
  simp [hblank]

/-- What is loaded of a file is the stored value with its bigint maps read. -/
theorem load_save {v : JsValue} (h : IsValue v) : load (save sourceText v) = normalizeStateBigInts (stored sourceText v) := by
  have hjson : JsonOver IsFiniteDouble (stored sourceText v) := jsonOver_stored h
  have hreads := hjson.reads writes_stringify readsQuoted_quote readsNumbers_numberText
  have hwell : WellFormed (stringify (stored sourceText v) ++ js "\n") :=
    (wellFormed_stringify hjson).append (wellFormed_of_basic (by decide))
  rw [load, save, stringifyCanonical, ← stringify_stored, utf8Decode_encode hwell, parseJson_line hreads]

end

end OxDeAI
