import OxDeAI.Core.CanonicalForm
import OxDeAI.Js.Value

/-! Canonical JSON of the Sift contract: keys in the order of their UTF-16 units,
everything beyond ASCII escaped. -/

namespace OxDeAI

open Js

/-- The index that a property key spells, if it is an array index. -/
def arrayIndex? (key : JsString) : Option ℕ :=
  if natDecimal (digitsValue key) = key ∧ digitsValue key < 4294967295 then some (digitsValue key) else none

/-- Own properties as they are enumerated: array indices in ascending order, then
the others in the order of their creation. -/
def propertyOrder {β : Type} (created : List (JsString × β)) : List (JsString × β) :=
  (created.filter (fun e => (arrayIndex? e.1).isSome)).insertionSort
      (fun a b => (arrayIndex? a.1).getD 0 ≤ (arrayIndex? b.1).getD 0) ++
    created.filter (fun e => (arrayIndex? e.1).isNone)

/-- `Object.keys(value).sort()`, with the values. -/
def sortedByUnits {β : Type} (es : List (JsString × β)) : List (JsString × β) :=
  es.insertionSort (fun a b => a.1 ≤ b.1)

/-- A safe integer is written out. -/
def numberText : JsNumber → JsString
  | .int z => if z.natAbs ≤ JsNumber.maxSafeInteger then decimal z else JsNumber.text (.int z)
  | .frac q h => JsNumber.text (.frac q h)
  | _ => js "null"

mutual

/-- `JSON.stringify` of data that has no undefined and no function in it. -/
def stringify : JsValue → JsString
  | .null => js "null"
  | .bool b => if b then js "true" else js "false"
  | .str s => quote s
  | .num n => numberText n
  | .arr xs => unit 91 :: join comma (stringifyElements xs) ++ [unit 93]
  | .obj es => unit 123 :: join comma (stringifyMembers es) ++ [unit 125]
  | .instance es => unit 123 :: join comma (stringifyMembers es) ++ [unit 125]
  | .bigint _ | .undefined | .function | .symbol => js "null"

def stringifyElements : List JsValue → List JsString
  | [] => []
  | x :: xs => stringify x :: stringifyElements xs

def stringifyMembers : List (JsString × JsValue) → List JsString
  | [] => []
  | (k, v) :: es => (quote k ++ unit 58 :: stringify v) :: stringifyMembers es

end

def unsupportedType (typeName : JsString) : JsString := js "Unsupported type in Sift payload: " ++ typeName

/-- The values of the members, or the first error among them. -/
def resultsInOrder {α : Type} : List (JsString × Except JsString α) → Except JsString (List (JsString × α))
  | [] => .ok []
  | (k, r) :: rs => do
    let a ← r
    let ms ← resultsInOrder rs
    return (k, a) :: ms

mutual

/-- The object that is built has the sorted keys as its properties, and its values are
visited in their order. An error is the message of what was thrown. -/
def siftCanonicalize : JsValue → Except JsString JsValue
  | .null | .undefined => .ok .null
  | .bool b => .ok (.bool b)
  | .str s => .ok (.str s)
  | .num n => if n.isFinite then .ok (.num n) else .error (js "Non-finite number in Sift payload: " ++ n.text)
  | .arr xs => (siftElements xs).map .arr
  | .obj es => (resultsInOrder (sortedByUnits (siftMembers es))).map (fun ms => .obj (propertyOrder ms))
  -- the tag of an instance whose class gives it none
  | .instance _ => .error (js "Non-plain object in Sift payload: [object Object]")
  | .bigint _ => .error (unsupportedType (js "bigint"))
  | .function => .error (unsupportedType (js "function"))
  | .symbol => .error (unsupportedType (js "symbol"))

def siftElements : List JsValue → Except JsString (List JsValue)
  | [] => .ok []
  | x :: xs => do
    let y ← siftCanonicalize x
    let ys ← siftElements xs
    return y :: ys

def siftMembers : List (JsString × JsValue) → List (JsString × Except JsString JsValue)
  | [] => []
  | (k, v) :: es => (k, siftCanonicalize v) :: siftMembers es

end

theorem resultsInOrder_ok {α : Type} (ms : List (JsString × α)) :
    resultsInOrder (ms.map (fun m => (m.1, Except.ok m.2))) = .ok ms := by
  induction ms with
  | nil => rfl
  | cons m ms ih =>
    rw [List.map_cons, resultsInOrder, ih]
    rfl

theorem siftCanonicalize_obj {es ms : List (JsString × JsValue)} (h : siftMembers es = ms.map (fun m => (m.1, .ok m.2))) :
    siftCanonicalize (.obj es) = .ok (.obj (propertyOrder (sortedByUnits ms))) := by
  have hsorted : sortedByUnits (ms.map (fun m => (m.1, (Except.ok m.2 : Except JsString JsValue)))) =
      (sortedByUnits ms).map (fun m => (m.1, Except.ok m.2)) :=
    (List.map_insertionSort _ _ (fun m : JsString × JsValue => (m.1, Except.ok m.2)) ms
      fun _ _ _ _ => Iff.rfl).symm
  rw [siftCanonicalize, h, hsorted, resultsInOrder_ok]
  rfl

def ensureAsciiUnit (u : CodeUnit) : JsString := if 0x7f < u.val then unicodeEscape u else [u]

def applyEnsureAscii (json : JsString) : JsString := json.flatMap ensureAsciiUnit

def siftCanonicalJson (value : JsValue) : Except JsString JsString :=
  (siftCanonicalize value).map (fun v => applyEnsureAscii (stringify v))

def siftCanonicalJsonBytes (value : JsValue) : Except JsString (List Byte) :=
  (siftCanonicalJson value).map utf8Encode

end OxDeAI
