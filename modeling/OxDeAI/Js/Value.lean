import OxDeAI.Js.Json

/-! Reading runtime values: their type, their own properties, and the text of a
number in a template. -/

namespace Js

namespace JsValue

/-- Neither null nor an array, and `typeof` gives `object`. -/
def isRecord : JsValue → Bool
  | obj _ => true
  | .instance _ => true
  | _ => false

def entries : JsValue → List (JsString × JsValue)
  | obj es => es
  | .instance es => es
  | _ => []

/-- `value[key]` of a value that is neither null nor undefined, for a name that
no prototype defines. -/
def field (v : JsValue) (key : JsString) : JsValue := (ownEntry key v.entries).getD .undefined

/-- `key in value`, for such a name. -/
def has (v : JsValue) (key : JsString) : Bool := (ownEntry key v.entries).isSome

def isNullish : JsValue → Bool
  | null => true
  | undefined => true
  | _ => false

def isUndefined : JsValue → Bool
  | undefined => true
  | _ => false

def isString : JsValue → Bool
  | str _ => true
  | _ => false

/-- `typeof value === "string" && value.length > 0`. -/
def hasText : JsValue → Bool
  | str (_ :: _) => true
  | _ => false

/-- `value === text`. -/
def isText (v : JsValue) (text : JsString) : Bool :=
  match v with
  | str s => s = text
  | _ => false

def text? : JsValue → Option JsString
  | str s => some s
  | _ => none

/-- `Number.isInteger(value)`. -/
def isInteger : JsValue → Bool
  | num n => n.isInteger
  | _ => false

def isSafeInteger : JsValue → Bool
  | num n => n.isSafeInteger
  | _ => false

def number? : JsValue → Option JsNumber
  | num n => some n
  | _ => none

/-- `!!value`. -/
def isTruthy : JsValue → Bool
  | null => false
  | undefined => false
  | bool b => b
  | str s => s ≠ []
  | num n => !n.isNaN && n ≠ .int 0
  | bigint z => z ≠ 0
  | _ => true

/-- `value === other`. An object is equal to itself alone, and two values read in
two places are two objects. -/
def strictEquals : JsValue → JsValue → Bool
  | null, null => true
  | undefined, undefined => true
  | bool a, bool b => a = b
  | str a, str b => a = b
  | num a, num b => !a.isNaN && a = b
  | bigint a, bigint b => a = b
  | _, _ => false

/-- `{ ...value, [key]: child }`. -/
def spreadSet (v : JsValue) (key : JsString) (child : JsValue) : JsValue :=
  obj (setEntry key child v.entries)

/-- `const { [key]: _, ...rest } = value`. -/
def rest (v : JsValue) (key : JsString) : JsValue := obj (v.entries.filter (fun e => e.1 ≠ key))

variable {v : JsValue}

theorem hasText_iff : v.hasText = true ↔ ∃ s, s ≠ [] ∧ v = str s := by
  constructor
  · intro h
    cases v with
    | str s =>
      cases s with
      | nil => cases h
      | cons u us => exact ⟨u :: us, by simp, rfl⟩
    | _ => cases h
  · rintro ⟨s, hs, rfl⟩
    cases s with
    | nil => exact absurd rfl hs
    | cons u us => rfl

theorem isText_iff {s : JsString} : v.isText s = true ↔ v = str s := by
  cases v <;> simp [isText]

theorem isInteger_iff : v.isInteger = true ↔ ∃ z, v = num (.int z) := by
  constructor
  · intro h
    cases v with
    | num n =>
      obtain ⟨z, rfl⟩ := JsNumber.exists_int_of_isInteger h
      exact ⟨z, rfl⟩
    | _ => cases h
  · rintro ⟨z, rfl⟩
    rfl

theorem strictEquals_str {s : JsString} : strictEquals v (str s) = true ↔ v = str s := by
  cases v <;> simp [strictEquals]

theorem str_strictEquals {s : JsString} : strictEquals (str s) v = true ↔ v = str s := by
  cases v <;> simp [strictEquals, eq_comm]

end JsValue

namespace JsNumber

/-- The number of decimal digits before the point, for `q ≥ 1`; otherwise one
less than the zeros after it, negated. -/
def decimalExponent (q : ℚ) : ℤ :=
  if 1 ≤ q then ((Nat.digits 10 q.floor.toNat).length : ℤ)
  else 1 - (Nat.digits 10 (1 / q).ceil.toNat.pred).length

/-- The `k`-digit decimal closest to `q` that is read back as `x`. -/
def digitsAt? (x : JsNumber) (q : ℚ) (k : ℕ) : Option ℕ :=
  let scale : ℚ := (10 : ℚ) ^ (decimalExponent q - k)
  let low := (q / scale).floor.toNat
  let high := low + 1
  let reads (s : ℕ) : Bool := round (s * scale) = x
  let lowFirst : Bool := q / scale - low ≤ high - q / scale
  if lowFirst then (if reads low then some low else if reads high then some high else none)
  else (if reads high then some high else if reads low then some low else none)

/-- The shortest digits that are read back as `x`, with their number; seventeen
always suffice. -/
def shortestDigits (x : JsNumber) (q : ℚ) : ℕ × ℕ :=
  ((List.range 17).findSome? (fun k => (digitsAt? x q (k + 1)).map (fun s => (k + 1, s)))).getD (1, 0)

def zeros (n : ℕ) : JsString := List.replicate n (unit 48)

/-- Digits and the position of the point, as `Number.prototype.toString` writes them. -/
def layout (digits : JsString) (point : ℤ) : JsString :=
  let k : ℤ := digits.length
  if k ≤ point ∧ point ≤ 21 then digits ++ zeros (point - k).toNat
  else if 0 < point ∧ point ≤ 21 then
    digits.take point.toNat ++ unit 46 :: digits.drop point.toNat
  else if -6 < point ∧ point ≤ 0 then js "0." ++ zeros (-point).toNat ++ digits
  else
    let e := point - 1
    let mantissa := if digits.length = 1 then digits else digits.take 1 ++ unit 46 :: digits.drop 1
    mantissa ++ js "e" ++ (if 0 ≤ e then js "+" else js "-") ++ natDecimal e.natAbs

def dropTrailingZeros (digits : JsString) : JsString :=
  (digits.reverse.dropWhile (fun u => u.val = 48)).reverse

def positiveText (x : JsNumber) (q : ℚ) : JsString :=
  let (k, s) := shortestDigits x q
  let digits := natDecimal s
  -- rounding up may carry into one more digit
  layout (dropTrailingZeros digits) (decimalExponent q + digits.length - k)

/-- `${x}`. -/
def text : JsNumber → JsString
  | nan => js "NaN"
  | posInf => js "Infinity"
  | negInf => js "-Infinity"
  | int z =>
    if z = 0 then js "0"
    else if z < 0 then unit 45 :: positiveText (int (-z)) (-z : ℤ)
    else positiveText (int z) z
  | frac q h =>
    if q < 0 then unit 45 :: positiveText (ofRat (-q)) (-q) else positiveText (frac q h) q

end JsNumber

end Js
