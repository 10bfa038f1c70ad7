import OxDeAI.Js.Text

/-! Numbers of the host language: IEEE doubles. An integral double is kept as an
integer; the two zeros are one number. Dates are numbers of milliseconds. -/

namespace Js

inductive JsNumber
  | int (z : ℤ)
  | frac (q : ℚ) (h : q.den ≠ 1)
  | nan
  | posInf
  | negInf
  deriving DecidableEq

namespace JsNumber

/-- `Number.MAX_SAFE_INTEGER`. -/
def maxSafeInteger : ℕ := 9007199254740991

def ofRat (q : ℚ) : JsNumber := if h : q.den = 1 then int q.num else frac q h

/-- Round half to even. -/
def roundNat (q : ℚ) : ℕ :=
  let f := q.floor.toNat
  let r := q - f
  if r < 1 / 2 then f else if 1 / 2 < r then f + 1 else if f % 2 = 0 then f else f + 1

/-- Exponent of the last of the 53 significant bits of a positive rational. -/
def ulpExponent (q : ℚ) : ℤ :=
  let e : ℤ := (Nat.log2 q.num.natAbs : ℤ) - Nat.log2 q.den
  let top : ℤ := if (2 : ℚ) ^ e ≤ q then e else e - 1
  max (top - 52) (-1074)

/-- The double nearest to a rational. Integers up to `2 ^ 53` are doubles. -/
def round (q : ℚ) : JsNumber :=
  if q.den = 1 ∧ q.num.natAbs ≤ 2 ^ 53 then int q.num
  else
    let e := ulpExponent |q|
    let m : ℚ := roundNat (|q| / 2 ^ e) * 2 ^ e
    if (2 : ℚ) ^ (1024 : ℕ) ≤ m then if 0 < q then posInf else negInf
    else ofRat (if 0 < q then m else -m)

/-- The value of a finite number. -/
def toRat? : JsNumber → Option ℚ
  | int z => some z
  | frac q _ => some q
  | _ => none

def isFinite (x : JsNumber) : Bool := x.toRat?.isSome

def isNaN : JsNumber → Bool
  | nan => true
  | _ => false

def isInteger : JsNumber → Bool
  | int _ => true
  | _ => false

def isSafeInteger : JsNumber → Bool
  | int z => z.natAbs ≤ maxSafeInteger
  | _ => false

/-- The operator `<`. -/
def lt : JsNumber → JsNumber → Bool
  | int a, int b => a < b
  | int a, frac q _ => (a : ℚ) < q
  | frac p _, int b => p < b
  | frac p _, frac q _ => p < q
  | nan, _ => false
  | _, nan => false
  | posInf, _ => false
  | _, negInf => false
  | negInf, _ => true
  | _, posInf => true

/-- The operator `>=`, false on `NaN`. -/
def ge (x y : JsNumber) : Bool := !x.isNaN && !y.isNaN && !lt x y

/-- The operator `<=`. -/
def le (x y : JsNumber) : Bool := ge y x

def neg : JsNumber → JsNumber
  | int z => int (-z)
  | frac q h => frac (-q) (by simpa using h)
  | nan => nan
  | posInf => negInf
  | negInf => posInf

/-- The operator `+` on numbers. -/
def add : JsNumber → JsNumber → JsNumber
  | int a, int b => round (a + b : ℤ)
  | int a, frac q _ => round (a + q)
  | frac p _, int b => round (p + b)
  | frac p _, frac q _ => round (p + q)
  | nan, _ => nan
  | _, nan => nan
  | posInf, negInf => nan
  | negInf, posInf => nan
  | posInf, _ => posInf
  | _, posInf => posInf
  | negInf, _ => negInf
  | _, negInf => negInf

/-- The operator `-` on numbers. -/
def sub (x y : JsNumber) : JsNumber := add x (neg y)

/-- `Math.max`. -/
def max (x y : JsNumber) : JsNumber :=
  if x.isNaN || y.isNaN then nan else if lt x y then y else x

@[simp] theorem lt_int (a b : ℤ) : lt (int a) (int b) = decide (a < b) := rfl

@[simp] theorem ge_int (a b : ℤ) : ge (int a) (int b) = decide (b ≤ a) := by
  by_cases h : a < b
  · simp [ge, isNaN, h]
  · simp [ge, isNaN, h, not_lt.mp h]

@[simp] theorem le_int (a b : ℤ) : le (int a) (int b) = decide (a ≤ b) := ge_int b a

@[simp] theorem ge_posInf (a : ℤ) : ge (int a) posInf = false := rfl

@[simp] theorem ge_negInf (a : ℤ) : ge (int a) negInf = true := rfl

@[simp] theorem isNaN_int (z : ℤ) : (int z).isNaN = false := rfl

@[simp] theorem isFinite_int (z : ℤ) : (int z).isFinite = true := rfl

@[simp] theorem isInteger_int (z : ℤ) : (int z).isInteger = true := rfl

theorem isSafeInteger_int {z : ℤ} :
    (int z).isSafeInteger = true ↔ z.natAbs ≤ maxSafeInteger := by
  simp [isSafeInteger]

theorem round_int {z : ℤ} (h : z.natAbs ≤ 2 ^ 53) : round z = int z := by
  have hd : (z : ℚ).den = 1 := Rat.den_intCast z
  have hn : (z : ℚ).num = z := Rat.num_intCast z
  rw [round, hd, hn, if_pos ⟨rfl, h⟩]

theorem exists_int_of_isSafeInteger {x : JsNumber} (h : x.isSafeInteger = true) :
    ∃ z, x = int z ∧ z.natAbs ≤ maxSafeInteger := by
  cases x with
  | int z => exact ⟨z, rfl, isSafeInteger_int.mp h⟩
  | _ => simp [isSafeInteger] at h

theorem exists_int_of_isInteger {x : JsNumber} (h : x.isInteger = true) : ∃ z, x = int z := by
  cases x with
  | int z => exact ⟨z, rfl⟩
  | _ => simp [isInteger] at h

/-- Sums of two safe integers are exact whenever they stay below `2 ^ 53`. -/
theorem add_int {a b : ℤ} (h : (a + b).natAbs ≤ 2 ^ 53) : add (int a) (int b) = int (a + b) :=
  round_int h

theorem sub_int {a b : ℤ} (h : (a - b).natAbs ≤ 2 ^ 53) : sub (int a) (int b) = int (a - b) := by
  simpa only [sub, neg, sub_eq_add_neg] using add_int (a := a) (b := -b) (by simpa only [← sub_eq_add_neg] using h)

theorem max_int (a b : ℤ) : max (int a) (int b) = int (Max.max a b) := by
  by_cases h : a < b
  · simp [max, h, max_eq_right h.le]
  · simp [max, h, max_eq_left (not_lt.mp h)]

@[simp] theorem sub_posInf (a : ℤ) : sub (int a) posInf = negInf := rfl

@[simp] theorem max_posInf (a : ℤ) : max (int a) posInf = posInf := rfl

end JsNumber

/-- Decimal digits, most significant first. -/
def natDecimal (n : ℕ) : JsString :=
  if n = 0 then [unit 48] else (Nat.digits 10 n).reverse.map (fun d => unit (48 + d))

/-- `String(z)` of an integral number, and `z.toString()` of a bigint. -/
def decimal (z : ℤ) : JsString :=
  if z < 0 then unit 45 :: natDecimal z.natAbs else natDecimal z.natAbs

def maxTimeValue : ℕ := 8640000000000000

/-- A time value in milliseconds, or an invalid date. -/
structure Date where
  time : Option { ms : ℤ // ms.natAbs ≤ maxTimeValue }

def Date.getTime (date : Date) : JsNumber :=
  match date.time with
  | none => .nan
  | some ms => .int ms.val

end Js
