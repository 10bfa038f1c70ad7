import OxDeAI.Js.Value

/-! Runtime values as operands of an arithmetic operator and in a template. -/

namespace Js

/-- White space and line terminators. -/
def isStrWhiteSpace (u : CodeUnit) : Bool :=
  [9, 10, 11, 12, 13, 32, 160, 5760, 8232, 8233, 8239, 8287, 12288, 65279].contains u.val ||
    (8192 ≤ u.val && u.val ≤ 8202)

def trim (s : JsString) : JsString :=
  ((s.dropWhile isStrWhiteSpace).reverse.dropWhile isStrWhiteSpace).reverse

/-- Digits with at most one point, and an exponent. -/
def decimalLiteral? (s : JsString) : Option ℚ :=
  let whole := s.span isDigit
  let fraction : JsString × JsString := match whole.2 with
    | u :: rest => if u.val = 46 then rest.span isDigit else ([], u :: rest)
    | [] => ([], [])
  if whole.1 = [] ∧ fraction.1 = [] then none
  else match parseExponent fraction.2 with
    | some (e, []) => some ((digitsValue whole.1 + digitsValue fraction.1 / 10 ^ fraction.1.length) * (10 : ℚ) ^ e)
    | _ => none

def unsignedNumber (s : JsString) : JsNumber :=
  if s = js "Infinity" then .posInf
  else match decimalLiteral? s with
    | some q => JsNumber.round q
    | none => .nan

/-- The digits of a literal such as `0x1f`. -/
def radixDigits? (base : ℕ) (digits : JsString) : Option ℕ :=
  if digits = [] then none
  else digits.foldl (fun acc u => acc.bind (fun n =>
    (hexValue? u).bind (fun d => if d < base then some (n * base + d) else none))) (some 0)

def radixLiteral? : JsString → Option ℕ
  | u :: c :: digits =>
    if u.val ≠ 48 then none
    else if c.val = 120 ∨ c.val = 88 then radixDigits? 16 digits
    else if c.val = 111 ∨ c.val = 79 then radixDigits? 8 digits
    else if c.val = 98 ∨ c.val = 66 then radixDigits? 2 digits
    else none
  | _ => none

def trimmedNumber (s : JsString) : JsNumber :=
  match radixLiteral? s with
  | some n => JsNumber.round n
  | none => match s with
    | [] => .int 0
    | u :: rest =>
      if u.val = 45 then (unsignedNumber rest).neg
      else if u.val = 43 then unsignedNumber rest
      else unsignedNumber (u :: rest)

/-- `Number(s)`. -/
def stringToNumber (s : JsString) : JsNumber := trimmedNumber (trim s)

/-- `BigInt(text)`, if it does not throw. -/
def stringToBigInt? (text : JsString) : Option ℤ :=
  let digits? (ds : JsString) : Option ℕ := if ds ≠ [] ∧ ds.all isDigit then some (digitsValue ds) else none
  match radixLiteral? (trim text) with
  | some n => some n
  | none => match trim text with
    | [] => some 0
    | u :: rest =>
      if u.val = 45 then (digits? rest).map (fun n => -(n : ℤ))
      else if u.val = 43 then (digits? rest).map Nat.cast
      else (digits? (u :: rest)).map Nat.cast

namespace JsValue

mutual

/-- `${value}`, when it does not throw. The text of a function is not known. -/
def toText? : JsValue → Option JsString
  | null => some (js "null")
  | undefined => some (js "undefined")
  | bool b => some (if b then js "true" else js "false")
  | str s => some s
  | num n => some n.text
  | bigint z => some (decimal z)
  | arr xs => (elementTexts? xs).map (join comma)
  | obj es => if (ownEntry (js "toString") es).isSome then none else some (js "[object Object]")
  | _ => none

def elementTexts? : List JsValue → Option (List JsString)
  | [] => some []
  | x :: xs => (if x.isNullish then some [] else toText? x).bind
      (fun text => (elementTexts? xs).map (fun texts => text :: texts))

end

/-- The number an operator takes the value for; a bigint and a number do not mix. -/
def toNumber? : JsValue → Option JsNumber
  | null => some (.int 0)
  | undefined => some .nan
  | bool b => some (.int (if b then 1 else 0))
  | str s => some (stringToNumber s)
  | num n => some n
  | arr xs => (arr xs).toText?.map stringToNumber
  | obj es => (obj es).toText?.map stringToNumber
  | _ => none

end JsValue

end Js
