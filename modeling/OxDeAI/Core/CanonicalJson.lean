import OxDeAI.Js.JsonRoundTrip
import OxDeAI.Js.Except

/-! Canonical JSON: strings in Unicode normal form, object keys in UTF-8 order,
safe integers only. -/

namespace OxDeAI

open Js

inductive CanonicalError
  | floatNotAllowed
  | unsafeIntegerNumber
  | duplicateKey
  | invalidTimestamp
  | unsupportedType
  | keyResolutionFailed
  deriving DecidableEq

def CanonicalError.text : CanonicalError → JsString
  | floatNotAllowed => js "FLOAT_NOT_ALLOWED"
  | unsafeIntegerNumber => js "UNSAFE_INTEGER_NUMBER"
  | duplicateKey => js "DUPLICATE_KEY"
  | invalidTimestamp => js "INVALID_TIMESTAMP"
  | unsupportedType => js "UNSUPPORTED_TYPE"
  | keyResolutionFailed => js "KEY_RESOLUTION_FAILED"

/-- An exception of the program. -/
inductive JsError
  | canonical (e : CanonicalError)
  | error (message : JsString)
  | typeError
  deriving DecidableEq

def sortUtf8Lex (keys : List JsString) : List JsString :=
  keys.insertionSort (fun a b => utf8Encode a ≤ utf8Encode b)

def tsKey : JsString := js "ts"

def isTimestamp : JsValue → Bool
  | .num n => n.isSafeInteger
  | _ => false

/-- One member of a canonical object, from its normalized key, its value and
the canonical text of that value. -/
def canonicalMember (entries : List (JsString × JsValue × Except JsError JsString))
    (key : JsString) : Except JsError JsString :=
  match entries.find? (fun e => e.1 = key) with
  | none => .error (.canonical .keyResolutionFailed)
  | some (_, child, text) =>
    if key = tsKey ∧ isTimestamp child = false then .error (.canonical .invalidTimestamp)
    else text.map (fun t => quote key ++ unit 58 :: t)

def canonicalObject (entries : List (JsString × JsValue × Except JsError JsString)) :
    Except JsError JsString :=
  let keys := entries.map Prod.fst
  if keys.Nodup then
    ((sortUtf8Lex keys).mapM (canonicalMember entries)).map
      (fun parts => unit 123 :: join comma parts ++ [unit 125])
  else .error (.canonical .duplicateKey)

section

variable (nfc : JsString → JsString)

mutual

def canonicalizeToJson : JsValue → Except JsError JsString
  | .null => .ok (js "null")
  | .str s => .ok (quote (nfc s))
  | .bool b => .ok (if b then js "true" else js "false")
  | .num n =>
    match n with
    | .int z =>
      if z.natAbs ≤ JsNumber.maxSafeInteger then .ok (decimal z)
      else .error (.canonical .unsafeIntegerNumber)
    | _ => .error (.canonical .floatNotAllowed)
  | .bigint z => .ok (quote (decimal z))
  | .undefined | .function | .symbol => .error (.canonical .unsupportedType)
  | .arr xs => (canonicalElements xs).map (fun parts => unit 91 :: join comma parts ++ [unit 93])
  | .obj es => canonicalObject (normalizedEntries es)
  | .instance es => canonicalObject (normalizedEntries es)

def canonicalElements : List JsValue → Except JsError (List JsString)
  | [] => .ok []
  | x :: xs => do
    let t ← canonicalizeToJson x
    let ts ← canonicalElements xs
    return t :: ts

/-- The entries under their normalized keys, each with its canonical text. -/
def normalizedEntries :
    List (JsString × JsValue) → List (JsString × JsValue × Except JsError JsString)
  | [] => []
  | (k, v) :: es => (nfc k, v, canonicalizeToJson v) :: normalizedEntries es

end

def canonicalJson (v : JsValue) : Except JsError JsString := canonicalizeToJson nfc v

theorem canonicalElements_eq_mapM (xs : List JsValue) :
    canonicalElements nfc xs = xs.mapM (canonicalizeToJson nfc) := by
  induction xs with
  | nil => rfl
  | cons x xs ih => rw [canonicalElements, ih, List.mapM_cons]

theorem normalizedEntries_eq_map (es : List (JsString × JsValue)) :
    normalizedEntries nfc es = es.map (fun e => (nfc e.1, e.2, canonicalizeToJson nfc e.2)) := by
  induction es with
  | nil => rfl
  | cons e es ih => rw [normalizedEntries, ih, List.map_cons]

end

end OxDeAI
