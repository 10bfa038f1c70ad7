import OxDeAI.Js.Number
import OxDeAI.Js.Record

/-! Runtime values, the text `JSON.stringify` gives them, and `JSON.parse`.
Parsing the text of a JSON value gives the value back. -/

namespace Js

inductive JsValue
  | null
  | bool (b : Bool)
  | str (s : JsString)
  | num (n : JsNumber)
  | bigint (z : ℤ)
  | undefined
  | function
  | symbol
  | arr (xs : List JsValue)
  | obj (entries : List (JsString × JsValue))
  | instance (entries : List (JsString × JsValue))

def comma : CodeUnit := unit 44

def join (sep : CodeUnit) : List JsString → JsString
  | [] => []
  | [x] => x
  | x :: y :: xs => x ++ sep :: join sep (y :: xs)

/-- Lowercase hexadecimal digit. -/
def hexDigit (n : ℕ) : CodeUnit := if n < 10 then unit (48 + n) else unit (87 + n)

def unicodeEscape (u : CodeUnit) : JsString :=
  [unit 92, unit 117, hexDigit (u.val / 4096), hexDigit (u.val / 256 % 16),
    hexDigit (u.val / 16 % 16), hexDigit (u.val % 16)]

def escapeUnit (u : CodeUnit) : JsString :=
  if u.val = 8 then [unit 92, unit 98]
  else if u.val = 9 then [unit 92, unit 116]
  else if u.val = 10 then [unit 92, unit 110]
  else if u.val = 12 then [unit 92, unit 102]
  else if u.val = 13 then [unit 92, unit 114]
  else if u.val = 34 then [unit 92, unit 34]
  else if u.val = 92 then [unit 92, unit 92]
  else if u.val < 32 then unicodeEscape u
  else [u]

/-- The body of a JSON string. A lone surrogate is written as an escape. -/
def escapeString : JsString → JsString
  | [] => []
  | [u] => if isHighSurrogate u || isLowSurrogate u then unicodeEscape u else escapeUnit u
  | u :: v :: rest =>
    if isHighSurrogate u then
      if isLowSurrogate v then u :: v :: escapeString rest
      else unicodeEscape u ++ escapeString (v :: rest)
    else if isLowSurrogate u then unicodeEscape u ++ escapeString (v :: rest)
    else escapeUnit u ++ escapeString (v :: rest)

/-- `JSON.stringify` of a string. -/
def quote (s : JsString) : JsString := unit 34 :: escapeString s ++ [unit 34]

mutual

/-- Minified text of a value built from JSON types and integers. -/
def jsonText : JsValue → JsString
  | .null => js "null"
  | .bool b => if b then js "true" else js "false"
  | .str s => quote s
  | .num (.int z) => decimal z
  | .num _ => js "null"
  | .bigint z => quote (decimal z)
  | .undefined | .function | .symbol => js "null"
  | .arr xs => unit 91 :: join comma (jsonTexts xs) ++ [unit 93]
  | .obj es => unit 123 :: join comma (jsonMembers es) ++ [unit 125]
  | .instance es => unit 123 :: join comma (jsonMembers es) ++ [unit 125]

def jsonTexts : List JsValue → List JsString
  | [] => []
  | x :: xs => jsonText x :: jsonTexts xs

def jsonMembers : List (JsString × JsValue) → List JsString
  | [] => []
  | (k, v) :: es => (quote k ++ unit 58 :: jsonText v) :: jsonMembers es

end

def isWhitespace (u : CodeUnit) : Bool :=
  u.val = 32 || u.val = 9 || u.val = 10 || u.val = 13

def skipWhitespace (s : JsString) : JsString := s.dropWhile isWhitespace

def isDigit (u : CodeUnit) : Bool := 48 ≤ u.val && u.val ≤ 57

def digitsValue (ds : JsString) : ℕ := ds.foldl (fun n d => 10 * n + (d.val - 48)) 0

def hexValue? (u : CodeUnit) : Option ℕ :=
  if 48 ≤ u.val ∧ u.val ≤ 57 then some (u.val - 48)
  else if 97 ≤ u.val ∧ u.val ≤ 102 then some (u.val - 87)
  else if 65 ≤ u.val ∧ u.val ≤ 70 then some (u.val - 55)
  else none

def simpleEscape? (u : CodeUnit) : Option CodeUnit :=
  if u.val = 98 then some (unit 8)
  else if u.val = 116 then some (unit 9)
  else if u.val = 110 then some (unit 10)
  else if u.val = 102 then some (unit 12)
  else if u.val = 114 then some (unit 13)
  else if u.val = 34 ∨ u.val = 92 ∨ u.val = 47 then some u
  else none

/-- The rest of a string after its opening quote. -/
def parseString : JsString → Option (JsString × JsString)
  | [] => none
  | u :: rest =>
    if u.val = 34 then some ([], rest)
    else if u.val < 32 then none
    else if u.val = 92 then
      match rest with
      | [] => none
      | c :: tail =>
        if c.val = 117 then
          match tail with
          | d₁ :: d₂ :: d₃ :: d₄ :: more =>
            match hexValue? d₁, hexValue? d₂, hexValue? d₃, hexValue? d₄ with
            | some a, some b, some c, some d =>
              (parseString more).map
                (fun p => (unit (a * 4096 + b * 256 + c * 16 + d) :: p.1, p.2))
            | _, _, _, _ => none
          | _ => none
        else match simpleEscape? c with
          | some e => (parseString tail).map (fun p => (e :: p.1, p.2))
          | none => none
    else (parseString rest).map (fun p => (u :: p.1, p.2))

/-- An optional fraction: its digits and what follows. -/
def parseFraction : JsString → Option (JsString × JsString)
  | u :: rest =>
    if u.val = 46 then
      let p := rest.span isDigit
      if p.1 = [] then none else some p
    else some ([], u :: rest)
  | [] => some ([], [])

/-- An optional exponent and what follows. -/
def parseExponent : JsString → Option (ℤ × JsString)
  | u :: rest =>
    if u.val = 101 ∨ u.val = 69 then
      let signed : Bool × JsString := match rest with
        | c :: tail =>
          if c.val = 45 then (true, tail) else if c.val = 43 then (false, tail) else (false, rest)
        | [] => (false, [])
      let p := signed.2.span isDigit
      if p.1 = [] then none
      else some (if signed.1 then -(digitsValue p.1 : ℤ) else digitsValue p.1, p.2)
    else some (0, u :: rest)
  | [] => some (0, [])

def parseUnsigned (s : JsString) : Option (ℚ × JsString) :=
  let whole := s.span isDigit
  if whole.1 = [] ∨ (whole.1.head? = some (unit 48) ∧ 1 < whole.1.length) then none
  else match parseFraction whole.2 with
    | none => none
    | some (fraction, more) => match parseExponent more with
      | none => none
      | some (e, rest) =>
        some ((digitsValue whole.1 + digitsValue fraction / 10 ^ fraction.length) * (10 : ℚ) ^ e, rest)

def parseNumber : JsString → Option (JsNumber × JsString)
  | [] => none
  | u :: rest =>
    if u.val = 45 then (parseUnsigned rest).map (fun p => (JsNumber.round (-p.1), p.2))
    else (parseUnsigned (u :: rest)).map (fun p => (JsNumber.round p.1, p.2))

def stripPrefix? : JsString → JsString → Option JsString
  | [], s => some s
  | _ :: _, [] => none
  | p :: ps, u :: us => if p = u then stripPrefix? ps us else none

/-- A later member replaces an earlier one of the same name. -/
def objectOf (es : List (JsString × JsValue)) : List (JsString × JsValue) :=
  es.foldl (fun acc e => setEntry e.1 e.2 acc) []

mutual

def parseValue : ℕ → JsString → Option (JsValue × JsString)
  | 0, _ => none
  | fuel + 1, s =>
    match skipWhitespace s with
    | [] => none
    | u :: rest =>
      if u.val = 34 then (parseString rest).map (fun p => (.str p.1, p.2))
      else if u.val = 91 then
        match skipWhitespace rest with
        | [] => none
        | c :: tail =>
          if c.val = 93 then some (.arr [], tail)
          else (parseElements fuel (c :: tail)).map (fun p => (.arr p.1, p.2))
      else if u.val = 123 then
        match skipWhitespace rest with
        | [] => none
        | c :: tail =>
          if c.val = 125 then some (.obj [], tail)
          else (parseMembers fuel (c :: tail)).map (fun p => (.obj (objectOf p.1), p.2))
      else if u.val = 110 then (stripPrefix? (js "null") (u :: rest)).map (fun r => (.null, r))
      else if u.val = 116 then (stripPrefix? (js "true") (u :: rest)).map (fun r => (.bool true, r))
      else if u.val = 102 then (stripPrefix? (js "false") (u :: rest)).map (fun r => (.bool false, r))
      else (parseNumber (u :: rest)).map (fun p => (.num p.1, p.2))

/-- The elements of a nonempty array, up to its closing bracket. -/
def parseElements : ℕ → JsString → Option (List JsValue × JsString)
  | 0, _ => none
  | fuel + 1, s =>
    match parseValue fuel s with
    | none => none
    | some (v, more) =>
      match skipWhitespace more with
      | [] => none
      | c :: tail =>
        if c.val = 93 then some ([v], tail)
        else if c.val = 44 then (parseElements fuel tail).map (fun p => (v :: p.1, p.2))
        else none

/-- The members of a nonempty object, up to its closing brace. -/
def parseMembers : ℕ → JsString → Option (List (JsString × JsValue) × JsString)
  | 0, _ => none
  | fuel + 1, s =>
    match skipWhitespace s with
    | [] => none
    | u :: rest =>
      if u.val = 34 then
        match parseString rest with
        | none => none
        | some (k, afterKey) =>
          match skipWhitespace afterKey with
          | [] => none
          | c :: value =>
            if c.val = 58 then
              match parseValue fuel value with
              | none => none
              | some (v, more) =>
                match skipWhitespace more with
                | [] => none
                | d :: tail =>
                  if d.val = 125 then some ([(k, v)], tail)
                  else if d.val = 44 then
                    (parseMembers fuel tail).map (fun p => ((k, v) :: p.1, p.2))
                  else none
            else none
      else none

end

/-- `JSON.parse`; `none` is a syntax error. -/
def parseJson (s : JsString) : Option JsValue :=
  match parseValue (2 * s.length + 1) s with
  | some (v, rest) => if skipWhitespace rest = [] then some v else none
  | none => none

end Js
