import OxDeAI.Harness.TypeScript
import OxDeAI.Js.Rounding

/-! The Python harness. An integer of the text is exact there, any other number is
a double. -/

namespace OxDeAI

open Js

inductive PythonNumber
  | int (z : ℤ)
  | float (x : JsNumber)

namespace PythonNumber

/-- The double that `JSON.parse` reads from the same text. -/
def double : PythonNumber → JsNumber
  | int z => .round z
  | float x => x

def safeMin : ℤ := -9007199254740991

def safeMax : ℤ := 9007199254740991

def toInteger : PythonNumber → Except CanonicalError ℤ
  | int z => if z < safeMin ∨ z > safeMax then .error .unsafeIntegerNumber else .ok z
  | float (.int z) => if z < safeMin ∨ z > safeMax then .error .unsafeIntegerNumber else .ok z
  | float _ => .error .floatNotAllowed

end PythonNumber

/-- The escapes that have a letter of their own. -/
def escapeDct : List (Char × List Char) :=
  [('\\', ['\\', '\\']), ('"', ['\\', '"']), ('\x08', ['\\', 'b']), ('\x0c', ['\\', 'f']), ('\n', ['\\', 'n']),
    ('\r', ['\\', 'r']), ('\t', ['\\', 't'])]

def dumpsChar (c : Char) : List Char :=
  match escapeDct.lookup c with
  | some escape => escape
  | none => if c.toNat < 0x20 then '\\' :: 'u' :: hexChars c.toNat 4 else [c]

def dumps (s : List Char) : List Char := '"' :: s.flatMap dumpsChar ++ ['"']

def pythonWriter (normalize : List Char → List Char) : Writer PythonNumber where
  normalize := normalize
  quote := dumps
  number n := n.toInteger.map intChars

/-- What the interpreter leaves the harness to call: the frames that remain where the run
calls `canonicalize`, and what calls take of them. A function of the harness and the
generator that `join` drains hold theirs while they call on, anything else takes what
it needs and gives it back. -/
structure PythonStack where
  limit : ℕ
  call : ℕ
  generator : ℕ
  normalize : ℕ
  dumps : ℕ
  integer : ℕ
  sort : ℕ

/-- `CanonicalError`, or the interpreter's `RecursionError`. -/
inductive PythonError
  | canonical (e : CanonicalError)
  | recursion

def withRoom {α : Type} (need room : ℕ) (x : Except PythonError α) : Except PythonError α :=
  if need ≤ room then x else .error .recursion

namespace PythonStack

variable (stack : PythonStack) (normalize : List Char → List Char)

def canonicalizeTimestamp (room : ℕ) (v : Json (List Char) PythonNumber) : Except PythonError (List Char) :=
  withRoom (stack.call + stack.integer) room (((pythonWriter normalize).timestamp v).mapError .canonical)

/-- The value comes first, then the key is dumped. -/
def member (room : ℕ) (pair : List Char × Json (List Char) PythonNumber × Except PythonError (List Char)) :
    Except PythonError (List Char) :=
  (if pair.1 = timestampName then stack.canonicalizeTimestamp normalize room pair.2.1 else pair.2.2) >>= fun text =>
    withRoom stack.dumps room (.ok (OxDeAI.dumps pair.1 ++ ':' :: text))

def canonicalizeObject (room : ℕ)
    (pairs : List (List Char × Json (List Char) PythonNumber × Except PythonError (List Char))) :
    Except PythonError (List Char) :=
  -- without members nothing is called for one
  if pairs.isEmpty then .ok ['\x7b', '\x7d']
  else withRoom stack.normalize room
    (if (pairs.map Prod.fst).Nodup then
      withRoom stack.sort room
        (((pairs.insertionSort (fun a b => utf8Text a.1 ≤ utf8Text b.1)).mapM (stack.member normalize room)).map
          (fun parts => '\x7b' :: [','].intercalate parts ++ ['\x7d']))
    else .error (.canonical .duplicateKey))

mutual

def canonicalize (room : ℕ) : Json (List Char) PythonNumber → Except PythonError (List Char)
  | .null => withRoom stack.call room (.ok ['n', 'u', 'l', 'l'])
  | .bool b => withRoom stack.call room (.ok (if b then ['t', 'r', 'u', 'e'] else ['f', 'a', 'l', 's', 'e']))
  | .str s => withRoom (stack.call + max stack.normalize stack.dumps) room (.ok (OxDeAI.dumps (normalize s)))
  | .num n => withRoom (stack.call + stack.integer) room ((n.toInteger.map intChars).mapError .canonical)
  | .arr xs => withRoom (stack.call + stack.generator) room
      ((canonicalizeElements (room - (stack.call + stack.generator)) xs).map
        (fun parts => '[' :: [','].intercalate parts ++ [']']))
  | .obj es => withRoom (stack.call + stack.call) room
      (stack.canonicalizeObject normalize (room - (stack.call + stack.call))
        (normalizedPairs (room - (stack.call + stack.call)) es))

def canonicalizeElements (room : ℕ) : List (Json (List Char) PythonNumber) → Except PythonError (List (List Char))
  | [] => .ok []
  | x :: xs => do
    let t ← canonicalize room x
    let ts ← canonicalizeElements room xs
    return t :: ts

def normalizedPairs (room : ℕ) : List (List Char × Json (List Char) PythonNumber) →
    List (List Char × Json (List Char) PythonNumber × Except PythonError (List Char))
  | [] => []
  | (k, v) :: es => (normalize k, v, canonicalize room v) :: normalizedPairs room es

end

mutual

/-- The frames that a value takes, if nothing in it is refused. -/
def frames : Json (List Char) PythonNumber → ℕ
  | .null | .bool _ => stack.call
  | .str _ => stack.call + max stack.normalize stack.dumps
  | .num _ => stack.call + stack.integer
  | .arr xs => stack.call + stack.generator + elementFrames xs
  | .obj es => stack.call + stack.call + memberFrames es

def elementFrames : List (Json (List Char) PythonNumber) → ℕ
  | [] => 0
  | x :: xs => max (frames x) (elementFrames xs)

def memberFrames : List (List Char × Json (List Char) PythonNumber) → ℕ
  | [] => 0
  | (_, v) :: es => max (max (max stack.normalize stack.sort) stack.dumps) (max (frames v) (memberFrames es))

end

end PythonStack

/-- `canonicalize` of the Python harness, where the run calls it. -/
def pythonCanonicalize (stack : PythonStack) (normalize : List Char → List Char) (v : Json (List Char) PythonNumber) :
    Except PythonError (List Char) := stack.canonicalize normalize stack.limit v

/-- `canonicalJson` under Node, whose stack suffices for some values. What is thrown where
it does not is left open. -/
def nodeCanonicalJson (nfc : JsString → JsString) (enough : JsValue → Bool) (v : JsValue) :
    Except (Option JsError) JsString :=
  if enough v then (canonicalJson nfc v).mapError some else .error none

theorem dumpsChar_eq (c : Char) : dumpsChar c = escapeChar c := by
  have hcode : ∀ d : Char, c.toNat = d.toNat ↔ c = d := fun d => ⟨char_eq_of_toNat, fun h => by rw [h]⟩
  have h8 : c.toNat = 8 ↔ c = '\x08' := hcode '\x08'
  have h9 : c.toNat = 9 ↔ c = '\t' := hcode '\t'
  have h10 : c.toNat = 10 ↔ c = '\n' := hcode '\n'
  have h12 : c.toNat = 12 ↔ c = '\x0c' := hcode '\x0c'
  have h13 : c.toNat = 13 ↔ c = '\r' := hcode '\r'
  have h34 : c.toNat = 34 ↔ c = '"' := hcode '"'
  have h92 : c.toNat = 92 ↔ c = '\\' := hcode '\\'
  unfold dumpsChar escapeChar
  simp only [h8, h9, h10, h12, h13, h34, h92]
  by_cases hspecial : c ∈ escapeDct.map Prod.fst
  · simp only [escapeDct, List.map_cons, List.map_nil, List.mem_cons, List.not_mem_nil, or_false] at hspecial
    rcases hspecial with rfl | rfl | rfl | rfl | rfl | rfl | rfl <;> decide
  · have hnone : escapeDct.lookup c = none := by
      rw [List.lookup_eq_none_iff]
      intro p hp
      simpa using fun heq => hspecial (List.mem_map.mpr ⟨p, hp, heq.symm⟩)
    simp only [escapeDct, List.map_cons, List.map_nil, List.mem_cons, List.not_mem_nil, or_false, not_or] at hspecial
    obtain ⟨n92, n34, n8, n12, n10, n13, n9⟩ := hspecial
    rw [hnone, if_neg n8, if_neg n9, if_neg n10, if_neg n12, if_neg n13, if_neg n34, if_neg n92]

theorem dumps_eq (s : List Char) : dumps s = quoteChars s := by
  rw [dumps, quoteChars, funext dumpsChar_eq]

/-- An integer beyond the safe range stays beyond it when it is rounded. -/
theorem not_isSafeInteger_round_int {z : ℤ} (h : JsNumber.maxSafeInteger < z.natAbs) :
    (JsNumber.round z).isSafeInteger = false := by
  by_cases hsmall : z.natAbs ≤ 2 ^ 53
  · rw [JsNumber.round_int hsmall]
    simpa [JsNumber.isSafeInteger] using h
  · refine JsNumber.not_isSafeInteger_round_abs ?_
    rw [← Int.cast_abs, ← Nat.cast_natAbs]
    exact_mod_cast (not_le.mp hsmall).le

theorem toInteger_int (z : ℤ) :
    PythonNumber.toInteger (.int z) =
      if z.natAbs ≤ JsNumber.maxSafeInteger then .ok z else .error .unsafeIntegerNumber := by
  have hrange : (z < PythonNumber.safeMin ∨ z > PythonNumber.safeMax) ↔ ¬ z.natAbs ≤ JsNumber.maxSafeInteger := by
    simp only [PythonNumber.safeMin, PythonNumber.safeMax, JsNumber.maxSafeInteger]
    omega
  simp only [PythonNumber.toInteger, hrange, ite_not]

theorem writesAlike_pythonWriter {nfc : JsString → JsString} {normalize : List Char → List Char}
    (hnfc : ∀ s, nfc (utf16Text s) = utf16Text (normalize s)) :
    WritesAlike nfc PythonNumber.double (pythonWriter normalize) where
  normalize := hnfc
  quote := dumps_eq
  number n := by
    have hdouble : ∀ z : ℤ, Alike SameText (canonicalizeToJson nfc (.num (.int z)))
        ((PythonNumber.toInteger (.int z)).map intChars) := fun z => by
      rw [toInteger_int, canonicalizeToJson]
      split_ifs
      · exact .returned (utf16Text_intChars z).symm
      · exact .thrown _ _
    cases n with
    | int z =>
      rw [PythonNumber.double]
      by_cases hsafe : z.natAbs ≤ JsNumber.maxSafeInteger
      · rw [JsNumber.round_int (hsafe.trans (by decide))]
        exact hdouble z
      · have hrefused : (pythonWriter normalize).number (.int z) = .error .unsafeIntegerNumber := by
          simp only [pythonWriter, toInteger_int, if_neg hsafe]
          rfl
        rcases @canonicalize_number nfc (JsNumber.round z) with ⟨hyes, -⟩ | ⟨-, e, he⟩
        · rw [not_isSafeInteger_round_int (not_le.mp hsafe)] at hyes
          cases hyes
        · rw [hrefused, he]
          exact .thrown _ _
    | float x =>
      cases x with
      | int z => exact hdouble z
      | _ => exact .thrown _ _

theorem withRoom_ok {α : Type} {need room : ℕ} {x : Except PythonError α} {a : α} :
    withRoom need room x = .ok a ↔ need ≤ room ∧ x = .ok a := by
  unfold withRoom
  split_ifs with h <;> simp [h]

theorem mapError_ok {ε δ α : Type} {x : Except ε α} {f : ε → δ} {a : α} : x.mapError f = .ok a ↔ x = .ok a := by
  cases x <;> simp [Except.mapError]

namespace PythonStack

variable {stack : PythonStack} {normalize : List Char → List Char}

theorem canonicalizeElements_eq_mapM (room : ℕ) (xs : List (Json (List Char) PythonNumber)) :
    stack.canonicalizeElements normalize room xs = xs.mapM (stack.canonicalize normalize room) := by
  induction xs with
  | nil => rfl
  | cons x xs ih => rw [canonicalizeElements, ih, List.mapM_cons]

theorem normalizedPairs_eq_map (room : ℕ) (es : List (List Char × Json (List Char) PythonNumber)) :
    stack.normalizedPairs normalize room es =
      es.map (fun e => (normalize e.1, e.2, stack.canonicalize normalize room e.2)) := by
  induction es with
  | nil => rfl
  | cons e es ih => rw [normalizedPairs, ih, List.map_cons]

theorem elementFrames_le {room : ℕ} {xs : List (Json (List Char) PythonNumber)} :
    stack.elementFrames xs ≤ room ↔ ∀ x ∈ xs, stack.frames x ≤ room := by
  induction xs with
  | nil => simp [elementFrames]
  | cons x xs ih => rw [elementFrames, max_le_iff, ih, List.forall_mem_cons]

/-- What each member needs, whatever its value. -/
def keyFrames (stack : PythonStack) : ℕ := max (max stack.normalize stack.sort) stack.dumps

theorem memberFrames_le {room : ℕ} {es : List (List Char × Json (List Char) PythonNumber)} :
    stack.memberFrames es ≤ room ↔ ∀ e ∈ es, stack.keyFrames ≤ room ∧ stack.frames e.2 ≤ room := by
  induction es with
  | nil => simp [memberFrames]
  | cons e es ih =>
    rw [memberFrames, ← keyFrames, max_le_iff, max_le_iff, ih, List.forall_mem_cons, and_assoc]

theorem member_ok {room : ℕ} {e : List Char × Json (List Char) PythonNumber} {t : List Char}
    (ih : ∀ t, stack.canonicalize normalize room e.2 = .ok t ↔
      (pythonWriter normalize).canonicalize e.2 = .ok t ∧ stack.frames e.2 ≤ room) :
    stack.member normalize room (normalize e.1, e.2, stack.canonicalize normalize room e.2) = .ok t ↔
      (pythonWriter normalize).member (normalize e.1, e.2, (pythonWriter normalize).canonicalize e.2) = .ok t ∧
        stack.dumps ≤ room ∧ stack.frames e.2 ≤ room := by
  have htimestamp : ∀ text, stack.canonicalizeTimestamp normalize room e.2 = .ok text ↔
      (pythonWriter normalize).timestamp e.2 = .ok text ∧ stack.frames e.2 ≤ room := by
    intro text
    rw [canonicalizeTimestamp, withRoom_ok, mapError_ok]
    cases e.2 with
    | num n => exact and_comm
    | _ => simp [Writer.timestamp]
  have hvalue : ∀ text, (if normalize e.1 = timestampName then stack.canonicalizeTimestamp normalize room e.2
      else stack.canonicalize normalize room e.2) = .ok text ↔
        (if normalize e.1 = timestampName then (pythonWriter normalize).timestamp e.2
          else (pythonWriter normalize).canonicalize e.2) = .ok text ∧ stack.frames e.2 ≤ room := by
    intro text
    split_ifs
    · exact htimestamp text
    · exact ih text
  rw [member, bind_eq_ok, Writer.member, map_eq_ok]
  simp only [hvalue, withRoom_ok, Except.ok.injEq]
  constructor
  · rintro ⟨text, ⟨htext, hframes⟩, hdumps, ht⟩
    exact ⟨⟨text, htext, ht⟩, hdumps, hframes⟩
  · rintro ⟨⟨text, htext, ht⟩, hdumps, hframes⟩
    exact ⟨text, ⟨htext, hframes⟩, hdumps, ht⟩

theorem canonicalizeObject_eq (room : ℕ) (e : List Char × Json (List Char) PythonNumber)
    (es : List (List Char × Json (List Char) PythonNumber)) :
    stack.canonicalizeObject normalize room (stack.normalizedPairs normalize room (e :: es)) =
      withRoom stack.normalize room (if ((e :: es).map (fun e => normalize e.1)).Nodup then
        withRoom stack.sort room ((((pythonWriter normalize).sorted (e :: es)).mapM (fun e =>
          stack.member normalize room (normalize e.1, e.2, stack.canonicalize normalize room e.2))).map
            (fun parts => '{' :: [','].intercalate parts ++ ['}']))
        else .error (.canonical .duplicateKey)) := by
  have hsort := List.map_insertionSort
    (fun a b : List Char × Json (List Char) PythonNumber => utf8Text (normalize a.1) ≤ utf8Text (normalize b.1))
    (fun a b : List Char × Json (List Char) PythonNumber × Except PythonError (List Char) =>
      utf8Text a.1 ≤ utf8Text b.1)
    (fun e => (normalize e.1, e.2, stack.canonicalize normalize room e.2)) (e :: es) fun _ _ _ _ => Iff.rfl
  have hmap : ∀ l : List (List Char × Json (List Char) PythonNumber),
      (l.map (fun e => (normalize e.1, e.2, stack.canonicalize normalize room e.2))).mapM
          (stack.member normalize room) =
        l.mapM (fun e => stack.member normalize room (normalize e.1, e.2, stack.canonicalize normalize room e.2)) :=
    fun l => List.mapM_map
  rw [canonicalizeObject, normalizedPairs_eq_map, if_neg (by simp), ← hsort, hmap, List.map_map]
  rfl

/-- Python returns what its writer writes, if the value's frames fit. -/
theorem canonicalize_ok {room : ℕ} {v : Json (List Char) PythonNumber} {t : List Char} :
    stack.canonicalize normalize room v = .ok t ↔
      (pythonWriter normalize).canonicalize v = .ok t ∧ stack.frames v ≤ room := by
  induction v using Json.json_induction generalizing room t with
  | null => simp [canonicalize, withRoom_ok, frames, Writer.canonicalize, and_comm]
  | bool b => simp [canonicalize, withRoom_ok, frames, Writer.canonicalize, and_comm]
  | str s =>
    simp only [canonicalize, withRoom_ok, frames, Writer.canonicalize, Except.ok.injEq]
    exact and_comm
  | num n => rw [canonicalize, withRoom_ok, mapError_ok, frames, and_comm, Writer.canonicalize]; rfl
  | arr xs ih =>
    rw [canonicalize, withRoom_ok, map_eq_ok, frames, Writer.canonicalize, map_eq_ok, canonicalizeElements_eq_mapM,
      Writer.canonicalizeElements_eq_mapM]
    simp only [mapM_ok_and_iff fun x hx t => ih x hx]
    constructor
    · rintro ⟨hroom, ts, ⟨hts, hframes⟩, ht⟩
      have helements := elementFrames_le.mpr hframes
      exact ⟨⟨ts, hts, ht⟩, by omega⟩
    · rintro ⟨⟨ts, hts, ht⟩, hframes⟩
      exact ⟨by omega, ts, ⟨hts, elementFrames_le.mp (by omega)⟩, ht⟩
  | obj es ih =>
    rw [canonicalize, withRoom_ok, frames]
    generalize hroom' : room - (stack.call + stack.call) = room'
    cases es with
    | nil =>
      have hempty : (pythonWriter normalize).canonicalize (.obj []) = .ok ['{', '}'] := rfl
      have hobject : stack.canonicalizeObject normalize room' (stack.normalizedPairs normalize room' []) =
          .ok ['{', '}'] := rfl
      rw [hempty, hobject, memberFrames, Nat.add_zero, and_comm]
      simp only [Except.ok.injEq]
    | cons e es =>
      have hmembers : stack.memberFrames (e :: es) ≤ room' ↔
          ∀ e' ∈ e :: es, stack.keyFrames ≤ room' ∧ stack.frames e'.2 ≤ room' := memberFrames_le
      rw [canonicalizeObject_eq, Writer.canonicalize_obj, withRoom_ok]
      have hnames : (pythonWriter normalize).normalize = normalize := rfl
      rw [hnames]
      split_ifs with hnodup
      · rw [withRoom_ok, map_eq_ok, map_eq_ok]
        have hsorted : ∀ e' ∈ (pythonWriter normalize).sorted (e :: es), e' ∈ e :: es :=
          fun e' he' => Writer.mem_sorted.mp he'
        simp only [mapM_ok_and_iff fun e' he' t => member_ok fun t => ih e' (hsorted e' he')]
        constructor
        · rintro ⟨hcalls, hnormalize, hsort, ts, ⟨hts, hfits⟩, ht⟩
          have hfit : stack.memberFrames (e :: es) ≤ room' := by
            refine hmembers.mpr fun e' he' => ?_
            obtain ⟨hdumps, hframes⟩ := hfits e' (Writer.mem_sorted.mpr he')
            exact ⟨max_le (max_le hnormalize hsort) hdumps, hframes⟩
          exact ⟨⟨ts, hts, ht⟩, by omega⟩
        · rintro ⟨⟨ts, hts, ht⟩, hframes⟩
          have hfits := hmembers.mp (by omega)
          have hkey : stack.normalize ≤ room' ∧ stack.sort ≤ room' ∧ stack.dumps ≤ room' := by
            have hle := (hfits e List.mem_cons_self).1
            rw [keyFrames, max_le_iff, max_le_iff] at hle
            exact ⟨hle.1.1, hle.1.2, hle.2⟩
          exact ⟨by omega, hkey.1, hkey.2.1, ts, ⟨hts, fun e' he' => ⟨hkey.2.2, (hfits e' (hsorted e' he')).2⟩⟩, ht⟩
      · simp

end PythonStack

/-- No rule of canonicalization refuses the value: its numbers are safe integers, no keys of
an object are one after normalization, and a `ts` member is a number. -/
def PythonTakes (normalize : List Char → List Char) (v : Json (List Char) PythonNumber) : Prop :=
  ∀ u, v.Node u → (pythonWriter normalize).Takes u

/-- Both throw or both return the same characters, exactly if the value is refused anyway
or both stacks suffice for it or neither does. -/
theorem python_canonicalize_alike_iff {nfc : JsString → JsString} {normalize : List Char → List Char}
    (hnfc : ∀ s, nfc (utf16Text s) = utf16Text (normalize s)) (stack : PythonStack) (enough : JsValue → Bool)
    {v : Json (List Char) PythonNumber} (hv : v.DistinctKeys) :
    Alike SameText (nodeCanonicalJson nfc enough (v.parsed utf16Text PythonNumber.double))
        (pythonCanonicalize stack normalize v) ↔
      (PythonTakes normalize v → (enough (v.parsed utf16Text PythonNumber.double) = true ↔
        stack.frames v ≤ stack.limit)) := by
  have halike := canonicalJson_alike (writesAlike_pythonWriter hnfc) hv
  have hreturns : PythonTakes normalize v ↔ ∃ s, (pythonWriter normalize).canonicalize v = .ok s :=
    (Writer.canonicalize_returns v).symm
  have hpython : ∀ s, pythonCanonicalize stack normalize v = .ok s ↔
      (pythonWriter normalize).canonicalize v = .ok s ∧ stack.frames v ≤ stack.limit :=
    fun s => PythonStack.canonicalize_ok
  rw [nodeCanonicalJson, hreturns]
  generalize canonicalJson nfc (v.parsed utf16Text PythonNumber.double) = written at halike
  generalize enough (v.parsed utf16Text PythonNumber.double) = suffice
  generalize pythonCanonicalize stack normalize v = harness at hpython
  generalize (pythonWriter normalize).canonicalize v = plain at halike hpython
  cases halike with
  | thrown e d =>
    have hthrows : ∃ e, harness = .error e := by
      cases harness with
      | error e => exact ⟨e, rfl⟩
      | ok s => cases ((hpython s).mp rfl).1
    obtain ⟨e', rfl⟩ := hthrows
    refine iff_of_true ?_ ?_
    · cases suffice <;> exact .thrown _ _
    · rintro ⟨s, hs⟩
      cases hs
  | @returned t s hsame =>
    by_cases hroom : stack.frames v ≤ stack.limit
    · obtain rfl := (hpython s).mpr ⟨rfl, hroom⟩
      cases suffice with
      | true => exact iff_of_true (.returned hsame) fun _ => iff_of_true rfl hroom
      | false => exact iff_of_false nofun fun h => by simpa [hroom] using h ⟨s, rfl⟩
    · have hthrows : ∃ e, harness = .error e := by
        cases harness with
        | error e => exact ⟨e, rfl⟩
        | ok s' => exact absurd ((hpython s').mp rfl).2 hroom
      obtain ⟨e', rfl⟩ := hthrows
      cases suffice with
      | true => exact iff_of_false nofun fun h => by simpa [hroom] using h ⟨s, rfl⟩
      | false => exact iff_of_true (.thrown _ _) fun _ => iff_of_false (by simp) hroom

/-- CPython 3.11: the default limit, and no frame taken yet. A call of a C function takes one
while it runs. -/
def cpython311 : PythonStack where
  limit := 1000
  call := 1
  generator := 2
  normalize := 2
  dumps := 4
  integer := 2
  sort := 3

/-- Members out of order, a negative number, and escapes in a key and in a string. -/
def sampleDocument : Json (List Char) PythonNumber :=
  .obj [(['t', 's'], .num (.int 7)),
    (['b'], .arr [.num (.int (-2)), .obj [(['é', '\n'], .str ['"', '\x01'])]]), (['a'], .null)]

theorem sampleDocument_distinctKeys : sampleDocument.DistinctKeys := by
  refine .obj (by decide) fun e he => ?_
  simp only [List.mem_cons, List.not_mem_nil, or_false] at he
  rcases he with rfl | rfl | rfl
  · exact .num _
  · refine .arr fun x hx => ?_
    simp only [List.mem_cons, List.not_mem_nil, or_false] at hx
    rcases hx with rfl | rfl
    · exact .num _
    · refine .obj (by decide) fun e he => ?_
      rw [List.mem_singleton.mp he]
      exact .str _
  · exact .null

theorem python_canonicalize_alike_iff_sample :
    Alike SameText (nodeCanonicalJson id (fun _ => true) (sampleDocument.parsed utf16Text PythonNumber.double))
      (pythonCanonicalize cpython311 id sampleDocument) :=
  (python_canonicalize_alike_iff (fun _ => rfl) cpython311 _ sampleDocument_distinctKeys).mpr
    fun _ => iff_of_true rfl (by decide)

/-- Arrays in one another, `n + 1` of them. -/
def nestedArrays : ℕ → Json (List Char) PythonNumber
  | 0 => .arr []
  | n + 1 => .arr [nestedArrays n]

theorem nestedArrays_distinctKeys (n : ℕ) : (nestedArrays n).DistinctKeys := by
  induction n with
  | zero => exact .arr (by simp)
  | succ n ih => exact .arr fun x hx => List.mem_singleton.mp hx ▸ ih

theorem writer_nestedArrays (n : ℕ) : ∃ t, (pythonWriter id).canonicalize (nestedArrays n) = .ok t := by
  induction n with
  | zero => exact ⟨_, rfl⟩
  | succ n ih =>
    obtain ⟨t, ht⟩ := ih
    refine ⟨'[' :: [','].intercalate [t] ++ [']'], ?_⟩
    rw [nestedArrays, Writer.canonicalize, Writer.canonicalizeElements_eq_mapM, mapM_cons_ok.mpr ⟨t, [], ht, rfl, rfl⟩]
    rfl

theorem frames_nestedArrays (n : ℕ) : cpython311.frames (nestedArrays n) = 3 * (n + 1) := by
  induction n with
  | zero => rfl
  | succ n ih =>
    rw [nestedArrays, PythonStack.frames, PythonStack.elementFrames, PythonStack.elementFrames, ih]
    simp only [cpython311]
    omega

/-- 334 arrays in one another are too deep for Python, though not for Node. -/
theorem python_recursion_limit : ¬ ∀ v : Json (List Char) PythonNumber, v.DistinctKeys →
    Alike SameText (nodeCanonicalJson id (fun _ => true) (v.parsed utf16Text PythonNumber.double))
      (pythonCanonicalize cpython311 id v) := by
  intro hclaim
  have hkeys := nestedArrays_distinctKeys 333
  have hwrites : WritesAlike id PythonNumber.double (pythonWriter id) := writesAlike_pythonWriter fun _ => rfl
  have hnode := canonicalJson_alike hwrites hkeys
  obtain ⟨s, hs⟩ := writer_nestedArrays 333
  rw [hs] at hnode
  have hboth := hclaim _ hkeys
  rw [nodeCanonicalJson, if_pos rfl] at hboth
  generalize canonicalJson id ((nestedArrays 333).parsed utf16Text PythonNumber.double) = written at hnode hboth
  cases hnode with
  | returned hsame =>
    generalize hharness : pythonCanonicalize cpython311 id (nestedArrays 333) = harness at hboth
    cases hboth with
    | @returned _ s' _ =>
      obtain ⟨-, hframes⟩ := PythonStack.canonicalize_ok.mp hharness
      rw [frames_nestedArrays] at hframes
      exact absurd hframes (by decide)

end OxDeAI
