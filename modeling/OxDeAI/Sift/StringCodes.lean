import OxDeAI.Sift.Canonical
import OxDeAI.Js.JsonRoundTrip
import OxDeAI.Lib.FirstDifference

/-! The strings of the Sift text beside those of `json.dumps` under `ensure_ascii`. Of all
characters DEL alone is written in two ways. -/

namespace OxDeAI

open Js FirstDifference

/-- A Python string has one element for a surrogate pair. -/
def codePoints : JsString → List ℕ
  | [] => []
  | [u] => [u.val]
  | u :: v :: rest =>
    if isHighSurrogate u && isLowSurrogate v then pairScalar u v :: codePoints rest
    else u.val :: codePoints (v :: rest)

/-- The code of one element under `ensure_ascii`. -/
def asciiEscape (cp : ℕ) : JsString :=
  if cp = 8 then [unit 92, unit 98]
  else if cp = 9 then [unit 92, unit 116]
  else if cp = 10 then [unit 92, unit 110]
  else if cp = 12 then [unit 92, unit 102]
  else if cp = 13 then [unit 92, unit 114]
  else if cp = 34 then [unit 92, unit 34]
  else if cp = 92 then [unit 92, unit 92]
  else if 0x20 ≤ cp ∧ cp ≤ 0x7e then [unit cp]
  else if cp < 0x10000 then unicodeEscape (unit cp)
  else unicodeEscape (unit (0xd800 + (cp - 0x10000) / 0x400)) ++ unicodeEscape (unit (0xdc00 + (cp - 0x10000) % 0x400))

def dumpsAscii (s : JsString) : JsString := unit 34 :: (codePoints s).flatMap asciiEscape ++ [unit 34]

/-- What Sift writes for a unit of a string. -/
def siftUnit (u : CodeUnit) : JsString := if 0x7f < u.val then unicodeEscape u else escapeUnit u

/-- What Python writes for it. -/
def pythonUnit (u : CodeUnit) : JsString := asciiEscape u.val

/-- The three kinds of code of a unit in a string: a letter, its number, itself. -/
inductive UnitCode (u : CodeUnit) : JsString → Prop
  | letter {l : CodeUnit} (hu : l.val ≠ 117) (hascii : l.val ≤ 0x7f) (hread : simpleEscape? l = some u) :
      UnitCode u [unit 92, l]
  | number : UnitCode u (unicodeEscape u)
  | raw (hquote : u.val ≠ 34) (hslash : u.val ≠ 92) (hascii : u.val ≤ 0x7f) : UnitCode u [u]

theorem eq_unit {u : CodeUnit} {n : ℕ} (h : u.val = n) : u = unit n := by rw [← unit_self u, h]

theorem unitCode_escapeUnit {u : CodeUnit} (h : u.val ≤ 0x7f) : UnitCode u (escapeUnit u) := by
  unfold escapeUnit
  split_ifs with h8 h9 h10 h12 h13 h34 h92 h32
  · exact .letter (by decide) (by decide) (by rw [eq_unit h8]; decide)
  · exact .letter (by decide) (by decide) (by rw [eq_unit h9]; decide)
  · exact .letter (by decide) (by decide) (by rw [eq_unit h10]; decide)
  · exact .letter (by decide) (by decide) (by rw [eq_unit h12]; decide)
  · exact .letter (by decide) (by decide) (by rw [eq_unit h13]; decide)
  · exact .letter (by decide) (by decide) (by rw [eq_unit h34]; decide)
  · exact .letter (by decide) (by decide) (by rw [eq_unit h92]; decide)
  · exact .number
  · exact .raw h34 h92 h

theorem unitCode_siftUnit (u : CodeUnit) : UnitCode u (siftUnit u) := by
  unfold siftUnit
  split
  · exact .number
  · exact unitCode_escapeUnit (by omega)

theorem asciiEscape_val {u : CodeUnit} (h : u.val ≤ 0x7e) : asciiEscape u.val = escapeUnit u := by
  have hlast : (if 0x20 ≤ u.val ∧ u.val ≤ 0x7e then [unit u.val] else if u.val < 0x10000 then unicodeEscape (unit u.val)
      else unicodeEscape (unit (0xd800 + (u.val - 0x10000) / 0x400)) ++
        unicodeEscape (unit (0xdc00 + (u.val - 0x10000) % 0x400))) = if u.val < 32 then unicodeEscape u else [u] := by
    by_cases hcontrol : u.val < 32
    · rw [if_neg (by omega), if_pos (by omega), if_pos hcontrol, unit_self]
    · rw [if_pos (by omega), if_neg hcontrol, unit_self]
  rw [asciiEscape, hlast, escapeUnit]

theorem asciiEscape_basic {cp : ℕ} (h : 0x7e < cp) (hbasic : cp < 0x10000) : asciiEscape cp = unicodeEscape (unit cp) := by
  rw [asciiEscape, if_neg (by omega), if_neg (by omega), if_neg (by omega), if_neg (by omega), if_neg (by omega),
    if_neg (by omega), if_neg (by omega), if_neg (by omega), if_pos hbasic]

theorem asciiEscape_pair_of_le {cp : ℕ} (h : 0x10000 ≤ cp) : asciiEscape cp =
    unicodeEscape (unit (0xd800 + (cp - 0x10000) / 0x400)) ++ unicodeEscape (unit (0xdc00 + (cp - 0x10000) % 0x400)) := by
  rw [asciiEscape, if_neg (by omega), if_neg (by omega), if_neg (by omega), if_neg (by omega), if_neg (by omega),
    if_neg (by omega), if_neg (by omega), if_neg (by omega), if_neg (by omega)]

/-- Of the ASCII characters DEL alone is written in two ways. -/
theorem pythonUnit_eq (u : CodeUnit) : pythonUnit u = if u.val = 0x7f then unicodeEscape u else siftUnit u := by
  have hlt := u.isLt
  by_cases hlow : u.val ≤ 0x7e
  · rw [pythonUnit, asciiEscape_val hlow, if_neg (by omega), siftUnit, if_neg (by omega)]
  · rw [pythonUnit, asciiEscape_basic (by omega) hlt, unit_self]
    by_cases hdel : u.val = 0x7f
    · rw [if_pos hdel]
    · rw [if_neg hdel, siftUnit, if_pos (by omega)]

theorem unitCode_pythonUnit (u : CodeUnit) : UnitCode u (pythonUnit u) := by
  rw [pythonUnit_eq]
  split
  · exact .number
  · exact unitCode_siftUnit u

theorem unicodeEscape_injective : Function.Injective unicodeEscape := by
  intro u v h
  have hread := fun w : CodeUnit => parseString_unicodeEscape w [unit 34]
  have hboth := (hread u).symm.trans ((congrArg (fun t => parseString (t ++ [unit 34])) h).trans (hread v))
  have hend : parseString [unit 34] = some ([], []) := by decide
  rw [hend] at hboth
  exact (List.cons.inj (Prod.mk.inj (Option.some.inj hboth)).1).1

/-- The codes of two units part where both go on. -/
theorem UnitCode.differ {a b : CodeUnit} {xs ys : JsString} (ha : UnitCode a xs) (hb : UnitCode b ys) (hne : a ≠ b) :
    Differ xs ys := by
  cases ha with
  | letter hu hascii hread =>
    cases hb with
    | letter hu' hascii' hread' =>
      refine .later _ (.here (fun h => hne ?_) _ _)
      rw [h, hread'] at hread
      exact (Option.some.inj hread).symm
    | number => exact .later _ (.here (fun h => hu (by rw [h]; decide)) _ _)
    | raw hquote hslash _ => exact .here (fun h => hslash (by rw [← h]; decide)) _ _
  | number =>
    cases hb with
    | letter hu hascii hread => exact .later _ (.here (fun h => hu (by rw [← h]; decide)) _ _)
    | number => exact differ_of_length rfl fun h => hne (unicodeEscape_injective h)
    | raw hquote hslash _ => exact .here (fun h => hslash (by rw [← h]; decide)) _ _
  | raw hquote hslash _ =>
    cases hb with
    | letter hu hascii hread => exact .here (fun h => hslash (by rw [h]; decide)) _ _
    | number => exact .here (fun h => hslash (by rw [h]; decide)) _ _
    | raw => exact .here hne _ _

theorem UnitCode.differ_quote {a : CodeUnit} {xs : JsString} (ha : UnitCode a xs) : Differ xs [unit 34] := by
  cases ha with
  | letter hu hascii hread => exact .here (by decide) _ _
  | number => exact .here (by decide) _ _
  | raw hquote hslash _ => exact .here (fun h => hquote (by rw [h]; decide)) _ _

theorem unit_sameOrDiffer (u : CodeUnit) : SameOrDiffer (siftUnit u) (pythonUnit u) := by
  by_cases hdel : u.val = 0x7f
  · refine .inr ?_
    rw [eq_unit hdel]
    exact .here (by decide) _ _
  · exact .inl (by rw [pythonUnit_eq, if_neg hdel])

/-- What Sift writes for a string. -/
def siftQuote (s : JsString) : JsString := unit 34 :: s.flatMap siftUnit ++ [unit 34]

theorem ascii_of_unitCode {u : CodeUnit} {xs : JsString} (h : UnitCode u xs) : ∀ v ∈ xs, v.val ≤ 0x7f := by
  have hhex : ∀ n, n < 16 → (hexDigit n).val ≤ 0x7f := fun n hn => by interval_cases n <;> decide
  intro v hv
  cases h with
  | letter _ hascii _ =>
    simp only [List.mem_cons, List.not_mem_nil, or_false] at hv
    rcases hv with rfl | rfl
    · decide
    · exact hascii
  | number =>
    simp only [unicodeEscape, List.mem_cons, List.not_mem_nil, or_false] at hv
    rcases hv with rfl | rfl | rfl | rfl | rfl | rfl
    · decide
    · decide
    all_goals exact hhex _ (by omega)
  | raw _ _ hascii => rw [List.mem_singleton.mp hv]; exact hascii

theorem applyEnsureAscii_append (s t : JsString) :
    applyEnsureAscii (s ++ t) = applyEnsureAscii s ++ applyEnsureAscii t := List.flatMap_append

theorem applyEnsureAscii_cons {u : CodeUnit} (h : u.val ≤ 0x7f) (s : JsString) :
    applyEnsureAscii (u :: s) = u :: applyEnsureAscii s := by
  rw [applyEnsureAscii, List.flatMap_cons, ensureAsciiUnit, if_neg (not_lt.mpr h), List.singleton_append]
  rfl

theorem applyEnsureAscii_of_ascii {s : JsString} (h : ∀ u ∈ s, u.val ≤ 0x7f) : applyEnsureAscii s = s := by
  induction s with
  | nil => rfl
  | cons u s ih =>
    rw [applyEnsureAscii_cons (h u List.mem_cons_self), ih fun v hv => h v (List.mem_cons_of_mem _ hv)]

theorem ensureAscii_unicodeEscape (u : CodeUnit) : applyEnsureAscii (unicodeEscape u) = unicodeEscape u :=
  applyEnsureAscii_of_ascii (ascii_of_unitCode .number)

theorem ensureAscii_escapeUnit (u : CodeUnit) : applyEnsureAscii (escapeUnit u) = siftUnit u := by
  by_cases hu : 0x7f < u.val
  · have hself : escapeUnit u = [u] := by
      unfold escapeUnit
      split_ifs <;> first | rfl | omega
    rw [hself, siftUnit, if_pos hu, applyEnsureAscii, List.flatMap_singleton, ensureAsciiUnit, if_pos hu]
  · rw [siftUnit, if_neg hu]
    exact applyEnsureAscii_of_ascii (ascii_of_unitCode (unitCode_escapeUnit (not_lt.mp hu)))

theorem siftUnit_surrogate {u : CodeUnit} (h : isHighSurrogate u = true ∨ isLowSurrogate u = true) :
    siftUnit u = unicodeEscape u ∧ ensureAsciiUnit u = unicodeEscape u := by
  have hu : 0x7f < u.val := by
    simp only [isHighSurrogate, isLowSurrogate, Bool.and_eq_true, decide_eq_true_eq] at h
    omega
  exact ⟨if_pos hu, if_pos hu⟩

/-- The escapes of `JSON.stringify` and of Sift together, unit by unit. -/
theorem applyEnsureAscii_quote (s : JsString) : applyEnsureAscii (quote s) = siftQuote s := by
  have hbody : applyEnsureAscii (escapeString s) = s.flatMap siftUnit := by
    induction s using escapeString.induct with
    | case1 => rfl
    | case2 u h =>
      rw [escapeString, if_pos h, List.flatMap_singleton, ensureAscii_unicodeEscape,
        (siftUnit_surrogate (by simpa using h)).1]
    | case3 u h => rw [escapeString, if_neg h, List.flatMap_singleton, ensureAscii_escapeUnit]
    | case4 u v rest hhigh hlow ih =>
      rw [escapeString, if_pos hhigh, if_pos hlow, List.flatMap_cons, List.flatMap_cons, ← ih,
        (siftUnit_surrogate (.inl hhigh)).1, (siftUnit_surrogate (.inr hlow)).1, applyEnsureAscii, List.flatMap_cons,
        List.flatMap_cons, (siftUnit_surrogate (.inl hhigh)).2, (siftUnit_surrogate (.inr hlow)).2]
      rfl
    | case5 u v rest hhigh hlow ih =>
      rw [escapeString, if_pos hhigh, if_neg hlow, applyEnsureAscii_append, ensureAscii_unicodeEscape, ih,
        ← (siftUnit_surrogate (.inl hhigh)).1]
      rfl
    | case6 u v rest hhigh hlow ih =>
      rw [escapeString, if_neg hhigh, if_pos hlow, applyEnsureAscii_append, ensureAscii_unicodeEscape, ih,
        ← (siftUnit_surrogate (.inr hlow)).1]
      rfl
    | case7 u v rest hhigh hlow ih =>
      rw [escapeString, if_neg hhigh, if_neg hlow, applyEnsureAscii_append, ensureAscii_escapeUnit, ih]
      rfl
  rw [quote, List.cons_append, applyEnsureAscii_cons (by decide), applyEnsureAscii_append, hbody]
  rfl

theorem asciiEscape_pair {u v : CodeUnit} (hu : isHighSurrogate u = true) (hv : isLowSurrogate v = true) :
    asciiEscape (pairScalar u v) = pythonUnit u ++ pythonUnit v := by
  simp only [isHighSurrogate, isLowSurrogate, Bool.and_eq_true, decide_eq_true_eq] at hu hv
  obtain ⟨cp, hcp⟩ : ∃ cp, cp = pairScalar u v := ⟨_, rfl⟩
  have hp : cp = 0x10000 + (u.val - 0xD800) * 0x400 + (v.val - 0xDC00) := hcp
  have h1 : 0xd800 + (cp - 0x10000) / 0x400 = u.val := by omega
  have h2 : 0xdc00 + (cp - 0x10000) % 0x400 = v.val := by omega
  have hunit : ∀ w : CodeUnit, 0xD800 ≤ w.val → pythonUnit w = unicodeEscape w := fun w hw => by
    rw [pythonUnit_eq, if_neg (by omega), siftUnit, if_pos (by omega)]
  rw [hunit u hu.1, hunit v (by omega), ← hcp, asciiEscape_pair_of_le (by omega), h1, h2, unit_self, unit_self]

theorem parseString_siftUnit (u : CodeUnit) (rest : JsString) :
    parseString (siftUnit u ++ rest) = (parseString rest).map (fun p => (u :: p.1, p.2)) := by
  unfold siftUnit
  split
  · exact parseString_unicodeEscape u rest
  · exact parseString_escapeUnit u rest

theorem parseString_siftUnits (s rest : JsString) :
    parseString (s.flatMap siftUnit ++ unit 34 :: rest) = some (s, rest) := by
  induction s with
  | nil =>
    rw [List.flatMap_nil, List.nil_append, parseString.eq_def]
    simp [unit]
  | cons u s ih => rw [List.flatMap_cons, List.append_assoc, parseString_siftUnit, ih, Option.map_some]

/-- Where the string ends is told from its text. -/
theorem siftQuote_append_inj {s t us vs : JsString} (h : siftQuote s ++ us = siftQuote t ++ vs) : s = t ∧ us = vs := by
  simp only [siftQuote, List.cons_append, List.append_assoc, List.nil_append, List.cons.injEq, true_and] at h
  have hread := parseString_siftUnits s us
  rw [h, parseString_siftUnits] at hread
  simpa [eq_comm] using hread

theorem siftQuote_quote_append_inj {s t us vs : JsString} (h : siftQuote s ++ us = quote t ++ vs) : s = t ∧ us = vs := by
  simp only [siftQuote, quote, List.cons_append, List.append_assoc, List.nil_append, List.cons.injEq, true_and] at h
  have hread := parseString_siftUnits s us
  rw [h, parseString_escapeString] at hread
  simpa [eq_comm] using hread

/-- Python's string, unit by unit. -/
theorem dumpsAscii_eq (s : JsString) : dumpsAscii s = unit 34 :: s.flatMap pythonUnit ++ [unit 34] := by
  have hbody : (codePoints s).flatMap asciiEscape = s.flatMap pythonUnit := by
    induction s using codePoints.induct with
    | case1 => rfl
    | case2 u => rfl
    | case3 u v rest h ih =>
      simp only [Bool.and_eq_true] at h
      rw [codePoints, if_pos (by simp [h]), List.flatMap_cons, ih, asciiEscape_pair h.1 h.2, List.flatMap_cons,
        List.flatMap_cons, List.append_assoc]
    | case4 u v rest h ih =>
      rw [codePoints, if_neg h, List.flatMap_cons, ih]
      rfl
  rw [dumpsAscii, hbody]

/-- Two strings are written differently if one contains DEL or they are not one. -/
theorem quote_parts (s t : JsString) :
    siftQuote s = dumpsAscii t ∧ s = t ∧ (∀ u ∈ s, u.val ≠ 0x7f) ∨
      Differ (siftQuote s) (dumpsAscii t) ∧ ¬ (s = t ∧ ∀ u ∈ s, u.val ≠ 0x7f) := by
  rw [siftQuote, dumpsAscii_eq]
  by_cases hst : s = t
  · subst hst
    by_cases hdel : ∀ u ∈ s, u.val ≠ 0x7f
    · refine .inl ⟨?_, rfl, hdel⟩
      have hbody : s.flatMap siftUnit = s.flatMap pythonUnit :=
        List.flatMap_congr fun u hu => by rw [pythonUnit_eq, if_neg (hdel u hu)]
      rw [hbody]
    · refine .inr ⟨?_, fun h => hdel h.2⟩
      obtain ⟨u, hu, hu7f⟩ : ∃ u ∈ s, u.val = 0x7f := by
        by_contra hno
        exact hdel fun u hu h => hno ⟨u, hu, h⟩
      have hcode : Differ (siftUnit u) (pythonUnit u) := by
        rw [eq_unit hu7f]
        exact .here (by decide) _ _
      exact .later _ ((flatMap_differ unit_sameOrDiffer hu hcode).append _ _)
  · refine .inr ⟨.later _ ?_, fun h => hst h.1⟩
    exact flatMap_end_differ (fun a b hab => (unitCode_siftUnit a).differ (unitCode_pythonUnit b) hab) unit_sameOrDiffer
      (fun a => (unitCode_siftUnit a).differ_quote) (fun a => (unitCode_pythonUnit a).differ_quote.symm) hst

end OxDeAI
