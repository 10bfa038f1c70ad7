import OxDeAI.Js.Json

/-! `JSON.parse` inverts the text of a JSON value, so that the text determines
the value. -/

namespace Js

/-- Values with a JSON text of their own: numbers are safe integers and no
object repeats a key. -/
inductive IsJson : JsValue → Prop
  | null : IsJson .null
  | bool (b : Bool) : IsJson (.bool b)
  | str (s : JsString) : IsJson (.str s)
  | int {z : ℤ} (h : z.natAbs ≤ JsNumber.maxSafeInteger) : IsJson (.num (.int z))
  | arr {xs : List JsValue} (h : ∀ x ∈ xs, IsJson x) : IsJson (.arr xs)
  | obj {es : List (JsString × JsValue)} (hnd : (es.map Prod.fst).Nodup)
      (h : ∀ e ∈ es, IsJson e.2) : IsJson (.obj es)

theorem jsonTexts_eq_map (xs : List JsValue) : jsonTexts xs = xs.map jsonText := by
  induction xs with
  | nil => rfl
  | cons x xs ih => rw [jsonTexts, ih, List.map_cons]

def memberText (e : JsString × JsValue) : JsString := quote e.1 ++ unit 58 :: jsonText e.2

theorem jsonMembers_eq_map (es : List (JsString × JsValue)) :
    jsonMembers es = es.map memberText := by
  induction es with
  | nil => rfl
  | cons e es ih => rw [jsonMembers, ih, List.map_cons]; rfl

theorem hexValue?_hexDigit {n : ℕ} (h : n < 16) : hexValue? (hexDigit n) = some n := by
  by_cases hn : n < 10
  · have hv : (unit (48 + n)).val = 48 + n := unit_val (by omega)
    have h1 : 48 ≤ 48 + n ∧ 48 + n ≤ 57 := by omega
    simp [hexDigit, hexValue?, hn, hv, h1]
  · have hv : (unit (87 + n)).val = 87 + n := unit_val (by omega)
    have h1 : ¬ (48 ≤ 87 + n ∧ 87 + n ≤ 57) := by omega
    have h2 : 97 ≤ 87 + n ∧ 87 + n ≤ 102 := by omega
    simp [hexDigit, hexValue?, hn, hv, h1, h2]

theorem parseString_unicodeEscape (u : CodeUnit) (rest : JsString) :
    parseString (unicodeEscape u ++ rest) = (parseString rest).map (fun p => (u :: p.1, p.2)) := by
  have hu : unit (u.val / 4096 * 4096 + u.val / 256 % 16 * 256 + u.val / 16 % 16 * 16 + u.val % 16) = u := by
    rw [show u.val / 4096 * 4096 + u.val / 256 % 16 * 256 + u.val / 16 % 16 * 16 + u.val % 16 = u.val by
      omega]
    exact unit_self u
  have h92 : (unit 92).val = 92 := unit_val (by omega)
  have h117 : (unit 117).val = 117 := unit_val (by omega)
  simp only [unicodeEscape, List.cons_append, List.nil_append]
  rw [parseString]
  simp only [h92, h117, if_true, hexValue?_hexDigit (show u.val / 4096 < 16 by omega),
    hexValue?_hexDigit (show u.val / 256 % 16 < 16 by omega),
    hexValue?_hexDigit (show u.val / 16 % 16 < 16 by omega),
    hexValue?_hexDigit (show u.val % 16 < 16 by omega), hu]
  simp

theorem parseString_simple {u c : CodeUnit} (rest : JsString) (hc : c.val ≠ 117)
    (hs : simpleEscape? c = some u) :
    parseString (unit 92 :: c :: rest) = (parseString rest).map (fun p => (u :: p.1, p.2)) := by
  rw [parseString.eq_def]
  simp [hc, hs]

theorem parseString_plain {u : CodeUnit} (rest : JsString) (h1 : u.val ≠ 34) (h2 : ¬ u.val < 32)
    (h3 : u.val ≠ 92) :
    parseString (u :: rest) = (parseString rest).map (fun p => (u :: p.1, p.2)) := by
  rw [parseString.eq_def]
  simp [h1, h2, h3]

theorem parseString_escapeUnit (u : CodeUnit) (rest : JsString) :
    parseString (escapeUnit u ++ rest) = (parseString rest).map (fun p => (u :: p.1, p.2)) := by
  have hself : ∀ n, u.val = n → unit n = u := fun n h => h ▸ unit_self u
  unfold escapeUnit
  split_ifs with h1 h2 h3 h4 h5 h6 h7 h8
  · exact parseString_simple rest (by decide) (by rw [← hself 8 h1]; decide)
  · exact parseString_simple rest (by decide) (by rw [← hself 9 h2]; decide)
  · exact parseString_simple rest (by decide) (by rw [← hself 10 h3]; decide)
  · exact parseString_simple rest (by decide) (by rw [← hself 12 h4]; decide)
  · exact parseString_simple rest (by decide) (by rw [← hself 13 h5]; decide)
  · exact parseString_simple rest (by decide) (by rw [← hself 34 h6]; decide)
  · exact parseString_simple rest (by decide) (by rw [← hself 92 h7]; decide)
  · exact parseString_unicodeEscape u rest
  · exact parseString_plain rest h6 h8 h7

theorem parseString_high {u : CodeUnit} (h : isHighSurrogate u = true ∨ isLowSurrogate u = true)
    (rest : JsString) :
    parseString (u :: rest) = (parseString rest).map (fun p => (u :: p.1, p.2)) := by
  simp only [isHighSurrogate, isLowSurrogate, Bool.and_eq_true, decide_eq_true_eq] at h
  exact parseString_plain rest (by omega) (by omega) (by omega)

theorem parseString_escapeString (s rest : JsString) :
    parseString (escapeString s ++ unit 34 :: rest) = some (s, rest) := by
  have hend : parseString (unit 34 :: rest) = some ([], rest) := by
    rw [parseString.eq_def]
    simp [unit]
  induction s using escapeString.induct with
  | case1 => exact hend
  | case2 u h => simp [escapeString, h, parseString_unicodeEscape, hend]
  | case3 u h => simp [escapeString, h, parseString_escapeUnit, hend]
  | case4 u v tail hu hv ih =>
    simp [escapeString, hu, hv, parseString_high (.inl hu), parseString_high (.inr hv), ih]
  | case5 u v tail hu hv ih => simp [escapeString, hu, hv, parseString_unicodeEscape, ih]
  | case6 u v tail hu hl ih => simp [escapeString, hu, hl, parseString_unicodeEscape, ih]
  | case7 u v tail hu hl ih => simp [escapeString, hu, hl, parseString_escapeUnit, ih]

/-- What may follow a number without being read as part of it. -/
def NumberEnd : JsString → Prop
  | [] => True
  | u :: _ => isDigit u = false ∧ u.val ≠ 46 ∧ u.val ≠ 101 ∧ u.val ≠ 69

theorem isDigit_of_lt {d : ℕ} (h : d < 10) : isDigit (unit (48 + d)) = true := by
  have hv : (unit (48 + d)).val = 48 + d := unit_val (by omega)
  simp only [isDigit, hv, Bool.and_eq_true, decide_eq_true_eq]
  omega

theorem digitsValue_map {ds : List ℕ} (h : ∀ d ∈ ds, d < 10) :
    digitsValue (ds.map (fun d => unit (48 + d))) = Nat.ofDigits 10 ds.reverse := by
  induction ds using List.reverseRecOn with
  | nil => rfl
  | append_singleton ds d ih =>
    have hd : d < 10 := h d (by simp)
    have hv : (unit (48 + d)).val = 48 + d := unit_val (by omega)
    have hh := ih (fun x hx => h x (by simp [hx]))
    have hs : 48 + d - 48 = d := by omega
    rw [digitsValue] at hh
    rw [digitsValue, List.map_append, List.foldl_append, hh, List.reverse_append]
    simp only [List.map_cons, List.map_nil, List.foldl_cons, List.foldl_nil, hv, hs,
      List.reverse_singleton, List.singleton_append, Nat.ofDigits_cons]
    omega

theorem natDecimal_spec (n : ℕ) :
    natDecimal n ≠ [] ∧ (∀ u ∈ natDecimal n, isDigit u = true) ∧ digitsValue (natDecimal n) = n ∧
      ¬ ((natDecimal n).head? = some (unit 48) ∧ 1 < (natDecimal n).length) := by
  by_cases hn : n = 0
  · subst hn
    simp only [natDecimal, if_true]
    refine ⟨by simp, ?_, ?_, by simp⟩
    · intro u hu
      obtain rfl : u = unit 48 := by simpa using hu
      decide
    · simp [digitsValue]
  · have hlt : ∀ d ∈ (Nat.digits 10 n).reverse, d < 10 :=
      fun d hd => Nat.digits_lt_base (by norm_num) (List.mem_reverse.mp hd)
    simp only [natDecimal, hn, if_false]
    refine ⟨?_, ?_, ?_, ?_⟩
    · simpa using Nat.digits_ne_nil_iff_ne_zero.mpr hn
    · intro u hu
      obtain ⟨d, hd, rfl⟩ := List.mem_map.mp hu
      exact isDigit_of_lt (hlt d hd)
    · rw [digitsValue_map hlt, List.reverse_reverse, Nat.ofDigits_digits]
    · rintro ⟨hhead, -⟩
      have hne : Nat.digits 10 n ≠ [] := Nat.digits_ne_nil_iff_ne_zero.mpr hn
      have hlast : (Nat.digits 10 n).getLast hne ≠ 0 := Nat.getLast_digit_ne_zero 10 hn
      have hl10 : (Nat.digits 10 n).getLast hne < 10 :=
        Nat.digits_lt_base (by norm_num) (List.getLast_mem hne)
      rw [List.head?_map, List.head?_reverse, List.getLast?_eq_some_getLast hne, Option.map_some,
        Option.some.injEq] at hhead
      have hv := congrArg Fin.val hhead
      rw [unit_val (by omega), unit_val (by omega)] at hv
      omega

theorem span_digits {ds rest : JsString} (hd : ∀ u ∈ ds, isDigit u = true) (hr : NumberEnd rest) :
    (ds ++ rest).span isDigit = (ds, rest) := by
  rw [List.span_eq_takeWhile_dropWhile]
  have hrest : rest.takeWhile isDigit = [] ∧ rest.dropWhile isDigit = rest := by
    cases rest with
    | nil => exact ⟨rfl, rfl⟩
    | cons u us => simp [hr.1]
  rw [List.takeWhile_append_of_pos hd, List.dropWhile_append_of_pos hd, hrest.1, hrest.2,
    List.append_nil]

theorem parseFraction_end {rest : JsString} (h : NumberEnd rest) :
    parseFraction rest = some ([], rest) := by
  cases rest with
  | nil => rfl
  | cons u us => simp [parseFraction, h.2.1]

theorem parseExponent_end {rest : JsString} (h : NumberEnd rest) :
    parseExponent rest = some (0, rest) := by
  cases rest with
  | nil => rfl
  | cons u us => simp [parseExponent, h.2.2.1, h.2.2.2]

theorem parseUnsigned_natDecimal (n : ℕ) {rest : JsString} (h : NumberEnd rest) :
    parseUnsigned (natDecimal n ++ rest) = some ((n : ℚ), rest) := by
  obtain ⟨hne, hdig, hval, hzero⟩ := natDecimal_spec n
  rw [parseUnsigned, span_digits hdig h]
  simp only [hne, hzero, or_self, if_false, parseFraction_end h, parseExponent_end h, hval]
  simp [digitsValue]

theorem natDecimal_head (n : ℕ) : ∃ u us, natDecimal n = u :: us ∧ isDigit u = true := by
  obtain ⟨hne, hdig, -, -⟩ := natDecimal_spec n
  cases h : natDecimal n with
  | nil => exact absurd h hne
  | cons u us => exact ⟨u, us, rfl, hdig u (by simp [h])⟩

theorem decimal_inj {m n : ℤ} (h : decimal m = decimal n) : m = n := by
  have hnat : ∀ {a b : ℕ}, natDecimal a = natDecimal b → a = b := by
    intro a b hab
    rw [← (natDecimal_spec a).2.2.1, hab, (natDecimal_spec b).2.2.1]
  have hsign : ∀ {a b : ℕ}, unit 45 :: natDecimal a ≠ natDecimal b := by
    intro a b hab
    obtain ⟨u, us, hd, hu⟩ := natDecimal_head b
    rw [hd] at hab
    rw [← (List.cons.inj hab).1] at hu
    exact absurd hu (by decide)
  unfold decimal at h
  by_cases hm : m < 0
  · by_cases hn : n < 0
    · rw [if_pos hm, if_pos hn] at h
      have := hnat (List.cons.inj h).2
      omega
    · rw [if_pos hm, if_neg hn] at h
      exact absurd h hsign
  · by_cases hn : n < 0
    · rw [if_neg hm, if_pos hn] at h
      exact absurd h.symm hsign
    · rw [if_neg hm, if_neg hn] at h
      have := hnat h
      omega

theorem parseNumber_decimal {z : ℤ} (hz : z.natAbs ≤ 2 ^ 53) {rest : JsString} (h : NumberEnd rest) :
    parseNumber (decimal z ++ rest) = some (.int z, rest) := by
  by_cases hn : z < 0
  · have hv : (unit 45).val = 45 := unit_val (by omega)
    have hq : -((z.natAbs : ℕ) : ℚ) = (z : ℚ) := by
      have : ((z.natAbs : ℕ) : ℤ) = -z := by omega
      rw [← Int.cast_natCast, this]
      push_cast
      ring
    simp only [decimal, hn, if_true, List.cons_append, parseNumber, hv,
      parseUnsigned_natDecimal _ h, Option.map_some, hq, JsNumber.round_int hz]
  · have hq : ((z.natAbs : ℕ) : ℚ) = (z : ℚ) := by
      have : ((z.natAbs : ℕ) : ℤ) = z := by omega
      rw [← Int.cast_natCast, this]
    have hp := parseUnsigned_natDecimal z.natAbs h
    obtain ⟨u, us, hd, hu⟩ := natDecimal_head z.natAbs
    have hu45 : u.val ≠ 45 := by
      simp only [isDigit, Bool.and_eq_true, decide_eq_true_eq] at hu
      omega
    rw [hd] at hp
    simp only [List.cons_append] at hp
    simp only [decimal, hn, if_false, hd, List.cons_append, parseNumber, hu45, hp, Option.map_some,
      hq, JsNumber.round_int hz]

/-- The first unit of a JSON text decides how it is read. -/
theorem jsonText_cons {v : JsValue} (h : IsJson v) :
    ∃ u us, jsonText v = u :: us ∧ isWhitespace u = false ∧ u.val ≠ 93 ∧ u.val < 128 := by
  cases h with
  | null => exact ⟨_, _, rfl, by decide, by decide, by decide⟩
  | bool b => cases b <;> exact ⟨_, _, rfl, by decide, by decide, by decide⟩
  | str s => exact ⟨_, _, rfl, by decide, by decide, by decide⟩
  | @int z hz =>
    simp only [jsonText, decimal]
    by_cases hn : z < 0
    · rw [if_pos hn]
      exact ⟨_, _, rfl, by decide, by decide, by decide⟩
    · obtain ⟨u, us, hd, hu⟩ := natDecimal_head z.natAbs
      rw [if_neg hn, hd]
      simp only [isDigit, Bool.and_eq_true, decide_eq_true_eq] at hu
      refine ⟨u, us, rfl, ?_, by omega, by omega⟩
      simp only [isWhitespace, Bool.or_eq_false_iff, decide_eq_false_iff_not]
      omega
  | arr _ => exact ⟨_, _, rfl, by decide, by decide, by decide⟩
  | obj _ _ => exact ⟨_, _, rfl, by decide, by decide, by decide⟩

theorem skipWhitespace_cons {u : CodeUnit} (h : isWhitespace u = false) (us : JsString) :
    skipWhitespace (u :: us) = u :: us := by simp [skipWhitespace, h]

theorem objectOf_of_nodup {es : List (JsString × JsValue)} (h : (es.map Prod.fst).Nodup) :
    objectOf es = es := by
  have hgen : ∀ acc : List (JsString × JsValue), ((acc ++ es).map Prod.fst).Nodup →
      es.foldl (fun acc e => setEntry e.1 e.2 acc) acc = acc ++ es := by
    clear h
    induction es with
    | nil => simp
    | cons e es ih =>
      intro acc hnd
      have hnot : e.1 ∉ acc.map Prod.fst := by
        rw [List.map_append, List.map_cons, List.nodup_append] at hnd
        exact fun hm => hnd.2.2 e.1 hm e.1 (by simp) rfl
      have hset : ∀ l : List (JsString × JsValue), e.1 ∉ l.map Prod.fst → setEntry e.1 e.2 l = l ++ [e] := by
        intro l
        induction l with
        | nil => exact fun _ => rfl
        | cons x l ihl =>
          intro hl
          have hx : x.1 ≠ e.1 := fun he => hl (by simp [he])
          simp [setEntry, hx, ihl (fun hm => hl (by simp [hm]))]
      rw [List.foldl_cons, hset acc hnot, ih _ (by simpa using hnd)]
      simp
  rw [objectOf, hgen [] h, List.nil_append]

/-- Reading `v` back from its text, with the given fuel. -/
def Reads (text : JsString) (v : JsValue) : Prop :=
  ∀ fuel rest, 2 * text.length ≤ fuel → NumberEnd rest → parseValue fuel (text ++ rest) = some (v, rest)

/-- No blank comes first, and no end of an array. -/
def Opens (text : JsString) : Prop := ∃ u us, text = u :: us ∧ isWhitespace u = false ∧ u.val ≠ 93

def ReadsQuoted (quoted : JsString → JsString) : Prop :=
  ∀ s, ∃ body, quoted s = unit 34 :: body ∧ ∀ rest, parseString (body ++ rest) = some (s, rest)

/-- The numbers of a class are read back up to where they end. -/
structure ReadsNumbers (number : JsNumber → JsString) (N : JsNumber → Prop) : Prop where
  head : ∀ x, N x → ∃ u us, number x = u :: us ∧ (u.val = 45 ∨ isDigit u = true)
  read : ∀ x, N x → ∀ rest, NumberEnd rest → parseNumber (number x ++ rest) = some (x, rest)

/-- A writer of minified JSON, with its ways to write strings and numbers. -/
structure Writes (quoted : JsString → JsString) (number : JsNumber → JsString) (text : JsValue → JsString) : Prop where
  null : text .null = js "null"
  bool : ∀ b, text (.bool b) = if b then js "true" else js "false"
  str : ∀ s, text (.str s) = quoted s
  num : ∀ x, text (.num x) = number x
  arr : ∀ xs, text (.arr xs) = unit 91 :: join comma (xs.map text) ++ [unit 93]
  obj : ∀ es, text (.obj es) = unit 123 :: join comma (es.map (fun e => quoted e.1 ++ unit 58 :: text e.2)) ++ [unit 125]

/-- JSON values with numbers of one class. No object repeats a key. -/
inductive JsonOver (N : JsNumber → Prop) : JsValue → Prop
  | null : JsonOver N .null
  | bool (b : Bool) : JsonOver N (.bool b)
  | str (s : JsString) : JsonOver N (.str s)
  | num {x : JsNumber} (h : N x) : JsonOver N (.num x)
  | arr {xs : List JsValue} (h : ∀ x ∈ xs, JsonOver N x) : JsonOver N (.arr xs)
  | obj {es : List (JsString × JsValue)} (hnd : (es.map Prod.fst).Nodup) (h : ∀ e ∈ es, JsonOver N e.2) :
      JsonOver N (.obj es)

section

variable {quoted : JsString → JsString} {number : JsNumber → JsString} {text : JsValue → JsString} {N : JsNumber → Prop}

theorem numberEnd_comma (rest : JsString) : NumberEnd (comma :: rest) := by
  exact ⟨by decide, by decide, by decide, by decide⟩

theorem parseElements_texts {xs : List JsValue} (hne : xs ≠ []) (hr : ∀ x ∈ xs, Reads (text x) x) (fuel : ℕ)
    (rest : JsString) (hf : 2 * (join comma (xs.map text)).length + 1 ≤ fuel) :
    parseElements fuel (join comma (xs.map text) ++ unit 93 :: rest) = some (xs, rest) := by
  induction xs generalizing fuel with
  | nil => exact absurd rfl hne
  | cons x xs ih =>
    obtain ⟨fuel, rfl⟩ : ∃ n, fuel = n + 1 := ⟨fuel - 1, by omega⟩
    cases xs with
    | nil =>
      have hx := hr x (by simp) fuel (unit 93 :: rest) (by simpa [join] using hf)
        ⟨by decide, by decide, by decide, by decide⟩
      have hw : skipWhitespace (unit 93 :: rest) = unit 93 :: rest := skipWhitespace_cons (by decide) _
      simp [join, parseElements, hx, hw]
    | cons y ys =>
      have hlen : 2 * (text x).length + 2 * (join comma ((y :: ys).map text)).length + 2 ≤ fuel := by
        simp only [List.map_cons, join, List.length_append, List.length_cons] at hf ⊢
        omega
      have hx := hr x (by simp) fuel (comma :: (join comma ((y :: ys).map text) ++ unit 93 :: rest))
        (by omega) (numberEnd_comma _)
      have hys := ih (by simp) (fun z hz => hr z (by simp [hz])) fuel (by omega)
      have hw : ∀ r, skipWhitespace (comma :: r) = comma :: r := skipWhitespace_cons (by decide)
      have hc44 : comma.val = 44 := by decide
      simp only [List.map_cons] at hx hys
      simp [join, parseElements, hx, hw, hc44, hys]

theorem parseMembers_texts {es : List (JsString × JsValue)} (hq : ReadsQuoted quoted) (hne : es ≠ [])
    (hr : ∀ e ∈ es, Reads (text e.2) e.2) (fuel : ℕ) (rest : JsString)
    (hf : 2 * (join comma (es.map (fun e => quoted e.1 ++ unit 58 :: text e.2))).length + 1 ≤ fuel) :
    parseMembers fuel (join comma (es.map (fun e => quoted e.1 ++ unit 58 :: text e.2)) ++ unit 125 :: rest) =
      some (es, rest) := by
  have hw : ∀ u : CodeUnit, isWhitespace u = false → ∀ r, skipWhitespace (u :: r) = u :: r :=
    fun u h r => skipWhitespace_cons h r
  have hc44 : comma.val = 44 := by decide
  induction es generalizing fuel with
  | nil => exact absurd rfl hne
  | cons e es ih =>
    obtain ⟨k, v⟩ := e
    obtain ⟨body, hbody, hkey⟩ := hq k
    obtain ⟨fuel, rfl⟩ : ∃ n, fuel = n + 1 := ⟨fuel - 1, by omega⟩
    cases es with
    | nil =>
      have hlen : 2 * (text v).length + 1 ≤ fuel := by
        simp only [join, List.map_cons, List.map_nil, List.length_append, List.length_cons] at hf
        omega
      have hx := hr (k, v) (by simp) fuel (unit 125 :: rest) (by simp only; omega)
        ⟨by decide, by decide, by decide, by decide⟩
      simp only [List.map_cons, List.map_nil, join, hbody, List.cons_append, List.append_assoc]
      rw [parseMembers]
      simp [hw _ (show isWhitespace (unit 34) = false by decide), hkey,
        hw _ (show isWhitespace (unit 58) = false by decide), hx,
        hw _ (show isWhitespace (unit 125) = false by decide)]
    | cons e' es' =>
      obtain ⟨more, hmore⟩ : ∃ more, more = join comma ((e' :: es').map (fun e => quoted e.1 ++ unit 58 :: text e.2)) :=
        ⟨_, rfl⟩
      have hlen : 2 * (text v).length + 2 * more.length + 2 ≤ fuel := by
        rw [hmore]
        simp only [List.map_cons, join, List.length_append, List.length_cons] at hf ⊢
        omega
      have hx := hr (k, v) (by simp) fuel (comma :: (more ++ unit 125 :: rest)) (by simp only; omega) (numberEnd_comma _)
      have hes := ih (by simp) (fun z hz => hr z (by simp [hz])) fuel (by rw [← hmore]; omega)
      have hjoin : join comma (((k, v) :: e' :: es').map (fun e => quoted e.1 ++ unit 58 :: text e.2)) =
          unit 34 :: (body ++ unit 58 :: (text v ++ comma :: more)) := by
        rw [List.map_cons, List.map_cons, join, hbody, hmore, List.map_cons]
        simp
      rw [← hmore] at hes
      rw [hjoin]
      simp only [List.cons_append, List.append_assoc]
      rw [parseMembers]
      simp [hw _ (show isWhitespace (unit 34) = false by decide), hkey,
        hw _ (show isWhitespace (unit 58) = false by decide), hx,
        hw _ (show isWhitespace comma = false by decide), hc44, hes]

theorem readsQuoted_quote : ReadsQuoted quote := by
  refine fun s => ⟨escapeString s ++ [unit 34], rfl, fun rest => ?_⟩
  rw [List.append_assoc]
  exact parseString_escapeString s rest

theorem parseValue_quoted (hq : ReadsQuoted quoted) (fuel : ℕ) (s rest : JsString) :
    parseValue (fuel + 1) (quoted s ++ rest) = some (.str s, rest) := by
  obtain ⟨body, hbody, hread⟩ := hq s
  rw [hbody, List.cons_append, parseValue, skipWhitespace_cons (show isWhitespace (unit 34) = false by decide)]
  simp [hread]

theorem parseValue_number (hn : ReadsNumbers number N) (fuel : ℕ) {x : JsNumber} (hx : N x) {rest : JsString}
    (h : NumberEnd rest) : parseValue (fuel + 1) (number x ++ rest) = some (.num x, rest) := by
  have hp := hn.read x hx rest h
  obtain ⟨u, us, hd, hu⟩ := hn.head x hx
  simp only [isDigit, Bool.and_eq_true, decide_eq_true_eq] at hu
  have hw : isWhitespace u = false := by
    simp only [isWhitespace, Bool.or_eq_false_iff, decide_eq_false_iff_not]
    omega
  have hne : u.val ≠ 34 ∧ u.val ≠ 91 ∧ u.val ≠ 123 ∧ u.val ≠ 110 ∧ u.val ≠ 116 ∧ u.val ≠ 102 := by omega
  rw [hd, List.cons_append] at hp ⊢
  rw [parseValue, skipWhitespace_cons hw]
  simp [hne, hp]

theorem join_cons_head (sep u : CodeUnit) (us : JsString) (ts : List JsString) :
    ∃ us', join sep ((u :: us) :: ts) = u :: us' := by
  cases ts with
  | nil => exact ⟨us, rfl⟩
  | cons t ts => exact ⟨us ++ sep :: join sep (t :: ts), rfl⟩

theorem parseValue_arr (fuel : ℕ) {xs : List JsValue} (ho : ∀ x ∈ xs, Opens (text x)) (hr : ∀ x ∈ xs, Reads (text x) x)
    (rest : JsString) (hf : 2 * (join comma (xs.map text)).length + 4 ≤ fuel + 1) :
    parseValue (fuel + 1) (unit 91 :: join comma (xs.map text) ++ [unit 93] ++ rest) = some (.arr xs, rest) := by
  have ht : unit 91 :: join comma (xs.map text) ++ [unit 93] ++ rest =
      unit 91 :: (join comma (xs.map text) ++ unit 93 :: rest) := by simp
  rw [ht, parseValue, skipWhitespace_cons (show isWhitespace (unit 91) = false by decide)]
  cases xs with
  | nil => simp [join, skipWhitespace_cons (show isWhitespace (unit 93) = false by decide)]
  | cons x xs =>
    have hp := parseElements_texts (by simp) hr fuel rest (by omega)
    obtain ⟨u, us, hu, hw, h93⟩ := ho x (by simp)
    obtain ⟨us', hus⟩ := join_cons_head comma u us (xs.map text)
    rw [List.map_cons, hu, hus, List.cons_append] at hp ⊢
    simp [skipWhitespace_cons hw, h93, hp]

theorem parseValue_obj (hq : ReadsQuoted quoted) (fuel : ℕ) {es : List (JsString × JsValue)}
    (hnd : (es.map Prod.fst).Nodup) (hr : ∀ e ∈ es, Reads (text e.2) e.2) (rest : JsString)
    (hf : 2 * (join comma (es.map (fun e => quoted e.1 ++ unit 58 :: text e.2))).length + 4 ≤ fuel + 1) :
    parseValue (fuel + 1) (unit 123 :: join comma (es.map (fun e => quoted e.1 ++ unit 58 :: text e.2)) ++ [unit 125] ++ rest) =
      some (.obj es, rest) := by
  have ht : unit 123 :: join comma (es.map (fun e => quoted e.1 ++ unit 58 :: text e.2)) ++ [unit 125] ++ rest =
      unit 123 :: (join comma (es.map (fun e => quoted e.1 ++ unit 58 :: text e.2)) ++ unit 125 :: rest) := by simp
  rw [ht, parseValue, skipWhitespace_cons (show isWhitespace (unit 123) = false by decide)]
  cases es with
  | nil => simp [join, skipWhitespace_cons (show isWhitespace (unit 125) = false by decide)]
  | cons e es =>
    have hp := parseMembers_texts hq (by simp) hr fuel rest (by omega)
    obtain ⟨body, hbody, -⟩ := hq e.1
    obtain ⟨us', hus'⟩ := join_cons_head comma (unit 34) (body ++ unit 58 :: text e.2)
      (es.map (fun e => quoted e.1 ++ unit 58 :: text e.2))
    rw [List.map_cons, hbody, List.cons_append, hus', List.cons_append] at hp ⊢
    simp [skipWhitespace_cons (show isWhitespace (unit 34) = false by decide), hp, objectOf_of_nodup hnd]

theorem JsonOver.opens (hwrites : Writes quoted number text) (hq : ReadsQuoted quoted) (hn : ReadsNumbers number N)
    {v : JsValue} (h : JsonOver N v) : Opens (text v) := by
  cases h with
  | null => exact hwrites.null ▸ ⟨_, _, rfl, by decide, by decide⟩
  | bool b =>
    rw [hwrites.bool]
    cases b <;> exact ⟨_, _, rfl, by decide, by decide⟩
  | str s =>
    obtain ⟨body, hbody, -⟩ := hq s
    exact ⟨unit 34, body, (hwrites.str s).trans hbody, by decide, by decide⟩
  | num hx =>
    obtain ⟨u, us, hu, hhead⟩ := hn.head _ hx
    simp only [isDigit, Bool.and_eq_true, decide_eq_true_eq] at hhead
    refine ⟨u, us, (hwrites.num _).trans hu, ?_, by omega⟩
    simp only [isWhitespace, Bool.or_eq_false_iff, decide_eq_false_iff_not]
    omega
  | arr _ => exact ⟨_, _, hwrites.arr _, by decide, by decide⟩
  | obj _ _ => exact ⟨_, _, hwrites.obj _, by decide, by decide⟩

theorem JsonOver.reads (hwrites : Writes quoted number text) (hq : ReadsQuoted quoted) (hn : ReadsNumbers number N)
    {v : JsValue} (h : JsonOver N v) : Reads (text v) v := by
  -- no text is empty, so that there is fuel
  have hfuel : ∀ {v : JsValue}, JsonOver N v → 0 < (text v).length := by
    intro v hv
    obtain ⟨u, us, hu, -⟩ := hv.opens hwrites hq hn
    rw [hu]
    exact Nat.succ_pos _
  intro fuel rest hf hr
  obtain ⟨fuel, rfl⟩ : ∃ n, fuel = n + 1 := ⟨fuel - 1, by have := hfuel h; omega⟩
  induction h generalizing fuel rest with
  | null => rw [hwrites.null]; rfl
  | bool b =>
    rw [hwrites.bool]
    cases b <;> rfl
  | str s =>
    rw [hwrites.str]
    exact parseValue_quoted hq fuel s rest
  | num hx =>
    rw [hwrites.num]
    exact parseValue_number hn fuel hx hr
  | @arr xs hj ih =>
    have hreads : ∀ x ∈ xs, Reads (text x) x := by
      intro x hx fuel rest hf hr
      obtain ⟨fuel, rfl⟩ : ∃ n, fuel = n + 1 := ⟨fuel - 1, by have := hfuel (hj x hx); omega⟩
      exact ih x hx rest hr fuel hf
    rw [hwrites.arr] at hf ⊢
    simp only [List.length_append, List.length_cons, List.length_nil] at hf
    exact parseValue_arr fuel (fun x hx => (hj x hx).opens hwrites hq hn) hreads rest (by omega)
  | @obj es hnd hj ih =>
    have hreads : ∀ e ∈ es, Reads (text e.2) e.2 := by
      intro e he fuel rest hf hr
      obtain ⟨fuel, rfl⟩ : ∃ n, fuel = n + 1 := ⟨fuel - 1, by have := hfuel (hj e he); omega⟩
      exact ih e he rest hr fuel hf
    rw [hwrites.obj] at hf ⊢
    simp only [List.length_append, List.length_cons, List.length_nil] at hf
    exact parseValue_obj hq fuel hnd hreads rest (by omega)

theorem parseJson_of_reads {t : JsString} {v : JsValue} (h : Reads t v) : parseJson t = some v := by
  have hr := h (2 * t.length + 1) [] (by omega) trivial
  rw [List.append_nil] at hr
  simp [parseJson, hr, skipWhitespace]

end

theorem writes_jsonText : Writes quote (fun x => jsonText (.num x)) jsonText where
  null := rfl
  bool b := rfl
  str s := rfl
  num x := rfl
  arr xs := by rw [jsonText, jsonTexts_eq_map]
  obj es := by rw [jsonText, jsonMembers_eq_map]; rfl

theorem readsNumbers_safe : ReadsNumbers (fun x => jsonText (.num x)) (fun x => x.isSafeInteger = true) where
  head x hx := by
    obtain ⟨z, rfl, -⟩ := JsNumber.exists_int_of_isSafeInteger hx
    simp only [jsonText, decimal]
    by_cases hz : z < 0
    · exact ⟨unit 45, _, if_pos hz, .inl (unit_val (by omega))⟩
    · obtain ⟨u, us, hd, hu⟩ := natDecimal_head z.natAbs
      exact ⟨u, us, (if_neg hz).trans hd, .inr hu⟩
  read x hx rest hrest := by
    obtain ⟨z, rfl, hz⟩ := JsNumber.exists_int_of_isSafeInteger hx
    exact parseNumber_decimal (by simp only [JsNumber.maxSafeInteger] at hz; omega) hrest

theorem IsJson.over {v : JsValue} (h : IsJson v) : JsonOver (fun x => x.isSafeInteger = true) v := by
  induction h with
  | null => exact .null
  | bool b => exact .bool b
  | str s => exact .str s
  | int hz => exact .num (JsNumber.isSafeInteger_int.mpr hz)
  | arr _ ih => exact .arr ih
  | obj hnd _ ih => exact .obj hnd ih

theorem parseValue_int (fuel : ℕ) {z : ℤ} (hz : z.natAbs ≤ JsNumber.maxSafeInteger) {rest : JsString}
    (h : NumberEnd rest) : parseValue (fuel + 1) (decimal z ++ rest) = some (.num (.int z), rest) :=
  parseValue_number readsNumbers_safe fuel (JsNumber.isSafeInteger_int.mpr hz) h

/-- Parsing the text of a JSON value gives the value back. -/
theorem parseJson_jsonText {v : JsValue} (h : IsJson v) : parseJson (jsonText v) = some v := by
  exact parseJson_of_reads (h.over.reads writes_jsonText readsQuoted_quote readsNumbers_safe)

theorem jsonText_inj {v w : JsValue} (hv : IsJson v) (hw : IsJson w)
    (h : jsonText v = jsonText w) : v = w := by
  have := parseJson_jsonText hv
  rw [h, parseJson_jsonText hw] at this
  exact (Option.some.inj this).symm

theorem WellFormed.append {s t : JsString} (hs : WellFormed s) (ht : WellFormed t) :
    WellFormed (s ++ t) := by
  induction s using WellFormed.induct with
  | case1 => exact ht
  | case2 u =>
    obtain ⟨hu, hl⟩ := hs
    cases t with
    | nil => exact ⟨hu, hl⟩
    | cons v t => simpa [WellFormed, hu, hl] using ht
  | case3 u v rest hu ih =>
    simp only [WellFormed, hu, if_true] at hs
    simpa [WellFormed, hu, hs.1] using ih hs.2
  | case4 u v rest hu ih =>
    have hu' : isHighSurrogate u = false := by simpa using hu
    simp only [WellFormed, hu', Bool.false_eq_true, if_false] at hs
    simpa [WellFormed, hu', hs.1] using ih hs.2

def isBasic (u : CodeUnit) : Bool := u.val < 0xD800

theorem wellFormed_of_basic {s : JsString} (h : s.all isBasic = true) : WellFormed s := by
  have hu : ∀ u ∈ s, isHighSurrogate u = false ∧ isLowSurrogate u = false := by
    intro u hu
    have := List.all_eq_true.mp h u hu
    simp only [isBasic, decide_eq_true_eq] at this
    simp only [isHighSurrogate, isLowSurrogate, Bool.and_eq_false_iff, decide_eq_false_iff_not]
    omega
  clear h
  induction s using WellFormed.induct with
  | case1 => trivial
  | case2 u => exact hu u (by simp)
  | case3 u v rest h ih => exact absurd h (by simp [(hu u (by simp)).1])
  | case4 u v rest h ih =>
    have hh := hu u (by simp)
    simp only [WellFormed, hh.1, hh.2, Bool.false_eq_true, if_false, true_and]
    exact ih (fun x hx => hu x (List.mem_cons_of_mem _ hx))

theorem isBasic_hexDigit {n : ℕ} (h : n < 16) : isBasic (hexDigit n) = true := by
  unfold hexDigit
  split
  · simp [isBasic, unit_val (show 48 + n < 65536 by omega)]
    omega
  · simp [isBasic, unit_val (show 87 + n < 65536 by omega)]
    omega

theorem wellFormed_unicodeEscape (u : CodeUnit) : WellFormed (unicodeEscape u) := by
  apply wellFormed_of_basic
  rw [List.all_eq_true]
  intro x hx
  simp only [unicodeEscape, List.mem_cons, List.not_mem_nil, or_false] at hx
  rcases hx with rfl | rfl | rfl | rfl | rfl | rfl
  · decide
  · decide
  all_goals exact isBasic_hexDigit (by omega)

theorem wellFormed_escapeUnit {u : CodeUnit} (hu : isHighSurrogate u = false)
    (hl : isLowSurrogate u = false) : WellFormed (escapeUnit u) := by
  unfold escapeUnit
  split_ifs
  all_goals first
    | exact wellFormed_unicodeEscape u
    | exact ⟨hu, hl⟩
    | exact wellFormed_of_basic (by decide)

theorem wellFormed_escapeString (s : JsString) : WellFormed (escapeString s) := by
  induction s using escapeString.induct with
  | case1 => trivial
  | case2 u h => simpa [escapeString, h] using wellFormed_unicodeEscape u
  | case3 u h =>
    have hh : isHighSurrogate u = false ∧ isLowSurrogate u = false := by simpa using h
    simpa [escapeString, h] using wellFormed_escapeUnit hh.1 hh.2
  | case4 u v tail hu hv ih =>
    simpa [escapeString, hu, hv, WellFormed] using ih
  | case5 u v tail hu hv ih =>
    simpa [escapeString, hu, hv] using (wellFormed_unicodeEscape u).append ih
  | case6 u v tail hu hl ih =>
    simpa [escapeString, hu, hl] using (wellFormed_unicodeEscape u).append ih
  | case7 u v tail hu hl ih =>
    simpa [escapeString, hu, hl] using
      (wellFormed_escapeUnit (by simpa using hu) (by simpa using hl)).append ih

theorem wellFormed_quote (s : JsString) : WellFormed (quote s) := by
  have hq : WellFormed [unit 34] := wellFormed_of_basic (by decide)
  simpa [quote] using hq.append ((wellFormed_escapeString s).append hq)

theorem wellFormed_decimal (z : ℤ) : WellFormed (decimal z) := by
  have hn : WellFormed (natDecimal z.natAbs) := by
    apply wellFormed_of_basic
    rw [List.all_eq_true]
    intro u hu
    have := (natDecimal_spec z.natAbs).2.1 u hu
    simp only [isDigit, Bool.and_eq_true, decide_eq_true_eq] at this
    simp only [isBasic, decide_eq_true_eq]
    omega
  unfold decimal
  split
  · exact (wellFormed_of_basic (s := [unit 45]) (by decide)).append hn
  · exact hn

theorem wellFormed_join {ts : List JsString} (h : ∀ t ∈ ts, WellFormed t) :
    WellFormed (join comma ts) := by
  induction ts using join.induct with
  | case1 => trivial
  | case2 t => exact h t (by simp)
  | case3 t t' ts ih =>
    have hc : WellFormed [comma] := wellFormed_of_basic (by decide)
    simpa [join] using (h t (by simp)).append (hc.append (ih (fun x hx => h x (by simp_all))))

theorem JsonOver.wellFormed {quoted : JsString → JsString} {number : JsNumber → JsString} {text : JsValue → JsString}
    {N : JsNumber → Prop} (hwrites : Writes quoted number text) (hq : ∀ s, WellFormed (quoted s))
    (hn : ∀ x, N x → WellFormed (number x)) {v : JsValue} (h : JsonOver N v) : WellFormed (text v) := by
  have hwrap : ∀ {a b : CodeUnit} {s : JsString}, isBasic a = true → isBasic b = true →
      WellFormed s → WellFormed (a :: s ++ [b]) := fun ha hb hs =>
    ((wellFormed_of_basic (s := [_]) (by simpa using ha)).append hs).append
      (wellFormed_of_basic (by simpa using hb))
  induction h with
  | null =>
    rw [hwrites.null]
    exact wellFormed_of_basic (by decide)
  | bool b =>
    rw [hwrites.bool]
    cases b <;> exact wellFormed_of_basic (by decide)
  | str s =>
    rw [hwrites.str]
    exact hq s
  | num hx =>
    rw [hwrites.num]
    exact hn _ hx
  | arr _ ih =>
    rw [hwrites.arr]
    exact hwrap (by decide) (by decide) (wellFormed_join (by simpa using ih))
  | obj _ _ ih =>
    rw [hwrites.obj]
    refine hwrap (by decide) (by decide) (wellFormed_join ?_)
    intro t ht
    obtain ⟨e, he, rfl⟩ := List.mem_map.mp ht
    exact (hq e.1).append ((wellFormed_of_basic (s := [unit 58]) (by decide)).append (ih e he))

theorem wellFormed_jsonText {v : JsValue} (h : IsJson v) : WellFormed (jsonText v) := by
  refine h.over.wellFormed writes_jsonText wellFormed_quote fun x hx => ?_
  obtain ⟨z, rfl, -⟩ := JsNumber.exists_int_of_isSafeInteger hx
  exact wellFormed_decimal z

/-- A byte-order mark never opens the text, so decoding its bytes is exact. -/
theorem textDecode_jsonText {v : JsValue} (h : IsJson v) :
    textDecode (utf8Encode (jsonText v)) = jsonText v := by
  have hd := utf8Decode_encode (wellFormed_jsonText h)
  obtain ⟨u, us, hu, -, -, hlt⟩ := jsonText_cons h
  have hfirst : ∃ bs, utf8Encode (jsonText v) = byte u.val :: bs := by
    have hs : isHighSurrogate u = false ∧ isLowSurrogate u = false := by
      simp only [isHighSurrogate, isLowSurrogate, Bool.and_eq_false_iff, decide_eq_false_iff_not]
      omega
    rw [hu]
    cases us with
    | nil => exact ⟨[], by simp [utf8Encode, hs, utf8Scalar, hlt]⟩
    | cons w ws => exact ⟨_, by simp [utf8Encode, hs, utf8Scalar, hlt]; rfl⟩
  obtain ⟨bs, hbs⟩ := hfirst
  have hb : (byte u.val).val ≠ 0xEF := by rw [byte_val (by omega)]; omega
  rw [hbs] at hd ⊢
  rcases bs with _ | ⟨b, _ | ⟨c, bs⟩⟩
  · exact hd
  · exact hd
  · simpa [textDecode, hb] using hd

end Js
