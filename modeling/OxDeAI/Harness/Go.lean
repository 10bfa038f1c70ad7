import OxDeAI.Harness.TypeScript
import OxDeAI.Js.Rounding
import OxDeAI.Lib.FirstDifference

/-! The Go harness. Its strings are Go string literals and its numbers are exact
rationals, so it writes what `canonicalJson` writes on some values only. -/

namespace OxDeAI

open Js FirstDifference

/-- The value of a number that a JSON text spells. -/
def literalValue? : JsString → Option ℚ
  | [] => none
  | u :: rest =>
    let read := fun s => (parseUnsigned s).bind (fun p => if p.2 = [] then some p.1 else none)
    if u.val = 45 then (read rest).map (fun q => -q) else read (u :: rest)

/-- A `json.Number`: the spelling is kept. -/
structure NumberLiteral where
  text : JsString
  value : ℚ
  reads : literalValue? text = some value

/-- What `JSON.parse` makes of it. -/
def NumberLiteral.double (n : NumberLiteral) : JsNumber := .round n.value

theorem parseNumber_text (n : NumberLiteral) : parseNumber n.text = some (n.double, []) := by
  obtain ⟨text, value, reads⟩ := n
  cases text with
  | nil => cases reads
  | cons u rest =>
    have hread : ∀ {s : JsString} {q : ℚ}, (parseUnsigned s).bind (fun p => if p.2 = [] then some p.1 else none) = some q →
        parseUnsigned s = some (q, []) := by
      intro s q h
      obtain ⟨⟨r, tail⟩, hp, hq⟩ := Option.bind_eq_some_iff.mp h
      by_cases htail : tail = []
      · simp only [htail, if_true, Option.some.injEq] at hq
        rw [hp, hq, htail]
      · simp [htail] at hq
    simp only [literalValue?] at reads
    simp only [parseNumber, NumberLiteral.double]
    by_cases hminus : u.val = 45
    · rw [if_pos hminus] at reads ⊢
      obtain ⟨q, hq, rfl⟩ := Option.map_eq_some_iff.mp reads
      rw [hread hq, Option.map_some]
    · rw [if_neg hminus] at reads ⊢
      rw [hread reads, Option.map_some]

def ensureSafeInt (z : ℤ) : Except CanonicalError Unit :=
  if z < -9007199254740991 ∨ z > 9007199254740991 then .error .unsafeIntegerNumber else .ok ()

/-- `setString` is `Rat.SetString`, which may give up. -/
def canonicalizeJSONNumber (setString : JsString → Option ℚ) (n : NumberLiteral) : Except CanonicalError (List Char) :=
  match setString n.text with
  | none => .error .unsupportedType
  | some r =>
    if r.den ≠ 1 then .error .floatNotAllowed
    else (ensureSafeInt r.num).map (fun _ => intChars r.num)

def quoteRune (isPrint : Char → Bool) (c : Char) : List Char :=
  if c = '"' ∨ c = '\\' then ['\\', c]
  else if isPrint c then [c]
  else if c.toNat = 7 then ['\\', 'a']
  else if c.toNat = 8 then ['\\', 'b']
  else if c.toNat = 12 then ['\\', 'f']
  else if c.toNat = 10 then ['\\', 'n']
  else if c.toNat = 13 then ['\\', 'r']
  else if c.toNat = 9 then ['\\', 't']
  else if c.toNat = 11 then ['\\', 'v']
  else if c.toNat < 32 ∨ c.toNat = 0x7f then '\\' :: 'x' :: hexChars c.toNat 2
  else if c.toNat < 0x10000 then '\\' :: 'u' :: hexChars c.toNat 4
  else '\\' :: 'U' :: hexChars c.toNat 8

def quoteString (isPrint : Char → Bool) (s : List Char) : List Char := '"' :: s.flatMap (quoteRune isPrint) ++ ['"']

def goWriter (isPrint : Char → Bool) (setString : JsString → Option ℚ) (normalize : List Char → List Char) :
    Writer NumberLiteral where
  normalize := normalize
  quote := quoteString isPrint
  number := canonicalizeJSONNumber setString

/-- `canonicalize` of the Go harness. -/
def goCanonicalize (isPrint : Char → Bool) (setString : JsString → Option ℚ) (normalize : List Char → List Char)
    (v : Json (List Char) NumberLiteral) : Except CanonicalError (List Char) :=
  (goWriter isPrint setString normalize).canonicalize v

/-- Go and JSON write the character alike. -/
def WrittenAlike (isPrint : Char → Bool) (c : Char) : Prop :=
  c = '"' ∨ c = '\\' ∨ c.toNat ∈ [8, 9, 10, 12, 13] ∨ isPrint c = true

instance (isPrint : Char → Bool) (c : Char) : Decidable (WrittenAlike isPrint c) :=
  inferInstanceAs (Decidable (_ ∨ _ ∨ _ ∨ _))

section

variable {isPrint : Char → Bool}

theorem differ_second {x y z : Char} (h : y ≠ z) (xs ys : List Char) : Differ (x :: y :: xs) (x :: z :: ys) :=
  .later x (.here h xs ys)

/-- The two codes of a character are the same, or they part where both go on. -/
theorem escape_cases (hprint : ∀ c, c.toNat < 32 → isPrint c = false) (c : Char) :
    escapeChar c = quoteRune isPrint c ∧ WrittenAlike isPrint c ∨
      Differ (escapeChar c) (quoteRune isPrint c) ∧ ¬ WrittenAlike isPrint c := by
  have hcode : ∀ d : Char, c = d ↔ c.toNat = d.toNat := fun d => ⟨fun h => by rw [h], char_eq_of_toNat⟩
  have h34 : c = '"' ↔ c.toNat = 34 := hcode '"'
  have h92 : c = '\\' ↔ c.toNat = 92 := hcode '\\'
  by_cases hq : c = '"'
  · subst hq
    exact .inl ⟨rfl, .inl rfl⟩
  by_cases hb : c = '\\'
  · subst hb
    exact .inl ⟨rfl, .inr (.inl rfl)⟩
  have hquote : quoteRune isPrint c = if isPrint c then [c] else quoteRune (fun _ => false) c := by
    simp [quoteRune, hq, hb]
  have n34 : c.toNat ≠ 34 := fun h => hq (h34.mpr h)
  have n92 : c.toNat ≠ 92 := fun h => hb (h92.mpr h)
  by_cases hlow : c.toNat < 32
  · rw [hquote, hprint c hlow, if_neg Bool.false_ne_true]
    have halike : WrittenAlike isPrint c ↔ c.toNat ∈ [8, 9, 10, 12, 13] := by
      simp [WrittenAlike, hq, hb, hprint c hlow]
    rw [halike]
    by_cases hletter : c.toNat ∈ [8, 9, 10, 12, 13]
    · refine .inl ⟨?_, hletter⟩
      simp only [List.mem_cons, List.not_mem_nil, or_false] at hletter
      rcases hletter with h | h | h | h | h <;> simp [escapeChar, quoteRune, hq, hb, h]
    · refine .inr ⟨?_, hletter⟩
      simp only [List.mem_cons, List.not_mem_nil, or_false, not_or] at hletter
      obtain ⟨n8, n9, n10, n12, n13⟩ := hletter
      have hescape : escapeChar c = '\\' :: 'u' :: hexChars c.toNat 4 := by
        simp [escapeChar, n8, n9, n10, n12, n13, n34, n92, hlow]
      rw [hescape]
      by_cases h7 : c.toNat = 7
      · have hgo : quoteRune (fun _ => false) c = ['\\', 'a'] := by simp [quoteRune, hq, hb, h7]
        rw [hgo]
        exact differ_second (by decide) _ _
      by_cases h11 : c.toNat = 11
      · have hgo : quoteRune (fun _ => false) c = ['\\', 'v'] := by simp [quoteRune, hq, hb, h11]
        rw [hgo]
        exact differ_second (by decide) _ _
      · have hgo : quoteRune (fun _ => false) c = '\\' :: 'x' :: hexChars c.toNat 2 := by
          simp [quoteRune, hq, hb, h7, n8, n9, n10, h11, n12, n13, hlow]
        rw [hgo]
        exact differ_second (by decide) _ _
  · have hraw : escapeChar c = [c] := by
      unfold escapeChar
      split_ifs <;> first | rfl | omega
    have halike : WrittenAlike isPrint c ↔ isPrint c = true := by
      have hletter : c.toNat ∉ [8, 9, 10, 12, 13] := by
        simp only [List.mem_cons, List.not_mem_nil, or_false]
        omega
      simp only [WrittenAlike, hq, hb, hletter, false_or]
    rw [hquote, halike, hraw]
    by_cases hp : isPrint c = true
    · rw [if_pos hp]
      exact .inl ⟨rfl, hp⟩
    · rw [if_neg hp]
      refine .inr ⟨?_, hp⟩
      obtain ⟨code, hcode⟩ : ∃ code, quoteRune (fun _ => false) c = '\\' :: code := by
        simp only [quoteRune, hq, hb, or_self, if_false, Bool.false_eq_true, ← apply_ite (List.cons '\\')]
        exact ⟨_, rfl⟩
      rw [hcode]
      exact .here hb [] code

/-- Of two quoted texts the same holds. -/
theorem quote_cases (hprint : ∀ c, c.toNat < 32 → isPrint c = false) (s : List Char) :
    quoteChars s = quoteString isPrint s ∧ (∀ c ∈ s, WrittenAlike isPrint c) ∨
      Differ (quoteChars s) (quoteString isPrint s) ∧ ∃ c ∈ s, ¬ WrittenAlike isPrint c := by
  have hsame : ∀ c, SameOrDiffer (escapeChar c) (quoteRune isPrint c) := by
    intro c
    rcases escape_cases hprint c with ⟨h, -⟩ | ⟨h, -⟩
    · exact .inl h
    · exact .inr h
  by_cases hall : ∀ c ∈ s, WrittenAlike isPrint c
  · refine .inl ⟨?_, hall⟩
    have hbody : s.flatMap escapeChar = s.flatMap (quoteRune isPrint) :=
      List.flatMap_congr fun c hc => ((escape_cases hprint c).resolve_right fun h => h.2 (hall c hc)).1
    rw [quoteChars, quoteString, hbody]
  · obtain ⟨c, hc, hnot⟩ : ∃ c ∈ s, ¬ WrittenAlike isPrint c := by
      by_contra hno
      exact hall fun c hc => by_contra fun hnot => hno ⟨c, hc, hnot⟩
    refine .inr ⟨?_, c, hc, hnot⟩
    have hcode := ((escape_cases hprint c).resolve_left fun h => hnot h.2).1
    exact .later _ ((flatMap_differ hsame hc hcode).append _ _)

end

/-- Every character that the node writes itself is written alike. -/
def StringsAlike (isPrint : Char → Bool) (normalize : List Char → List Char) : Json (List Char) NumberLiteral → Prop
  | .str s => ∀ c ∈ normalize s, WrittenAlike isPrint c
  | .obj es => ∀ e ∈ es, ∀ c ∈ normalize e.1, WrittenAlike isPrint c
  | _ => True

/-- An integer in the safe range that the parser of rationals takes. -/
def ExactLiteral (setString : JsString → Option ℚ) (n : NumberLiteral) : Prop :=
  (∃ z : ℤ, n.value = z ∧ z.natAbs ≤ JsNumber.maxSafeInteger) ∧ (setString n.text).isSome = true

section

variable {isPrint : Char → Bool} {setString : JsString → Option ℚ} {normalize : List Char → List Char}

theorem double_of_safe {n : NumberLiteral} {z : ℤ} (hvalue : n.value = z) (hz : z.natAbs ≤ JsNumber.maxSafeInteger) :
    n.double = .int z := by
  rw [NumberLiteral.double, hvalue, JsNumber.round_int (hz.trans (by decide))]

/-- What the Go harness makes of a number, `canonicalJson` makes of it too. -/
theorem canonicalizeJSONNumber_ok (hset : ∀ (n : NumberLiteral) (q : ℚ), setString n.text = some q → q = n.value)
    {n : NumberLiteral} {t : List Char} (h : canonicalizeJSONNumber setString n = .ok t) :
    ExactLiteral setString n ∧ safeText n.double = .ok t := by
  unfold canonicalizeJSONNumber at h
  cases hread : setString n.text with
  | none =>
    rw [hread] at h
    cases h
  | some r =>
    rw [hread] at h
    dsimp only at h
    split at h
    · cases h
    · rename_i hden
      obtain ⟨⟨⟩, hsafe, rfl⟩ := map_eq_ok.mp h
      have hvalue : n.value = r.num := by
        rw [← hset n r hread, JsNumber.num_eq_of_den (not_not.mp hden)]
      have hrange : r.num.natAbs ≤ JsNumber.maxSafeInteger := by
        unfold ensureSafeInt at hsafe
        split at hsafe
        · cases hsafe
        · rename_i hin
          simp only [JsNumber.maxSafeInteger]
          omega
      refine ⟨⟨⟨r.num, hvalue, hrange⟩, by rw [hread]; rfl⟩, ?_⟩
      rw [double_of_safe hvalue hrange, safeText, if_pos hrange]

theorem canonicalizeJSONNumber_returns
    (hset : ∀ (n : NumberLiteral) (q : ℚ), setString n.text = some q → q = n.value) (n : NumberLiteral) :
    (∃ t, canonicalizeJSONNumber setString n = .ok t) ↔ ExactLiteral setString n := by
  constructor
  · rintro ⟨t, h⟩
    exact (canonicalizeJSONNumber_ok hset h).1
  · rintro ⟨⟨z, hvalue, hz⟩, hread⟩
    obtain ⟨r, hr⟩ := Option.isSome_iff_exists.mp hread
    obtain rfl : r = (z : ℚ) := (hset n r hr).trans hvalue
    have hin : ¬ (z < -9007199254740991 ∨ z > 9007199254740991) := by
      simp only [JsNumber.maxSafeInteger] at hz
      omega
    refine ⟨intChars z, ?_⟩
    simp [canonicalizeJSONNumber, hr, ensureSafeInt, hin, Except.map]

/-- Where both harnesses return, their texts are the same, or they part at a
character that is written in two ways. -/
theorem texts_cases (hprint : ∀ c, c.toNat < 32 → isPrint c = false)
    (hset : ∀ (n : NumberLiteral) (q : ℚ), setString n.text = some q → q = n.value)
    (v : Json (List Char) NumberLiteral) {s t : List Char}
    (hs : (typescriptWriter normalize NumberLiteral.double).canonicalize v = .ok s)
    (ht : (goWriter isPrint setString normalize).canonicalize v = .ok t) :
    s = t ∧ (∀ u, v.Node u → StringsAlike isPrint normalize u) ∨
      Differ s t ∧ ¬ ∀ u, v.Node u → StringsAlike isPrint normalize u := by
  induction v using Json.json_induction generalizing s t with
  | null =>
    obtain rfl := Except.ok.inj (hs.symm.trans ht)
    exact .inl ⟨rfl, (Json.forall_node_leaf (fun u hu => by cases hu; rfl)).mpr trivial⟩
  | bool b =>
    obtain rfl := Except.ok.inj (hs.symm.trans ht)
    exact .inl ⟨rfl, (Json.forall_node_leaf (fun u hu => by cases hu; rfl)).mpr trivial⟩
  | num n =>
    obtain ⟨-, htext⟩ := canonicalizeJSONNumber_ok hset ht
    obtain rfl := Except.ok.inj (hs.symm.trans htext)
    exact .inl ⟨rfl, (Json.forall_node_leaf (fun u hu => by cases hu; rfl)).mpr trivial⟩
  | str text =>
    obtain rfl := Except.ok.inj hs
    obtain rfl := Except.ok.inj ht
    rw [Json.forall_node_leaf (fun u hu => by cases hu; rfl)]
    rcases quote_cases hprint (normalize text) with h | ⟨hdiffer, c, hc, hno⟩
    · exact .inl h
    · exact .inr ⟨hdiffer, fun hall => hno (hall c hc)⟩
  | arr xs ih =>
    rw [Writer.canonicalize, Writer.canonicalizeElements_eq_mapM] at hs ht
    obtain ⟨ss, hss, rfl⟩ := map_eq_ok.mp hs
    obtain ⟨ts, hts, rfl⟩ := map_eq_ok.mp ht
    have hparts := intercalate_cases [','] (mapM_eq_ok.mp hss) (mapM_eq_ok.mp hts)
      fun x hx a b ha hb => ih x hx ha hb
    rw [Json.forall_node_arr]
    rcases hparts with ⟨heq, hall⟩ | ⟨hdiffer, x, hx, hno⟩
    · exact .inl ⟨by rw [heq], trivial, hall⟩
    · exact .inr ⟨.later _ (hdiffer.append _ _), fun hall => hno (hall.2 x hx)⟩
  | obj es ih =>
    obtain ⟨ss, hss, rfl⟩ := Writer.canonicalize_obj_ok hs
    obtain ⟨ts, hts, rfl⟩ := Writer.canonicalize_obj_ok ht
    have hparts := intercalate_cases [','] (mapM_eq_ok.mp hss) (mapM_eq_ok.mp hts)
      (P := fun e => (∀ c ∈ normalize e.1, WrittenAlike isPrint c) ∧ ∀ u, e.2.Node u → StringsAlike isPrint normalize u) ?_
    · rw [Json.forall_node_obj]
      rcases hparts with ⟨heq, hall⟩ | ⟨hdiffer, e, he, hno⟩
      · refine .inl ⟨by rw [heq], fun e he => (hall e (Writer.mem_sorted.mpr he)).1, fun e he => ?_⟩
        exact (hall e (Writer.mem_sorted.mpr he)).2
      · refine .inr ⟨.later _ (hdiffer.append _ _), fun hall => hno ?_⟩
        exact ⟨hall.1 e (Writer.mem_sorted.mp he), hall.2 e (Writer.mem_sorted.mp he)⟩
    · intro e he a b ha hb
      obtain ⟨-, s, hs, rfl⟩ := Writer.member_ok.mp ha
      obtain ⟨-, t, ht, rfl⟩ := Writer.member_ok.mp hb
      rcases quote_cases hprint (normalize e.1) with ⟨hkey, hkeyall⟩ | ⟨hkey, c, hc, hno⟩
      · rcases ih e (Writer.mem_sorted.mp he) hs ht with ⟨rfl, hall⟩ | ⟨hdiffer, hno⟩
        · refine .inl ⟨?_, hkeyall, hall⟩
          exact congrArg (· ++ _) hkey
        · refine .inr ⟨?_, fun hboth => hno hboth.2⟩
          have hcolon : Differ (':' :: s) (':' :: t) := .later _ hdiffer
          exact SameOrDiffer.append_differ (.inl hkey) hcolon
      · exact .inr ⟨hkey.append _ _, fun hboth => hno (hboth.1 c hc)⟩

/-- A number that is no safe integer as a double, or members that no harness takes. -/
def RefusedByBoth (normalize : List Char → List Char) : Json (List Char) NumberLiteral → Prop
  | .num n => n.double.isSafeInteger = false
  | .obj es => ¬ Writer.MembersFit normalize es
  | _ => False

/-- A node that both harnesses write, and in the same way. -/
def WrittenSame (isPrint : Char → Bool) (setString : JsString → Option ℚ) (normalize : List Char → List Char) :
    Json (List Char) NumberLiteral → Prop
  | .str s => ∀ c ∈ normalize s, WrittenAlike isPrint c
  | .num n => ExactLiteral setString n
  | .obj es => Writer.MembersFit normalize es ∧ ∀ e ∈ es, ∀ c ∈ normalize e.1, WrittenAlike isPrint c
  | _ => True

theorem typescript_takes (u : Json (List Char) NumberLiteral) :
    (typescriptWriter normalize NumberLiteral.double).Takes u ↔ ¬ RefusedByBoth normalize u := by
  cases u with
  | num n =>
    simp only [Writer.Takes, typescriptWriter, RefusedByBoth, Bool.not_eq_false]
    cases n.double with
    | int z =>
      by_cases hz : z.natAbs ≤ JsNumber.maxSafeInteger <;> simp [safeText, JsNumber.isSafeInteger, hz]
    | _ => simp [safeText, JsNumber.isSafeInteger]
  | obj es => exact not_not.symm
  | _ => simp [Writer.Takes, RefusedByBoth]

theorem go_takes (hset : ∀ (n : NumberLiteral) (q : ℚ), setString n.text = some q → q = n.value)
    (u : Json (List Char) NumberLiteral) :
    (goWriter isPrint setString normalize).Takes u ∧ StringsAlike isPrint normalize u ↔
      WrittenSame isPrint setString normalize u := by
  cases u with
  | num n =>
    rw [WrittenSame, ← canonicalizeJSONNumber_returns hset n]
    exact and_iff_left trivial
  | obj es => exact Iff.rfl
  | str s => exact and_iff_right trivial
  | _ => simp [Writer.Takes, StringsAlike, WrittenSame]

/-- The Go harness refuses what `canonicalJson` refuses. -/
theorem takes_of_go (hset : ∀ (n : NumberLiteral) (q : ℚ), setString n.text = some q → q = n.value)
    {u : Json (List Char) NumberLiteral} (h : (goWriter isPrint setString normalize).Takes u) :
    (typescriptWriter normalize NumberLiteral.double).Takes u := by
  cases u with
  | num n =>
    obtain ⟨t, ht⟩ := h
    exact ⟨t, (canonicalizeJSONNumber_ok hset ht).2⟩
  | _ => exact h

/-- The Go harness and `canonicalJson` both throw or return the same text exactly if
`canonicalJson` refuses a node, or every node is one that both write in the same way. -/
theorem go_canonicalize_alike_iff {nfc : JsString → JsString} (hnfc : ∀ s, nfc (utf16Text s) = utf16Text (normalize s))
    (hprint : ∀ c, c.toNat < 32 → isPrint c = false)
    (hset : ∀ (n : NumberLiteral) (q : ℚ), setString n.text = some q → q = n.value)
    {v : Json (List Char) NumberLiteral} (hv : v.DistinctKeys) :
    Alike SameText (canonicalJson nfc (v.parsed utf16Text NumberLiteral.double))
        (goCanonicalize isPrint setString normalize v) ↔
      (∃ u, v.Node u ∧ RefusedByBoth normalize u) ∨
        ∀ u, v.Node u → WrittenSame isPrint setString normalize u := by
  have hts := canonicalJson_alike (writesAlike_typescriptWriter hnfc NumberLiteral.double) hv
  have htakes := Writer.canonicalize_returns (w := typescriptWriter normalize NumberLiteral.double) v
  have hgo := Writer.canonicalize_returns (w := goWriter isPrint setString normalize) v
  simp only [typescript_takes] at htakes
  rw [goCanonicalize]
  cases hs : (typescriptWriter normalize NumberLiteral.double).canonicalize v with
  | error e =>
    -- `canonicalJson` throws, and the Go harness takes no more nodes than it does
    obtain ⟨u, hu, hrefused⟩ : ∃ u, v.Node u ∧ RefusedByBoth normalize u := by
      by_contra hno
      obtain ⟨t, ht⟩ := htakes.mpr fun u hu hrefused => hno ⟨u, hu, hrefused⟩
      rw [hs] at ht
      cases ht
    rw [hs] at hts
    cases ht : (goWriter isPrint setString normalize).canonicalize v with
    | error d =>
      refine iff_of_true ?_ (.inl ⟨u, hu, hrefused⟩)
      cases hjson : canonicalJson nfc (v.parsed utf16Text NumberLiteral.double) with
      | error d' => exact .thrown _ _
      | ok t =>
        rw [hjson] at hts
        cases hts
    | ok t => exact absurd hrefused ((typescript_takes u).mp (takes_of_go hset (hgo.mp ⟨t, ht⟩ u hu)))
  | ok s =>
    have hnone : ¬ ∃ u, v.Node u ∧ RefusedByBoth normalize u := fun ⟨u, hu, hrefused⟩ => htakes.mp ⟨s, hs⟩ u hu hrefused
    rw [hs] at hts
    obtain ⟨text, hjson, htext⟩ : ∃ text, canonicalJson nfc (v.parsed utf16Text NumberLiteral.double) = .ok text ∧
        SameText text s := by
      cases hjson : canonicalJson nfc (v.parsed utf16Text NumberLiteral.double) with
      | error e =>
        rw [hjson] at hts
        cases hts
      | ok text =>
        rw [hjson] at hts
        cases hts with
        | returned h => exact ⟨text, rfl, h⟩
    rw [hjson, or_iff_right hnone]
    cases ht : (goWriter isPrint setString normalize).canonicalize v with
    | error d =>
      refine iff_of_false (fun h => by cases h) fun hall => ?_
      obtain ⟨t, ht'⟩ := hgo.mpr fun u hu => ((go_takes hset u).mpr (hall u hu)).1
      rw [ht] at ht'
      cases ht'
    | ok t =>
      have hboth : (∀ u, v.Node u → WrittenSame isPrint setString normalize u) ↔
          ∀ u, v.Node u → StringsAlike isPrint normalize u :=
        forall₂_congr fun u hu => (go_takes hset u).symm.trans (and_iff_right (hgo.mp ⟨t, ht⟩ u hu))
      rw [hboth]
      rcases texts_cases hprint hset v hs ht with ⟨rfl, hall⟩ | ⟨hdiffer, hno⟩
      · exact iff_of_true (.returned htext) hall
      · refine iff_of_false (fun h => ?_) hno
        cases h with
        | returned h => exact hdiffer.ne (utf16Text_injective (htext.symm.trans h))

end

/-- Printable as Go has it, as far as ASCII goes. -/
def asciiPrint (c : Char) : Bool := 32 ≤ c.toNat && c.toNat < 127

theorem not_asciiPrint {c : Char} (h : c.toNat < 32) : asciiPrint c = false := by
  simp only [asciiPrint, Bool.and_eq_false_iff, decide_eq_false_iff_not]
  omega

/-- The Go harness writes `"\\x01"` for a string of U+0001. -/
theorem go_escapes_control : ¬ ∀ (isPrint : Char → Bool) (setString : JsString → Option ℚ)
    (normalize : List Char → List Char) (nfc : JsString → JsString) (v : Json (List Char) NumberLiteral),
    (∀ s, nfc (utf16Text s) = utf16Text (normalize s)) → (∀ c, c.toNat < 32 → isPrint c = false) →
      (∀ (n : NumberLiteral) (q : ℚ), setString n.text = some q → q = n.value) → v.DistinctKeys →
        Alike SameText (canonicalJson nfc (v.parsed utf16Text NumberLiteral.double))
          (goCanonicalize isPrint setString normalize v) := by
  intro hclaim
  have h := hclaim asciiPrint literalValue? id id (.str ['\x01']) (fun _ => rfl) (fun _ => not_asciiPrint)
    (fun n q hq => Option.some.inj (hq.symm.trans n.reads)) (.str _)
  have hjson : canonicalJson id ((Json.str ['\x01'] : Json (List Char) NumberLiteral).parsed utf16Text
      NumberLiteral.double) = .ok (utf16Text ['"', '\\', 'u', '0', '0', '0', '1', '"']) := by decide
  have hgo : goCanonicalize asciiPrint literalValue? id (.str ['\x01']) = .ok ['"', '\\', 'x', '0', '1', '"'] := by decide
  rw [hjson, hgo] at h
  cases h with
  | returned h => exact absurd (utf16Text_injective h) (by decide)

def sevenLiteral : NumberLiteral := ⟨js "7", 7, by decide +kernel⟩

/-- Members out of order, and escapes in a key and in a string. -/
def sampleGoDocument : Json (List Char) NumberLiteral :=
  .obj [(['t', 's'], .num sevenLiteral), (['b', '\n'], .arr [.null, .obj [(['k'], .str ['"', '\\', 'x'])]]), (['a'], .null)]

theorem sampleGoDocument_distinctKeys : sampleGoDocument.DistinctKeys := by
  refine .obj (by decide) fun e he => ?_
  simp only [List.mem_cons, List.not_mem_nil, or_false] at he
  rcases he with rfl | rfl | rfl
  · exact .num _
  · refine .arr fun x hx => ?_
    rcases List.mem_pair.mp hx with rfl | rfl
    · exact .null
    · refine .obj (by decide) fun e he => ?_
      rw [List.mem_singleton.mp he]
      exact .str _
  · exact .null

theorem sampleGoDocument_written : ∀ u, sampleGoDocument.Node u → WrittenSame asciiPrint literalValue? id u := by
  have hseven : ExactLiteral literalValue? sevenLiteral := ⟨⟨7, rfl, by decide⟩, by decide +kernel⟩
  -- over a list, not over every character
  have hall : (['t', 's', 'b', '\n', 'a', 'k', '"', '\\', 'x'].all fun c =>
      decide (WrittenAlike asciiPrint c)) = true := by decide
  have halike : ∀ c, c ∈ ['t', 's', 'b', '\n', 'a', 'k', '"', '\\', 'x'] → WrittenAlike asciiPrint c :=
    fun c hc => of_decide_eq_true (List.all_eq_true.mp hall c hc)
  refine Json.forall_node_obj.mpr ⟨⟨⟨by decide, by decide⟩, fun e he c hc => ?_⟩, fun e he => ?_⟩
  · refine halike c ?_
    simp only [List.mem_cons, List.not_mem_nil, or_false] at he
    rcases he with rfl | rfl | rfl
    · exact List.mem_of_mem_take (i := 2) hc
    · exact List.mem_of_mem_drop (i := 2) (List.mem_of_mem_take (i := 2) hc)
    · simp [List.mem_singleton.mp hc]
  simp only [List.mem_cons, List.not_mem_nil, or_false] at he
  rcases he with rfl | rfl | rfl
  · exact Json.forall_node_num.mpr hseven
  · refine Json.forall_node_arr.mpr ⟨trivial, fun x hx => ?_⟩
    rcases List.mem_pair.mp hx with rfl | rfl
    · exact Json.forall_node_null.mpr trivial
    · refine Json.forall_node_obj.mpr ⟨⟨⟨by decide, by decide⟩, fun e he c hc => ?_⟩, fun e he => ?_⟩
      · obtain rfl := List.mem_singleton.mp he
        obtain rfl := List.mem_singleton.mp hc
        exact halike 'k' (by decide)
      rw [List.mem_singleton.mp he]
      exact Json.forall_node_str.mpr fun c hc => halike c (List.mem_of_mem_drop (i := 6) hc)
  · exact Json.forall_node_null.mpr trivial

theorem go_canonicalize_alike_iff_sample :
    Alike SameText (canonicalJson id (sampleGoDocument.parsed utf16Text NumberLiteral.double))
      (goCanonicalize asciiPrint literalValue? id sampleGoDocument) :=
  (go_canonicalize_alike_iff (fun _ => rfl) (fun _ => not_asciiPrint)
    (fun n _ hq => Option.some.inj (hq.symm.trans n.reads)) sampleGoDocument_distinctKeys).mpr (.inr sampleGoDocument_written)

end OxDeAI
