import OxDeAI.Js.Json

/-! Texts of valid Unicode, as sequences of characters and in UTF-16. -/

namespace Js

def utf16Text (s : List Char) : JsString := s.flatMap utf16

def utf8Text (s : List Char) : List Byte := s.flatMap (fun c => utf8Scalar c.toNat)

def hexChar (n : ℕ) : Char := if n < 10 then Char.ofNat (48 + n) else Char.ofNat (87 + n)

/-- The last hexadecimal digits of a number, the most significant first. -/
def hexChars (n : ℕ) : ℕ → List Char
  | 0 => []
  | width + 1 => hexChars (n / 16) width ++ [hexChar (n % 16)]

/-- What `JSON.stringify` writes for a character. -/
def escapeChar (c : Char) : List Char :=
  if c.toNat = 8 then ['\\', 'b']
  else if c.toNat = 9 then ['\\', 't']
  else if c.toNat = 10 then ['\\', 'n']
  else if c.toNat = 12 then ['\\', 'f']
  else if c.toNat = 13 then ['\\', 'r']
  else if c.toNat = 34 then ['\\', '"']
  else if c.toNat = 92 then ['\\', '\\']
  else if c.toNat < 32 then '\\' :: 'u' :: hexChars c.toNat 4
  else [c]

def quoteChars (s : List Char) : List Char := '"' :: s.flatMap escapeChar ++ ['"']

@[simp] theorem utf16Text_nil : utf16Text [] = [] := rfl

@[simp] theorem utf16Text_cons (c : Char) (s : List Char) : utf16Text (c :: s) = utf16 c ++ utf16Text s := rfl

@[simp] theorem utf16Text_append (s t : List Char) : utf16Text (s ++ t) = utf16Text s ++ utf16Text t :=
  List.flatMap_append

/-- One unit that is no surrogate, or a pair of surrogates. -/
theorem utf16_cases (c : Char) :
    (∃ u : CodeUnit, utf16 c = [u] ∧ u.val = c.toNat ∧ isHighSurrogate u = false ∧ isLowSurrogate u = false) ∨
      ∃ u v : CodeUnit, utf16 c = [u, v] ∧ isHighSurrogate u = true ∧ isLowSurrogate v = true ∧
        pairScalar u v = c.toNat := by
  have hvalid : c.toNat < 0xD800 ∨ 0xDFFF < c.toNat ∧ c.toNat < 0x110000 := c.valid
  by_cases hsmall : c.toNat < 0x10000
  · left
    have hval : (Fin.ofNat 65536 c.toNat).val = c.toNat := Nat.mod_eq_of_lt hsmall
    refine ⟨Fin.ofNat 65536 c.toNat, by rw [utf16, if_pos hsmall], hval, ?_, ?_⟩
    · simp only [isHighSurrogate, hval, Bool.and_eq_false_iff, decide_eq_false_iff_not]
      omega
    · simp only [isLowSurrogate, hval, Bool.and_eq_false_iff, decide_eq_false_iff_not]
      omega
  · right
    obtain ⟨high, hhighDef⟩ : ∃ n, n = 0xD800 + (c.toNat - 0x10000) / 0x400 := ⟨_, rfl⟩
    obtain ⟨low, hlowDef⟩ : ∃ n, n = 0xDC00 + (c.toNat - 0x10000) % 0x400 := ⟨_, rfl⟩
    have hhigh : (Fin.ofNat 65536 high).val = high := Nat.mod_eq_of_lt (by omega)
    have hlow : (Fin.ofNat 65536 low).val = low := Nat.mod_eq_of_lt (by omega)
    have hsurrogates : isHighSurrogate (Fin.ofNat 65536 high) = true ∧ isLowSurrogate (Fin.ofNat 65536 low) = true := by
      simp only [isHighSurrogate, isLowSurrogate, hhigh, hlow, Bool.and_eq_true, decide_eq_true_eq]
      omega
    have hpair : pairScalar (Fin.ofNat 65536 high) (Fin.ofNat 65536 low) = c.toNat := by
      have hsum : 0x10000 + (high - 0xD800) * 0x400 + (low - 0xDC00) = c.toNat := by omega
      unfold pairScalar
      rw [hhigh, hlow]
      exact hsum
    have htext : utf16 c = [Fin.ofNat 65536 high, Fin.ofNat 65536 low] := by
      rw [utf16, if_neg hsmall, hhighDef, hlowDef]
    exact ⟨_, _, htext, hsurrogates.1, hsurrogates.2, hpair⟩

theorem char_eq_of_toNat {c d : Char} (h : c.toNat = d.toNat) : c = d := by
  rw [← Char.ofNat_toNat c, h, Char.ofNat_toNat]

theorem utf16_append_inj {c d : Char} {s t : JsString} (h : utf16 c ++ s = utf16 d ++ t) : c = d ∧ s = t := by
  rcases utf16_cases c with ⟨u, hc, hu, hhigh, -⟩ | ⟨u, v, hc, hhigh, -, hpair⟩ <;>
    rcases utf16_cases d with ⟨u', hd, hu', hhigh', -⟩ | ⟨u', v', hd, hhigh', -, hpair'⟩ <;>
    rw [hc, hd] at h
  · obtain ⟨rfl, rfl⟩ := List.cons.inj h
    exact ⟨char_eq_of_toNat (hu.symm.trans hu'), rfl⟩
  · obtain ⟨rfl, -⟩ := List.cons.inj h
    rw [hhigh] at hhigh'
    cases hhigh'
  · obtain ⟨rfl, -⟩ := List.cons.inj h
    rw [hhigh] at hhigh'
    cases hhigh'
  · obtain ⟨hu, hrest⟩ := List.cons.inj h
    obtain ⟨hv, hst⟩ := List.cons.inj hrest
    rw [← hu, ← hv] at hpair'
    exact ⟨char_eq_of_toNat (hpair.symm.trans hpair'), hst⟩

theorem utf16_ne_nil (c : Char) : utf16 c ≠ [] := by
  rcases utf16_cases c with ⟨u, hc, -⟩ | ⟨u, v, hc, -⟩ <;> rw [hc] <;> exact List.cons_ne_nil _ _

theorem utf16Text_injective : Function.Injective utf16Text := by
  intro s t h
  induction s generalizing t with
  | nil =>
    cases t with
    | nil => rfl
    | cons d t => exact absurd (List.append_eq_nil_iff.mp h.symm).1 (utf16_ne_nil d)
  | cons c s ih =>
    cases t with
    | nil => exact absurd (List.append_eq_nil_iff.mp h).1 (utf16_ne_nil c)
    | cons d t =>
      obtain ⟨rfl, hrest⟩ := utf16_append_inj h
      rw [ih hrest]

theorem utf8Encode_unit {u : CodeUnit} (hhigh : isHighSurrogate u = false) (hlow : isLowSurrogate u = false)
    (s : JsString) : utf8Encode (u :: s) = utf8Scalar u.val ++ utf8Encode s := by
  cases s <;> simp [utf8Encode, hhigh, hlow]

theorem escapeString_unit {u : CodeUnit} (hhigh : isHighSurrogate u = false) (hlow : isLowSurrogate u = false)
    (s : JsString) : escapeString (u :: s) = escapeUnit u ++ escapeString s := by
  cases s <;> simp [escapeString, hhigh, hlow]

/-- The encoder of strings, on valid Unicode. -/
theorem utf8Encode_utf16Text (s : List Char) : utf8Encode (utf16Text s) = utf8Text s := by
  induction s with
  | nil => rfl
  | cons c s ih =>
    rw [utf16Text_cons, utf8Text, List.flatMap_cons, ← utf8Text, ← ih]
    rcases utf16_cases c with ⟨u, hc, hu, hhigh, hlow⟩ | ⟨u, v, hc, hhigh, hlow, hpair⟩
    · rw [hc, List.singleton_append, utf8Encode_unit hhigh hlow, hu]
    · rw [hc, List.cons_append, List.singleton_append, utf8Encode, if_pos hhigh, if_pos hlow, hpair]

theorem utf16_hexChar {n : ℕ} (h : n < 16) : utf16 (hexChar n) = [hexDigit n] := by
  interval_cases n <;> decide

theorem utf16_escapeChar {c : Char} {u : CodeUnit} (hc : utf16 c = [u]) (hu : u.val = c.toNat) :
    utf16Text (escapeChar c) = escapeUnit u := by
  unfold escapeChar escapeUnit
  rw [hu]
  split_ifs with h8 h9 h10 h12 h13 h34 h92 h32
  · decide
  · decide
  · decide
  · decide
  · decide
  · decide
  · decide
  · have hdigits : ∀ n, n < 16 → utf16Text [hexChar n] = [hexDigit n] := fun n hn => by
      rw [utf16Text_cons, utf16_hexChar hn, utf16Text_nil, List.append_nil]
    have h1 : u.val / 4096 = c.toNat / 16 / 16 / 16 % 16 := by omega
    have h2 : u.val / 256 % 16 = c.toNat / 16 / 16 % 16 := by omega
    have h3 : u.val / 16 % 16 = c.toNat / 16 % 16 := by omega
    rw [unicodeEscape, h1, h2, h3, hu]
    have hlast : ∀ n, utf16Text [hexChar (n % 16)] = [hexDigit (n % 16)] := fun n => hdigits _ (Nat.mod_lt _ (by decide))
    simp only [hexChars, List.nil_append, utf16Text_cons, utf16Text_append, hlast]
    have hstart : utf16 '\\' = [unit 92] ∧ utf16 'u' = [unit 117] := by decide
    rw [hstart.1, hstart.2]
    rfl
  · rw [utf16Text_cons, hc, utf16Text_nil, List.append_nil]

/-- `JSON.stringify` of valid Unicode, character by character. -/
theorem quote_utf16Text (s : List Char) : quote (utf16Text s) = utf16Text (quoteChars s) := by
  have hbody : escapeString (utf16Text s) = utf16Text (s.flatMap escapeChar) := by
    induction s with
    | nil => rfl
    | cons c s ih =>
      rw [List.flatMap_cons, utf16Text_cons, utf16Text_append, ← ih]
      rcases utf16_cases c with ⟨u, hc, hu, hhigh, hlow⟩ | ⟨u, v, hc, hhigh, hlow, hpair⟩
      · rw [utf16_escapeChar hc hu, hc, List.singleton_append, escapeString_unit hhigh hlow]
      · have hlarge : 0x10000 ≤ c.toNat := by
          rw [← hpair]
          exact Nat.le_add_right_of_le (Nat.le_add_right _ _)
        have hplain : escapeChar c = [c] := by
          unfold escapeChar
          split_ifs <;> first | rfl | omega
        rw [hplain, utf16Text_cons, utf16Text_nil, List.append_nil, hc, List.cons_append, List.singleton_append,
          escapeString, if_pos hhigh, if_pos hlow]
        rfl
  have hmark : utf16 '"' = [unit 34] := by decide
  simp only [quote, hbody, quoteChars, List.cons_append, utf16Text_cons, utf16Text_append, utf16Text_nil, hmark,
    List.nil_append]

end Js
