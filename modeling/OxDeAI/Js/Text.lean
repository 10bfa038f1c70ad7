import Mathlib.Data.List.Sort
import Mathlib.Data.List.Lex
import Mathlib.Data.Fin.Basic
import Mathlib.Tactic

/-! Strings of the host language are sequences of UTF-16 code units, compared
unit by unit. The encoder writes UTF-8 and replaces a lone surrogate by U+FFFD;
the decoder replaces each maximal ill-formed prefix. -/

namespace Js

abbrev CodeUnit := Fin 65536

abbrev JsString := List CodeUnit

abbrev Byte := Fin 256

def utf16 (c : Char) : JsString :=
  if c.toNat < 0x10000 then [Fin.ofNat 65536 c.toNat]
  else [Fin.ofNat 65536 (0xD800 + (c.toNat - 0x10000) / 0x400),
    Fin.ofNat 65536 (0xDC00 + (c.toNat - 0x10000) % 0x400)]

/-- A string literal of the source. -/
def js (s : String) : JsString := s.toList.flatMap utf16

def isHighSurrogate (u : CodeUnit) : Bool := 0xD800 ≤ u.val && u.val < 0xDC00

def isLowSurrogate (u : CodeUnit) : Bool := 0xDC00 ≤ u.val && u.val < 0xE000

/-- Every surrogate is half of a pair. -/
def WellFormed : JsString → Prop
  | [] => True
  | [u] => isHighSurrogate u = false ∧ isLowSurrogate u = false
  | u :: v :: rest =>
    if isHighSurrogate u then isLowSurrogate v = true ∧ WellFormed rest
    else isLowSurrogate u = false ∧ WellFormed (v :: rest)

def byte (n : ℕ) : Byte := Fin.ofNat 256 n

def unit (n : ℕ) : CodeUnit := Fin.ofNat 65536 n

@[simp] theorem byte_val {n : ℕ} (h : n < 256) : (byte n).val = n := Nat.mod_eq_of_lt h

@[simp] theorem unit_val {n : ℕ} (h : n < 65536) : (unit n).val = n := Nat.mod_eq_of_lt h

theorem unit_self (u : CodeUnit) : unit u.val = u := Fin.ext (unit_val u.isLt)

/-- UTF-8 of one code point. -/
def utf8Scalar (cp : ℕ) : List Byte :=
  if cp < 0x80 then [byte cp]
  else if cp < 0x800 then [byte (0xC0 + cp / 0x40), byte (0x80 + cp % 0x40)]
  else if cp < 0x10000 then
    [byte (0xE0 + cp / 0x1000), byte (0x80 + cp / 0x40 % 0x40), byte (0x80 + cp % 0x40)]
  else
    [byte (0xF0 + cp / 0x40000), byte (0x80 + cp / 0x1000 % 0x40),
      byte (0x80 + cp / 0x40 % 0x40), byte (0x80 + cp % 0x40)]

def pairScalar (u v : CodeUnit) : ℕ := 0x10000 + (u.val - 0xD800) * 0x400 + (v.val - 0xDC00)

def replacement : List Byte := [byte 0xEF, byte 0xBF, byte 0xBD]

/-- `TextEncoder.encode`, and `Buffer.from` with the encoding `utf8`. -/
def utf8Encode : JsString → List Byte
  | [] => []
  | [u] => if isHighSurrogate u || isLowSurrogate u then replacement else utf8Scalar u.val
  | u :: v :: rest =>
    if isHighSurrogate u then
      if isLowSurrogate v then utf8Scalar (pairScalar u v) ++ utf8Encode rest
      else replacement ++ utf8Encode (v :: rest)
    else if isLowSurrogate u then replacement ++ utf8Encode (v :: rest)
    else utf8Scalar u.val ++ utf8Encode (v :: rest)

def isContinuation (b : Byte) : Bool := 0x80 ≤ b.val && b.val < 0xC0

def replacementUnit : CodeUnit := unit 0xFFFD

/-- Is `c` an admissible second byte after the lead byte `b`? -/
def isSecond (b c : Byte) : Bool :=
  isContinuation c &&
    (if b.val = 0xE0 then 0xA0 ≤ c.val
     else if b.val = 0xED then c.val < 0xA0
     else if b.val = 0xF0 then 0x90 ≤ c.val
     else if b.val = 0xF4 then c.val < 0x90
     else true)

/-- `TextDecoder.decode` after the byte-order mark, in replacement mode. -/
def utf8Decode : List Byte → JsString
  | [] => []
  | b :: rest =>
    if b.val < 0x80 then unit b.val :: utf8Decode rest
    else if b.val < 0xC2 then replacementUnit :: utf8Decode rest
    else if b.val < 0xE0 then
      match rest with
      | c :: tail =>
        if isContinuation c then
          unit ((b.val - 0xC0) * 0x40 + (c.val - 0x80)) :: utf8Decode tail
        else replacementUnit :: utf8Decode (c :: tail)
      | [] => [replacementUnit]
    else if b.val < 0xF0 then
      match rest with
      | c :: d :: tail =>
        if isSecond b c then
          if isContinuation d then
            unit ((b.val - 0xE0) * 0x1000 + (c.val - 0x80) * 0x40 + (d.val - 0x80)) :: utf8Decode tail
          else replacementUnit :: utf8Decode (d :: tail)
        else replacementUnit :: utf8Decode (c :: d :: tail)
      | [c] => if isSecond b c then [replacementUnit] else replacementUnit :: utf8Decode [c]
      | [] => [replacementUnit]
    else if b.val < 0xF5 then
      match rest with
      | c :: d :: e :: tail =>
        if isSecond b c then
          if isContinuation d then
            if isContinuation e then
              let cp := (b.val - 0xF0) * 0x40000 + (c.val - 0x80) * 0x1000 +
                (d.val - 0x80) * 0x40 + (e.val - 0x80)
              unit (0xD800 + (cp - 0x10000) / 0x400) :: unit (0xDC00 + (cp - 0x10000) % 0x400) ::
                utf8Decode tail
            else replacementUnit :: utf8Decode (e :: tail)
          else replacementUnit :: utf8Decode (d :: e :: tail)
        else replacementUnit :: utf8Decode (c :: d :: e :: tail)
      | [c, d] =>
        if isSecond b c then
          if isContinuation d then [replacementUnit] else replacementUnit :: utf8Decode [d]
        else replacementUnit :: utf8Decode [c, d]
      | [c] => if isSecond b c then [replacementUnit] else replacementUnit :: utf8Decode [c]
      | [] => [replacementUnit]
    else replacementUnit :: utf8Decode rest

/-- `new TextDecoder().decode(bytes)`: a leading byte-order mark is dropped. -/
def textDecode : List Byte → JsString
  | b :: c :: d :: rest =>
    if b.val = 0xEF ∧ c.val = 0xBB ∧ d.val = 0xBF then utf8Decode rest
    else utf8Decode (b :: c :: d :: rest)
  | bytes => utf8Decode bytes

theorem utf8Decode_scalar {cp : ℕ} (h : cp < 0x10000) (hs : ¬ (0xD800 ≤ cp ∧ cp < 0xE000))
    (rest : List Byte) : utf8Decode (utf8Scalar cp ++ rest) = unit cp :: utf8Decode rest := by
  unfold utf8Scalar
  by_cases h1 : cp < 0x80
  · have hb : (byte cp).val = cp := byte_val (by omega)
    simp only [h1, if_true, List.cons_append, List.nil_append]
    rw [utf8Decode.eq_def]
    simp only [hb, h1, if_true]
  · by_cases h2 : cp < 0x800
    · have hb : (byte (0xC0 + cp / 0x40)).val = 0xC0 + cp / 0x40 := byte_val (by omega)
      have hc : (byte (0x80 + cp % 0x40)).val = 0x80 + cp % 0x40 := byte_val (by omega)
      have e1 : ¬ 0xC0 + cp / 0x40 < 0x80 := by omega
      have e2 : ¬ 0xC0 + cp / 0x40 < 0xC2 := by omega
      have e3 : 0xC0 + cp / 0x40 < 0xE0 := by omega
      have e4 : isContinuation (byte (0x80 + cp % 0x40)) = true := by
        simp only [isContinuation, hc, Bool.and_eq_true, decide_eq_true_eq]
        omega
      have e5 : (0xC0 + cp / 0x40 - 0xC0) * 0x40 + (0x80 + cp % 0x40 - 0x80) = cp := by omega
      simp only [h1, h2, if_false, if_true, List.cons_append, List.nil_append]
      rw [utf8Decode]
      simp only [hb, hc, e1, e2, e3, e4, e5, if_false, if_true]
    · have hb : (byte (0xE0 + cp / 0x1000)).val = 0xE0 + cp / 0x1000 := byte_val (by omega)
      have hc : (byte (0x80 + cp / 0x40 % 0x40)).val = 0x80 + cp / 0x40 % 0x40 :=
        byte_val (by omega)
      have hd : (byte (0x80 + cp % 0x40)).val = 0x80 + cp % 0x40 := byte_val (by omega)
      have e1 : ¬ 0xE0 + cp / 0x1000 < 0x80 := by omega
      have e2 : ¬ 0xE0 + cp / 0x1000 < 0xC2 := by omega
      have e3 : ¬ 0xE0 + cp / 0x1000 < 0xE0 := by omega
      have e4 : 0xE0 + cp / 0x1000 < 0xF0 := by omega
      have e5 : isSecond (byte (0xE0 + cp / 0x1000)) (byte (0x80 + cp / 0x40 % 0x40)) = true := by
        simp only [isSecond, isContinuation, hb, hc, Bool.and_eq_true, decide_eq_true_eq]
        refine ⟨by omega, ?_⟩
        split_ifs <;> simp <;> omega
      have e6 : isContinuation (byte (0x80 + cp % 0x40)) = true := by
        simp only [isContinuation, hd, Bool.and_eq_true, decide_eq_true_eq]
        omega
      have e7 : (0xE0 + cp / 0x1000 - 0xE0) * 0x1000 + (0x80 + cp / 0x40 % 0x40 - 0x80) * 0x40 +
          (0x80 + cp % 0x40 - 0x80) = cp := by omega
      simp only [h1, h2, h, if_false, if_true, List.cons_append, List.nil_append]
      rw [utf8Decode]
      simp only [hb, hc, hd, e1, e2, e3, e4, e5, e6, e7, if_false, if_true]

theorem utf8Decode_pair {u v : CodeUnit} (hu : isHighSurrogate u = true)
    (hv : isLowSurrogate v = true) (rest : List Byte) :
    utf8Decode (utf8Scalar (pairScalar u v) ++ rest) = u :: v :: utf8Decode rest := by
  simp only [isHighSurrogate, isLowSurrogate, Bool.and_eq_true, decide_eq_true_eq] at hu hv
  obtain ⟨cp, hcp⟩ : ∃ cp, cp = pairScalar u v := ⟨_, rfl⟩
  have hp : cp = 0x10000 + (u.val - 0xD800) * 0x400 + (v.val - 0xDC00) := hcp
  rw [← hcp]
  have h1 : ¬ cp < 0x80 := by omega
  have h2 : ¬ cp < 0x800 := by omega
  have h3 : ¬ cp < 0x10000 := by omega
  have h4 : cp < 0x110000 := by omega
  have hb : (byte (0xF0 + cp / 0x40000)).val = 0xF0 + cp / 0x40000 := byte_val (by omega)
  have hc : (byte (0x80 + cp / 0x1000 % 0x40)).val = 0x80 + cp / 0x1000 % 0x40 :=
    byte_val (by omega)
  have hd : (byte (0x80 + cp / 0x40 % 0x40)).val = 0x80 + cp / 0x40 % 0x40 := byte_val (by omega)
  have he : (byte (0x80 + cp % 0x40)).val = 0x80 + cp % 0x40 := byte_val (by omega)
  have e1 : ¬ 0xF0 + cp / 0x40000 < 0x80 := by omega
  have e2 : ¬ 0xF0 + cp / 0x40000 < 0xC2 := by omega
  have e3 : ¬ 0xF0 + cp / 0x40000 < 0xE0 := by omega
  have e4 : ¬ 0xF0 + cp / 0x40000 < 0xF0 := by omega
  have e5 : 0xF0 + cp / 0x40000 < 0xF5 := by omega
  have e6 : isSecond (byte (0xF0 + cp / 0x40000)) (byte (0x80 + cp / 0x1000 % 0x40)) = true := by
    simp only [isSecond, isContinuation, hb, hc, Bool.and_eq_true, decide_eq_true_eq]
    refine ⟨by omega, ?_⟩
    split_ifs <;> simp <;> omega
  have e7 : isContinuation (byte (0x80 + cp / 0x40 % 0x40)) = true := by
    simp only [isContinuation, hd, Bool.and_eq_true, decide_eq_true_eq]
    omega
  have e8 : isContinuation (byte (0x80 + cp % 0x40)) = true := by
    simp only [isContinuation, he, Bool.and_eq_true, decide_eq_true_eq]
    omega
  have e9 : (0xF0 + cp / 0x40000 - 0xF0) * 0x40000 + (0x80 + cp / 0x1000 % 0x40 - 0x80) * 0x1000 +
      (0x80 + cp / 0x40 % 0x40 - 0x80) * 0x40 + (0x80 + cp % 0x40 - 0x80) = cp := by omega
  have eu : 0xD800 + (cp - 0x10000) / 0x400 = u.val := by omega
  have ev : 0xDC00 + (cp - 0x10000) % 0x400 = v.val := by omega
  simp only [utf8Scalar, h1, h2, h3, if_false, List.cons_append, List.nil_append]
  rw [utf8Decode]
  simp only [hb, hc, hd, he, e1, e2, e3, e4, e5, e6, e7, e8, e9, if_false, if_true, eu, ev, unit_self]

theorem not_surrogate {u : CodeUnit} (hu : isHighSurrogate u = false)
    (hl : isLowSurrogate u = false) : ¬ (0xD800 ≤ u.val ∧ u.val < 0xE000) := by
  simp only [isHighSurrogate, isLowSurrogate, Bool.and_eq_false_iff, decide_eq_false_iff_not] at hu hl
  omega

theorem utf8Decode_encode {s : JsString} (h : WellFormed s) : utf8Decode (utf8Encode s) = s := by
  induction s using WellFormed.induct with
  | case1 => rfl
  | case2 u =>
    obtain ⟨hu, hl⟩ := h
    have hh := utf8Decode_scalar u.isLt (not_surrogate hu hl) []
    simpa [utf8Encode, hu, hl, utf8Decode, unit_self] using hh
  | case3 u v rest hu ih =>
    simp only [WellFormed, hu, if_true] at h
    simp only [utf8Encode, hu, h.1, if_true, utf8Decode_pair hu h.1, ih h.2]
  | case4 u v rest hu ih =>
    have hu' : isHighSurrogate u = false := by simpa using hu
    simp only [WellFormed, hu', Bool.false_eq_true, if_false] at h
    simp only [utf8Encode, hu', h.1, Bool.false_eq_true, if_false,
      utf8Decode_scalar u.isLt (not_surrogate hu' h.1), ih h.2, unit_self]

/-- Distinct well-formed texts have distinct UTF-8 encodings. -/
theorem utf8Encode_inj {s t : JsString} (hs : WellFormed s) (ht : WellFormed t)
    (h : utf8Encode s = utf8Encode t) : s = t := by
  rw [← utf8Decode_encode hs, ← utf8Decode_encode ht, h]

end Js
