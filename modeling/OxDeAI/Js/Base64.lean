import OxDeAI.Js.Text

/-! Base64 in both alphabets. The decoder of the host reads either alphabet up to the
first padding and skips whatever belongs to neither. -/

namespace Js

/-- Of a code unit the decoders of bytes read the low byte. -/
def lowByte (u : CodeUnit) : CodeUnit := unit (u.val % 256)

theorem lowByte_self {u : CodeUnit} (h : u.val < 256) : lowByte u = u := by
  apply Fin.ext
  rw [lowByte, unit_val (by omega), Nat.mod_eq_of_lt h]

def sextet? (u : CodeUnit) : Option ℕ :=
  if 65 ≤ u.val ∧ u.val ≤ 90 then some (u.val - 65)
  else if 97 ≤ u.val ∧ u.val ≤ 122 then some (u.val - 71)
  else if 48 ≤ u.val ∧ u.val ≤ 57 then some (u.val + 4)
  else if u.val = 43 ∨ u.val = 45 then some 62
  else if u.val = 47 ∨ u.val = 95 then some 63
  else none

/-- Whole bytes of a run of sextets; the bits left over are dropped. -/
def sextetBytes : List ℕ → List Byte
  | a :: b :: c :: d :: rest =>
    byte (a * 4 + b / 16) :: byte (b % 16 * 16 + c / 4) :: byte (c % 4 * 64 + d) :: sextetBytes rest
  | [a, b, c] => [byte (a * 4 + b / 16), byte (b % 16 * 16 + c / 4)]
  | [a, b] => [byte (a * 4 + b / 16)]
  | _ => []

/-- The sextets before the first `=`. -/
def sextets (s : JsString) : List ℕ :=
  ((s.map lowByte).takeWhile (fun u => u.val ≠ 61)).filterMap sextet?

/-- `Buffer.from(s, "base64")`, and the same with `"base64url"`. -/
def base64Decode (s : JsString) : List Byte := sextetBytes (sextets s)

def alphabetUnit (last : CodeUnit × CodeUnit) (n : ℕ) : CodeUnit :=
  if n < 26 then unit (65 + n)
  else if n < 52 then unit (71 + n)
  else if n < 62 then unit (n - 4)
  else if n = 62 then last.1 else last.2

section

variable (last : CodeUnit × CodeUnit) (pad : JsString)

def base64With : List Byte → JsString
  | a :: b :: c :: rest =>
    alphabetUnit last (a.val / 4) :: alphabetUnit last (a.val % 4 * 16 + b.val / 16) ::
      alphabetUnit last (b.val % 16 * 4 + c.val / 64) :: alphabetUnit last (c.val % 64) :: base64With rest
  | [a, b] =>
    alphabetUnit last (a.val / 4) :: alphabetUnit last (a.val % 4 * 16 + b.val / 16) ::
      alphabetUnit last (b.val % 16 * 4) :: pad
  | [a] => alphabetUnit last (a.val / 4) :: alphabetUnit last (a.val % 4 * 16) :: pad ++ pad
  | [] => []

end

/-- `buffer.toString("base64")`. -/
def base64Encode : List Byte → JsString := base64With (unit 43, unit 47) [unit 61]

/-- `buffer.toString("base64url")`, without padding. -/
def base64UrlEncode : List Byte → JsString := base64With (unit 45, unit 95) []

theorem sextet?_alphabetUnit {last : CodeUnit × CodeUnit} (h₁ : sextet? last.1 = some 62)
    (h₂ : sextet? last.2 = some 63) {n : ℕ} (hn : n < 64) : sextet? (alphabetUnit last n) = some n := by
  unfold alphabetUnit
  by_cases h26 : n < 26
  · rw [if_pos h26, sextet?, unit_val (by omega), if_pos (by omega)]
    congr 1
    omega
  · rw [if_neg h26]
    by_cases h52 : n < 52
    · rw [if_pos h52, sextet?, unit_val (by omega), if_neg (by omega), if_pos (by omega)]
      congr 1
      omega
    · rw [if_neg h52]
      by_cases h62 : n < 62
      · rw [if_pos h62, sextet?, unit_val (by omega), if_neg (by omega), if_neg (by omega),
          if_pos (by omega)]
        congr 1
        omega
      · rw [if_neg h62]
        by_cases heq : n = 62
        · rw [if_pos heq, h₁, heq]
        · rw [if_neg heq, h₂]
          congr 1
          omega

theorem byte_self {n : ℕ} {b : Byte} (h : n = b.val) : byte n = b := by
  apply Fin.ext
  rw [byte_val (by omega), h]

theorem sextet?_bound {u : CodeUnit} {n : ℕ} (h : sextet? u = some n) : u.val < 256 ∧ u.val ≠ 61 := by
  unfold sextet? at h
  split at h
  · omega
  · split at h
    · omega
    · split at h
      · omega
      · split at h
        · omega
        · split at h
          · omega
          · cases h

theorem sextets_cons {u : CodeUnit} {n : ℕ} (h : sextet? u = some n) (s : JsString) :
    sextets (u :: s) = n :: sextets s := by
  obtain ⟨hlow, hpad⟩ := sextet?_bound h
  have hself : lowByte u = u := lowByte_self hlow
  rw [sextets, List.map_cons, hself, List.takeWhile_cons_of_pos (by simpa using hpad), List.filterMap_cons_some h]
  rfl

theorem base64Decode_base64With {last : CodeUnit × CodeUnit} (h₁ : sextet? last.1 = some 62)
    (h₂ : sextet? last.2 = some 63) {pad : JsString} (hpad : sextets pad = []) (hpads : sextets (pad ++ pad) = [])
    (bytes : List Byte) : base64Decode (base64With last pad bytes) = bytes := by
  have hs : ∀ {n : ℕ}, n < 64 → sextet? (alphabetUnit last n) = some n :=
    fun hn => sextet?_alphabetUnit h₁ h₂ hn
  unfold base64Decode
  induction bytes using base64With.induct with
  | case1 a b c rest ih =>
    rw [base64With, sextets_cons (hs (by omega)), sextets_cons (hs (by omega)), sextets_cons (hs (by omega)),
      sextets_cons (hs (by omega)), sextetBytes, ih]
    rw [byte_self (b := a) (by omega), byte_self (b := b) (by omega), byte_self (b := c) (by omega)]
  | case2 a b =>
    rw [base64With, sextets_cons (hs (by omega)), sextets_cons (hs (by omega)), sextets_cons (hs (by omega)), hpad,
      sextetBytes]
    rw [byte_self (b := a) (by omega), byte_self (b := b) (by omega)]
  | case3 a =>
    rw [base64With, List.cons_append, List.cons_append, sextets_cons (hs (by omega)), sextets_cons (hs (by omega)),
      hpads, sextetBytes]
    rw [byte_self (b := a) (by omega)]
  | case4 => rfl

theorem base64Decode_encode (bytes : List Byte) : base64Decode (base64Encode bytes) = bytes :=
  base64Decode_base64With (by decide) (by decide) (by decide) (by decide) bytes

theorem base64Decode_urlEncode (bytes : List Byte) : base64Decode (base64UrlEncode bytes) = bytes :=
  base64Decode_base64With (by decide) (by decide) (by decide) (by decide) bytes

end Js
