import OxDeAI.Crypto.Edwards25519
import OxDeAI.Crypto.Keys
import OxDeAI.Js.JsonRoundTrip

/-! The table of small-order keys against the curve: it lists the encodings of the points
whose eightfold is the identity, and no others. -/

namespace OxDeAI

open Js TwistedEdwards Edwards25519

theorem hexDecode_hexEncode (bytes : List Byte) : hexDecode (hexEncode bytes) = bytes := by
  induction bytes with
  | nil => rfl
  | cons b bytes ih =>
    have hdigit : ∀ {n : ℕ}, n < 16 → hexValue? (lowByte (hexDigit n)) = some n := by
      intro n hn
      rw [lowByte_hexDigit hn, hexValue?_hexDigit hn]
    have hhigh := hdigit (n := b.val / 16) (by omega)
    have hlow := hdigit (n := b.val % 16) (by omega)
    have hbyte : byte (16 * (b.val / 16) + b.val % 16) = b := byte_self (by omega)
    simp only [hexEncode] at ih
    simp only [hexEncode, List.flatMap_cons, List.cons_append, List.nil_append, hexDecode, hhigh, hlow,
      hbyte, ih]

theorem hexEncode_inj {a b : List Byte} (h : hexEncode a = hexEncode b) : a = b := by
  have hdecode := congrArg hexDecode h
  rwa [hexDecode_hexEncode, hexDecode_hexEncode] at hdecode

/-- The `y` of the points of order eight is this or its negative. -/
def orderEightY : ℕ :=
  2707385501144840649318225287225658788936804267575313519463743609750303402022

theorem orderEightY_root :
    curve.d * (orderEightY : FieldElement) ^ 4 + 2 * (orderEightY : FieldElement) ^ 2 = 1 := by
  have h : ((coefficientNat * orderEightY ^ 4 + 2 * orderEightY ^ 2 + (fieldPrime - 1) : ℕ) :
      FieldElement) = 0 := natCast_eq_zero (by norm_num [coefficientNat, orderEightY, fieldPrime])
  have hminus : ((fieldPrime - 1 : ℕ) : FieldElement) = -1 := by
    have hsum : ((fieldPrime - 1 + 1 : ℕ) : FieldElement) = 0 := natCast_eq_zero (by norm_num [fieldPrime])
    push_cast at hsum
    linear_combination hsum
  rw [Nat.cast_add, hminus] at h
  push_cast at h
  rw [show curve.d = coefficientNat from coefficient_eq]
  linear_combination h

/-- The numbers below `2 ^ 255` that stand for the `y` of a small-order point. -/
def smallOrderResidues : List ℕ :=
  [0, 1, orderEightY, fieldPrime - orderEightY, fieldPrime - 1, fieldPrime, fieldPrime + 1]

def wireNumbers : List ℕ :=
  smallOrderResidues.flatMap (fun y => [y, 2 ^ 255 + y])

/-- The lowest `k` bytes, little-endian. -/
def lowBytes : ℕ → ℕ → List Byte
  | 0, _ => []
  | k + 1, n => byte n :: lowBytes k (n / 256)

def wireBytes (n : ℕ) : List Byte :=
  lowBytes 32 n

theorem length_lowBytes (k n : ℕ) : (lowBytes k n).length = k := by
  induction k generalizing n with
  | zero => rfl
  | succ k ih => rw [lowBytes, List.length_cons, ih]

theorem leNat_lowBytes (k n : ℕ) : leNat (lowBytes k n) = n % 256 ^ k := by
  induction k generalizing n with
  | zero =>
    rw [pow_zero, Nat.mod_one]
    rfl
  | succ k ih =>
    have hrest := ih (n / 256)
    have hbyte : (byte n).val = n % 256 := rfl
    simp only [leNat] at hrest
    rw [leNat, lowBytes, List.map_cons, Nat.ofDigits_cons, hrest, hbyte, pow_succ', Nat.mod_mul]

theorem length_wireBytes (n : ℕ) : (wireBytes n).length = 32 :=
  length_lowBytes 32 n

theorem leNat_wireBytes {n : ℕ} (h : n < 256 ^ 32) : leNat (wireBytes n) = n := by
  rw [wireBytes, leNat_lowBytes, Nat.mod_eq_of_lt h]

theorem wireNumbers_lt : ∀ n ∈ wireNumbers, n < 256 ^ 32 := by decide

theorem smallOrderEd25519_eq :
    smallOrderEd25519 = wireNumbers.map (fun n => hexEncode (wireBytes n)) := by
  simp only [smallOrderEd25519, js, String.reduceToList]
  decide +kernel

theorem mem_smallOrderEd25519_iff {bytes : List Byte} (hlen : bytes.length = 32) :
    hexEncode bytes ∈ smallOrderEd25519 ↔ leNat bytes ∈ wireNumbers := by
  rw [smallOrderEd25519_eq, List.mem_map]
  constructor
  · intro h
    obtain ⟨n, hn, heq⟩ := h
    rw [← hexEncode_inj heq, leNat_wireBytes (wireNumbers_lt n hn)]
    exact hn
  · intro h
    refine ⟨leNat bytes, h, ?_⟩
    have heq : wireBytes (leNat bytes) = bytes :=
      leNat_inj (by rw [length_wireBytes, hlen]) (leNat_wireBytes (wireNumbers_lt _ h))
    rw [heq]

theorem isUsableKey_of_number {key : PublicKey} {raw : List Byte} (hkey : key.jwkX = some raw) (hlen : raw.length = 32)
    (hnumber : leNat raw ∉ wireNumbers) : isUsableKey key = true := by
  have hmem : hexEncode raw ∉ smallOrderEd25519 := fun h => hnumber ((mem_smallOrderEd25519_iff hlen).mp h)
  simp [isUsableKey, ed25519WireHex, hkey, hlen, hmem]

theorem neg_eq_sub {c : ℕ} (h : c < fieldPrime) : -(c : FieldElement) = ((fieldPrime - c : ℕ) : FieldElement) := by
  have hzero : ((fieldPrime - c + c : ℕ) : FieldElement) = 0 := by
    rw [Nat.sub_add_cancel (by omega)]
    exact natCast_eq_zero (Nat.mod_self _)
  push_cast at hzero
  linear_combination -hzero

theorem natCast_mem_smallOrderY_iff {n : ℕ} (hn : n < 2 ^ 255) :
    (n : FieldElement) ∈ smallOrderY (orderEightY : FieldElement) ↔ n ∈ smallOrderResidues := by
  have hone : (1 : FieldElement) = ((1 : ℕ) : FieldElement) := by rw [Nat.cast_one]
  have hzero : (0 : FieldElement) = ((0 : ℕ) : FieldElement) := by rw [Nat.cast_zero]
  have height : orderEightY < fieldPrime := by norm_num [orderEightY, fieldPrime]
  have hp : 1 < fieldPrime := by norm_num [fieldPrime]
  simp only [smallOrderY, smallOrderResidues, List.mem_cons, List.not_mem_nil, or_false, hone, hzero,
    neg_eq_sub height, neg_eq_sub hp]
  rw [natCast_eq_iff hn (by omega), natCast_eq_iff hn hp, natCast_eq_iff hn height,
    natCast_eq_iff hn (by simp only [orderEightY]; omega), natCast_eq_iff hn (by omega)]
  simp only [fieldPrime, orderEightY] at hn ⊢
  omega

theorem mod_mem_smallOrderResidues_iff {n : ℕ} (hn : n < 2 ^ 256) :
    n % 2 ^ 255 ∈ smallOrderResidues ↔ n ∈ wireNumbers := by
  have hsmall : ∀ y ∈ smallOrderResidues, y < 2 ^ 255 := by decide
  simp only [wireNumbers, List.mem_flatMap, List.mem_cons, List.not_mem_nil, or_false]
  constructor
  · intro h
    refine ⟨n % 2 ^ 255, h, ?_⟩
    omega
  · intro h
    obtain ⟨y, hy, heq⟩ := h
    have hlt := hsmall y hy
    have hmod : n % 2 ^ 255 = y := by omega
    rw [hmod]
    exact hy

/-- A 32-byte encoding is in the table when its `y` is that of a small-order point. -/
theorem mem_smallOrderEd25519_iff_encodedY {bytes : List Byte} (hlen : bytes.length = 32) :
    hexEncode bytes ∈ smallOrderEd25519 ↔
      encodedY bytes ∈ smallOrderY (orderEightY : FieldElement) := by
  have hlt := leNat_lt bytes
  rw [hlen] at hlt
  have h256 : leNat bytes < 2 ^ 256 := by omega
  rw [mem_smallOrderEd25519_iff hlen, encodedY,
    natCast_mem_smallOrderY_iff (Nat.mod_lt _ (by decide)), mod_mem_smallOrderResidues_iff h256]

section

variable {decode : List Byte → Option EdwardsPoint}

theorem exists_eightfold_iff (hdecode : Decodes decode) {bytes : List Byte} (hlen : bytes.length = 32) :
    (∃ P, decode bytes = some P ∧ eightfold P = 0) ↔
      encodedY bytes ∈ smallOrderY (orderEightY : FieldElement) := by
  constructor
  · intro h
    obtain ⟨P, hP, hzero⟩ := h
    rw [eightfold_eq_zero_iff_mem orderEightY_root, hdecode.sound hlen hP] at hzero
    exact hzero
  · intro h
    obtain ⟨P, hP⟩ := exists_point_of_mem orderEightY_root h
    obtain ⟨Q, hQ⟩ := hdecode.complete hlen hP
    refine ⟨Q, hQ, ?_⟩
    rw [eightfold_eq_zero_iff_mem orderEightY_root, hdecode.sound hlen hQ]
    exact h

theorem smallOrder_table_exact (hdecode : Decodes decode) (bytes : List Byte)
    (hlen : bytes.length = 32) :
    (∃ P, decode bytes = some P ∧ eightfold P = 0) ↔ hexEncode bytes ∈ smallOrderEd25519 := by
  rw [mem_smallOrderEd25519_iff_encodedY hlen]
  exact exists_eightfold_iff hdecode hlen

/-- The encoding of `y = p`, under the sign bit, is no canonical one: `[8]` of its point is the
identity all the same. -/
theorem smallOrder_table_exact_unreduced :
    (∃ P, decodePoint (wireBytes (2 ^ 255 + fieldPrime)) = some P ∧ eightfold P = 0) ↔
      hexEncode (wireBytes (2 ^ 255 + fieldPrime)) ∈ smallOrderEd25519 :=
  smallOrder_table_exact decodePoint_decodes _ (length_wireBytes _)

/-- A key of 32 bytes is refused exactly when it has small order. -/
theorem isUsableKey_iff (hdecode : Decodes decode) {key : PublicKey} {bytes : List Byte}
    (hkey : key.jwkX = some bytes) (hlen : bytes.length = 32) :
    isUsableKey key = true ↔ ∀ P, decode bytes = some P → eightfold P ≠ 0 := by
  have hmem := mem_smallOrderEd25519_iff_encodedY hlen
  rw [← exists_eightfold_iff hdecode hlen] at hmem
  simp only [isUsableKey, ed25519WireHex, hkey, hlen, if_true, Bool.not_eq_true',
    List.contains_eq_mem, decide_eq_false_iff_not, hmem]
  simp only [not_exists, not_and, ne_eq]

end

end OxDeAI
