import Mathlib.NumberTheory.LegendreSymbol.Basic
import OxDeAI.Js.Text
import OxDeAI.Lib.LucasTest
import OxDeAI.Lib.TwistedEdwards

/-! The curve of Ed25519 and the encodings of its points: `y` in 255 bits, little-endian and
not necessarily reduced, under one bit for the sign of `x`. -/

namespace OxDeAI.Edwards25519

open Js LucasTest TwistedEdwards

def fieldPrime : ℕ := 2 ^ 255 - 19

/-- The large factor of `2 ^ 255 - 20`. -/
def largeFactor : ℕ := 74058212732561358302231226437062788676166966415465897661863160754340907

-- one evaluation for the prime and the large primes below it
theorem passes_primes :
    passes 2773320623 5 [2, 2437, 569003] = true ∧
    passes 72106336199 7 [2, 13, 2773320623] = true ∧
    passes 1919519569386763 2 [2, 3, 7, 19, 47, 47, 127, 8574133] = true ∧
    passes 75445702479781427272750846543864801 7
      [2, 2, 2, 2, 2, 3, 3, 5, 5, 75707, 72106336199, 1919519569386763] = true ∧
    passes 31757755568855353 10 [2, 2, 2, 3, 31, 107, 223, 4153, 430751] = true ∧
    passes largeFactor 2 [2, 3, 353, 57467, 132049, 1923133, 31757755568855353,
      75445702479781427272750846543864801] = true ∧
    passes fieldPrime 2 [2, 2, 3, 65147, largeFactor] = true := by
  decide +kernel

theorem prime_2773320623 : Nat.Prime 2773320623 :=
  prime_of_passes 5 [2, 2437, 569003] (by norm_num) passes_primes.1

theorem prime_72106336199 : Nat.Prime 72106336199 := by
  apply prime_of_passes 7 [2, 13, 2773320623]
  · simp only [List.forall_mem_cons, prime_2773320623]
    norm_num
  · exact passes_primes.2.1

theorem prime_1919519569386763 : Nat.Prime 1919519569386763 :=
  prime_of_passes 2 [2, 3, 7, 19, 47, 47, 127, 8574133] (by norm_num) passes_primes.2.2.1

theorem prime_75445702479781427272750846543864801 :
    Nat.Prime 75445702479781427272750846543864801 := by
  apply prime_of_passes 7 [2, 2, 2, 2, 2, 3, 3, 5, 5, 75707, 72106336199, 1919519569386763]
  · simp only [List.forall_mem_cons, prime_72106336199, prime_1919519569386763]
    norm_num
  · exact passes_primes.2.2.2.1

theorem prime_31757755568855353 : Nat.Prime 31757755568855353 :=
  prime_of_passes 10 [2, 2, 2, 3, 31, 107, 223, 4153, 430751] (by norm_num) passes_primes.2.2.2.2.1

theorem prime_largeFactor : largeFactor.Prime := by
  apply prime_of_passes 2 [2, 3, 353, 57467, 132049, 1923133, 31757755568855353,
    75445702479781427272750846543864801]
  · simp only [List.forall_mem_cons, prime_31757755568855353,
      prime_75445702479781427272750846543864801]
    norm_num
  · exact passes_primes.2.2.2.2.2.1

theorem prime_fieldPrime : fieldPrime.Prime := by
  apply prime_of_passes 2 [2, 2, 3, 65147, largeFactor]
  · simp only [List.forall_mem_cons, prime_largeFactor]
    norm_num
  · exact passes_primes.2.2.2.2.2.2

instance : Fact fieldPrime.Prime := ⟨prime_fieldPrime⟩

abbrev FieldElement := ZMod fieldPrime

theorem natCast_eq_zero {n : ℕ} (h : n % fieldPrime = 0) : (n : FieldElement) = 0 :=
  (ZMod.natCast_eq_zero_iff n fieldPrime).mpr (Nat.dvd_of_mod_eq_zero h)

/-- A residue has one or two representatives in 255 bits. -/
theorem natCast_eq_iff {n c : ℕ} (hn : n < 2 ^ 255) (hc : c < fieldPrime) :
    (n : FieldElement) = c ↔ n = c ∨ n = fieldPrime + c := by
  rw [ZMod.natCast_eq_natCast_iff', Nat.mod_eq_of_lt hc]
  simp only [fieldPrime] at hc ⊢
  omega

/-- A root of `-1`. -/
def rootNat : ℕ :=
  19681161376707505956807079304988542015446066515923890162744021073123829784752

theorem root_sq : (rootNat : FieldElement) ^ 2 = -1 := by
  have h : ((rootNat ^ 2 + 1 : ℕ) : FieldElement) = 0 := natCast_eq_zero (by norm_num [rootNat, fieldPrime])
  push_cast at h
  linear_combination h

theorem two_ne_zero_field : (2 : FieldElement) ≠ 0 := by
  intro h
  have hdvd := (ZMod.natCast_eq_zero_iff 2 fieldPrime).mp h
  exact absurd (Nat.le_of_dvd (by decide) hdvd) (by norm_num [fieldPrime])

/-- The coefficient `-121665 / 121666`, reduced. -/
def coefficientNat : ℕ :=
  37095705934669439343138083508754565189542113879843219016388785533085940283555

theorem coefficient_eq : (-121665 / 121666 : FieldElement) = coefficientNat := by
  have h : ((coefficientNat * 121666 + 121665 : ℕ) : FieldElement) = 0 :=
    natCast_eq_zero (by norm_num [coefficientNat, fieldPrime])
  have hne : (121666 : FieldElement) ≠ 0 := by
    intro h0
    have hdvd := (ZMod.natCast_eq_zero_iff 121666 fieldPrime).mp h0
    exact absurd (Nat.le_of_dvd (by decide) hdvd) (by norm_num [fieldPrime])
  rw [div_eq_iff hne]
  push_cast at h
  linear_combination -h

theorem not_isSquare_coefficient : ¬ IsSquare (-121665 / 121666 : FieldElement) := by
  rw [coefficient_eq]
  have hne : (coefficientNat : FieldElement) ≠ 0 := by
    intro h0
    have hmod := (ZMod.natCast_eq_zero_iff coefficientNat fieldPrime).mp h0
    exact absurd (Nat.mod_eq_zero_of_dvd hmod) (by norm_num [coefficientNat, fieldPrime])
  rw [ZMod.euler_criterion fieldPrime hne, cast_pow_eq_one_iff (by norm_num [fieldPrime])]
  decide +kernel

def curve : Curve FieldElement where
  d := -121665 / 121666
  two_ne_zero := two_ne_zero_field
  isSquare_neg_one := ⟨rootNat, by rw [← root_sq, pow_two]⟩
  not_isSquare := not_isSquare_coefficient

abbrev EdwardsPoint := Point curve

/-- Little-endian. -/
def leNat (bytes : List Byte) : ℕ :=
  Nat.ofDigits 256 (bytes.map (fun b => b.val))

theorem leNat_lt (bytes : List Byte) : leNat bytes < 256 ^ bytes.length := by
  have h := Nat.ofDigits_lt_base_pow_length (b := 256) (l := bytes.map (fun b => b.val))
    (by decide) (by simp)
  rwa [List.length_map] at h

theorem leNat_inj {a b : List Byte} (hlen : a.length = b.length) (h : leNat a = leNat b) : a = b := by
  have hvals : a.map (fun x => x.val) = b.map (fun x => x.val) := by
    apply Nat.ofDigits_inj_of_len_eq (b := 256) (by decide) _ _ _ h
    · simp only [List.length_map, hlen]
    · simp
    · simp
  exact List.map_injective_iff.mpr Fin.val_injective hvals

def encodedY (bytes : List Byte) : FieldElement :=
  ((leNat bytes % 2 ^ 255 : ℕ) : FieldElement)

def signBit (bytes : List Byte) : ℕ :=
  leNat bytes / 2 ^ 255

/-- A library that decodes an encoding to a point with its `y` wherever the curve has one,
whichever the sign bit. -/
structure Decodes (decode : List Byte → Option EdwardsPoint) : Prop where
  sound : ∀ {bytes P}, bytes.length = 32 → decode bytes = some P → P.y = encodedY bytes
  complete : ∀ {bytes} {P : EdwardsPoint}, bytes.length = 32 → P.y = encodedY bytes →
    ∃ Q, decode bytes = some Q

def numerator (y : FieldElement) : FieldElement := y ^ 2 - 1

def denominator (y : FieldElement) : FieldElement := curve.d * y ^ 2 + 1

def candidateRoot (y : FieldElement) : FieldElement :=
  let u := numerator y
  let v := denominator y
  u * v ^ 3 * (u * v ^ 7) ^ ((fieldPrime - 5) / 8)

def root (y : FieldElement) : FieldElement :=
  if denominator y * candidateRoot y ^ 2 = numerator y then candidateRoot y
  else rootNat * candidateRoot y

def withSign (x : FieldElement) (sign : ℕ) : FieldElement :=
  if x.val % 2 = sign then x else -x

def decodePoint (bytes : List Byte) : Option EdwardsPoint :=
  let y := encodedY bytes
  let x := withSign (root y) (signBit bytes)
  if h : y ^ 2 - x ^ 2 = 1 + curve.d * x ^ 2 * y ^ 2 then some ⟨x, y, h⟩ else none

theorem withSign_sq (x : FieldElement) (sign : ℕ) : withSign x sign ^ 2 = x ^ 2 := by
  rw [withSign]
  split
  · rfl
  · rw [neg_sq]

theorem numerator_eq (P : EdwardsPoint) : denominator P.y * P.x ^ 2 = numerator P.y := by
  have h := P.onCurve
  rw [numerator, denominator]
  linear_combination -h

/-- The candidate is off by a factor whose square is one. -/
theorem candidateRoot_sq (y : FieldElement) :
    denominator y * candidateRoot y ^ 2 =
      numerator y * (numerator y * denominator y ^ 7) ^ ((fieldPrime - 1) / 4) := by
  have hexp : (fieldPrime - 1) / 4 = 1 + 2 * ((fieldPrime - 5) / 8) := by norm_num [fieldPrime]
  rw [hexp, pow_add, pow_mul', candidateRoot]
  ring

theorem factor_sq (P : EdwardsPoint) (hx : P.x ≠ 0) :
    ((numerator P.y * denominator P.y ^ 7) ^ ((fieldPrime - 1) / 4)) ^ 2 = 1 := by
  have hden : denominator P.y ≠ 0 := by
    intro h0
    rw [denominator] at h0
    exact sq_ne_neg_one_of_mul curve (a := P.y) (by linear_combination h0)
  have hsquare : numerator P.y * denominator P.y ^ 7 = (P.x * denominator P.y ^ 4) ^ 2 := by
    rw [← numerator_eq P]
    ring
  have hexp : 2 * ((fieldPrime - 1) / 4 * 2) = fieldPrime - 1 := by norm_num [fieldPrime]
  rw [hsquare, ← pow_mul, ← pow_mul, hexp]
  exact ZMod.pow_card_sub_one_eq_one (mul_ne_zero hx (pow_ne_zero 4 hden))

theorem root_sq_eq (P : EdwardsPoint) : denominator P.y * root P.y ^ 2 = numerator P.y := by
  have hcandidate := candidateRoot_sq P.y
  rw [root]
  split
  · assumption
  · rename_i hne
    by_cases hx : P.x = 0
    · have hzero : numerator P.y = 0 := by
        rw [← numerator_eq P, hx]
        ring
      rw [hzero, zero_mul] at hcandidate
      exact absurd (hcandidate.trans hzero.symm) hne
    · rcases sq_eq_one_iff.mp (factor_sq P hx) with hfactor | hfactor
      · rw [hfactor, mul_one] at hcandidate
        exact absurd hcandidate hne
      · rw [hfactor] at hcandidate
        linear_combination -hcandidate + denominator P.y * candidateRoot P.y ^ 2 * root_sq

theorem decodePoint_decodes : Decodes decodePoint where
  sound := by
    intro bytes P _ h
    simp only [decodePoint] at h
    split at h
    · obtain rfl := Option.some.inj h
      rfl
    · cases h
  complete := by
    intro bytes P _ hy
    have hroot := root_sq_eq P
    rw [hy, numerator, denominator, ← withSign_sq (root _) (signBit bytes)] at hroot
    simp only [decodePoint]
    rw [dif_pos (by linear_combination -hroot)]
    exact ⟨_, rfl⟩

end OxDeAI.Edwards25519
