import Mathlib.Algebra.Field.Basic
import Mathlib.Algebra.Group.Even
import Mathlib.Tactic.FieldSimp
import Mathlib.Tactic.LinearCombination
import Mathlib.Tactic.Ring

/-! Twisted Edwards curves `-x² + y² = 1 + d x² y²` over a field where `-1` is a square and
`d` is not: the addition law is complete, and the points of order dividing eight are those
with one of five values of `y`. -/

namespace TwistedEdwards

variable {K : Type*} [Field K]

structure Curve (K : Type*) [Field K] where
  d : K
  two_ne_zero : (2 : K) ≠ 0
  isSquare_neg_one : IsSquare (-1 : K)
  not_isSquare : ¬ IsSquare d

@[ext]
structure Point (C : Curve K) where
  x : K
  y : K
  onCurve : y ^ 2 - x ^ 2 = 1 + C.d * x ^ 2 * y ^ 2

variable {C : Curve K}

theorem Curve.not_isSquare_mul (C : Curve K) {a b : K} (ha : a ≠ 0) : C.d * a ^ 2 ≠ b ^ 2 := by
  intro h
  apply C.not_isSquare
  refine ⟨b / a, ?_⟩
  field_simp
  exact h

theorem Curve.exists_root (C : Curve K) : ∃ j : K, j ^ 2 = -1 := by
  obtain ⟨j, hj⟩ := C.isSquare_neg_one
  exact ⟨j, by rw [pow_two, ← hj]⟩

/-- The term that makes up both denominators of the sum. -/
def cross (P Q : Point C) : K :=
  C.d * P.x * Q.x * P.y * Q.y

theorem square_of_cross {P Q : Point C} (h : cross P Q ^ 2 = 1) {j : K} (hj : j ^ 2 = -1) :
    C.d * (P.x * P.y * (Q.y + j * Q.x)) ^ 2 = (P.y + cross P Q * j * P.x) ^ 2 := by
  have hP := P.onCurve
  have hQ := Q.onCurve
  simp only [cross] at h ⊢
  linear_combination (C.d * P.x ^ 2 * P.y ^ 2) * hQ - hP + (1 - P.x ^ 2 * j ^ 2) * h +
    (C.d * P.x ^ 2 * P.y ^ 2 * Q.x ^ 2 - P.x ^ 2) * hj

theorem cross_sq_ne_one (P Q : Point C) : cross P Q ^ 2 ≠ 1 := by
  intro h
  obtain ⟨j, hj⟩ := C.exists_root
  have hne : cross P Q ≠ 0 := by
    intro h0
    rw [h0] at h
    simp at h
  have hxy : P.x * P.y ≠ 0 ∧ Q.y ≠ 0 := by
    constructor <;> intro h0 <;> apply hne
    · rw [cross]
      linear_combination C.d * Q.x * Q.y * h0
    · rw [cross, h0, mul_zero]
  -- neither `y + jx` nor `y - jx` can vanish on the second point without the other
  have hvanish (k : K) (hk : k ^ 2 = -1) : Q.y + k * Q.x = 0 := by
    by_contra hsum
    exact C.not_isSquare_mul (mul_ne_zero hxy.1 hsum) (square_of_cross h hk)
  have hplus := hvanish j hj
  have hminus := hvanish (-j) (by rw [neg_sq, hj])
  have htwice : 2 * Q.y = 0 := by linear_combination hplus + hminus
  rcases mul_eq_zero.mp htwice with h0 | h0
  · exact C.two_ne_zero h0
  · exact hxy.2 h0

theorem one_add_cross_ne_zero (P Q : Point C) : 1 + cross P Q ≠ 0 := by
  intro h
  apply cross_sq_ne_one P Q
  linear_combination (cross P Q - 1) * h

theorem one_sub_cross_ne_zero (P Q : Point C) : 1 - cross P Q ≠ 0 := by
  intro h
  apply cross_sq_ne_one P Q
  linear_combination (-cross P Q - 1) * h

def sumX (P Q : Point C) : K :=
  P.x * Q.y + P.y * Q.x

def sumY (P Q : Point C) : K :=
  P.y * Q.y + P.x * Q.x

theorem sq_sumY_sub_sq_sumX (P Q : Point C) :
    sumY P Q ^ 2 - sumX P Q ^ 2 =
      (1 + C.d * P.x ^ 2 * P.y ^ 2) * (1 + C.d * Q.x ^ 2 * Q.y ^ 2) := by
  rw [← P.onCurve, ← Q.onCurve, sumX, sumY]
  ring

theorem sq_sum_squares (P : Point C) :
    (P.x ^ 2 + P.y ^ 2) ^ 2 = (1 + C.d * P.x ^ 2 * P.y ^ 2) ^ 2 + 4 * (P.x ^ 2 * P.y ^ 2) := by
  rw [← P.onCurve]
  ring

/-- The sum of two points is on the curve, its denominators cleared. -/
theorem sum_cleared (P Q : Point C) :
    (sumY P Q * (1 + cross P Q)) ^ 2 - (sumX P Q * (1 - cross P Q)) ^ 2 =
      (1 + cross P Q) ^ 2 * (1 - cross P Q) ^ 2 + C.d * sumX P Q ^ 2 * sumY P Q ^ 2 := by
  have hdiff := sq_sumY_sub_sq_sumX P Q
  have hP := sq_sum_squares P
  have hQ := sq_sum_squares Q
  simp only [cross, sumX, sumY] at hdiff ⊢
  linear_combination (1 + (C.d * P.x * Q.x * P.y * Q.y) ^ 2) * hdiff -
    C.d * (P.x * P.y) ^ 2 * hQ - C.d * (Q.x * Q.y) ^ 2 * hP

def add (P Q : Point C) : Point C where
  x := sumX P Q / (1 + cross P Q)
  y := sumY P Q / (1 - cross P Q)
  onCurve := by
    have hplus := one_add_cross_ne_zero P Q
    have hminus := one_sub_cross_ne_zero P Q
    have hcleared := sum_cleared P Q
    field_simp
    linear_combination hcleared

instance : Add (Point C) := ⟨add⟩

instance : Zero (Point C) := ⟨⟨0, 1, by ring⟩⟩

theorem add_x (P Q : Point C) : (P + Q).x = sumX P Q / (1 + cross P Q) := rfl

theorem add_y (P Q : Point C) : (P + Q).y = sumY P Q / (1 - cross P Q) := rfl

@[simp] theorem zero_x : (0 : Point C).x = 0 := rfl

@[simp] theorem zero_y : (0 : Point C).y = 1 := rfl

def double (P : Point C) : Point C :=
  P + P

/-- `[8]P`, as three doublings. -/
def eightfold (P : Point C) : Point C :=
  double (double (double P))

theorem sq_ne_neg_one_of_mul (C : Curve K) {a : K} : C.d * a ^ 2 ≠ -1 := by
  intro h
  obtain ⟨j, hj⟩ := C.exists_root
  by_cases ha : a = 0
  · rw [ha] at h
    simp at h
  · exact C.not_isSquare_mul ha (h.trans hj.symm)

theorem double_x_eq_zero_iff {P : Point C} : (double P).x = 0 ↔ P.x = 0 ∨ P.y = 0 := by
  rw [double, add_x, div_eq_zero_iff, or_iff_left (one_add_cross_ne_zero P P), sumX]
  have htwice : P.x * P.y + P.y * P.x = 2 * (P.x * P.y) := by ring
  rw [htwice, mul_eq_zero, or_iff_right C.two_ne_zero, mul_eq_zero]

theorem double_y_eq_zero_iff {P : Point C} : (double P).y = 0 ↔ P.x ^ 2 + P.y ^ 2 = 0 := by
  rw [double, add_y, div_eq_zero_iff, or_iff_left (one_sub_cross_ne_zero P P), sumY]
  have hsquares : P.y * P.y + P.x * P.x = P.x ^ 2 + P.y ^ 2 := by ring
  rw [hsquares]

theorem double_eq_zero_iff {P : Point C} : double P = 0 ↔ P.x = 0 := by
  constructor
  · intro h
    have hx : (double P).x = 0 := by rw [h, zero_x]
    have hy : (double P).y = 1 := by rw [h, zero_y]
    rcases double_x_eq_zero_iff.mp hx with h0 | h0
    · exact h0
    · have hcurve := P.onCurve
      rw [double, add_y, sumY, cross, h0] at hy
      rw [h0] at hcurve
      simp only [mul_zero, sub_zero, div_one, zero_add] at hy
      have htwo : (2 : K) = 0 := by linear_combination -hcurve - hy
      exact absurd htwo C.two_ne_zero
  · intro h
    have hcurve := P.onCurve
    rw [h] at hcurve
    ext
    · rw [double_x_eq_zero_iff.mpr (Or.inl h), zero_x]
    · rw [double, add_y, sumY, cross, h, zero_y]
      simp only [mul_zero, zero_mul, add_zero, sub_zero, div_one]
      linear_combination hcurve

theorem eightfold_eq_zero_iff {P : Point C} :
    eightfold P = 0 ↔ P.x = 0 ∨ P.y = 0 ∨ P.x ^ 2 + P.y ^ 2 = 0 := by
  rw [eightfold, double_eq_zero_iff, double_x_eq_zero_iff, double_x_eq_zero_iff,
    double_y_eq_zero_iff, or_assoc]

theorem x_eq_zero_iff {P : Point C} : P.x = 0 ↔ P.y = 1 ∨ P.y = -1 := by
  have hcurve := P.onCurve
  rw [← sq_eq_one_iff]
  constructor
  · intro h
    rw [h] at hcurve
    linear_combination hcurve
  · intro h
    rw [h] at hcurve
    have hfactor : P.x ^ 2 * (1 + C.d) = 0 := by linear_combination -hcurve
    have hd : 1 + C.d ≠ 0 := by
      intro h0
      apply sq_ne_neg_one_of_mul C (a := 1)
      linear_combination h0
    rcases mul_eq_zero.mp hfactor with h0 | h0
    · exact pow_eq_zero_iff two_ne_zero |>.mp h0
    · exact absurd h0 hd

theorem sum_squares_eq_zero_iff {P : Point C} :
    P.x ^ 2 + P.y ^ 2 = 0 ↔ C.d * P.y ^ 4 + 2 * P.y ^ 2 = 1 := by
  have hcurve := P.onCurve
  constructor
  · intro h
    linear_combination (1 + C.d * P.y ^ 2) * h + hcurve
  · intro h
    have hfactor : (P.x ^ 2 + P.y ^ 2) * (1 + C.d * P.y ^ 2) = 0 := by
      linear_combination h - hcurve
    rcases mul_eq_zero.mp hfactor with h0 | h0
    · exact h0
    · exact absurd (by linear_combination h0) (sq_ne_neg_one_of_mul C (a := P.y))

section

variable {r y : K}

theorem root_ne_zero (hr : C.d * r ^ 4 + 2 * r ^ 2 = 1) : r ≠ 0 := by
  intro h
  rw [h] at hr
  simp at hr

/-- The roots of `d y⁴ + 2 y² = 1` are one pair: the other two squares have no root. -/
theorem quartic_iff (hr : C.d * r ^ 4 + 2 * r ^ 2 = 1) :
    C.d * y ^ 4 + 2 * y ^ 2 = 1 ↔ y = r ∨ y = -r := by
  have hr0 := root_ne_zero hr
  rw [← sq_eq_sq_iff_eq_or_eq_neg]
  constructor
  · intro h
    have hfactor : (y ^ 2 - r ^ 2) * (C.d * (y * r) ^ 2 + 1) = 0 := by
      linear_combination r ^ 2 * h - y ^ 2 * hr
    rcases mul_eq_zero.mp hfactor with h0 | h0
    · exact sub_eq_zero.mp h0
    · exact absurd (by linear_combination h0) (sq_ne_neg_one_of_mul C (a := y * r))
  · intro h
    linear_combination hr + (C.d * (y ^ 2 + r ^ 2) + 2) * h

/-- The `y` of the points of order dividing eight. -/
def smallOrderY (r : K) : List K := [0, 1, r, -r, -1]

theorem eightfold_eq_zero_iff_mem {P : Point C} (hr : C.d * r ^ 4 + 2 * r ^ 2 = 1) :
    eightfold P = 0 ↔ P.y ∈ smallOrderY r := by
  rw [eightfold_eq_zero_iff, x_eq_zero_iff, sum_squares_eq_zero_iff, quartic_iff hr]
  simp only [smallOrderY, List.mem_cons, List.not_mem_nil, or_false]
  tauto

theorem exists_point (C : Curve K) {x y : K} (h : y ^ 2 - x ^ 2 = 1 + C.d * x ^ 2 * y ^ 2) :
    ∃ P : Point C, P.y = y :=
  ⟨⟨x, y, h⟩, rfl⟩

theorem exists_point_of_mem (hr : C.d * r ^ 4 + 2 * r ^ 2 = 1) (hy : y ∈ smallOrderY r) :
    ∃ P : Point C, P.y = y := by
  obtain ⟨j, hj⟩ := C.exists_root
  simp only [smallOrderY, List.mem_cons, List.not_mem_nil, or_false] at hy
  rcases hy with rfl | rfl | rfl | rfl | rfl
  · apply exists_point C (x := j)
    linear_combination -hj
  · apply exists_point C (x := 0)
    ring
  · apply exists_point C (x := j * y)
    linear_combination hr - (y ^ 2 + C.d * y ^ 4) * hj
  · apply exists_point C (x := j * r)
    linear_combination hr - (r ^ 2 + C.d * r ^ 4) * hj
  · apply exists_point C (x := 0)
    ring

end

end TwistedEdwards
