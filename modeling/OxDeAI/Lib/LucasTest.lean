import Mathlib.Data.List.Prime
import Mathlib.NumberTheory.LucasPrimality

/-! Modular powers the kernel evaluates, and Lucas's primality test over them: `p` is prime
when some `a` has order `p - 1` modulo `p`. -/

namespace LucasTest

/-- Square and multiply: the loop keeps `acc * a ^ n` modulo `m`. -/
def powModLoop (m : Nat) : Nat → Nat → Nat → Nat → Nat
  | 0, acc, _, _ => acc % m
  | fuel + 1, acc, a, n =>
    powModLoop m fuel (if n % 2 = 1 then acc * a % m else acc) (a * a % m) (n / 2)

def powMod (m a n : Nat) : Nat :=
  powModLoop m (n.log2 + 1) 1 a n

theorem modEq_square {m acc a : Nat} (n : Nat) :
    (if n % 2 = 1 then acc * a % m else acc) * (a * a % m) ^ (n / 2) ≡ acc * a ^ n [MOD m] := by
  have hsquare : (a * a % m) ^ (n / 2) ≡ (a * a) ^ (n / 2) [MOD m] := (Nat.mod_modEq _ m).pow _
  have hsplit := Nat.div_add_mod n 2
  by_cases hodd : n % 2 = 1
  · rw [if_pos hodd]
    have hpow : acc * a ^ n = acc * a * (a * a) ^ (n / 2) := by
      rw [← pow_two, ← pow_mul, mul_assoc, ← pow_succ', ← hodd, hsplit]
    rw [hpow]
    exact (Nat.mod_modEq _ m).mul hsquare
  · rw [if_neg hodd]
    have heven : n % 2 = 0 := by omega
    have hpow : acc * a ^ n = acc * (a * a) ^ (n / 2) := by
      rw [← pow_two, ← pow_mul, ← Nat.add_zero (2 * (n / 2)), ← heven, hsplit]
    rw [hpow]
    exact hsquare.mul_left acc

theorem powModLoop_eq {m : Nat} (fuel acc a n : Nat) (h : n < 2 ^ fuel) :
    powModLoop m fuel acc a n = acc * a ^ n % m := by
  induction fuel generalizing acc a n with
  | zero =>
    obtain rfl : n = 0 := by simpa using h
    rw [powModLoop, pow_zero, mul_one]
  | succ fuel ih =>
    have hhalf : n / 2 < 2 ^ fuel := by
      rw [pow_succ] at h
      omega
    rw [powModLoop, ih _ _ _ hhalf]
    exact modEq_square n

theorem powMod_eq (m a n : Nat) : powMod m a n = a ^ n % m := by
  rw [powMod, powModLoop_eq _ _ _ _ Nat.lt_log2_self, one_mul]

theorem cast_pow_eq_one_iff {p : Nat} (hp : 1 < p) (a n : Nat) :
    (a : ZMod p) ^ n = 1 ↔ powMod p a n = 1 := by
  rw [powMod_eq, ← Nat.cast_pow, ← Nat.cast_one, ZMod.natCast_eq_natCast_iff, Nat.ModEq,
    Nat.mod_eq_of_lt hp]

/-- The factors `qs`, each as often as it divides, make up `p - 1`, and `a` has no smaller
order modulo `p` than `p - 1`. -/
def passes (p a : Nat) (qs : List Nat) : Bool :=
  1 < p && qs.prod == p - 1 && powMod p a (p - 1) == 1 &&
    qs.all (fun q => powMod p a ((p - 1) / q) != 1)

theorem prime_of_passes {p : Nat} (a : Nat) (qs : List Nat) (hqs : ∀ q ∈ qs, q.Prime)
    (h : passes p a qs = true) : p.Prime := by
  simp only [passes, Bool.and_eq_true, decide_eq_true_eq, beq_iff_eq, List.all_eq_true,
    bne_iff_ne] at h
  obtain ⟨⟨⟨hp, hprod⟩, hone⟩, hless⟩ := h
  apply lucas_primality p (a : ZMod p) ((cast_pow_eq_one_iff hp a _).mpr hone)
  intro q hq hdvd hpow
  rw [← hprod] at hdvd
  have hmem : q ∈ qs := mem_list_primes_of_dvd_prod hq.prime (fun r hr => (hqs r hr).prime) hdvd
  exact hless q hmem ((cast_pow_eq_one_iff hp a _).mp hpow)

end LucasTest
