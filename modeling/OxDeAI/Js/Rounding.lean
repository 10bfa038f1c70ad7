import OxDeAI.Js.Number

/-! Rounding to a double never crosses an integer of at most 53 bits. -/

namespace Js

namespace JsNumber

theorem le_roundNat {q : ℚ} {k : ℕ} (hq : 0 ≤ q) (h : (k : ℚ) ≤ q) : k ≤ roundNat q := by
  have hf : (k : ℤ) ≤ q.floor := Rat.le_floor_iff.mpr (by exact_mod_cast h)
  have h0 : 0 ≤ q.floor := Rat.le_floor_iff.mpr (by simpa using hq)
  simp only [roundNat]
  split
  · omega
  · split
    · omega
    · split <;> omega

theorem roundNat_le {q : ℚ} {k : ℕ} (hq : 0 ≤ q) (h : q ≤ k) : roundNat q ≤ k := by
  have h0 : 0 ≤ q.floor := Rat.le_floor_iff.mpr (by simpa using hq)
  have hfq : (q.floor : ℚ) ≤ q := Rat.floor_le q
  have hcast : ((q.floor.toNat : ℕ) : ℚ) = q.floor := by
    exact_mod_cast congrArg (Int.cast (R := ℚ)) (Int.toNat_of_nonneg h0)
  have hle : q.floor.toNat ≤ k := by
    have : ((q.floor.toNat : ℕ) : ℚ) ≤ k := by rw [hcast]; exact hfq.trans h
    exact_mod_cast this
  by_cases hk : q.floor.toNat = k
  · have hr : q - (q.floor.toNat : ℕ) < 1 / 2 := by
      have : q - (q.floor.toNat : ℕ) ≤ 0 := by rw [hk]; linarith
      linarith
    simp only [roundNat, if_pos hr]
    omega
  · simp only [roundNat]
    split
    · omega
    · split
      · omega
      · split <;> omega

/-- The leading bit of a positive rational, up to one place. -/
theorem two_zpow_le_of_log2 {q : ℚ} (hq : 0 < q) :
    (2 : ℚ) ^ ((Nat.log2 q.num.natAbs : ℤ) - Nat.log2 q.den - 1) ≤ q := by
  have hn : q.num.natAbs ≠ 0 := by
    have := Rat.num_pos.mpr hq
    omega
  have hnum : (2 : ℚ) ^ (Nat.log2 q.num.natAbs) ≤ q.num.natAbs := by
    exact_mod_cast Nat.log2_self_le hn
  have hden : (q.den : ℚ) ≤ 2 ^ (Nat.log2 q.den + 1) := by
    exact_mod_cast (Nat.lt_log2_self (n := q.den)).le
  have hd0 : (0 : ℚ) < q.den := by exact_mod_cast q.den_pos
  have hq' : q = q.num.natAbs / q.den := by
    have habs : ((q.num.natAbs : ℤ) : ℚ) = q.num := by
      rw [Int.natAbs_of_nonneg (Rat.num_pos.mpr hq).le]
    rw [← Int.cast_natCast, habs, Rat.num_div_den]
  have hz : (2 : ℚ) ^ ((Nat.log2 q.num.natAbs : ℤ) - Nat.log2 q.den - 1) =
      2 ^ (Nat.log2 q.num.natAbs) / 2 ^ (Nat.log2 q.den + 1) := by
    rw [show (Nat.log2 q.num.natAbs : ℤ) - Nat.log2 q.den - 1 =
      (Nat.log2 q.num.natAbs : ℤ) - ((Nat.log2 q.den + 1 : ℕ) : ℤ) by push_cast; ring,
      zpow_sub₀ (by norm_num), zpow_natCast, zpow_natCast]
  calc (2 : ℚ) ^ ((Nat.log2 q.num.natAbs : ℤ) - Nat.log2 q.den - 1)
      = 2 ^ (Nat.log2 q.num.natAbs) / 2 ^ (Nat.log2 q.den + 1) := hz
    _ ≤ q.num.natAbs / q.den := div_le_div₀ (by positivity) hnum hd0 hden
    _ = q := hq'.symm

/-- A unit in the last place above one needs 53 bits before it. -/
theorem le_of_ulpExponent_pos {q : ℚ} (hq : 0 < q) (h : 0 < ulpExponent q) :
    (2 : ℚ) ^ (ulpExponent q + 52) ≤ q := by
  simp only [ulpExponent] at h ⊢
  split at h
  · rename_i hle
    rw [if_pos hle, max_eq_left (by omega), sub_add_cancel]
    exact hle
  · rename_i hle
    rw [if_neg hle, max_eq_left (by omega), sub_add_cancel]
    exact two_zpow_le_of_log2 hq

/-- The magnitude that rounding computes. -/
def roundAbs (q : ℚ) : ℚ := roundNat (q / 2 ^ ulpExponent q) * 2 ^ ulpExponent q

theorem roundAbs_nonneg (q : ℚ) : 0 ≤ roundAbs q := by
  unfold roundAbs
  positivity

theorem le_roundAbs {q : ℚ} {n : ℕ} (hq : 0 < q) (hn : n ≤ 2 ^ 53) (h : (n : ℚ) ≤ q) :
    (n : ℚ) ≤ roundAbs q := by
  by_cases he : 0 < ulpExponent q
  · have hp : (0 : ℚ) < 2 ^ ulpExponent q := by positivity
    have hbig : ((2 ^ 52 : ℕ) : ℚ) ≤ q / 2 ^ ulpExponent q := by
      rw [le_div_iff₀ hp]
      have := le_of_ulpExponent_pos hq he
      rw [zpow_add₀ (by norm_num)] at this
      have h52 : ((2 ^ 52 : ℕ) : ℚ) = (2 : ℚ) ^ (52 : ℤ) := by norm_num
      rw [h52, mul_comm]
      exact this
    have hr : ((2 ^ 52 : ℕ) : ℚ) ≤ roundNat (q / 2 ^ ulpExponent q) := by
      exact_mod_cast le_roundNat (by positivity) hbig
    have htwo : (2 : ℚ) ≤ 2 ^ ulpExponent q := by
      calc (2 : ℚ) = 2 ^ (1 : ℤ) := by norm_num
        _ ≤ 2 ^ ulpExponent q := zpow_le_zpow_right₀ (by norm_num) (by omega)
    calc (n : ℚ) ≤ (2 ^ 53 : ℕ) := by exact_mod_cast hn
      _ = (2 ^ 52 : ℕ) * 2 := by norm_num
      _ ≤ roundAbs q := mul_le_mul hr htwo (by norm_num) (by positivity)
  · obtain ⟨s, hs⟩ := Int.exists_eq_neg_ofNat (not_lt.mp he)
    have hp : (0 : ℚ) < 2 ^ s := by positivity
    have hdiv : q / 2 ^ ulpExponent q = q * 2 ^ s := by
      rw [hs, zpow_neg, zpow_natCast, div_inv_eq_mul]
    have hmul : ((n * 2 ^ s : ℕ) : ℚ) ≤ q * 2 ^ s := by
      push_cast
      exact mul_le_mul_of_nonneg_right h hp.le
    have hr : ((n * 2 ^ s : ℕ) : ℚ) ≤ roundNat (q * 2 ^ s) := by
      exact_mod_cast le_roundNat (by positivity) hmul
    rw [roundAbs, hdiv, hs, zpow_neg, zpow_natCast, ← div_eq_mul_inv, le_div_iff₀ hp]
    push_cast at hr
    exact hr

theorem roundAbs_le {q : ℚ} {n : ℕ} (hq : 0 < q) (he : ulpExponent q ≤ 0) (h : q ≤ n) :
    roundAbs q ≤ n := by
  obtain ⟨s, hs⟩ := Int.exists_eq_neg_ofNat he
  have hp : (0 : ℚ) < 2 ^ s := by positivity
  have hdiv : q / 2 ^ ulpExponent q = q * 2 ^ s := by
    rw [hs, zpow_neg, zpow_natCast, div_inv_eq_mul]
  have hmul : q * 2 ^ s ≤ ((n * 2 ^ s : ℕ) : ℚ) := by
    push_cast
    exact mul_le_mul_of_nonneg_right h hp.le
  have hr : (roundNat (q * 2 ^ s) : ℚ) ≤ ((n * 2 ^ s : ℕ) : ℚ) := by
    exact_mod_cast roundNat_le (by positivity) hmul
  rw [roundAbs, hdiv, hs, zpow_neg, zpow_natCast, ← div_eq_mul_inv, div_le_iff₀ hp]
  push_cast at hr
  exact hr

theorem num_eq_of_den {q : ℚ} (h : q.den = 1) : (q.num : ℚ) = q := by
  conv_rhs => rw [← Rat.num_div_den q, h]
  simp

/-- The value of a double that is not rounded to an infinity. -/
theorem ge_ofRat {e : ℤ} {q : ℚ} : (int e).ge (ofRat q) = true ↔ q ≤ e := by
  unfold ofRat
  split
  · rename_i hd
    have hq : (q.num : ℚ) = q := num_eq_of_den hd
    rw [ge_int, decide_eq_true_eq]
    constructor
    · intro h
      rw [← hq]
      exact_mod_cast h
    · intro h
      rw [← hq] at h
      exact_mod_cast h
  · simp [ge, isNaN, lt]

theorem round_of_small {q : ℚ} (h : q.den = 1 ∧ q.num.natAbs ≤ 2 ^ 53) : round q = int q.num :=
  if_pos h

theorem round_of_large {q : ℚ} (h : ¬ (q.den = 1 ∧ q.num.natAbs ≤ 2 ^ 53)) :
    round q = if (2 : ℚ) ^ (1024 : ℕ) ≤ roundAbs |q| then if 0 < q then posInf else negInf
      else ofRat (if 0 < q then roundAbs |q| else -roundAbs |q|) := if_neg h

theorem ge_round {q : ℚ} {e : ℤ} (he : e.natAbs ≤ 2 ^ 53) (h : q ≤ e) :
    (int e).ge (round q) = true := by
  by_cases hq : q.den = 1 ∧ q.num.natAbs ≤ 2 ^ 53
  · rw [round_of_small hq, ge_int, decide_eq_true_eq]
    rw [← num_eq_of_den hq.1] at h
    exact_mod_cast h
  · have h0 : q ≠ 0 := by
      rintro rfl
      exact hq ⟨rfl, by simp⟩
    have habs : 0 < |q| := abs_pos.mpr h0
    rw [round_of_large hq]
    by_cases hpos : 0 < q
    · have hen : ((e.natAbs : ℕ) : ℚ) = e := by
        have : 0 < (e : ℚ) := hpos.trans_le h
        have he0 : 0 ≤ e := by exact_mod_cast this.le
        rw [Nat.cast_natAbs, abs_of_nonneg he0]
      have hle : |q| ≤ (e.natAbs : ℕ) := by rw [abs_of_pos hpos, hen]; exact h
      have he53 : ((e.natAbs : ℕ) : ℚ) ≤ 2 ^ 53 := by exact_mod_cast he
      have hulp : ulpExponent |q| ≤ 0 := by
        by_contra hu
        have hu' := le_of_ulpExponent_pos habs (not_le.mp hu)
        have hbig : (2 : ℚ) ^ (53 : ℤ) ≤ |q| :=
          (zpow_le_zpow_right₀ (by norm_num) (by omega)).trans hu'
        have hbound : |q| ≤ (2 : ℚ) ^ (53 : ℤ) := hle.trans he53
        have heq : q = ((2 ^ 53 : ℤ) : ℚ) := by
          rw [abs_of_pos hpos] at hbig hbound
          have := le_antisymm hbound hbig
          rw [this]
          norm_num
        apply hq
        rw [heq, Rat.den_intCast, Rat.num_intCast]
        exact ⟨rfl, by norm_num⟩
      have hm : roundAbs |q| ≤ (e.natAbs : ℕ) := roundAbs_le habs hulp hle
      have hsmall : ¬ (2 : ℚ) ^ (1024 : ℕ) ≤ roundAbs |q| := by
        intro hc
        have hlt : (2 : ℚ) ^ (53 : ℕ) < 2 ^ (1024 : ℕ) :=
          pow_lt_pow_right₀ (by norm_num) (by norm_num)
        exact absurd (hc.trans (hm.trans he53)) (not_le.mpr hlt)
      rw [if_neg hsmall, if_pos hpos, ge_ofRat]
      rw [hen] at hm
      exact hm
    · rw [if_neg hpos, if_neg hpos]
      split
      · rfl
      · rw [ge_ofRat]
        by_cases he0 : 0 ≤ e
        · have : (0 : ℚ) ≤ e := by exact_mod_cast he0
          linarith [roundAbs_nonneg |q|]
        · have hen : ((e.natAbs : ℕ) : ℚ) = -e := by
            have hneg : e ≤ 0 := (not_le.mp he0).le
            rw [Nat.cast_natAbs, abs_of_nonpos hneg, Int.cast_neg]
          have hle : ((e.natAbs : ℕ) : ℚ) ≤ |q| := by
            rw [hen, abs_of_nonpos (not_lt.mp hpos)]
            linarith
          have := le_roundAbs habs he hle
          rw [hen] at this
          linarith

/-- A number of 54 bits or more does not round to a safe integer. -/
theorem not_isSafeInteger_round_abs {q : ℚ} (h : (2 : ℚ) ^ 53 ≤ |q|) : (round q).isSafeInteger = false := by
  have hpos : 0 < |q| := lt_of_lt_of_le (by positivity) h
  have hint : ∀ z : ℤ, (2 : ℚ) ^ 53 ≤ |(z : ℚ)| → (int z).isSafeInteger = false := by
    intro z hz
    have hnat : 2 ^ 53 ≤ z.natAbs := by
      rw [← Int.cast_abs, ← Nat.cast_natAbs] at hz
      exact_mod_cast hz
    have : ¬ z.natAbs ≤ maxSafeInteger := by
      simp only [maxSafeInteger]
      omega
    simp [isSafeInteger, this]
  by_cases hq : q.den = 1 ∧ q.num.natAbs ≤ 2 ^ 53
  · rw [round_of_small hq]
    rw [← num_eq_of_den hq.1] at h
    exact hint _ h
  · have hle : ((2 ^ 53 : ℕ) : ℚ) ≤ roundAbs |q| := le_roundAbs hpos le_rfl (by push_cast; exact h)
    have hsigned : ∀ r : ℚ, |r| = roundAbs |q| → (ofRat r).isSafeInteger = false := by
      intro r hr
      unfold ofRat
      split
      · rename_i hd
        refine hint _ ?_
        rw [num_eq_of_den hd, hr]
        exact_mod_cast hle
      · rfl
    rw [round_of_large hq]
    split
    · split <;> rfl
    · split
      · exact hsigned _ (abs_of_nonneg (roundAbs_nonneg _))
      · exact hsigned _ ((abs_neg _).trans (abs_of_nonneg (roundAbs_nonneg _)))

theorem not_isSafeInteger_round {q : ℚ} (h : (2 : ℚ) ^ 53 ≤ q) : (round q).isSafeInteger = false :=
  not_isSafeInteger_round_abs (h.trans (le_abs_self q))

theorem sub_of_toRat? {a : ℤ} {x : JsNumber} {q : ℚ} (h : x.toRat? = some q) :
    (int a).sub x = round (a - q) := by
  cases x with
  | int z =>
    obtain rfl : (z : ℚ) = q := by simpa [toRat?] using h
    simp [sub, neg, add, sub_eq_add_neg]
  | frac p hp =>
    obtain rfl : p = q := by simpa [toRat?] using h
    simp [sub, neg, add, sub_eq_add_neg]
  | _ => simp [toRat?] at h

/-- A difference stays below an integer that its exact value does not exceed. -/
theorem ge_sub {t e : ℤ} {x : JsNumber} {q : ℚ} (hx : x.toRat? = some q) (he : e.natAbs ≤ 2 ^ 53)
    (h : (t : ℚ) ≤ e + q) : (int e).ge ((int t).sub x) = true := by
  rw [sub_of_toRat? hx]
  exact ge_round he (by linarith)

theorem max_posInf_of_not_nan {x : JsNumber} (h : x.isNaN = false) : x.max posInf = posInf := by
  cases x with
  | nan => simp [isNaN] at h
  | _ => rfl

theorem ge_sub_max {t e h : ℤ} {x : JsNumber} (hx : x.isNaN = false) (he : e.natAbs ≤ 2 ^ 53)
    (hle : t ≤ e + h) : (int e).ge ((int t).sub (x.max (int h))) = true := by
  have hleq : (t : ℚ) ≤ e + h := by exact_mod_cast hle
  have hmax : x.max (int h) = if lt x (int h) then int h else x := by simp [max, hx]
  rw [hmax]
  split
  · exact ge_sub (x := int h) rfl he hleq
  · rename_i hlt
    cases x with
    | int w =>
      have hw : (h : ℚ) ≤ w := by simpa [lt] using hlt
      exact ge_sub (x := int w) rfl he (by linarith)
    | frac w hfr =>
      have hw : (h : ℚ) ≤ w := by simpa [lt] using hlt
      exact ge_sub (x := frac w hfr) rfl he (by linarith)
    | nan => simp [isNaN] at hx
    | posInf => simp
    | negInf => simp [lt] at hlt

theorem lt_two_zpow_of_log2 {q : ℚ} (hq : 0 < q) :
    q < (2 : ℚ) ^ ((Nat.log2 q.num.natAbs : ℤ) - Nat.log2 q.den + 1) := by
  have hnum : (q.num.natAbs : ℚ) < 2 ^ (Nat.log2 q.num.natAbs + 1) := by
    exact_mod_cast Nat.lt_log2_self (n := q.num.natAbs)
  have hden : (2 : ℚ) ^ (Nat.log2 q.den) ≤ q.den := by
    exact_mod_cast Nat.log2_self_le q.den_ne_zero
  have habs : ((q.num.natAbs : ℕ) : ℚ) = q.num := by
    rw [Nat.cast_natAbs, abs_of_nonneg (Rat.num_pos.mpr hq).le]
  have hz : (2 : ℚ) ^ ((Nat.log2 q.num.natAbs : ℤ) - Nat.log2 q.den + 1) =
      2 ^ (Nat.log2 q.num.natAbs + 1) / 2 ^ (Nat.log2 q.den) := by
    rw [show (Nat.log2 q.num.natAbs : ℤ) - Nat.log2 q.den + 1 =
      ((Nat.log2 q.num.natAbs + 1 : ℕ) : ℤ) - (Nat.log2 q.den : ℕ) by push_cast; ring,
      zpow_sub₀ (by norm_num), zpow_natCast, zpow_natCast]
  calc q = q.num.natAbs / q.den := by rw [habs, Rat.num_div_den]
    _ < 2 ^ (Nat.log2 q.num.natAbs + 1) / 2 ^ (Nat.log2 q.den) := by
      apply div_lt_div₀ hnum hden (by positivity) (by positivity)
    _ = _ := hz.symm

/-- A positive rational lies below the 53 bits its exponent leaves. -/
theorem lt_two_zpow_ulpExponent {q : ℚ} (hq : 0 < q) : q < (2 : ℚ) ^ (ulpExponent q + 53) := by
  have hone : (1 : ℚ) ≤ 2 := by norm_num
  simp only [ulpExponent]
  split
  · have hlt := lt_two_zpow_of_log2 hq
    exact hlt.trans_le (zpow_le_zpow_right₀ hone (by omega))
  · rename_i hlt
    exact (not_le.mp hlt).trans_le (zpow_le_zpow_right₀ hone (by omega))

/-- Rounding never falls below a double. -/
theorem le_roundAbs_of_double {e q : ℚ} (he : (2 : ℚ) ^ 53 < e) (hfix : roundAbs e = e) (h : e ≤ q) :
    e ≤ roundAbs q := by
  have he0 : 0 < e := lt_trans (by positivity) he
  have hq0 : 0 < q := he0.trans_le h
  have hone : (1 : ℚ) < 2 := by norm_num
  have hpow : (0 : ℚ) < 2 ^ ulpExponent q := by positivity
  by_cases hle : ulpExponent q ≤ ulpExponent e
  · obtain ⟨d, hd⟩ := Int.eq_ofNat_of_zero_le (sub_nonneg.mpr hle)
    have hdiv : e / 2 ^ ulpExponent q = ((roundNat (e / 2 ^ ulpExponent e) * 2 ^ d : ℕ) : ℚ) := by
      rw [div_eq_iff hpow.ne']
      have hsplit : (2 : ℚ) ^ ulpExponent e = 2 ^ d * 2 ^ ulpExponent q := by
        rw [← zpow_natCast, ← zpow_add₀ (by norm_num)]
        congr 1
        omega
      calc e = roundNat (e / 2 ^ ulpExponent e) * 2 ^ ulpExponent e := hfix.symm
        _ = _ := by rw [hsplit]; push_cast; ring
    have hr : ((roundNat (e / 2 ^ ulpExponent e) * 2 ^ d : ℕ) : ℚ) ≤ roundNat (q / 2 ^ ulpExponent q) := by
      exact_mod_cast le_roundNat (by positivity) (hdiv ▸ div_le_div_of_nonneg_right h hpow.le)
    calc e = (e / 2 ^ ulpExponent q) * 2 ^ ulpExponent q := (div_mul_cancel₀ _ hpow.ne').symm
      _ ≤ roundAbs q := mul_le_mul_of_nonneg_right (hdiv ▸ hr) hpow.le
  · have hpos : 0 < ulpExponent q := by
      have hlt := he.trans (lt_two_zpow_ulpExponent he0)
      have h53 : (2 : ℚ) ^ 53 = 2 ^ (53 : ℤ) := by norm_num
      rw [h53, zpow_lt_zpow_iff_right₀ hone] at hlt
      omega
    have hbig : ((2 ^ 52 : ℕ) : ℚ) ≤ q / 2 ^ ulpExponent q := by
      rw [le_div_iff₀ hpow]
      have hle := le_of_ulpExponent_pos hq0 hpos
      rw [zpow_add₀ (by norm_num), mul_comm] at hle
      exact_mod_cast hle
    have hr : ((2 ^ 52 : ℕ) : ℚ) ≤ roundNat (q / 2 ^ ulpExponent q) := by
      exact_mod_cast le_roundNat (by positivity) hbig
    calc e ≤ 2 ^ (ulpExponent e + 53) := (lt_two_zpow_ulpExponent he0).le
      _ ≤ 2 ^ ((52 : ℤ) + ulpExponent q) := zpow_le_zpow_right₀ hone.le (by omega)
      _ = (2 ^ 52 : ℕ) * 2 ^ ulpExponent q := by rw [zpow_add₀ (by norm_num)]; norm_num
      _ ≤ roundAbs q := mul_le_mul_of_nonneg_right hr hpow.le

theorem ofRat_ge {e : ℤ} {q : ℚ} : (ofRat q).ge (int e) = true ↔ e ≤ q := by
  unfold ofRat
  split
  · rename_i hd
    have hq : (q.num : ℚ) = q := num_eq_of_den hd
    rw [ge_int, decide_eq_true_eq]
    conv_rhs => rw [← hq]
    exact Int.cast_le.symm
  · simp [ge, isNaN, lt]

theorem eq_of_ofRat {q : ℚ} {z : ℤ} (h : ofRat q = int z) : q = z := by
  unfold ofRat at h
  split at h
  · rename_i hd
    rw [← num_eq_of_den hd, int.inj h]
  · cases h

/-- The numbers of the language: rounding leaves them as they are. -/
def IsDouble (x : JsNumber) : Prop := ∀ q, x.toRat? = some q → round q = x

theorem IsDouble.round {e : ℕ} (h : (int e).IsDouble) : JsNumber.round (e : ℚ) = int e := h e rfl

theorem isDouble_of_le {e : ℕ} (h : e ≤ 2 ^ 53) : (int e).IsDouble := by
  intro q hq
  obtain rfl : ((e : ℤ) : ℚ) = q := by simpa [toRat?] using hq
  exact round_int (by simpa using h)

/-- A natural number rounds to no less than any double it reaches. -/
theorem ge_of_isDouble {e k : ℕ} (he : (int e).IsDouble) (h : e ≤ k) :
    (round (k : ℚ)).ge (int e) = true := by
  have hq : (e : ℚ) ≤ k := by exact_mod_cast h
  by_cases hk : k ≤ 2 ^ 53
  · have hround : round (k : ℚ) = int k := round_int (z := k) (by simpa using hk)
    rw [hround]
    simpa using h
  · have hlarge : ∀ n : ℕ, ¬ n ≤ 2 ^ 53 → ¬ ((n : ℚ).den = 1 ∧ (n : ℚ).num.natAbs ≤ 2 ^ 53) := by
      intro n hn hh
      exact hn (by simpa using hh.2)
    have hpos : ∀ n : ℕ, ¬ n ≤ 2 ^ 53 → (0 : ℚ) < n := by
      intro n hn
      exact_mod_cast (show 0 < n by omega)
    have hle : (e : ℚ) ≤ roundAbs k := by
      by_cases hsmall : e ≤ 2 ^ 53
      · exact le_roundAbs (hpos k hk) hsmall hq
      · have hfix := he.round
        rw [round_of_large (hlarge e hsmall), abs_of_pos (hpos e hsmall), if_pos (hpos e hsmall),
          if_pos (hpos e hsmall)] at hfix
        split at hfix
        · cases hfix
        · have hroundAbs := eq_of_ofRat hfix
          rw [Int.cast_natCast] at hroundAbs
          have hbig : (2 : ℚ) ^ 53 < e := by exact_mod_cast not_le.mp hsmall
          exact le_roundAbs_of_double hbig hroundAbs hq
    rw [round_of_large (hlarge k hk), abs_of_pos (hpos k hk), if_pos (hpos k hk), if_pos (hpos k hk)]
    split
    · rfl
    · exact ofRat_ge.mpr (by exact_mod_cast hle)

theorem isNaN_ofRat (q : ℚ) : (ofRat q).isNaN = false := by
  unfold ofRat
  split <;> rfl

theorem isNaN_round (q : ℚ) : (round q).isNaN = false := by
  unfold round
  split
  · rfl
  · simp only
    split
    · split <;> rfl
    · exact isNaN_ofRat _

theorem isNaN_add_int {x : JsNumber} {z : ℤ} (h : x.isNaN = false) : (x.add (int z)).isNaN = false := by
  cases x with
  | nan => cases h
  | int a => exact isNaN_round _
  | frac q hq => exact isNaN_round _
  | posInf => rfl
  | negInf => rfl

theorem lt_of_not_ge {x y : JsNumber} (hx : x.isNaN = false) (hy : y.isNaN = false)
    (h : x.ge y = false) : x.lt y = true := by
  rw [ge, hx, hy] at h
  simpa using h

theorem neg_ofRat (q : ℚ) : (ofRat q).neg = ofRat (-q) := by
  unfold ofRat
  by_cases h : q.den = 1
  · rw [dif_pos h, dif_pos (by simpa using h)]
    simp [neg]
  · rw [dif_neg h, dif_neg (by simpa using h)]
    rfl

theorem round_neg (q : ℚ) : round (-q) = (round q).neg := by
  by_cases hq : q.den = 1 ∧ q.num.natAbs ≤ 2 ^ 53
  · have hneg : (-q).den = 1 ∧ (-q).num.natAbs ≤ 2 ^ 53 := by simpa using hq
    rw [round_of_small hq, round_of_small hneg]
    simp [neg]
  · have hneg : ¬ ((-q).den = 1 ∧ (-q).num.natAbs ≤ 2 ^ 53) := by simpa using hq
    have h0 : q ≠ 0 := by
      rintro rfl
      exact hq ⟨rfl, by simp⟩
    rw [round_of_large hq, round_of_large hneg, abs_neg]
    by_cases hpos : 0 < q
    · have hno : ¬ 0 < -q := by linarith
      simp only [hpos, hno, if_true, if_false]
      split
      · rfl
      · exact (neg_ofRat _).symm
    · have hyes : 0 < -q := by
        have := lt_of_le_of_ne (not_lt.mp hpos) h0
        linarith
      simp only [hpos, hyes, if_true, if_false]
      split
      · rfl
      · rw [neg_ofRat, neg_neg]

theorem neg_ge_neg (x : JsNumber) (e : ℤ) : (int (-e)).ge x.neg = x.ge (int e) := by
  cases x <;> simp [ge, isNaN, neg, lt, neg_lt_neg_iff]

/-- Rounding never falls below an integer it starts from or above. -/
theorem round_ge {q : ℚ} {e : ℤ} (he : e.natAbs ≤ 2 ^ 53) (h : e ≤ q) : (round q).ge (int e) = true := by
  rw [← neg_ge_neg, ← round_neg]
  exact ge_round (by simpa using he) (by push_cast; linarith)

theorem lt_itself (x : JsNumber) : x.lt x = false := by
  cases x <;> simp [lt]

theorem not_lt_of_ge {x y : JsNumber} (h : x.ge y = true) : x.lt y = false := by
  simp only [ge, Bool.and_eq_true, Bool.not_eq_true'] at h
  exact h.2

theorem lt_of_ge_succ {x : JsNumber} {e : ℤ} (h : x.ge (int (e + 1)) = true) : (int e).lt x = true := by
  cases x with
  | nan => cases h
  | int a =>
    have ha : e + 1 ≤ a := by simpa using h
    simp only [lt_int, decide_eq_true_eq]
    omega
  | frac q hq =>
    have hle : ((e + 1 : ℤ) : ℚ) ≤ q := by simpa [ge, isNaN, lt] using h
    push_cast at hle
    simp only [lt, decide_eq_true_eq]
    linarith
  | posInf => rfl
  | negInf => cases h

theorem add_ge {x : JsNumber} {e k : ℤ} (he : e.natAbs ≤ 2 ^ 53) (hk : 0 ≤ k) (h : x.ge (int e) = true) :
    (x.add (int k)).ge (int e) = true := by
  have hk' : (0 : ℚ) ≤ k := by exact_mod_cast hk
  cases x with
  | nan => cases h
  | int a =>
    have ha : e ≤ a := by simpa using h
    exact round_ge he (by exact_mod_cast (by omega : e ≤ a + k))
  | frac q hq =>
    have hle : (e : ℚ) ≤ q := by simpa [ge, isNaN, lt] using h
    exact round_ge he (by linarith)
  | posInf => rfl
  | negInf => cases h

end JsNumber

end Js
