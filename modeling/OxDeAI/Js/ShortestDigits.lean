import OxDeAI.Js.Rounding
import OxDeAI.Js.Value

/-! Rounding goes to the nearest double, and seventeen decimal digits are nearer to a
double than any other double is. -/

namespace Js

namespace JsNumber

/-- A positive rational with at most 53 bits. -/
def OnGrid (q : ℚ) : Prop := ∃ m : ℕ, q = m * 2 ^ ulpExponent q

theorem onGrid_roundAbs {q : ℚ} (h : roundAbs q = q) : OnGrid q := ⟨_, h.symm⟩

theorem le_ulpExponent (q : ℚ) : -1074 ≤ ulpExponent q := le_max_right _ _

theorem two_zpow_le_of_ulpExponent {q : ℚ} (hq : 0 < q) (h : -1074 < ulpExponent q) :
    (2 : ℚ) ^ (ulpExponent q + 52) ≤ q := by
  simp only [ulpExponent] at h ⊢
  split at h
  · rename_i hle
    rw [if_pos hle, max_eq_left (by omega), sub_add_cancel]
    exact hle
  · rename_i hle
    rw [if_neg hle, max_eq_left (by omega), sub_add_cancel]
    exact two_zpow_le_of_log2 hq

theorem roundNat_nearest {a : ℚ} (ha : 0 ≤ a) (n : ℕ) : |(roundNat a : ℚ) - a| ≤ |(n : ℚ) - a| := by
  have h0 : 0 ≤ a.floor := Rat.le_floor_iff.mpr (by simpa using ha)
  have hcast : ((a.floor.toNat : ℕ) : ℚ) = a.floor := by
    exact_mod_cast congrArg (Int.cast (R := ℚ)) (Int.toNat_of_nonneg h0)
  obtain ⟨f, hf⟩ : ∃ f, f = a.floor.toNat := ⟨_, rfl⟩
  have hlow : (f : ℚ) ≤ a := by rw [hf, hcast]; exact Rat.floor_le a
  have hhigh : a < f + 1 := by rw [hf, hcast]; exact_mod_cast Rat.lt_floor_add_one a
  have hn : (n : ℚ) ≤ f ∨ (f : ℚ) + 1 ≤ n := by
    rcases Nat.lt_or_ge f n with h | h
    · exact .inr (by exact_mod_cast h)
    · exact .inl (by exact_mod_cast h)
  have hcases : (roundNat a = f ∧ a - f ≤ 1 / 2) ∨ (roundNat a = f + 1 ∧ 1 / 2 ≤ a - f) := by
    simp only [roundNat, ← hf]
    split_ifs with h1 h2 h3
    · exact .inl ⟨rfl, h1.le⟩
    · exact .inr ⟨rfl, h2.le⟩
    · exact .inl ⟨rfl, not_lt.mp h2⟩
    · exact .inr ⟨rfl, not_lt.mp h1⟩
  rcases hcases with ⟨hr, hhalf⟩ | ⟨hr, hhalf⟩
  · rw [hr, abs_of_nonpos (by linarith)]
    rcases hn with hn | hn
    · rw [abs_of_nonpos (by linarith)]
      linarith
    · rw [abs_of_nonneg (by linarith)]
      linarith
  · rw [hr]
    push_cast
    rw [abs_of_nonneg (by linarith)]
    rcases hn with hn | hn
    · rw [abs_of_nonpos (by linarith)]
      linarith
    · rw [abs_of_nonneg (by linarith)]
      linarith

/-- A multiple of the larger unit is one of the smaller. -/
theorem grid_refine {a b : ℤ} (h : a ≤ b) (m : ℕ) : ∃ n : ℕ, (m : ℚ) * 2 ^ b = n * 2 ^ a := by
  obtain ⟨d, hd⟩ := Int.eq_ofNat_of_zero_le (sub_nonneg.mpr h)
  refine ⟨m * 2 ^ d, ?_⟩
  have hsplit : (2 : ℚ) ^ b = 2 ^ d * 2 ^ a := by
    rw [← zpow_natCast, ← zpow_add₀ (by norm_num)]
    congr 1
    omega
  rw [hsplit]
  push_cast
  ring

theorem grid_gap {a : ℤ} {m n : ℕ} (hne : (m : ℚ) * 2 ^ a ≠ n * 2 ^ a) : (2 : ℚ) ^ a ≤ |(m : ℚ) * 2 ^ a - n * 2 ^ a| := by
  have hpow : (0 : ℚ) < 2 ^ a := by positivity
  have hmn : (m : ℤ) - n ≠ 0 := by
    intro h
    have heq : m = n := by omega
    exact hne (by rw [heq])
  have hone : (1 : ℚ) ≤ |(((m : ℤ) - n : ℤ) : ℚ)| := by
    have := Int.one_le_abs hmn
    exact_mod_cast this
  calc (2 : ℚ) ^ a ≤ |(((m : ℤ) - n : ℤ) : ℚ)| * 2 ^ a := le_mul_of_one_le_left hpow.le hone
    _ = |(m : ℚ) * 2 ^ a - n * 2 ^ a| := by
      rw [← sub_mul, abs_mul, abs_of_pos hpow]
      push_cast
      rfl

/-- No number with 53 bits is nearer than the one that rounding finds. -/
theorem roundAbs_nearest {y q : ℚ} (hy : 0 < y) (hq : 0 < q) (hgrid : OnGrid q) : |roundAbs y - y| ≤ |q - y| := by
  have hpow : (0 : ℚ) < 2 ^ ulpExponent y := by positivity
  have hmultiple : ∀ n : ℕ, |roundAbs y - y| ≤ |(n : ℚ) * 2 ^ ulpExponent y - y| := by
    intro n
    have hnear := roundNat_nearest (a := y / 2 ^ ulpExponent y) (by positivity) n
    have hscale : ∀ r : ℚ, |r * 2 ^ ulpExponent y - y| = |r - y / 2 ^ ulpExponent y| * 2 ^ ulpExponent y := by
      intro r
      rw [← abs_of_pos hpow, ← abs_mul, abs_of_pos hpow, sub_mul, div_mul_cancel₀ _ hpow.ne']
    rw [roundAbs, hscale, hscale]
    exact mul_le_mul_of_nonneg_right hnear hpow.le
  obtain ⟨m, hm⟩ := hgrid
  by_cases hle : ulpExponent y ≤ ulpExponent q
  · obtain ⟨n, hn⟩ := grid_refine hle m
    rw [hm, hn]
    exact hmultiple n
  · -- the power of two below `y` stands between the two
    have hlt := not_le.mp hle
    have hpower : (2 : ℚ) ^ (ulpExponent y + 52) ≤ y :=
      two_zpow_le_of_ulpExponent hy (lt_of_le_of_lt (le_ulpExponent q) hlt)
    have hbelow : q ≤ 2 ^ (ulpExponent y + 52) :=
      (lt_two_zpow_ulpExponent hq).le.trans (zpow_le_zpow_right₀ (by norm_num) (by omega))
    have hsplit : (2 : ℚ) ^ (ulpExponent y + 52) = (2 ^ 52 : ℕ) * 2 ^ ulpExponent y := by
      rw [zpow_add₀ (by norm_num), mul_comm]
      norm_num
    have hnear := hmultiple (2 ^ 52)
    rw [← hsplit, abs_of_nonpos (by linarith : (2 : ℚ) ^ (ulpExponent y + 52) - y ≤ 0)] at hnear
    rw [abs_of_nonpos (by linarith : q - y ≤ 0)]
    linarith

/-- What is nearer to a number with 53 bits than half of its sixteenth digit is rounded to it. -/
theorem roundAbs_of_near {y q : ℚ} (hy : 0 < y) (hq : 0 < q) (hgrid : OnGrid q)
    (hnear : 2 * 10 ^ 16 * |y - q| ≤ q) : roundAbs y = q := by
  by_contra hne
  obtain ⟨m, hm⟩ := hgrid
  have hfirst := roundAbs_nearest hy hq ⟨m, hm⟩
  have hdist : 10 ^ 16 * |roundAbs y - q| ≤ q := by
    have htriangle : |roundAbs y - q| ≤ |roundAbs y - y| + |y - q| := by
      have := abs_add_le (roundAbs y - y) (y - q)
      rwa [sub_add_sub_cancel] at this
    rw [abs_sub_comm q y] at hfirst
    linarith
  obtain ⟨n, hn⟩ : ∃ n : ℕ, roundAbs y = n * 2 ^ ulpExponent y := ⟨_, rfl⟩
  have hyq : y ≤ 2 * q ∧ 2 * 10 ^ 16 * (q - y) ≤ q := by
    have h1 := le_abs_self (y - q)
    have h2 := neg_abs_le (y - q)
    constructor <;> linarith
  rcases le_total (ulpExponent q) (ulpExponent y) with hle | hle
  · obtain ⟨k, hk⟩ := grid_refine hle n
    have hgap : (2 : ℚ) ^ ulpExponent q ≤ |roundAbs y - q| := by
      have hkm : (k : ℚ) * 2 ^ ulpExponent q ≠ m * 2 ^ ulpExponent q := by rwa [← hk, ← hn, ← hm]
      calc (2 : ℚ) ^ ulpExponent q ≤ |(k : ℚ) * 2 ^ ulpExponent q - m * 2 ^ ulpExponent q| := grid_gap hkm
        _ = |roundAbs y - q| := by rw [← hk, ← hn, ← hm]
    have hbits := lt_two_zpow_ulpExponent hq
    rw [zpow_add₀ (by norm_num)] at hbits
    norm_num at hbits
    have hpow : (0 : ℚ) < 2 ^ ulpExponent q := by positivity
    linarith
  · obtain ⟨k, hk⟩ := grid_refine hle m
    have hgap : (2 : ℚ) ^ ulpExponent y ≤ |roundAbs y - q| := by
      have hkn : (n : ℚ) * 2 ^ ulpExponent y ≠ k * 2 ^ ulpExponent y := by rwa [← hk, ← hn, ← hm]
      calc (2 : ℚ) ^ ulpExponent y ≤ |(n : ℚ) * 2 ^ ulpExponent y - k * 2 ^ ulpExponent y| := grid_gap hkn
        _ = |roundAbs y - q| := by rw [← hk, ← hn, ← hm]
    have hbits := lt_two_zpow_ulpExponent hy
    rw [zpow_add₀ (by norm_num)] at hbits
    norm_num at hbits
    have hpow : (0 : ℚ) < 2 ^ ulpExponent y := by positivity
    linarith [hyq.2]

theorem toRat?_ofRat (q : ℚ) : (ofRat q).toRat? = some q := by
  unfold ofRat
  split
  · rename_i hd
    rw [toRat?, num_eq_of_den hd]
  · rfl

theorem ofRat_toRat? {x : JsNumber} {q : ℚ} (h : x.toRat? = some q) : ofRat q = x := by
  cases x with
  | int z =>
    obtain rfl : (z : ℚ) = q := by simpa [toRat?] using h
    simp [ofRat]
  | frac r hr =>
    obtain rfl : r = q := by simpa [toRat?] using h
    rw [ofRat, dif_neg hr]
  | _ => simp [toRat?] at h

/-- An integer of at most 53 bits needs no rounding. -/
theorem onGrid_of_small {q : ℚ} (hq : 0 < q) (h : q.den = 1 ∧ q.num.natAbs ≤ 2 ^ 53) : OnGrid q := by
  obtain ⟨hden, hnum⟩ := h
  obtain ⟨n, hn⟩ : ∃ n : ℕ, n = q.num.natAbs := ⟨_, rfl⟩
  have hqn : q = n := by
    rw [hn, Nat.cast_natAbs, abs_of_pos (Rat.num_pos.mpr hq), num_eq_of_den hden]
  by_cases he : ulpExponent q ≤ 0
  · obtain ⟨k, hk⟩ := grid_refine he n
    exact ⟨k, by rw [← hk, zpow_zero, mul_one]; exact hqn⟩
  · have hle := two_zpow_le_of_ulpExponent hq (by omega)
    have hbound : q ≤ 2 ^ (53 : ℤ) := by
      rw [hqn, hn]
      exact_mod_cast hnum
    have he1 : ulpExponent q = 1 := by
      have hexp := (zpow_le_zpow_iff_right₀ (by norm_num : (1 : ℚ) < 2)).mp (hle.trans hbound)
      omega
    refine ⟨2 ^ 52, le_antisymm ?_ ?_⟩
    · rw [he1]
      norm_num at hbound ⊢
      exact hbound
    · rw [he1] at hle ⊢
      norm_num at hle ⊢
      exact hle

theorem roundAbs_of_onGrid {q : ℚ} (hq : 0 < q) (h : OnGrid q) : roundAbs q = q := by
  have hnear := roundAbs_nearest hq hq h
  rw [sub_self, abs_zero] at hnear
  exact sub_eq_zero.mp (abs_eq_zero.mp (le_antisymm hnear (abs_nonneg _)))

theorem round_pos {y : ℚ} (hy : 0 < y) (hfinite : roundAbs y < 2 ^ (1024 : ℕ)) : round y = ofRat (roundAbs y) := by
  by_cases hsmall : y.den = 1 ∧ y.num.natAbs ≤ 2 ^ 53
  · rw [round_of_small hsmall, roundAbs_of_onGrid hy (onGrid_of_small hy hsmall), ofRat, dif_pos hsmall.1]
  · rw [round_of_large hsmall, abs_of_pos hy, if_neg (not_le.mpr hfinite), if_pos hy]

/-- A positive double has at most 53 bits. -/
theorem onGrid_of_isDouble {q : ℚ} (hq : 0 < q) (h : round q = ofRat q) : OnGrid q ∧ q < 2 ^ (1024 : ℕ) := by
  by_cases hsmall : q.den = 1 ∧ q.num.natAbs ≤ 2 ^ 53
  · refine ⟨onGrid_of_small hq hsmall, ?_⟩
    have hbound : (q.num : ℚ) ≤ 2 ^ 53 := by
      have : q.num ≤ 2 ^ 53 := by omega
      exact_mod_cast this
    rw [num_eq_of_den hsmall.1] at hbound
    exact hbound.trans_lt (pow_lt_pow_right₀ (by norm_num) (by norm_num))
  · rw [round_of_large hsmall, abs_of_pos hq, if_pos hq, if_pos hq] at h
    split at h
    · have hfinite := toRat?_ofRat q
      rw [← h] at hfinite
      cases hfinite
    · rename_i hlt
      have heq : roundAbs q = q := by
        have htoRat := congrArg toRat? h
        rwa [toRat?_ofRat, toRat?_ofRat, Option.some.injEq] at htoRat
      exact ⟨onGrid_roundAbs heq, by rw [← heq]; exact not_le.mp hlt⟩

theorem round_of_near {y q : ℚ} (hy : 0 < y) (hq : 0 < q) (hdouble : round q = ofRat q)
    (hnear : 2 * 10 ^ 16 * |y - q| ≤ q) : round y = ofRat q := by
  obtain ⟨hgrid, hbound⟩ := onGrid_of_isDouble hq hdouble
  have hround := roundAbs_of_near hy hq hgrid hnear
  rw [round_pos hy (hround ▸ hbound), hround]

theorem ten_zpow_decimalExponent {q : ℚ} (hq : 0 < q) : (10 : ℚ) ^ (decimalExponent q - 1) ≤ q := by
  have htop : ∀ n : ℕ, n ≠ 0 → 10 ^ ((Nat.digits 10 n).length - 1) ≤ n := by
    intro n hn
    have hlength := Nat.length_digits 10 n (by norm_num) hn
    rw [hlength, Nat.add_sub_cancel]
    exact Nat.pow_log_le_self 10 hn
  unfold decimalExponent
  split
  · rename_i hone
    have hfloor : 1 ≤ q.floor := Rat.le_floor_iff.mpr (by exact_mod_cast hone)
    obtain ⟨n, hn⟩ := Int.eq_ofNat_of_zero_le (by omega : 0 ≤ q.floor)
    have hn0 : n ≠ 0 := by omega
    have hdigits := htop n hn0
    have hpos : 0 < (Nat.digits 10 n).length := by
      rw [Nat.length_digits 10 n (by norm_num) hn0]
      omega
    have hnq : (n : ℚ) ≤ q := by
      have := Rat.floor_le q
      rw [hn] at this
      exact_mod_cast this
    rw [hn, Int.toNat_natCast]
    have hexp : ((Nat.digits 10 n).length : ℤ) - 1 = (((Nat.digits 10 n).length - 1 : ℕ) : ℤ) := by omega
    rw [hexp, zpow_natCast]
    calc (10 : ℚ) ^ ((Nat.digits 10 n).length - 1) ≤ n := by exact_mod_cast hdigits
      _ ≤ q := hnq
  · rename_i hone
    have hinv : 1 < 1 / q := by
      rw [lt_div_iff₀ hq, one_mul]
      exact not_le.mp hone
    have hceil : 1 / q ≤ ((1 / q).ceil : ℚ) := Rat.le_ceil
    have hceil0 : 0 ≤ (1 / q).ceil := by
      have : (0 : ℚ) < (1 / q).ceil := by linarith
      have : 0 < (1 / q).ceil := by exact_mod_cast this
      omega
    obtain ⟨c, hc⟩ := Int.eq_ofNat_of_zero_le hceil0
    have hle : 1 / q ≤ c := by
      rw [hc] at hceil
      exact_mod_cast hceil
    have hpred : c ≤ 10 ^ (Nat.digits 10 c.pred).length := by
      have hlt := Nat.lt_base_pow_length_digits (b := 10) (m := c.pred) (by norm_num)
      exact Nat.le_of_pred_lt hlt
    rw [hc, Int.toNat_natCast]
    have hexp : (1 : ℤ) - (Nat.digits 10 c.pred).length - 1 = -((Nat.digits 10 c.pred).length : ℤ) := by ring
    rw [hexp, zpow_neg, zpow_natCast, inv_le_comm₀ (by positivity) hq]
    calc q⁻¹ = 1 / q := (one_div q).symm
      _ ≤ c := hle
      _ ≤ 10 ^ (Nat.digits 10 c.pred).length := by exact_mod_cast hpred

theorem round_zero : round 0 = int 0 := round_int (z := 0) (by norm_num)

/-- Of seventeen digits the nearest are read back. -/
theorem digitsAt?_seventeen {q : ℚ} (hq : 0 < q) (hdouble : round q = ofRat q) :
    ∃ s, digitsAt? (ofRat q) q 17 = some s := by
  obtain ⟨scale, hscale⟩ : ∃ scale : ℚ, scale = 10 ^ (decimalExponent q - (17 : ℕ)) := ⟨_, rfl⟩
  have hpow : 0 < scale := by rw [hscale]; positivity
  have hsmall : 10 ^ 16 * scale ≤ q := by
    have hsplit : (10 : ℚ) ^ (decimalExponent q - 1) = 10 ^ 16 * scale := by
      rw [hscale, ← zpow_natCast, ← zpow_add₀ (by norm_num)]
      congr 1
      push_cast
      ring
    rw [← hsplit]
    exact ten_zpow_decimalExponent hq
  have h0 : 0 ≤ (q / scale).floor := Rat.le_floor_iff.mpr (by simpa using (div_pos hq hpow).le)
  have hcast : (((q / scale).floor.toNat : ℕ) : ℚ) = (q / scale).floor := by
    exact_mod_cast congrArg (Int.cast (R := ℚ)) (Int.toNat_of_nonneg h0)
  obtain ⟨low, hlow⟩ : ∃ low, low = (q / scale).floor.toNat := ⟨_, rfl⟩
  have hfloor : (low : ℚ) ≤ q / scale ∧ q / scale < low + 1 := by
    rw [hlow, hcast]
    exact ⟨Rat.floor_le _, by exact_mod_cast Rat.lt_floor_add_one (q / scale)⟩
  have hbig : (10 : ℚ) ^ 16 ≤ q / scale := by rwa [le_div_iff₀ hpow]
  have hreads : ∀ s : ℕ, 0 < s → |(s : ℚ) - q / scale| ≤ 1 / 2 → round (s * scale) = ofRat q := by
    intro s hs hnear
    have hy : 0 < (s : ℚ) * scale := mul_pos (by exact_mod_cast hs) hpow
    refine round_of_near hy hq hdouble ?_
    have hdist : |(s : ℚ) * scale - q| = |(s : ℚ) - q / scale| * scale := by
      rw [← abs_of_pos hpow, ← abs_mul, abs_of_pos hpow, sub_mul, div_mul_cancel₀ _ hpow.ne']
    rw [hdist]
    have := mul_le_mul_of_nonneg_right hnear hpow.le
    linarith
  have hlow0 : 0 < low := by
    have : (0 : ℚ) < low := by linarith [hfloor.2]
    exact_mod_cast this
  simp only [digitsAt?, ← hscale, ← hlow]
  by_cases hfirst : q / scale - low ≤ (low + 1 : ℕ) - q / scale
  · have hread := hreads low hlow0 (by
      push_cast at hfirst
      rw [abs_of_nonpos (by linarith [hfloor.1])]
      linarith)
    rw [if_pos (by simpa using hfirst)]
    exact ⟨low, by simp [hread]⟩
  · have hread := hreads (low + 1) (by omega) (by
      push_cast at hfirst ⊢
      rw [abs_of_nonneg (by linarith [hfloor.2])]
      linarith)
    rw [if_neg (by simpa using hfirst)]
    push_cast at hread
    exact ⟨low + 1, by simp [hread]⟩

/-- Digits that were found are read back. -/
theorem round_of_digitsAt? {x : JsNumber} {q : ℚ} {k s : ℕ} (h : digitsAt? x q k = some s) :
    round (s * 10 ^ (decimalExponent q - k)) = x := by
  simp only [digitsAt?, decide_eq_true_eq] at h
  split_ifs at h with _ hlow hhigh hhigh hlow
  all_goals
    obtain rfl := Option.some.inj h
    assumption

theorem round_shortestDigits {q : ℚ} (hq : 0 < q) (hdouble : round q = ofRat q) :
    round ((shortestDigits (ofRat q) q).2 * 10 ^ (decimalExponent q - (shortestDigits (ofRat q) q).1)) = ofRat q := by
  obtain ⟨s, hs⟩ := digitsAt?_seventeen hq hdouble
  have hsome : ((List.range 17).findSome? (fun k => (digitsAt? (ofRat q) q (k + 1)).map (fun s => (k + 1, s)))).isSome := by
    rw [List.findSome?_isSome_iff]
    exact ⟨16, by simp, by simp [hs]⟩
  obtain ⟨p, hp⟩ := Option.isSome_iff_exists.mp hsome
  obtain ⟨k, -, hk⟩ := List.exists_of_findSome?_eq_some hp
  obtain ⟨d, hd, rfl⟩ := Option.map_eq_some_iff.mp hk
  rw [shortestDigits, hp, Option.getD_some]
  exact round_of_digitsAt? hd

end JsNumber

end Js
