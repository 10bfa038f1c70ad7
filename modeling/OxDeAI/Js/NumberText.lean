import OxDeAI.Js.JsonRoundTrip
import OxDeAI.Js.ShortestDigits

/-! The text of a double is read back as the double: each of the four layouts of its
digits has the value of the digits at their point. -/

namespace Js

def Digits (ds : JsString) : Prop := ∀ u ∈ ds, isDigit u = true

/-- A text that does not go on with a digit. -/
def DigitsEnd (rest : JsString) : Prop := ∀ u ∈ rest.head?, isDigit u = false

theorem NumberEnd.digitsEnd {rest : JsString} (h : NumberEnd rest) : DigitsEnd rest := by
  intro u hu
  cases rest with
  | nil => cases hu
  | cons v vs =>
    obtain rfl : v = u := by simpa using hu
    exact h.1

theorem span_digitsEnd {ds rest : JsString} (hd : Digits ds) (hr : DigitsEnd rest) :
    (ds ++ rest).span isDigit = (ds, rest) := by
  rw [List.span_eq_takeWhile_dropWhile]
  have hrest : rest.takeWhile isDigit = [] ∧ rest.dropWhile isDigit = rest := by
    cases rest with
    | nil => exact ⟨rfl, rfl⟩
    | cons u us => simp [hr u rfl]
  rw [List.takeWhile_append_of_pos hd, List.dropWhile_append_of_pos hd, hrest.1, hrest.2, List.append_nil]

theorem digitsValue_append (as bs : JsString) :
    digitsValue (as ++ bs) = digitsValue as * 10 ^ bs.length + digitsValue bs := by
  have hfold : ∀ (bs : JsString) (n : ℕ),
      bs.foldl (fun n d => 10 * n + (d.val - 48)) n = n * 10 ^ bs.length + digitsValue bs := by
    intro bs
    induction bs with
    | nil => intro n; simp [digitsValue]
    | cons b bs ih =>
      intro n
      have hhead := ih (10 * 0 + (b.val - 48))
      have hcons : digitsValue (b :: bs) = (10 * 0 + (b.val - 48)) * 10 ^ bs.length + digitsValue bs := hhead
      rw [List.foldl_cons, ih, hcons, List.length_cons]
      ring
  rw [digitsValue, List.foldl_append, hfold]
  rfl

namespace JsNumber

theorem digits_zeros (n : ℕ) : Digits (zeros n) := by
  intro u hu
  obtain rfl := List.eq_of_mem_replicate hu
  decide

theorem length_zeros (n : ℕ) : (zeros n).length = n := List.length_replicate

theorem digitsValue_zeros (n : ℕ) : digitsValue (zeros n) = 0 := by
  induction n with
  | zero => rfl
  | succ n ih =>
    have hcons : zeros (n + 1) = [unit 48] ++ zeros n := rfl
    have hzero : digitsValue [unit 48] = 0 := by decide
    rw [hcons, digitsValue_append, hzero, ih]
    simp

/-- Digits lose nothing but zeros at the end. -/
theorem dropTrailingZeros_spec (ds : JsString) : ∃ m, ds = dropTrailingZeros ds ++ zeros m := by
  obtain ⟨run, hrun⟩ : ∃ run, run = ds.reverse.takeWhile (fun u => u.val = 48) := ⟨_, rfl⟩
  have hzeros : run = zeros run.length := by
    refine List.eq_replicate_iff.mpr ⟨rfl, fun u hu => ?_⟩
    have hall := List.all_takeWhile (p := fun u : CodeUnit => decide (u.val = 48)) (l := ds.reverse)
    rw [← hrun, List.all_eq_true] at hall
    rw [← unit_self u, of_decide_eq_true (hall u hu)]
  have hreverse : run.reverse = zeros run.length := by
    conv_lhs => rw [hzeros]
    rw [zeros, List.reverse_replicate]
  have hsplit := congrArg List.reverse
    (List.takeWhile_append_dropWhile (p := fun u : CodeUnit => decide (u.val = 48)) (l := ds.reverse))
  rw [List.reverse_append, List.reverse_reverse, ← hrun, hreverse] at hsplit
  exact ⟨run.length, hsplit.symm⟩

end JsNumber

theorem parseUnsigned_parts {whole tail fraction more rest : JsString} {e : ℤ} (hwhole : Digits whole) (hne : whole ≠ [])
    (hzero : ¬ (whole.head? = some (unit 48) ∧ 1 < whole.length)) (htail : DigitsEnd tail)
    (hfraction : parseFraction tail = some (fraction, more)) (hexponent : parseExponent more = some (e, rest)) :
    parseUnsigned (whole ++ tail) =
      some ((digitsValue whole + digitsValue fraction / 10 ^ fraction.length) * (10 : ℚ) ^ e, rest) := by
  rw [parseUnsigned, span_digitsEnd hwhole htail]
  simp only [hne, hzero, or_self, if_false, hfraction, hexponent]

theorem parseFraction_point {ds rest : JsString} (hd : Digits ds) (hne : ds ≠ []) (hr : DigitsEnd rest) :
    parseFraction (unit 46 :: (ds ++ rest)) = some (ds, rest) := by
  have hpoint : (unit 46).val = 46 := unit_val (by omega)
  simp only [parseFraction, hpoint, if_true, span_digitsEnd hd hr, hne, if_false]

theorem parseFraction_letter {u : CodeUnit} (h : u.val ≠ 46) (us : JsString) :
    parseFraction (u :: us) = some ([], u :: us) := by
  rw [parseFraction, if_neg h]

theorem parseExponent_letter (e : ℤ) {rest : JsString} (hr : NumberEnd rest) :
    parseExponent (js "e" ++ (if 0 ≤ e then js "+" else js "-") ++ natDecimal e.natAbs ++ rest) = some (e, rest) := by
  obtain ⟨hne, hdigits, hvalue, -⟩ := natDecimal_spec e.natAbs
  have hspan := span_digits hdigits hr
  rw [List.span_eq_takeWhile_dropWhile, Prod.mk.injEq] at hspan
  by_cases he : 0 ≤ e
  · have hcast : ((e.natAbs : ℕ) : ℤ) = e := Int.natAbs_of_nonneg he
    have htext : js "e" ++ (if 0 ≤ e then js "+" else js "-") ++ natDecimal e.natAbs ++ rest =
        unit 101 :: unit 43 :: (natDecimal e.natAbs ++ rest) := by
      rw [if_pos he]
      rfl
    rw [htext, parseExponent, if_pos (.inl (unit_val (by omega)))]
    simp [hspan.1, hspan.2, hne, hvalue, abs_of_nonneg he]
  · have hcast : ((e.natAbs : ℕ) : ℤ) = -e := Int.ofNat_natAbs_of_nonpos (by omega)
    have htext : js "e" ++ (if 0 ≤ e then js "+" else js "-") ++ natDecimal e.natAbs ++ rest =
        unit 101 :: unit 45 :: (natDecimal e.natAbs ++ rest) := by
      rw [if_neg he]
      rfl
    rw [htext, parseExponent, if_pos (.inl (unit_val (by omega)))]
    simp [hspan.1, hspan.2, hne, hvalue, abs_of_neg (not_le.mp he)]

namespace JsNumber

theorem digitsEnd_cons {u : CodeUnit} (h : isDigit u = false) (us : JsString) : DigitsEnd (u :: us) := by
  intro v hv
  obtain rfl : u = v := by simpa using hv
  exact h

section

variable {digits rest : JsString} {point : ℤ}

/-- A digit string that is no number with a leading zero. -/
structure Leads (digits : JsString) : Prop where
  all : Digits digits
  head : ∃ u us, digits = u :: us ∧ u ≠ unit 48

theorem Leads.ne_nil (h : Leads digits) : digits ≠ [] := by
  obtain ⟨u, us, rfl, -⟩ := h.head
  exact List.cons_ne_nil u us

theorem Leads.not_zero (h : Leads digits) (more : JsString) :
    ¬ ((digits ++ more).head? = some (unit 48) ∧ 1 < (digits ++ more).length) := by
  obtain ⟨u, us, rfl, hu⟩ := h.head
  rintro ⟨hhead, -⟩
  exact hu (Option.some.inj hhead)

theorem Leads.take (h : Leads digits) {n : ℕ} (hn : 0 < n) : Leads (digits.take n) := by
  obtain ⟨u, us, hd, hu⟩ := h.head
  obtain ⟨m, rfl⟩ : ∃ m, n = m + 1 := ⟨n - 1, by omega⟩
  exact ⟨fun v hv => h.all v (List.mem_of_mem_take hv), u, us.take m, by rw [hd, List.take_succ_cons], hu⟩

/-- The digits at their point, read as a number. -/
def ReadsAt (text digits : JsString) (point : ℤ) : Prop :=
  ∀ rest, NumberEnd rest →
    parseUnsigned (text ++ rest) = some (digitsValue digits * (10 : ℚ) ^ (point - digits.length), rest)

theorem readsAt_whole (h : Leads digits) (hpoint : digits.length ≤ point) :
    ReadsAt (digits ++ zeros (point - digits.length).toNat) digits point := by
  intro rest hrest
  obtain ⟨n, hn⟩ := Int.eq_ofNat_of_zero_le (sub_nonneg.mpr hpoint)
  rw [hn, Int.toNat_natCast]
  have hdigits : Digits (digits ++ zeros n) := by
    intro u hu
    rcases List.mem_append.mp hu with hu | hu
    · exact h.all u hu
    · exact digits_zeros n u hu
  have hread := parseUnsigned_parts hdigits (by simp [h.ne_nil]) (h.not_zero _) hrest.digitsEnd (parseFraction_end hrest)
    (parseExponent_end hrest)
  have hvalue : digitsValue (digits ++ zeros n) = digitsValue digits * 10 ^ n := by
    rw [digitsValue_append, digitsValue_zeros, length_zeros, add_zero]
  have hnone : digitsValue [] = 0 := rfl
  rw [hread, hvalue, hnone]
  simp

theorem readsAt_point (h : Leads digits) (hpos : 0 < point) (hpoint : point < digits.length) :
    ReadsAt (digits.take point.toNat ++ unit 46 :: digits.drop point.toNat) digits point := by
  intro rest hrest
  obtain ⟨n, rfl⟩ := Int.eq_ofNat_of_zero_le hpos.le
  have hn : 0 < n ∧ n < digits.length := by omega
  rw [Int.toNat_natCast]
  have hlead := h.take hn.1
  have hdrop : Digits (digits.drop n) := fun u hu => h.all u (List.mem_of_mem_drop hu)
  have hne : digits.drop n ≠ [] := by
    intro hnil
    have := List.drop_eq_nil_iff.mp hnil
    omega
  have hzero := hlead.not_zero []
  rw [List.append_nil] at hzero
  have hread := parseUnsigned_parts hlead.all hlead.ne_nil hzero (digitsEnd_cons (by decide) _)
    (parseFraction_point hdrop hne hrest.digitsEnd) (parseExponent_end hrest)
  have hvalue : digitsValue digits = digitsValue (digits.take n) * 10 ^ (digits.drop n).length + digitsValue (digits.drop n) := by
    rw [← digitsValue_append, List.take_append_drop]
  have hexp : (n : ℤ) - digits.length = -((digits.drop n).length : ℤ) := by
    rw [List.length_drop]
    omega
  have hpow : (10 : ℚ) ^ (digits.drop n).length ≠ 0 := by positivity
  rw [List.append_assoc, List.cons_append, hread, hvalue, hexp, zpow_neg, zpow_natCast, zpow_zero, mul_one]
  push_cast
  rw [← div_eq_mul_inv, add_div, mul_div_cancel_right₀ _ hpow]

theorem readsAt_small (h : Leads digits) (hpoint : point ≤ 0) :
    ReadsAt (js "0." ++ zeros (-point).toNat ++ digits) digits point := by
  intro rest hrest
  obtain ⟨n, hn⟩ := Int.eq_ofNat_of_zero_le (neg_nonneg.mpr hpoint)
  rw [hn, Int.toNat_natCast]
  have hdigits : Digits (zeros n ++ digits) := by
    intro u hu
    rcases List.mem_append.mp hu with hu | hu
    · exact digits_zeros n u hu
    · exact h.all u hu
  have hwhole : Digits [unit 48] := by simpa [Digits] using (by decide : isDigit (unit 48) = true)
  have hread := parseUnsigned_parts hwhole (by simp) (by simp) (digitsEnd_cons (by decide) _)
    (parseFraction_point hdigits (by simp [h.ne_nil]) hrest.digitsEnd) (parseExponent_end hrest)
  have hvalue : digitsValue (zeros n ++ digits) = digitsValue digits := by
    rw [digitsValue_append, digitsValue_zeros, zero_mul, zero_add]
  have htext : js "0." ++ zeros n ++ digits ++ rest = [unit 48] ++ unit 46 :: (zeros n ++ digits ++ rest) := by
    simp only [List.append_assoc]
    rfl
  have hexp : point - digits.length = -(((zeros n ++ digits).length : ℕ) : ℤ) := by
    rw [List.length_append, length_zeros]
    omega
  have hzero : digitsValue [unit 48] = 0 := by decide
  rw [htext, hread, hvalue, hexp, hzero, zpow_neg, zpow_natCast]
  simp [div_eq_mul_inv]

theorem readsAt_exponent (h : Leads digits) :
    ReadsAt ((if digits.length = 1 then digits else digits.take 1 ++ unit 46 :: digits.drop 1) ++ js "e" ++
      (if 0 ≤ point - 1 then js "+" else js "-") ++ natDecimal (point - 1).natAbs) digits point := by
  intro rest hrest
  obtain ⟨more, hmore⟩ : ∃ more, more = (if 0 ≤ point - 1 then js "+" else js "-") ++ (natDecimal (point - 1).natAbs ++ rest) :=
    ⟨_, rfl⟩
  have hexponent := parseExponent_letter (point - 1) hrest
  have hend : DigitsEnd (js "e" ++ more) := digitsEnd_cons (u := unit 101) (by decide) more
  simp only [List.append_assoc, ← hmore] at hexponent ⊢
  by_cases hone : digits.length = 1
  · have hread := parseUnsigned_parts h.all h.ne_nil (by rintro ⟨-, hlt⟩; omega) hend
      (parseFraction_letter (u := unit 101) (by decide) more) hexponent
    have hnone : digitsValue [] = 0 := rfl
    rw [if_pos hone, hread, hnone, hone]
    simp
  · have hlead := h.take (n := 1) (by omega)
    have hlength : 1 < digits.length := by
      have := List.length_pos_of_ne_nil h.ne_nil
      omega
    have hdrop : Digits (digits.drop 1) := fun u hu => h.all u (List.mem_of_mem_drop hu)
    have hne : digits.drop 1 ≠ [] := by
      intro hnil
      have := List.drop_eq_nil_iff.mp hnil
      omega
    have hzero := hlead.not_zero []
    rw [List.append_nil] at hzero
    have hread := parseUnsigned_parts hlead.all hlead.ne_nil hzero (digitsEnd_cons (by decide) _)
      (parseFraction_point hdrop hne hend) hexponent
    have hvalue : digitsValue digits = digitsValue (digits.take 1) * 10 ^ (digits.drop 1).length + digitsValue (digits.drop 1) := by
      rw [← digitsValue_append, List.take_append_drop]
    have hexp : point - digits.length = -((digits.drop 1).length : ℤ) + (point - 1) := by
      rw [List.length_drop]
      omega
    have hpow : (10 : ℚ) ^ (digits.drop 1).length ≠ 0 := by positivity
    rw [if_neg hone, List.append_assoc, List.cons_append, hread, hvalue, hexp, zpow_add₀ (by norm_num), zpow_neg, zpow_natCast]
    push_cast
    rw [← mul_assoc, ← div_eq_mul_inv, add_div, mul_div_cancel_right₀ _ hpow]

theorem readsAt_layout (h : Leads digits) (point : ℤ) : ReadsAt (layout digits point) digits point := by
  simp only [layout]
  by_cases hwhole : (digits.length : ℤ) ≤ point ∧ point ≤ 21
  · rw [if_pos hwhole]
    exact readsAt_whole h hwhole.1
  · rw [if_neg hwhole]
    by_cases hpoint : 0 < point ∧ point ≤ 21
    · rw [if_pos hpoint]
      exact readsAt_point h hpoint.1 (by omega)
    · rw [if_neg hpoint]
      by_cases hsmall : -6 < point ∧ point ≤ 0
      · rw [if_pos hsmall]
        exact readsAt_small h hsmall.2
      · rw [if_neg hsmall]
        exact readsAt_exponent h

theorem layout_head (h : Leads digits) (point : ℤ) : ∃ u us, layout digits point = u :: us ∧ isDigit u = true := by
  obtain ⟨u, us, hd, -⟩ := h.head
  have hu : isDigit u = true := h.all u (by rw [hd]; exact List.mem_cons_self)
  simp only [layout]
  split_ifs with h1 h2 h3
  · exact ⟨u, _, by rw [hd]; rfl, hu⟩
  · obtain ⟨n, hn⟩ : ∃ n, point.toNat = n + 1 := ⟨point.toNat - 1, by omega⟩
    exact ⟨u, _, by rw [hn, hd]; rfl, hu⟩
  · exact ⟨unit 48, _, rfl, by decide⟩
  all_goals exact ⟨u, _, by rw [hd]; rfl, hu⟩

end

theorem leads_natDecimal {n : ℕ} (hn : n ≠ 0) : Leads (dropTrailingZeros (natDecimal n)) := by
  obtain ⟨hne, hdigits, hvalue, hzero⟩ := natDecimal_spec n
  obtain ⟨m, hm⟩ := dropTrailingZeros_spec (natDecimal n)
  have hdrop : Digits (dropTrailingZeros (natDecimal n)) := by
    intro u hu
    exact hdigits u (by rw [hm]; exact List.mem_append_left _ hu)
  refine ⟨hdrop, ?_⟩
  cases hd : dropTrailingZeros (natDecimal n) with
  | nil =>
    rw [hd, List.nil_append] at hm
    rw [hm, digitsValue_zeros] at hvalue
    exact absurd hvalue.symm hn
  | cons u us =>
    refine ⟨u, us, rfl, ?_⟩
    rintro rfl
    -- a leading zero stands alone, and is the number zero
    have hhead : (natDecimal n).head? = some (unit 48) := by rw [hm, hd]; rfl
    have hlength : (natDecimal n).length = 1 := by
      have := List.length_pos_of_ne_nil hne
      have : ¬ 1 < (natDecimal n).length := fun hlt => hzero ⟨hhead, hlt⟩
      omega
    obtain ⟨v, hv⟩ := List.length_eq_one_iff.mp hlength
    rw [hv, List.head?_cons, Option.some.injEq] at hhead
    rw [hv, hhead, show digitsValue [unit 48] = 0 by decide] at hvalue
    exact hn hvalue.symm

/-- The text of a positive double. -/
theorem positiveText_spec {q : ℚ} (hq : 0 < q) (hdouble : round q = ofRat q) :
    (∃ u us, positiveText (ofRat q) q = u :: us ∧ isDigit u = true) ∧
      ∀ rest, NumberEnd rest → ∃ v, parseUnsigned (positiveText (ofRat q) q ++ rest) = some (v, rest) ∧ round v = ofRat q := by
  obtain ⟨⟨k, s⟩, hks⟩ : ∃ p, shortestDigits (ofRat q) q = p := ⟨_, rfl⟩
  have hround := round_shortestDigits hq hdouble
  rw [hks] at hround
  have hs : s ≠ 0 := by
    rintro rfl
    have htoRat := congrArg toRat? hround
    rw [Nat.cast_zero, zero_mul, round_zero, toRat?_ofRat] at htoRat
    exact hq.ne (by simpa [toRat?] using htoRat)
  obtain ⟨digits, hdigits⟩ : ∃ digits, digits = dropTrailingZeros (natDecimal s) := ⟨_, rfl⟩
  have hlead : Leads digits := hdigits ▸ leads_natDecimal hs
  have htext : positiveText (ofRat q) q = layout digits (decimalExponent q + (natDecimal s).length - k) := by
    rw [positiveText, hks, hdigits]
  obtain ⟨m, hm⟩ := dropTrailingZeros_spec (natDecimal s)
  rw [← hdigits] at hm
  refine ⟨htext ▸ layout_head hlead _, fun rest hrest => ⟨_, htext ▸ readsAt_layout hlead _ rest hrest, ?_⟩⟩
  have hvalue : (s : ℚ) = digitsValue digits * 10 ^ m := by
    have hspec := (natDecimal_spec s).2.2.1
    rw [hm, digitsValue_append, digitsValue_zeros, length_zeros, add_zero] at hspec
    rw [← hspec]
    push_cast
    rfl
  have hlength : ((natDecimal s).length : ℤ) = digits.length + m := by
    rw [hm, List.length_append, length_zeros]
    push_cast
    rfl
  have hexp : decimalExponent q + ((natDecimal s).length : ℤ) - k - digits.length = m + (decimalExponent q - k) := by
    rw [hlength]
    ring
  rw [← hround, hvalue, hexp, zpow_add₀ (by norm_num), zpow_natCast, mul_assoc]

/-- A double is zero, or a positive double with or without a sign. -/
theorem text_cases {x : JsNumber} {q : ℚ} (hx : x.toRat? = some q) :
    (q = 0 ∧ x.text = js "0") ∨ (q < 0 ∧ x.text = unit 45 :: positiveText (ofRat (-q)) (-q)) ∨
      (0 < q ∧ x.text = positiveText (ofRat q) q) := by
  rcases lt_trichotomy q 0 with hq | rfl | hq
  · refine .inr (.inl ⟨hq, ?_⟩)
    cases x with
    | int z =>
      obtain rfl : (z : ℚ) = q := by simpa [toRat?] using hx
      have hz : z < 0 := by exact_mod_cast hq
      have hneg : ofRat (-(z : ℚ)) = int (-z) := by
        have := ofRat_toRat? (x := int (-z)) (q := ((-z : ℤ) : ℚ)) rfl
        rwa [Int.cast_neg] at this
      rw [text, if_neg hz.ne, if_pos hz, hneg]
      push_cast
      rfl
    | frac r hr =>
      obtain rfl : r = q := by simpa [toRat?] using hx
      rw [text, if_pos hq]
    | _ => simp [toRat?] at hx
  · refine .inl ⟨rfl, ?_⟩
    have hzero := ofRat_toRat? hx
    have hint : ofRat 0 = int 0 := by decide
    rw [← hzero, hint]
    rfl
  · refine .inr (.inr ⟨hq, ?_⟩)
    have hofRat := ofRat_toRat? hx
    cases x with
    | int z =>
      obtain rfl : (z : ℚ) = q := by simpa [toRat?] using hx
      have hz : 0 < z := by exact_mod_cast hq
      rw [hofRat, text, if_neg hz.ne', if_neg (not_lt.mpr hz.le)]
    | frac r hr =>
      obtain rfl : r = q := by simpa [toRat?] using hx
      rw [hofRat, text, if_neg (not_lt.mpr hq.le)]
    | _ => simp [toRat?] at hx

/-- The text of a double, read up to where it ends, is the double. -/
theorem parseNumber_text {x : JsNumber} (hfinite : x.isFinite = true) (hdouble : x.IsDouble) {rest : JsString}
    (hrest : NumberEnd rest) : parseNumber (x.text ++ rest) = some (x, rest) := by
  obtain ⟨q, hq⟩ := Option.isSome_iff_exists.mp hfinite
  have hround : round q = ofRat q := (hdouble q hq).trans (ofRat_toRat? hq).symm
  rcases text_cases hq with ⟨rfl, htext⟩ | ⟨hneg, htext⟩ | ⟨hpos, htext⟩
  · have hx : x = int 0 := by
      rw [← ofRat_toRat? hq]
      decide
    have hzero : js "0" = decimal 0 := by decide
    rw [htext, hx, hzero]
    exact parseNumber_decimal (by decide) hrest
  · have hflip : round (-q) = ofRat (-q) := by rw [round_neg, hround, neg_ofRat]
    obtain ⟨-, hread⟩ := positiveText_spec (neg_pos.mpr hneg) hflip
    obtain ⟨v, hv, hvround⟩ := hread rest hrest
    have hsign : (unit 45).val = 45 := unit_val (by omega)
    have hback : round (-v) = x := by rw [round_neg, hvround, neg_ofRat, neg_neg, ofRat_toRat? hq]
    rw [htext, List.cons_append, parseNumber, if_pos hsign, hv, Option.map_some, hback]
  · obtain ⟨⟨u, us, hu, hdigit⟩, hread⟩ := positiveText_spec hpos hround
    obtain ⟨v, hv, hvround⟩ := hread rest hrest
    have hunsigned : u.val ≠ 45 := by
      simp only [isDigit, Bool.and_eq_true, decide_eq_true_eq] at hdigit
      omega
    rw [hu] at hv
    rw [htext, hu, List.cons_append, parseNumber, if_neg hunsigned, ← List.cons_append, hv, Option.map_some, hvround,
      ofRat_toRat? hq]

theorem text_head {x : JsNumber} (hfinite : x.isFinite = true) (hdouble : x.IsDouble) :
    ∃ u us, x.text = u :: us ∧ (u.val = 45 ∨ isDigit u = true) := by
  obtain ⟨q, hq⟩ := Option.isSome_iff_exists.mp hfinite
  have hround : round q = ofRat q := (hdouble q hq).trans (ofRat_toRat? hq).symm
  rcases text_cases hq with ⟨-, htext⟩ | ⟨-, htext⟩ | ⟨hpos, htext⟩
  · exact ⟨unit 48, [], htext, .inr (by decide)⟩
  · exact ⟨unit 45, _, htext, .inl (unit_val (by omega))⟩
  · obtain ⟨⟨u, us, hu, hdigit⟩, -⟩ := positiveText_spec hpos hround
    exact ⟨u, us, htext.trans hu, .inr hdigit⟩

theorem isBasic_digits {ds : JsString} (h : Digits ds) : ds.all isBasic = true := by
  rw [List.all_eq_true]
  intro u hu
  have hdigit := h u hu
  simp only [isDigit, Bool.and_eq_true, decide_eq_true_eq] at hdigit
  simp only [isBasic, decide_eq_true_eq]
  omega

theorem isBasic_layout {ds : JsString} (h : Digits ds) (point : ℤ) : (layout ds point).all isBasic = true := by
  have hds := isBasic_digits h
  have hzeros := fun n => isBasic_digits (digits_zeros n)
  have htake := fun n => @isBasic_digits (ds.take n) fun u hu => h u (List.mem_of_mem_take hu)
  have hdrop := fun n => @isBasic_digits (ds.drop n) fun u hu => h u (List.mem_of_mem_drop hu)
  have hexponent := isBasic_digits (natDecimal_spec (point - 1).natAbs).2.1
  have hpoint : isBasic (unit 46) = true := by decide
  have hletters : (js "0.").all isBasic = true ∧ (js "e").all isBasic = true ∧ (js "+").all isBasic = true ∧
      (js "-").all isBasic = true := by decide
  simp only [layout]
  split_ifs <;> simp only [List.all_append, List.all_cons, hds, hzeros, htake, hdrop, hexponent, hpoint, hletters, Bool.and_self]

theorem wellFormed_text (x : JsNumber) : WellFormed x.text := by
  have hpositive : ∀ (y : JsNumber) (q : ℚ), (positiveText y q).all isBasic = true := by
    intro y q
    obtain ⟨⟨k, s⟩, hks⟩ : ∃ p, shortestDigits y q = p := ⟨_, rfl⟩
    obtain ⟨m, hm⟩ := dropTrailingZeros_spec (natDecimal s)
    rw [positiveText, hks]
    exact isBasic_layout (fun u hu => (natDecimal_spec s).2.1 u (by rw [hm]; exact List.mem_append_left _ hu)) _
  have hsigned : ∀ (y : JsNumber) (q : ℚ), (unit 45 :: positiveText y q).all isBasic = true := by
    intro y q
    rw [List.all_cons, hpositive, Bool.and_true]
    decide
  refine wellFormed_of_basic ?_
  cases x with
  | int z =>
    rw [text]
    split_ifs
    · decide
    · exact hsigned _ _
    · exact hpositive _ _
  | frac q h =>
    rw [text]
    split_ifs
    · exact hsigned _ _
    · exact hpositive _ _
  | nan => exact (by decide : (js "NaN").all isBasic = true)
  | posInf => exact (by decide : (js "Infinity").all isBasic = true)
  | negInf => exact (by decide : (js "-Infinity").all isBasic = true)

end JsNumber

end Js
