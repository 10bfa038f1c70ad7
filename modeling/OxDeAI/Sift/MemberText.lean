import OxDeAI.Core.CanonicalFields
import OxDeAI.Sift.PythonContract

/-! The Sift text of an object with a fixed table of keys. It tells the fields. -/

namespace OxDeAI.Sift

open Js

/-- The text of a value, as Sift writes it. -/
def signedText (v : JsValue) : JsString := applyEnsureAscii (stringify v)

/-- The text of a member, as Sift writes it. -/
def siftMember (e : JsString × JsValue) : JsString := applyEnsureAscii (quote e.1 ++ unit 58 :: stringify e.2)

def braced (members : List JsString) : JsString := unit 123 :: join comma members ++ [unit 125]

theorem braced_inj {ts us : List JsString} (h : braced ts = braced us) : join comma ts = join comma us := by
  simp only [braced, List.cons_append, List.cons.injEq, true_and] at h
  exact List.append_cancel_right h

theorem signedText_str (s : JsString) : signedText (.str s) = siftQuote s := applyEnsureAscii_quote s

theorem signedText_int {z : ℤ} (h : z.natAbs ≤ JsNumber.maxSafeInteger) : signedText (.num (.int z)) = decimal z := by
  rw [signedText, stringify, numberText, if_pos h, decimal_ascii]

theorem signedText_obj (es : List (JsString × JsValue)) : signedText (.obj es) = braced (es.map siftMember) := by
  rw [signedText, stringify, stringifyMembers_eq_map, List.cons_append, applyEnsureAscii_cons (by decide),
    applyEnsureAscii_append, applyEnsureAscii_join, List.map_map]
  rfl

theorem isAscii_quote {s : JsString} (h : isAscii s = true) : IsAscii (quote s) := by
  have hbody : IsAscii (escapeString s) := by
    induction s with
    | nil => exact fun _ hu => absurd hu List.not_mem_nil
    | cons u s ih =>
      rw [isAscii, List.all_cons, Bool.and_eq_true, decide_eq_true_eq] at h
      have hhigh : isHighSurrogate u = false := by simp [isHighSurrogate]; omega
      have hlow : isLowSurrogate u = false := by simp [isLowSurrogate]; omega
      rw [escapeString_unit hhigh hlow]
      exact IsAscii.append (ascii_of_unitCode (unitCode_escapeUnit (by omega))) (ih h.2)
  exact IsAscii.bracket (by decide) hbody (by decide)

theorem siftMember_eq {e : JsString × JsValue} (h : isAscii e.1 = true) :
    siftMember e = (quote e.1 ++ [unit 58]) ++ signedText e.2 := by
  rw [siftMember, applyEnsureAscii_append, applyEnsureAscii_of_ascii (isAscii_quote h), applyEnsureAscii_cons (by decide)]
  simp [signedText]

theorem siftMembers_of_fixed {es : List (JsString × JsValue)} (h : ∀ e ∈ es, siftCanonicalize e.2 = .ok e.2) :
    siftMembers es = es.map (fun m => (m.1, .ok m.2)) := by
  induction es with
  | nil => rfl
  | cons e es ih =>
    rw [siftMembers, h e List.mem_cons_self, ih fun f hf => h f (List.mem_cons_of_mem _ hf)]
    rfl

/-- Fields in the order of a table of keys come out in the order of the sorted table. -/
theorem siftOrder_table {keys sorted : List JsString} (value : JsString → JsValue)
    (h : siftOrder (keys.map (fun k => (k, k))) = sorted.map (fun k => (k, k))) :
    siftOrder (keys.map (fun k => (k, value k))) = sorted.map (fun k => (k, value k)) := by
  have hmap := siftOrder_map value (keys.map (fun k => (k, k)))
  rw [h, List.map_map, List.map_map] at hmap
  exact hmap

theorem siftCanonicalJson_table {keys sorted : List JsString} (value : JsString → JsValue)
    (h : siftOrder (keys.map (fun k => (k, k))) = sorted.map (fun k => (k, k)))
    (hfixed : ∀ k ∈ keys, siftCanonicalize (value k) = .ok (value k)) :
    siftCanonicalJson (.obj (keys.map (fun k => (k, value k)))) =
      .ok (braced ((sorted.map (fun k => (k, value k))).map siftMember)) := by
  have hmembers : siftMembers (keys.map (fun k => (k, value k))) =
      (keys.map (fun k => (k, value k))).map (fun m => (m.1, .ok m.2)) := by
    refine siftMembers_of_fixed fun e he => ?_
    obtain ⟨k, hk, rfl⟩ := List.mem_map.mp he
    exact hfixed k hk
  have horder := siftOrder_table value h
  rw [siftOrder] at horder
  rw [siftCanonicalJson, siftCanonicalize_obj hmembers, horder, Except.map, ← signedText_obj]
  rfl

theorem isAscii_signedText (v : JsValue) : IsAscii (signedText v) := isAscii_of_applyEnsureAscii _

theorem wellFormed_braced (es : List (JsString × JsValue)) : WellFormed (braced (es.map siftMember)) := by
  rw [← signedText_obj]
  exact wellFormed_of_isAscii (isAscii_signedText _)

/-- Strings and safe integers. -/
inductive Scalar : JsValue → Prop
  | str (s : JsString) : Scalar (.str s)
  | int {z : ℤ} (h : z.natAbs ≤ JsNumber.maxSafeInteger) : Scalar (.num (.int z))

theorem Scalar.fixed {v : JsValue} (h : Scalar v) : siftCanonicalize v = .ok v := by
  cases h with
  | str s => rfl
  | int h => rfl

theorem decimal_ne_quote (z : ℤ) (s us vs : JsString) : decimal z ++ us ≠ siftQuote s ++ vs := by
  obtain ⟨d, ds, hdigits, hdigit⟩ := natDecimal_head z.natAbs
  intro h
  unfold decimal at h
  split at h
  · exact absurd (List.cons.inj h).1 (by decide)
  · rw [hdigits] at h
    have hquote : d = unit 34 := (List.cons.inj h).1
    rw [hquote] at hdigit
    exact absurd hdigit (by decide)

/-- Where a scalar ends is told from what may follow it. -/
theorem scalar_append_inj {v w : JsValue} (hv : Scalar v) (hw : Scalar w) {us vs : JsString} (hus : NumberEnd us)
    (hvs : NumberEnd vs) (h : signedText v ++ us = signedText w ++ vs) : v = w ∧ us = vs := by
  cases hv with
  | str s =>
    rw [signedText_str] at h
    cases hw with
    | str t =>
      rw [signedText_str] at h
      obtain ⟨rfl, rfl⟩ := siftQuote_append_inj h
      exact ⟨rfl, rfl⟩
    | int hz =>
      rw [signedText_int hz] at h
      exact absurd h.symm (decimal_ne_quote _ _ _ _)
  | @int z hz =>
    rw [signedText_int hz] at h
    cases hw with
    | str t =>
      rw [signedText_str] at h
      exact absurd h (decimal_ne_quote _ _ _ _)
    | @int z' hz' =>
      rw [signedText_int hz'] at h
      have hlarge : JsNumber.maxSafeInteger ≤ 2 ^ 53 := by decide
      have hread := parseNumber_decimal (hz.trans hlarge) hus
      rw [h, parseNumber_decimal (hz'.trans hlarge) hvs] at hread
      have hpair := Prod.mk.inj (Option.some.inj hread)
      exact ⟨congrArg JsValue.num hpair.1.symm, hpair.2.symm⟩

theorem numberEnd_brace (rest : JsString) : NumberEnd (unit 125 :: rest) := ⟨by decide, by decide, by decide, by decide⟩

/-- Objects with the same table of keys and scalar values. -/
theorem members_inj {es fs : List (JsString × JsValue)} (hkeys : es.map Prod.fst = fs.map Prod.fst)
    (hascii : (es.map Prod.fst).all isAscii = true) (hes : ∀ e ∈ es, Scalar e.2) (hfs : ∀ f ∈ fs, Scalar f.2)
    (h : braced (es.map siftMember) = braced (fs.map siftMember)) : es = fs := by
  have hmember : ∀ {e f : JsString × JsValue} {us vs : JsString}, e.1 = f.1 → isAscii e.1 = true → Scalar e.2 →
      Scalar f.2 → NumberEnd us → NumberEnd vs → siftMember e ++ us = siftMember f ++ vs → e = f ∧ us = vs := by
    intro e f us vs hkey he hscalar hscalar' hus hvs heq
    simp only [siftMember_eq he, siftMember_eq (hkey ▸ he), hkey, List.append_assoc] at heq
    have hvalues := List.append_cancel_left (List.append_cancel_left heq)
    obtain ⟨hvalue, hrest⟩ := scalar_append_inj hscalar hscalar' hus hvs hvalues
    exact ⟨Prod.ext hkey hvalue, hrest⟩
  have hjoin := congrArg (· ++ [unit 125]) (braced_inj h)
  clear h
  induction es generalizing fs with
  | nil => exact (List.map_eq_nil_iff.mp hkeys.symm).symm
  | cons e es ih =>
    cases fs with
    | nil => cases hkeys
    | cons f fs =>
      rw [List.map_cons, List.map_cons, List.cons.injEq] at hkeys
      rw [List.map_cons, List.all_cons, Bool.and_eq_true] at hascii
      rw [List.forall_mem_cons] at hes hfs
      cases es with
      | nil =>
        obtain rfl : fs = [] := List.map_eq_nil_iff.mp hkeys.2.symm
        rw [(hmember hkeys.1 hascii.1 hes.1 hfs.1 (numberEnd_brace []) (numberEnd_brace []) hjoin).1]
      | cons e' es =>
        cases fs with
        | nil => cases hkeys.2
        | cons f' fs =>
          simp only [List.map_cons, join, List.append_assoc, List.cons_append] at hjoin
          obtain ⟨rfl, hrest⟩ := hmember hkeys.1 hascii.1 hes.1 hfs.1 (numberEnd_comma _) (numberEnd_comma _) hjoin
          rw [ih hkeys.2 hascii.2 hes.2 hfs.2 (List.cons.inj hrest).2]

end OxDeAI.Sift
