import OxDeAI.Core.CanonicalFields

/-! Texts that a line break separates before their bytes are hashed or signed: the
bytes determine both of them. -/

namespace OxDeAI

open Js

theorem utf8Encode_cons {u : CodeUnit} (h : u.val < 128) (s : JsString) :
    utf8Encode (u :: s) = byte u.val :: utf8Encode s := by
  have hhigh : isHighSurrogate u = false := by
    simp only [isHighSurrogate, Bool.and_eq_false_iff, decide_eq_false_iff_not]
    omega
  have hlow : isLowSurrogate u = false := by
    simp only [isLowSurrogate, Bool.and_eq_false_iff, decide_eq_false_iff_not]
    omega
  have hscalar : utf8Scalar u.val = [byte u.val] := by
    rw [utf8Scalar, if_pos h]
  cases s with
  | nil => simp [utf8Encode, hhigh, hlow, hscalar]
  | cons v vs =>
    simp only [utf8Encode, hhigh, hlow, Bool.false_eq_true, if_false, hscalar, List.singleton_append]

theorem utf8Encode_ascii {s : JsString} (h : isAscii s = true) : utf8Encode s = s.map (fun u => byte u.val) := by
  induction s with
  | nil => rfl
  | cons u us ih =>
    rw [isAscii, List.all_cons, Bool.and_eq_true, decide_eq_true_eq] at h
    rw [utf8Encode_cons h.1, List.map_cons, ih h.2]

theorem wellFormed_ascii {s : JsString} (h : isAscii s = true) : WellFormed s := by
  apply wellFormed_of_basic
  rw [isAscii, List.all_eq_true] at h
  rw [List.all_eq_true]
  intro u hu
  have := h u hu
  simp only [isBasic, decide_eq_true_eq] at this ⊢
  omega

/-- One line of ASCII text. -/
def isLine (s : JsString) : Bool := isAscii s && s.all (fun u => u.val ≠ 10)

theorem notMem_utf8Encode {s : JsString} (h : isLine s = true) : byte 10 ∉ utf8Encode s := by
  rw [isLine, Bool.and_eq_true, List.all_eq_true] at h
  rw [utf8Encode_ascii h.1, List.mem_map]
  rintro ⟨u, hu, heq⟩
  have hlt := List.all_eq_true.mp h.1 u hu
  have hne := h.2 u hu
  simp only [decide_eq_true_eq] at hlt hne
  have hval : (byte u.val).val = u.val := byte_val (by omega)
  rw [heq] at hval
  exact hne hval.symm

theorem append_separator_inj {α : Type*} {c : α} {as bs xs ys : List α} (ha : c ∉ as) (hb : c ∉ bs)
    (h : as ++ c :: xs = bs ++ c :: ys) : as = bs ∧ xs = ys := by
  induction as generalizing bs with
  | nil =>
    cases bs with
    | nil => exact ⟨rfl, List.tail_eq_of_cons_eq h⟩
    | cons b bs =>
      have hhead : c = b := List.head_eq_of_cons_eq h
      exact absurd (hhead ▸ List.mem_cons_self) hb
  | cons a as ih =>
    rw [List.mem_cons, not_or] at ha
    cases bs with
    | nil =>
      have hhead : a = c := List.head_eq_of_cons_eq h
      exact absurd hhead.symm ha.1
    | cons b bs =>
      rw [List.mem_cons, not_or] at hb
      obtain ⟨hab, hrest⟩ := List.cons.inj h
      obtain ⟨htail, hxs⟩ := ih ha.2 hb.2 hrest
      exact ⟨by rw [hab, htail], hxs⟩

/-- A line, a line break and any bytes. -/
def framed (line : JsString) (body : List Byte) : List Byte := utf8Encode line ++ utf8Encode (js "\n") ++ body

theorem framed_inj {s t : JsString} {xs ys : List Byte} (hs : isLine s = true) (ht : isLine t = true)
    (h : framed s xs = framed t ys) : s = t ∧ xs = ys := by
  have hbreak : utf8Encode (js "\n") = [byte 10] := rfl
  rw [framed, framed, hbreak, List.append_assoc, List.append_assoc] at h
  obtain ⟨hline, hbody⟩ := append_separator_inj (notMem_utf8Encode hs) (notMem_utf8Encode ht) h
  rw [isLine, Bool.and_eq_true] at hs ht
  exact ⟨utf8Encode_inj (wellFormed_ascii hs.1) (wellFormed_ascii ht.1) hline, hbody⟩

/-- Bytes without a line break are not framed. -/
theorem framed_ne {s t : JsString} {xs : List Byte} (ht : isLine t = true) : framed s xs ≠ utf8Encode t := by
  intro h
  apply notMem_utf8Encode ht
  rw [← h, framed]
  exact List.mem_append_left _ (List.mem_append_right _ (List.mem_singleton.mpr rfl))

end OxDeAI
