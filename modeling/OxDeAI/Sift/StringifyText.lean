import OxDeAI.Js.NumberText
import OxDeAI.Sift.MemberText
import OxDeAI.Sift.PropertyOrder

/-! `JSON.stringify` of JSON data is read back, as it is and with everything beyond ASCII
escaped. So either text tells the data. -/

namespace OxDeAI

open Js

/-- The numbers that JSON data has. -/
def IsFiniteDouble (x : JsNumber) : Prop := x.isFinite = true ∧ x.IsDouble

theorem stringifyElements_eq_map (xs : List JsValue) : stringifyElements xs = xs.map stringify := by
  induction xs with
  | nil => rfl
  | cons x xs ih => rw [stringifyElements, ih, List.map_cons]

theorem writes_stringify : Writes quote numberText stringify where
  null := rfl
  bool _ := rfl
  str _ := rfl
  num _ := rfl
  arr xs := by rw [stringify, stringifyElements_eq_map]
  obj es := by rw [stringify, stringifyMembers_eq_map]

theorem readsNumbers_numberText : ReadsNumbers numberText IsFiniteDouble where
  head x hx := by
    have htext := JsNumber.text_head hx.1 hx.2
    cases x with
    | int z =>
      by_cases hz : z.natAbs ≤ JsNumber.maxSafeInteger
      · rw [numberText, if_pos hz]
        exact readsNumbers_safe.head (.int z) (JsNumber.isSafeInteger_int.mpr hz)
      · rw [numberText, if_neg hz]
        exact htext
    | frac q h => exact htext
    | _ => cases hx.1
  read x hx rest hrest := by
    have htext := JsNumber.parseNumber_text hx.1 hx.2 hrest
    cases x with
    | int z =>
      by_cases hz : z.natAbs ≤ JsNumber.maxSafeInteger
      · rw [numberText, if_pos hz]
        exact readsNumbers_safe.read (.int z) (JsNumber.isSafeInteger_int.mpr hz) rest hrest
      · rw [numberText, if_neg hz]
        exact htext
    | frac q h => exact htext
    | _ => cases hx.1

theorem parseJson_stringify {v : JsValue} (h : JsonOver IsFiniteDouble v) : parseJson (stringify v) = some v :=
  parseJson_of_reads (h.reads writes_stringify readsQuoted_quote readsNumbers_numberText)

theorem stringify_inj {v w : JsValue} (hv : JsonOver IsFiniteDouble v) (hw : JsonOver IsFiniteDouble w)
    (h : stringify v = stringify w) : v = w := by
  have hread := parseJson_stringify hv
  rw [h, parseJson_stringify hw] at hread
  exact (Option.some.inj hread).symm

theorem wellFormed_numberText (x : JsNumber) : WellFormed (numberText x) := by
  cases x with
  | int z =>
    rw [numberText]
    split
    · exact wellFormed_decimal z
    · exact JsNumber.wellFormed_text _
  | frac q h =>
    rw [numberText]
    exact JsNumber.wellFormed_text _
  | _ =>
    change WellFormed (js "null")
    exact wellFormed_of_basic (by decide)

theorem wellFormed_stringify {v : JsValue} (h : JsonOver IsFiniteDouble v) : WellFormed (stringify v) :=
  h.wellFormed writes_stringify wellFormed_quote fun x _ => wellFormed_numberText x

namespace Sift

theorem readsQuoted_siftQuote : ReadsQuoted siftQuote := by
  refine fun s => ⟨s.flatMap siftUnit ++ [unit 34], rfl, fun rest => ?_⟩
  rw [List.append_assoc]
  exact parseString_siftUnits s rest

theorem writes_signedText : Writes siftQuote (fun x => signedText (.num x)) signedText where
  null := by decide
  bool b := by cases b <;> decide
  str s := signedText_str s
  num _ := rfl
  arr xs := by
    rw [signedText, stringify, stringifyElements_eq_map, List.cons_append, applyEnsureAscii_cons (by decide),
      applyEnsureAscii_append, applyEnsureAscii_join, List.map_map]
    rfl
  obj es := by
    rw [signedText_obj, braced]
    congr 3
    refine List.map_congr_left fun e _ => ?_
    rw [siftMember, applyEnsureAscii_append, applyEnsureAscii_quote, applyEnsureAscii_cons (by decide)]
    rfl

theorem readsNumbers_signedText : ReadsNumbers (fun x => signedText (.num x)) (fun x => x.isSafeInteger = true) where
  head x hx := by
    obtain ⟨z, rfl, hz⟩ := JsNumber.exists_int_of_isSafeInteger hx
    simp only [signedText_int hz]
    exact readsNumbers_safe.head (.int z) hx
  read x hx rest hrest := by
    obtain ⟨z, rfl, hz⟩ := JsNumber.exists_int_of_isSafeInteger hx
    simp only [signedText_int hz]
    exact readsNumbers_safe.read (.int z) hx rest hrest

theorem parseJson_signedText {v : JsValue} (h : JsonOver (fun x => x.isSafeInteger = true) v) :
    parseJson (signedText v) = some v :=
  parseJson_of_reads (h.reads writes_signedText readsQuoted_siftQuote readsNumbers_signedText)

theorem signedText_inj {v w : JsValue} (hv : JsonOver (fun x => x.isSafeInteger = true) v)
    (hw : JsonOver (fun x => x.isSafeInteger = true) w) (h : signedText v = signedText w) : v = w := by
  have hread := parseJson_signedText hv
  rw [h, parseJson_signedText hw] at hread
  exact (Option.some.inj hread).symm

end Sift

end OxDeAI
