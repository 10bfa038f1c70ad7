import OxDeAI.Sift.KeyOrders
import OxDeAI.Js.JsonTree

/-! The Sift text beside `json.dumps(value, sort_keys=True, separators=(",", ":"),
ensure_ascii=True)`, which it is documented to be. -/

namespace OxDeAI

open Js FirstDifference

abbrev SafeInt := { z : ℤ // z.natAbs ≤ JsNumber.maxSafeInteger }

mutual

def pythonText : Json JsString SafeInt → JsString
  | .null => js "null"
  | .bool b => if b then js "true" else js "false"
  | .str s => dumpsAscii s
  | .num n => decimal n.val
  | .arr xs => unit 91 :: join comma (pythonTexts xs) ++ [unit 93]
  | .obj es =>
    unit 123 :: join comma ((sortedByPoints (pythonMembers es)).map (fun e => dumpsAscii e.1 ++ unit 58 :: e.2)) ++ [unit 125]

def pythonTexts : List (Json JsString SafeInt) → List JsString
  | [] => []
  | x :: xs => pythonText x :: pythonTexts xs

def pythonMembers : List (JsString × Json JsString SafeInt) → List (JsString × JsString)
  | [] => []
  | (k, v) :: es => (k, pythonText v) :: pythonMembers es

end

mutual

def siftText : Json JsString SafeInt → JsString
  | .null => js "null"
  | .bool b => if b then js "true" else js "false"
  | .str s => siftQuote s
  | .num n => decimal n.val
  | .arr xs => unit 91 :: join comma (siftTexts xs) ++ [unit 93]
  | .obj es =>
    unit 123 :: join comma ((siftOrder (siftTextMembers es)).map (fun e => siftQuote e.1 ++ unit 58 :: e.2)) ++ [unit 125]

def siftTexts : List (Json JsString SafeInt) → List JsString
  | [] => []
  | x :: xs => siftText x :: siftTexts xs

def siftTextMembers : List (JsString × Json JsString SafeInt) → List (JsString × JsString)
  | [] => []
  | (k, v) :: es => (k, siftText v) :: siftTextMembers es

end

/-- The value that `JSON.parse` makes of a text with safe integers. -/
def readSafe (v : Json JsString SafeInt) : JsValue := v.parsed id (fun n => .int n.val)

theorem join_eq_intercalate (sep : CodeUnit) (ts : List JsString) : join sep ts = [sep].intercalate ts := by
  induction ts with
  | nil => rfl
  | cons t ts ih =>
    cases ts with
    | nil => simp [join]
    | cons s ts => rw [List.intercalate_cons_cons, join, ih]; simp

theorem applyEnsureAscii_join (ts : List JsString) :
    applyEnsureAscii (join comma ts) = join comma (ts.map applyEnsureAscii) := by
  induction ts with
  | nil => rfl
  | cons t ts ih =>
    cases ts with
    | nil => rfl
    | cons s ts =>
      rw [join, applyEnsureAscii_append, applyEnsureAscii_cons (by decide), ih]
      rfl

theorem stringifyMembers_eq_map (es : List (JsString × JsValue)) :
    stringifyMembers es = es.map (fun e => quote e.1 ++ unit 58 :: stringify e.2) := by
  induction es with
  | nil => rfl
  | cons e es ih => rw [stringifyMembers, ih, List.map_cons]

theorem siftTextMembers_eq_map (es : List (JsString × Json JsString SafeInt)) :
    siftTextMembers es = es.map (fun e => (e.1, siftText e.2)) := by
  induction es with
  | nil => rfl
  | cons e es ih => rw [siftTextMembers, ih, List.map_cons]

theorem pythonMembers_eq_map (es : List (JsString × Json JsString SafeInt)) :
    pythonMembers es = es.map (fun e => (e.1, pythonText e.2)) := by
  induction es with
  | nil => rfl
  | cons e es ih => rw [pythonMembers, ih, List.map_cons]

theorem siftTexts_eq_map (xs : List (Json JsString SafeInt)) : siftTexts xs = xs.map siftText := by
  induction xs with
  | nil => rfl
  | cons x xs ih => rw [siftTexts, ih, List.map_cons]

theorem pythonTexts_eq_map (xs : List (Json JsString SafeInt)) : pythonTexts xs = xs.map pythonText := by
  induction xs with
  | nil => rfl
  | cons x xs ih => rw [pythonTexts, ih, List.map_cons]

theorem decimal_ascii (z : ℤ) : applyEnsureAscii (decimal z) = decimal z := by
  have hdigit : ∀ (n : ℕ) (u : CodeUnit), u ∈ natDecimal n → u.val ≤ 0x7f := by
    intro n u hu
    have h := (natDecimal_spec n).2.1 u hu
    simp only [isDigit, Bool.and_eq_true, decide_eq_true_eq] at h
    omega
  refine applyEnsureAscii_of_ascii fun u hu => ?_
  unfold decimal at hu
  split at hu
  · rcases List.mem_cons.mp hu with rfl | hu
    · decide
    · exact hdigit _ u hu
  · exact hdigit _ u hu

/-- What Sift makes of a value, and the text it has in the end. -/
theorem siftCanonicalize_readSafe {v : Json JsString SafeInt} (hv : v.DistinctKeys) :
    ∃ w, siftCanonicalize (readSafe v) = .ok w ∧ applyEnsureAscii (stringify w) = siftText v := by
  unfold readSafe
  induction hv with
  | null => exact ⟨.null, rfl, by decide⟩
  | bool b => exact ⟨.bool b, rfl, by cases b <;> decide⟩
  | str s => exact ⟨.str s, rfl, applyEnsureAscii_quote s⟩
  | num n =>
    refine ⟨.num (.int n.val), rfl, ?_⟩
    rw [stringify, numberText, if_pos n.property, decimal_ascii]
    rfl
  | @arr xs _ ih =>
    have helements : ∃ ys, siftElements (xs.map (Json.parsed id (fun n : SafeInt => .int n.val))) = .ok ys ∧
        (stringifyElements ys).map applyEnsureAscii = xs.map siftText := by
      induction xs with
      | nil => exact ⟨[], rfl, rfl⟩
      | cons x xs ihxs =>
        obtain ⟨y, hy, htext⟩ := ih x List.mem_cons_self
        obtain ⟨ys, hys, htexts⟩ := ihxs (fun z hz => ‹∀ z ∈ x :: xs, z.DistinctKeys› z (List.mem_cons_of_mem _ hz))
          fun z hz => ih z (List.mem_cons_of_mem _ hz)
        refine ⟨y :: ys, ?_, by rw [stringifyElements, List.map_cons, htext, htexts, List.map_cons]⟩
        rw [List.map_cons, siftElements, hy, hys]
        rfl
    obtain ⟨ys, hys, htexts⟩ := helements
    refine ⟨.arr ys, ?_, ?_⟩
    · rw [Json.parsed, Json.parsedElements_eq_map, siftCanonicalize, hys]
      rfl
    · rw [stringify, List.cons_append, applyEnsureAscii_cons (by decide), applyEnsureAscii_append, applyEnsureAscii_join,
        htexts, siftText, siftTexts_eq_map]
      rfl
  | @obj es hnodup _ ih =>
    have hmembers : ∃ ms : List (JsString × JsValue), siftMembers (es.map (fun e => (id e.1, e.2.parsed id (fun n : SafeInt => .int n.val)))) =
          ms.map (fun m => (m.1, .ok m.2)) ∧
        ms.map (fun e => (e.1, applyEnsureAscii (stringify e.2))) = es.map (fun e => (e.1, siftText e.2)) := by
      clear hnodup
      induction es with
      | nil => exact ⟨[], rfl, rfl⟩
      | cons e es ihes =>
        obtain ⟨y, hy, htext⟩ := ih e List.mem_cons_self
        obtain ⟨ms, hms, htexts⟩ := ihes (fun z hz => ‹∀ z ∈ e :: es, z.2.DistinctKeys› z (List.mem_cons_of_mem _ hz))
          fun z hz => ih z (List.mem_cons_of_mem _ hz)
        refine ⟨(e.1, y) :: ms, ?_, by rw [List.map_cons, htext, htexts, List.map_cons]⟩
        rw [List.map_cons, siftMembers, hy, hms]
        rfl
    obtain ⟨ms, hms, htexts⟩ := hmembers
    refine ⟨.obj (siftOrder ms), ?_, ?_⟩
    · rw [Json.parsed_obj _ _ Function.injective_id hnodup, siftCanonicalize_obj hms]
      rfl
    · have hmap : (siftOrder ms).map (fun e => applyEnsureAscii (quote e.1 ++ unit 58 :: stringify e.2)) =
          (siftOrder (es.map (fun e => (e.1, siftText e.2)))).map (fun e => siftQuote e.1 ++ unit 58 :: e.2) := by
        rw [← htexts, siftOrder_map (fun v => applyEnsureAscii (stringify v)), List.map_map]
        refine List.map_congr_left fun e _ => ?_
        rw [applyEnsureAscii_append, applyEnsureAscii_quote, applyEnsureAscii_cons (by decide)]
        rfl
      rw [stringify, stringifyMembers_eq_map, List.cons_append, applyEnsureAscii_cons (by decide), applyEnsureAscii_append,
        applyEnsureAscii_join, List.map_map, siftText, siftTextMembers_eq_map, ← hmap]
      rfl

/-- A node that both write in the same way: no DEL in what it writes itself, and its
keys in one order. -/
def SameForBoth : Json JsString SafeInt → Prop
  | .str s => ∀ u ∈ s, u.val ≠ 0x7f
  | .obj es => KeysAgree (es.map Prod.fst) ∧ ∀ e ∈ es, ∀ u ∈ e.1, u.val ≠ 0x7f
  | _ => True

theorem sift_python_cases {v : Json JsString SafeInt} (hv : v.DistinctKeys) :
    siftText v = pythonText v ∧ (∀ u, v.Node u → SameForBoth u) ∨
      Differ (siftText v) (pythonText v) ∧ ¬ ∀ u, v.Node u → SameForBoth u := by
  induction hv with
  | null => exact .inl ⟨rfl, (Json.forall_node_leaf (fun u hu => by cases hu; rfl)).mpr trivial⟩
  | bool b => exact .inl ⟨rfl, (Json.forall_node_leaf (fun u hu => by cases hu; rfl)).mpr trivial⟩
  | num n => exact .inl ⟨rfl, (Json.forall_node_leaf (fun u hu => by cases hu; rfl)).mpr trivial⟩
  | str s =>
    rw [Json.forall_node_leaf (fun u hu => by cases hu; rfl)]
    rcases quote_parts s s with ⟨htext, -, hdel⟩ | ⟨hdiffer, hno⟩
    · exact .inl ⟨htext, hdel⟩
    · exact .inr ⟨hdiffer, fun hdel => hno ⟨rfl, hdel⟩⟩
  | @arr xs _ ih =>
    have hsame : ∀ f : Json JsString SafeInt → JsString, List.Forall₂ (fun x t => f x = t) xs (xs.map f) := fun f =>
      List.forall₂_map_right_iff.mpr (List.forall₂_same.mpr fun _ _ => rfl)
    have hparts := intercalate_cases (P := fun x => ∀ u, x.Node u → SameForBoth u) [comma] (hsame siftText)
      (hsame pythonText) fun x hx s t hs ht => hs ▸ ht ▸ ih x hx
    rw [siftText, pythonText, siftTexts_eq_map, pythonTexts_eq_map, join_eq_intercalate, join_eq_intercalate,
      Json.forall_node_arr]
    rcases hparts with ⟨heq, hall⟩ | ⟨hdiffer, x, hx, hno⟩
    · exact .inl ⟨by rw [heq], trivial, hall⟩
    · exact .inr ⟨.later _ (hdiffer.append _ _), fun hall => hno (hall.2 x hx)⟩
  | @obj es hnodup _ ih =>
    rw [siftText, pythonText, siftTextMembers_eq_map, pythonMembers_eq_map, siftOrder_map, sortedByPoints_map, List.map_map,
      List.map_map, join_eq_intercalate, join_eq_intercalate, Json.forall_node_obj, SameForBoth, ← orders_eq_iff hnodup]
    -- one member of the Sift text beside one of the Python text
    have hmember : ∀ e ∈ es, ∀ f ∈ es, siftQuote e.1 ++ unit 58 :: siftText e.2 = dumpsAscii f.1 ++ unit 58 :: pythonText f.2 ∧
        e = f ∧ ((∀ u ∈ e.1, u.val ≠ 0x7f) ∧ ∀ u, e.2.Node u → SameForBoth u) ∨
        Differ (siftQuote e.1 ++ unit 58 :: siftText e.2) (dumpsAscii f.1 ++ unit 58 :: pythonText f.2) ∧
          ¬ (e = f ∧ (∀ u ∈ e.1, u.val ≠ 0x7f) ∧ ∀ u, e.2.Node u → SameForBoth u) := by
      intro e he f hf
      rcases quote_parts e.1 f.1 with ⟨hkey, hname, hdel⟩ | ⟨hdiffer, hno⟩
      · obtain rfl : e = f := List.inj_on_of_nodup_map hnodup he hf hname
        rcases ih e he with ⟨htext, hall⟩ | ⟨hdiffer, hno⟩
        · exact .inl ⟨by rw [hkey, htext], rfl, hdel, hall⟩
        · refine .inr ⟨?_, fun h => hno h.2.2⟩
          have hcolon : Differ (unit 58 :: siftText e.2) (unit 58 :: pythonText e.2) := .later _ hdiffer
          exact SameOrDiffer.append_differ (.inl hkey) hcolon
      · exact .inr ⟨hdiffer.append _ _, fun h => hno ⟨congrArg Prod.fst h.1, h.2.1⟩⟩
    by_cases horder : siftOrder es = sortedByPoints es
    · have hsame : ∀ f : JsString × Json JsString SafeInt → JsString,
          List.Forall₂ (fun e t => f e = t) (siftOrder es) ((siftOrder es).map f) := fun f =>
        List.forall₂_map_right_iff.mpr (List.forall₂_same.mpr fun _ _ => rfl)
      have hparts := intercalate_cases (P := fun e => (∀ u ∈ e.1, u.val ≠ 0x7f) ∧ ∀ u, e.2.Node u → SameForBoth u) [comma]
        (hsame fun e => siftQuote e.1 ++ unit 58 :: siftText e.2)
        (hsame fun e => dumpsAscii e.1 ++ unit 58 :: pythonText e.2) fun e he s t hs ht => by
          have hmem := (perm_siftOrder es).mem_iff.mp he
          rw [← hs, ← ht]
          exact (hmember e hmem e hmem).imp (fun h => ⟨h.1, h.2.2⟩) fun h => ⟨h.1, fun hP => h.2 ⟨rfl, hP⟩⟩
      rw [← horder]
      rcases hparts with ⟨heq, hall⟩ | ⟨hdiffer, e, he, hno⟩
      · refine .inl ⟨congrArg (fun t => unit 123 :: t ++ [unit 125]) heq, ⟨rfl, fun e he => ?_⟩, fun e he => ?_⟩
        · exact (hall e ((perm_siftOrder es).mem_iff.mpr he)).1
        · exact (hall e ((perm_siftOrder es).mem_iff.mpr he)).2
      · have hmem := (perm_siftOrder es).mem_iff.mp he
        exact .inr ⟨.later _ (hdiffer.append _ _), fun hall => hno ⟨hall.1.2 e hmem, hall.2 e hmem⟩⟩
    · have hlength : (siftOrder es).length = (sortedByPoints es).length :=
        (perm_siftOrder es).length_eq.trans (perm_sortedByPoints es).length_eq.symm
      obtain ⟨pre, e, f, es₁, es₂, hef, hsift, hpython⟩ := split_of_ne hlength horder
      have hmem₁ : ∀ x ∈ pre ++ e :: es₁, x ∈ es := fun x hx => (perm_siftOrder es).mem_iff.mp (hsift ▸ hx)
      have hmem₂ : ∀ x ∈ pre ++ f :: es₂, x ∈ es := fun x hx => (perm_sortedByPoints es).mem_iff.mp (hpython ▸ hx)
      have he := hmem₁ e (by simp)
      have hf := hmem₂ f (by simp)
      have hdiffer := ((hmember e he f hf).resolve_left fun h => hef h.2.1).1
      have hpre : List.Forall₂ SameOrDiffer (pre.map (fun e => siftQuote e.1 ++ unit 58 :: siftText e.2))
          (pre.map (fun e => dumpsAscii e.1 ++ unit 58 :: pythonText e.2)) := by
        refine List.forall₂_map_left_iff.mpr (List.forall₂_map_right_iff.mpr (List.forall₂_same.mpr fun x hx => ?_))
        have hx := hmem₁ x (by simp [hx])
        exact (hmember x hx x hx).imp And.left And.left
      refine .inr ⟨.later _ (Differ.append ?_ _ _), fun hall => horder hall.1.1⟩
      rw [hsift, hpython, List.map_append, List.map_append, List.map_cons, List.map_cons]
      exact intercalate_differ [comma] hpre hdiffer

def IsAscii (t : JsString) : Prop := ∀ u ∈ t, u.val ≤ 0x7f

theorem IsAscii.append {s t : JsString} (hs : IsAscii s) (ht : IsAscii t) : IsAscii (s ++ t) := by
  intro u hu
  rcases List.mem_append.mp hu with hu | hu
  · exact hs u hu
  · exact ht u hu

theorem IsAscii.cons {u : CodeUnit} {t : JsString} (hu : u.val ≤ 0x7f) (ht : IsAscii t) : IsAscii (u :: t) :=
  List.forall_mem_cons.mpr ⟨hu, ht⟩

theorem IsAscii.bracket {left right : CodeUnit} {t : JsString} (hleft : left.val ≤ 0x7f) (ht : IsAscii t)
    (hright : right.val ≤ 0x7f) : IsAscii (left :: t ++ [right]) :=
  (ht.append (.cons hright fun _ hu => absurd hu List.not_mem_nil)).cons hleft

theorem isAscii_join {ts : List JsString} (h : ∀ t ∈ ts, IsAscii t) : IsAscii (join comma ts) := by
  induction ts with
  | nil => exact fun _ hu => absurd hu List.not_mem_nil
  | cons t ts ih =>
    cases ts with
    | nil => exact h t List.mem_cons_self
    | cons s ts =>
      exact (h t List.mem_cons_self).append ((ih fun r hr => h r (List.mem_cons_of_mem _ hr)).cons (by decide))

theorem wellFormed_of_isAscii {t : JsString} (h : IsAscii t) : WellFormed t := by
  refine wellFormed_of_basic (List.all_eq_true.mpr fun u hu => ?_)
  have hascii := h u hu
  simp only [isBasic, decide_eq_true_eq]
  omega

theorem isAscii_dumpsAscii (s : JsString) : IsAscii (dumpsAscii s) := by
  rw [dumpsAscii_eq]
  refine IsAscii.bracket (by decide) (fun u hu => ?_) (by decide)
  obtain ⟨v, -, hv⟩ := List.mem_flatMap.mp hu
  exact ascii_of_unitCode (unitCode_pythonUnit v) u hv

theorem isAscii_of_applyEnsureAscii (t : JsString) : IsAscii (applyEnsureAscii t) := by
  intro u hu
  obtain ⟨w, -, hw⟩ := List.mem_flatMap.mp hu
  unfold ensureAsciiUnit at hw
  split at hw
  · exact ascii_of_unitCode .number u hw
  · rename_i hsmall
    rw [List.mem_singleton.mp hw]
    exact not_lt.mp hsmall

theorem isAscii_of_fixed {t : JsString} (h : applyEnsureAscii t = t) : IsAscii t := by
  rw [← h]
  exact isAscii_of_applyEnsureAscii t

theorem isAscii_pythonText (v : Json JsString SafeInt) : IsAscii (pythonText v) := by
  induction v using Json.json_induction with
  | null => exact isAscii_of_fixed (by decide)
  | bool b => cases b <;> exact isAscii_of_fixed (by decide)
  | str s => exact isAscii_dumpsAscii s
  | num n =>
    exact isAscii_of_fixed (decimal_ascii n.val)
  | arr xs ih =>
    rw [pythonText, pythonTexts_eq_map]
    refine IsAscii.bracket (by decide) (isAscii_join fun t ht => ?_) (by decide)
    obtain ⟨x, hx, rfl⟩ := List.mem_map.mp ht
    exact ih x hx
  | obj es ih =>
    rw [pythonText, pythonMembers_eq_map, sortedByPoints_map]
    refine IsAscii.bracket (by decide) (isAscii_join fun t ht => ?_) (by decide)
    obtain ⟨m, hm, rfl⟩ := List.mem_map.mp ht
    obtain ⟨e, he, rfl⟩ := List.mem_map.mp hm
    exact (isAscii_dumpsAscii e.1).append (.cons (by decide) (ih e ((perm_sortedByPoints es).mem_iff.mp he)))

/-- The bytes of Sift are those of Python exactly if no string contains DEL and the
keys of every object are in the same order for both. -/
theorem sift_bytes_iff {v : Json JsString SafeInt} (hv : v.DistinctKeys) :
    siftCanonicalJsonBytes (readSafe v) = .ok (utf8Encode (pythonText v)) ↔ ∀ u, v.Node u → SameForBoth u := by
  obtain ⟨w, hw, htext⟩ := siftCanonicalize_readSafe hv
  have hbytes : siftCanonicalJsonBytes (readSafe v) = .ok (utf8Encode (siftText v)) := by
    rw [siftCanonicalJsonBytes, siftCanonicalJson, hw, ← htext]
    rfl
  have hsift : IsAscii (siftText v) := htext ▸ isAscii_of_applyEnsureAscii _
  rw [hbytes]
  rcases sift_python_cases hv with ⟨heq, hall⟩ | ⟨hdiffer, hno⟩
  · exact iff_of_true (by rw [heq]) hall
  · refine iff_of_false (fun h => hdiffer.ne ?_) hno
    exact utf8Encode_inj (wellFormed_of_isAscii hsift) (wellFormed_of_isAscii (isAscii_pythonText v)) (Except.ok.inj h)

/-- DEL goes through unescaped. -/
theorem sift_keeps_del : ¬ ∀ v : Json JsString SafeInt, v.DistinctKeys →
    siftCanonicalJsonBytes (readSafe v) = .ok (utf8Encode (pythonText v)) := by
  intro hclaim
  have h := hclaim (.str [unit 0x7f]) (.str _)
  have hsift : siftCanonicalJsonBytes (readSafe (.str [unit 0x7f])) = .ok (utf8Encode [unit 34, unit 0x7f, unit 34]) := by
    rfl
  have hpython : pythonText (.str [unit 0x7f]) = unit 34 :: unicodeEscape (unit 0x7f) ++ [unit 34] := by decide
  rw [hsift, hpython] at h
  exact absurd (Except.ok.inj h) (by decide)

/-- Members out of order, and escapes in a key and in a string. -/
def sampleTree : Json JsString SafeInt :=
  .obj [(js "ts", .num ⟨-7, by decide⟩), (js "b\n", .arr [.null, .obj [(js "k", .str (js "é\"x"))]]), (js "a", .null)]

theorem sampleTree_distinctKeys : sampleTree.DistinctKeys := by
  refine .obj (by decide) fun e he => ?_
  simp only [List.mem_cons, List.not_mem_nil, or_false] at he
  rcases he with rfl | rfl | rfl
  · exact .num _
  · refine .arr fun x hx => ?_
    rcases List.mem_pair.mp hx with rfl | rfl
    · exact .null
    · refine .obj (by decide) fun e he => ?_
      rw [List.mem_singleton.mp he]
      exact .str _
  · exact .null

theorem noDel_of_all {s : JsString} (h : s.all (fun u => u.val != 0x7f) = true) : ∀ u ∈ s, u.val ≠ 0x7f := by
  simpa using h

theorem sampleTree_same : ∀ u, sampleTree.Node u → SameForBoth u := by
  have houter : KeysAgree [js "ts", js "b\n", js "a"] := by decide +kernel
  have hinner : KeysAgree [js "k"] := by decide +kernel
  refine Json.forall_node_obj.mpr ⟨⟨houter, fun e he => ?_⟩, fun e he => ?_⟩
  · simp only [List.mem_cons, List.not_mem_nil, or_false] at he
    rcases he with rfl | rfl | rfl <;> exact noDel_of_all (by decide)
  simp only [List.mem_cons, List.not_mem_nil, or_false] at he
  rcases he with rfl | rfl | rfl
  · exact Json.forall_node_num.mpr trivial
  · refine Json.forall_node_arr.mpr ⟨trivial, fun x hx => ?_⟩
    rcases List.mem_pair.mp hx with rfl | rfl
    · exact Json.forall_node_null.mpr trivial
    · refine Json.forall_node_obj.mpr ⟨⟨hinner, fun e he => ?_⟩, fun e he => ?_⟩
      · rw [List.mem_singleton.mp he]
        exact noDel_of_all (by decide)
      · rw [List.mem_singleton.mp he]
        exact Json.forall_node_str.mpr (noDel_of_all (by decide))
  · exact Json.forall_node_null.mpr trivial

theorem sift_bytes_iff_sample :
    siftCanonicalJsonBytes (readSafe sampleTree) = .ok (utf8Encode (pythonText sampleTree)) :=
  (sift_bytes_iff sampleTree_distinctKeys).mpr sampleTree_same

end OxDeAI
