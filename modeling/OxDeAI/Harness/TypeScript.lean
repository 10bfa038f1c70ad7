import OxDeAI.Harness.Canonicalize
import OxDeAI.Core.CanonicalInjective

/-! On JSON values of valid Unicode, `canonicalJson` is the shared recursion, for every
writer that normalizes as it does, writes the escapes of `JSON.stringify` and takes
the numbers it takes. -/

namespace OxDeAI

open Js

def natChars (n : ℕ) : List Char :=
  if n = 0 then ['0'] else (Nat.digits 10 n).reverse.map (fun d => Char.ofNat (48 + d))

/-- The decimal text of an integer. -/
def intChars (z : ℤ) : List Char := if z < 0 then '-' :: natChars z.natAbs else natChars z.natAbs

theorem utf16_digit {d : ℕ} (h : d < 10) : utf16 (Char.ofNat (48 + d)) = [unit (48 + d)] := by
  interval_cases d <;> decide

theorem utf16Text_natChars (n : ℕ) : utf16Text (natChars n) = natDecimal n := by
  unfold natChars natDecimal
  split_ifs with hn
  · decide
  · have hdigits : ∀ d ∈ (Nat.digits 10 n).reverse, d < 10 :=
      fun d hd => Nat.digits_lt_base (by norm_num) (List.mem_reverse.mp hd)
    generalize (Nat.digits 10 n).reverse = ds at hdigits
    induction ds with
    | nil => rfl
    | cons d ds ih =>
      rw [List.map_cons, List.map_cons, utf16Text_cons, utf16_digit (hdigits d List.mem_cons_self),
        ih fun e he => hdigits e (List.mem_cons_of_mem _ he), List.singleton_append]

theorem utf16Text_intChars (z : ℤ) : utf16Text (intChars z) = decimal z := by
  have hsign : utf16 '-' = [unit 45] := by decide
  unfold intChars decimal
  split_ifs
  · rw [utf16Text_cons, hsign, utf16Text_natChars, List.singleton_append]
  · exact utf16Text_natChars _

def safeText : JsNumber → Except CanonicalError (List Char)
  | .int z => if z.natAbs ≤ JsNumber.maxSafeInteger then .ok (intChars z) else .error .unsafeIntegerNumber
  | _ => .error .floatNotAllowed

def typescriptWriter {N : Type} (normalize : List Char → List Char) (number : N → JsNumber) : Writer N where
  normalize := normalize
  quote := quoteChars
  number n := safeText (number n)

/-- The two sorts put the same keys in the same order. -/
theorem sortUtf8Lex_map {β : Type} (pairs : List (List Char × β)) :
    sortUtf8Lex (pairs.map (fun p => utf16Text p.1)) =
      (pairs.insertionSort (fun a b => utf8Text a.1 ≤ utf8Text b.1)).map (fun p => utf16Text p.1) := by
  refine (List.map_insertionSort _ _ (fun p : List Char × β => utf16Text p.1) pairs ?_).symm
  intro a _ b _
  rw [utf8Encode_utf16Text, utf8Encode_utf16Text]

theorem join_utf16Text (parts : List (List Char)) :
    join comma (parts.map utf16Text) = utf16Text ([','].intercalate parts) := by
  have hcomma : utf16 ',' = [comma] := by decide
  induction parts with
  | nil => rfl
  | cons t parts ih =>
    cases parts with
    | nil => simp [join]
    | cons s parts =>
      rw [List.intercalate_cons_cons, List.map_cons, List.map_cons, join, ← List.map_cons, ih]
      simp [hcomma]

/-- The text in UTF-16 is the text in characters. -/
def SameText (t : JsString) (s : List Char) : Prop := t = utf16Text s

theorem map_eq_of_sameText {ts : List JsString} {ss : List (List Char)} (h : List.Forall₂ SameText ts ss) :
    ts = ss.map utf16Text := by
  induction h with
  | nil => rfl
  | cons h _ ih => rw [List.map_cons, ← ih, h]

theorem sameText_bracketed {ts : List JsString} {ss : List (List Char)} {left right : CodeUnit} {opening closing : Char}
    (hopen : utf16 opening = [left]) (hclosing : utf16 closing = [right]) (h : List.Forall₂ SameText ts ss) :
    SameText (left :: join comma ts ++ [right]) (opening :: [','].intercalate ss ++ [closing]) := by
  simp only [SameText, map_eq_of_sameText h, join_utf16Text, List.cons_append, utf16Text_cons, utf16Text_append,
    utf16Text_nil, hopen, hclosing, List.nil_append]

/-- What a writer has to do as `canonicalJson` does it. -/
structure WritesAlike {N : Type} (nfc : JsString → JsString) (number : N → JsNumber) (w : Writer N) : Prop where
  normalize : ∀ s, nfc (utf16Text s) = utf16Text (w.normalize s)
  quote : ∀ s, w.quote s = quoteChars s
  number : ∀ n, Alike SameText (canonicalizeToJson nfc (.num (number n))) (w.number n)

theorem writesAlike_typescriptWriter {N : Type} {nfc : JsString → JsString} {normalize : List Char → List Char}
    (hnfc : ∀ s, nfc (utf16Text s) = utf16Text (normalize s)) (number : N → JsNumber) :
    WritesAlike nfc number (typescriptWriter normalize number) where
  normalize := hnfc
  quote _ := rfl
  number n := by
    simp only [canonicalizeToJson, typescriptWriter]
    cases number n with
    | int z =>
      simp only [safeText]
      split_ifs
      · exact .returned (utf16Text_intChars z).symm
      · exact .thrown _ _
    | _ => exact .thrown _ _

section

variable {N : Type} {nfc : JsString → JsString} {number : N → JsNumber} {w : Writer N}

theorem canonicalize_number (x : JsNumber) :
    x.isSafeInteger = true ∧ (∃ t, canonicalizeToJson nfc (.num x) = .ok t) ∨
      x.isSafeInteger = false ∧ ∃ e, canonicalizeToJson nfc (.num x) = .error e := by
  cases x with
  | int z =>
    by_cases hz : z.natAbs ≤ JsNumber.maxSafeInteger <;>
      simp [canonicalizeToJson, JsNumber.isSafeInteger, hz]
  | _ => simp [canonicalizeToJson, JsNumber.isSafeInteger]

theorem timestamp_parsed (hw : WritesAlike nfc number w) (v : Json (List Char) N) :
    isTimestamp (v.parsed utf16Text number) = false ∧ (∃ e, w.timestamp v = .error e) ∨
      isTimestamp (v.parsed utf16Text number) = true ∧ w.timestamp v = w.canonicalize v := by
  cases v with
  | num n =>
    have hn := hw.number n
    simp only [Json.parsed, isTimestamp, Writer.timestamp, Writer.canonicalize]
    rcases @canonicalize_number nfc (number n) with ⟨hsafe, t, ht⟩ | ⟨hsafe, e, he⟩
    · rw [ht] at hn
      cases hd : w.number n with
      | error e =>
        rw [hd] at hn
        cases hn
      | ok s => exact .inr ⟨hsafe, rfl⟩
    · rw [he] at hn
      cases hd : w.number n with
      | error d => exact .inl ⟨hsafe, _, rfl⟩
      | ok s =>
        rw [hd] at hn
        cases hn
  | _ => exact .inl ⟨rfl, _, rfl⟩

/-- A member that both sides have under the same key. -/
structure SameEntry (number : N → JsNumber) (w : Writer N)
    (entry : JsString × JsValue × Except JsError JsString)
    (pair : List Char × Json (List Char) N × Except CanonicalError (List Char)) : Prop where
  key : entry.1 = utf16Text pair.1
  child : entry.2.1 = pair.2.1.parsed utf16Text number
  own : pair.2.2 = w.canonicalize pair.2.1
  text : Alike SameText entry.2.2 pair.2.2

theorem member_alike {entry : JsString × JsValue × Except JsError JsString}
    {pair : List Char × Json (List Char) N × Except CanonicalError (List Char)}
    {entries : List (JsString × JsValue × Except JsError JsString)} (hw : WritesAlike nfc number w)
    (hsame : SameEntry number w entry pair)
    (hfind : entries.find? (fun e => e.1 = utf16Text pair.1) = some entry) :
    Alike SameText (canonicalMember entries (utf16Text pair.1)) (w.member pair) := by
  obtain ⟨key, child, text⟩ := entry
  obtain ⟨name, v, own⟩ := pair
  have hts : utf16Text name = tsKey ↔ name = timestampName :=
    ⟨fun h => utf16Text_injective (h.trans rfl), fun h => by rw [h]; rfl⟩
  have hmember : ∀ {t : JsString} {s : List Char}, SameText t s →
      SameText (quote (utf16Text name) ++ unit 58 :: t) (w.quote name ++ ':' :: s) := by
    intro t s h
    have hcolon : utf16 ':' = [unit 58] := by decide
    rw [SameText, quote_utf16Text, hw.quote, utf16Text_append, utf16Text_cons, hcolon, ← h]
    rfl
  rw [canonicalMember, hfind, Writer.member]
  simp only [hts]
  have hchild : child = v.parsed utf16Text number := hsame.child
  have hown : own = w.canonicalize v := hsame.own
  have htext : Alike SameText text own := hsame.text
  by_cases hname : name = timestampName
  · rw [if_pos hname, hchild]
    rcases timestamp_parsed hw v with ⟨hno, e, he⟩ | ⟨hyes, heq⟩
    · rw [if_pos ⟨hname, hno⟩, he]
      exact .thrown _ _
    · rw [if_neg (by simp [hyes]), heq, ← hown]
      exact htext.map fun _ _ => hmember
  · rw [if_neg hname, if_neg (by simp [hname])]
    exact htext.map fun _ _ => hmember

theorem object_alike {entries : List (JsString × JsValue × Except JsError JsString)}
    {pairs : List (List Char × Json (List Char) N × Except CanonicalError (List Char))} (hw : WritesAlike nfc number w)
    (h : List.Forall₂ (SameEntry number w) entries pairs) :
    Alike SameText (canonicalObject entries) (w.object pairs) := by
  have hkeys : entries.map Prod.fst = pairs.map (fun p => utf16Text p.1) := by
    induction h with
    | nil => rfl
    | cons hhead _ ih => rw [List.map_cons, List.map_cons, hhead.key, ih]
  have hnodup : (entries.map Prod.fst).Nodup ↔ (pairs.map Prod.fst).Nodup := by
    have hcomp : pairs.map (fun p => utf16Text p.1) = (pairs.map Prod.fst).map utf16Text := by simp
    rw [hkeys, hcomp, List.nodup_map_iff utf16Text_injective]
  rw [canonicalObject, Writer.object]
  by_cases hnd : (entries.map Prod.fst).Nodup
  · rw [if_pos hnd, if_pos (hnodup.mp hnd), hkeys, sortUtf8Lex_map]
    refine Alike.map (R := List.Forall₂ SameText) ?_ ?_
    · refine Alike.mapM (List.forall₂_map_left_iff.mpr (List.forall₂_same.mpr fun pair hpair => ?_))
      have hmem : pair ∈ pairs := (List.mem_insertionSort _).mp hpair
      obtain ⟨entry, hentry, hsame⟩ : ∃ entry ∈ entries, SameEntry number w entry pair := by
        clear hkeys hnodup hnd hpair
        induction h with
        | nil => cases hmem
        | cons hhead _ ih =>
          rcases List.mem_cons.mp hmem with rfl | hmem
          · exact ⟨_, List.mem_cons_self, hhead⟩
          · obtain ⟨entry, hentry, hsame⟩ := ih hmem
            exact ⟨entry, List.mem_cons_of_mem _ hentry, hsame⟩
      refine member_alike hw hsame ?_
      obtain ⟨other, hother⟩ := Option.isSome_iff_exists.mp
        (List.find?_isSome.mpr ⟨entry, hentry, by simpa using hsame.key⟩ :
          (entries.find? (fun e => e.1 = utf16Text pair.1)).isSome = true)
      have hkey : other.1 = entry.1 := by
        rw [hsame.key]
        simpa using List.find?_some hother
      rw [hother, List.inj_on_of_nodup_map hnd (List.mem_of_find?_eq_some hother) hentry hkey]
    · intro ts ss hparts
      exact sameText_bracketed (by decide) (by decide) hparts
  · rw [if_neg hnd, if_neg (fun h => hnd (hnodup.mpr h))]
    exact .thrown _ _

/-- Both throw, or both return the same text. -/
theorem canonicalJson_alike (hw : WritesAlike nfc number w) {v : Json (List Char) N} (hv : v.DistinctKeys) :
    Alike SameText (canonicalJson nfc (v.parsed utf16Text number)) (w.canonicalize v) := by
  rw [canonicalJson]
  induction hv with
  | null => exact .returned rfl
  | bool b => cases b <;> exact .returned rfl
  | str s =>
    rw [Json.parsed, canonicalizeToJson, hw.normalize, quote_utf16Text, ← hw.quote]
    exact .returned rfl
  | num n => exact hw.number n
  | @arr xs _ ih =>
    rw [Json.parsed, Json.parsedElements_eq_map, canonicalizeToJson, canonicalElements_eq_mapM, Writer.canonicalize,
      Writer.canonicalizeElements_eq_mapM]
    refine Alike.map (R := List.Forall₂ SameText) ?_ ?_
    · exact Alike.mapM (List.forall₂_map_left_iff.mpr (List.forall₂_same.mpr fun x hx => ih x hx))
    · intro ts ss hparts
      exact sameText_bracketed (by decide) (by decide) hparts
  | @obj es hnodup _ ih =>
    rw [Json.parsed_obj _ _ utf16Text_injective hnodup, canonicalizeToJson, normalizedEntries_eq_map, Writer.canonicalize,
      Writer.normalizedPairs_eq_map, List.map_map]
    refine object_alike hw (List.forall₂_map_left_iff.mpr (List.forall₂_map_right_iff.mpr (List.forall₂_same.mpr ?_)))
    exact fun e he => ⟨hw.normalize e.1, rfl, rfl, ih e he⟩

end

end OxDeAI
