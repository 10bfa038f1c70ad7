import OxDeAI.Core.CanonicalForm
import OxDeAI.Js.JsonTree

/-! Canonicalization as the reference harnesses write it. They share the recursion;
what a string and what a number become is each one's own. -/

namespace OxDeAI

open Js

structure Writer (N : Type) where
  normalize : List Char → List Char
  quote : List Char → List Char
  number : N → Except CanonicalError (List Char)

def timestampName : List Char := ['t', 's']

namespace Writer

variable {N : Type} (w : Writer N)

/-- `INVALID_TIMESTAMP` whatever is wrong with the number. -/
def timestamp : Json (List Char) N → Except CanonicalError (List Char)
  | .num n =>
    match w.number n with
    | .ok t => .ok t
    | .error _ => .error .invalidTimestamp
  | _ => .error .invalidTimestamp

/-- One member, from its normalized key, its value and what the value becomes. -/
def member (pair : List Char × Json (List Char) N × Except CanonicalError (List Char)) :
    Except CanonicalError (List Char) :=
  (if pair.1 = timestampName then w.timestamp pair.2.1 else pair.2.2).map (fun t => w.quote pair.1 ++ ':' :: t)

def object (pairs : List (List Char × Json (List Char) N × Except CanonicalError (List Char))) :
    Except CanonicalError (List Char) :=
  if (pairs.map Prod.fst).Nodup then
    ((pairs.insertionSort (fun a b => utf8Text a.1 ≤ utf8Text b.1)).mapM w.member).map
      (fun parts => '\x7b' :: [','].intercalate parts ++ ['\x7d'])
  else .error .duplicateKey

mutual

def canonicalize : Json (List Char) N → Except CanonicalError (List Char)
  | .null => .ok ['n', 'u', 'l', 'l']
  | .bool b => .ok (if b then ['t', 'r', 'u', 'e'] else ['f', 'a', 'l', 's', 'e'])
  | .str s => .ok (w.quote (w.normalize s))
  | .num n => w.number n
  | .arr xs => (canonicalizeElements xs).map (fun parts => '[' :: [','].intercalate parts ++ [']'])
  | .obj es => w.object (normalizedPairs es)

def canonicalizeElements : List (Json (List Char) N) → Except CanonicalError (List (List Char))
  | [] => .ok []
  | x :: xs => do
    let t ← canonicalize x
    let ts ← canonicalizeElements xs
    return t :: ts

def normalizedPairs : List (List Char × Json (List Char) N) →
    List (List Char × Json (List Char) N × Except CanonicalError (List Char))
  | [] => []
  | (k, v) :: es => (w.normalize k, v, canonicalize v) :: normalizedPairs es

end

theorem canonicalizeElements_eq_mapM (xs : List (Json (List Char) N)) :
    w.canonicalizeElements xs = xs.mapM w.canonicalize := by
  induction xs with
  | nil => rfl
  | cons x xs ih => rw [canonicalizeElements, ih, List.mapM_cons]

theorem normalizedPairs_eq_map (es : List (List Char × Json (List Char) N)) :
    w.normalizedPairs es = es.map (fun e => (w.normalize e.1, e.2, w.canonicalize e.2)) := by
  induction es with
  | nil => rfl
  | cons e es ih => rw [normalizedPairs, ih, List.map_cons]

/-- Members that no writer refuses. -/
structure MembersFit (normalize : List Char → List Char) (es : List (List Char × Json (List Char) N)) : Prop where
  nodup : (es.map (fun e => normalize e.1)).Nodup
  timestamp : ∀ e ∈ es, normalize e.1 = timestampName → e.2.isNumber = true

def Takes : Json (List Char) N → Prop
  | .num n => ∃ t, w.number n = .ok t
  | .obj es => MembersFit w.normalize es
  | _ => True

variable {w}

theorem timestamp_ok {v : Json (List Char) N} {t : List Char} :
    w.timestamp v = .ok t ↔ v.isNumber = true ∧ w.canonicalize v = .ok t := by
  cases v with
  | num n =>
    simp only [timestamp, canonicalize, Json.isNumber, true_and]
    cases w.number n <;> simp
  | _ => simp [timestamp, Json.isNumber]

theorem member_ok {e : List Char × Json (List Char) N} {t : List Char} :
    w.member (w.normalize e.1, e.2, w.canonicalize e.2) = .ok t ↔
      (w.normalize e.1 = timestampName → e.2.isNumber = true) ∧
        ∃ s, w.canonicalize e.2 = .ok s ∧ w.quote (w.normalize e.1) ++ ':' :: s = t := by
  rw [member, map_eq_ok]
  by_cases hts : w.normalize e.1 = timestampName
  · rw [if_pos hts]
    simp only [timestamp_ok, hts, forall_const]
    constructor
    · rintro ⟨s, ⟨hnum, hs⟩, ht⟩
      exact ⟨hnum, s, hs, ht⟩
    · rintro ⟨hnum, s, hs, ht⟩
      exact ⟨s, ⟨hnum, hs⟩, ht⟩
  · rw [if_neg hts]
    simp [hts]

variable (w) in
/-- The entries in the order of their normalized keys. -/
def sorted (es : List (List Char × Json (List Char) N)) : List (List Char × Json (List Char) N) :=
  es.insertionSort (fun a b => utf8Text (w.normalize a.1) ≤ utf8Text (w.normalize b.1))

theorem mem_sorted {es : List (List Char × Json (List Char) N)} {e : List Char × Json (List Char) N} :
    e ∈ w.sorted es ↔ e ∈ es := List.mem_insertionSort _

theorem canonicalize_obj (es : List (List Char × Json (List Char) N)) :
    w.canonicalize (.obj es) =
      if (es.map (fun e => w.normalize e.1)).Nodup then
        ((w.sorted es).mapM (fun e => w.member (w.normalize e.1, e.2, w.canonicalize e.2))).map
          (fun parts => '\x7b' :: [','].intercalate parts ++ ['\x7d'])
      else .error .duplicateKey := by
  have hsort := List.map_insertionSort
    (fun a b : List Char × Json (List Char) N => utf8Text (w.normalize a.1) ≤ utf8Text (w.normalize b.1))
    (fun a b : List Char × Json (List Char) N × Except CanonicalError (List Char) => utf8Text a.1 ≤ utf8Text b.1)
    (fun e => (w.normalize e.1, e.2, w.canonicalize e.2)) es fun _ _ _ _ => Iff.rfl
  have hmap : ∀ l : List (List Char × Json (List Char) N),
      (l.map (fun e => (w.normalize e.1, e.2, w.canonicalize e.2))).mapM w.member =
        l.mapM (fun e => w.member (w.normalize e.1, e.2, w.canonicalize e.2)) := fun l => List.mapM_map
  rw [canonicalize, normalizedPairs_eq_map, object, List.map_map, ← hsort, hmap]
  rfl

theorem canonicalize_obj_ok {es : List (List Char × Json (List Char) N)} {t : List Char}
    (h : w.canonicalize (.obj es) = .ok t) :
    ∃ parts, (w.sorted es).mapM (fun e => w.member (w.normalize e.1, e.2, w.canonicalize e.2)) = .ok parts ∧
      '\x7b' :: [','].intercalate parts ++ ['\x7d'] = t := by
  rw [canonicalize_obj] at h
  split at h
  · exact map_eq_ok.mp h
  · cases h

/-- It returns exactly if it takes every node. -/
theorem canonicalize_returns (v : Json (List Char) N) :
    (∃ t, w.canonicalize v = .ok t) ↔ ∀ u, v.Node u → w.Takes u := by
  induction v using Json.json_induction with
  | null => rw [Json.forall_node_leaf (fun u hu => by cases hu; rfl)]; simp [canonicalize, Takes]
  | bool b => rw [Json.forall_node_leaf (fun u hu => by cases hu; rfl)]; simp [canonicalize, Takes]
  | str s => rw [Json.forall_node_leaf (fun u hu => by cases hu; rfl)]; simp [canonicalize, Takes]
  | num n => rw [Json.forall_node_leaf (fun u hu => by cases hu; rfl), canonicalize, Takes]
  | arr xs ih =>
    rw [canonicalize, map_returns, canonicalizeElements_eq_mapM, mapM_returns, Json.forall_node_arr]
    have helements : (∀ x ∈ xs, ∃ t, w.canonicalize x = .ok t) ↔ ∀ x ∈ xs, ∀ u, x.Node u → w.Takes u :=
      forall₂_congr ih
    rw [helements]
    simp [Takes]
  | obj es ih =>
    rw [canonicalize_obj, Json.forall_node_obj, Takes]
    by_cases hnodup : (es.map (fun e => w.normalize e.1)).Nodup
    · rw [if_pos hnodup, map_returns, mapM_returns]
      simp only [mem_sorted, member_ok]
      constructor
      · intro h
        refine ⟨⟨hnodup, fun e he hts => ?_⟩, fun e he => ?_⟩
        · obtain ⟨t, hnum, -⟩ := h e he
          exact hnum hts
        · obtain ⟨t, -, s, hs, -⟩ := h e he
          exact (ih e he).mp ⟨s, hs⟩
      · rintro ⟨hfit, hmembers⟩ e he
        obtain ⟨s, hs⟩ := (ih e he).mpr (hmembers e he)
        exact ⟨_, hfit.timestamp e he, s, hs, rfl⟩
    · rw [if_neg hnodup]
      simp only [reduceCtorEq, exists_false, false_iff, not_and]
      exact fun hfit => absurd hfit.nodup hnodup

end Writer

end OxDeAI
