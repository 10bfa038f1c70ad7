import OxDeAI.Js.Unicode
import OxDeAI.Js.JsonRoundTrip

/-! JSON values, over the strings and the numbers a language reads from a text. -/

namespace Js

inductive Json (S N : Type)
  | null
  | bool (b : Bool)
  | str (s : S)
  | num (n : N)
  | arr (xs : List (Json S N))
  | obj (es : List (S × Json S N))

namespace Json

variable {S N : Type}

inductive DistinctKeys : Json S N → Prop
  | null : DistinctKeys .null
  | bool (b : Bool) : DistinctKeys (.bool b)
  | str (s : S) : DistinctKeys (.str s)
  | num (n : N) : DistinctKeys (.num n)
  | arr {xs : List (Json S N)} (h : ∀ x ∈ xs, DistinctKeys x) : DistinctKeys (.arr xs)
  | obj {es : List (S × Json S N)} (hnodup : (es.map Prod.fst).Nodup) (h : ∀ e ∈ es, DistinctKeys e.2) :
      DistinctKeys (.obj es)

section

variable (text : S → JsString) (number : N → JsNumber)

mutual

/-- The value `JSON.parse` makes of it: a later member replaces an earlier one of
the same name. -/
def parsed : Json S N → JsValue
  | null => .null
  | bool b => .bool b
  | str s => .str (text s)
  | num n => .num (number n)
  | arr xs => .arr (parsedElements xs)
  | obj es => .obj (objectOf (parsedMembers es))

def parsedElements : List (Json S N) → List JsValue
  | [] => []
  | x :: xs => parsed x :: parsedElements xs

def parsedMembers : List (S × Json S N) → List (JsString × JsValue)
  | [] => []
  | (k, v) :: es => (text k, parsed v) :: parsedMembers es

end

theorem parsedElements_eq_map (xs : List (Json S N)) :
    parsedElements text number xs = xs.map (parsed text number) := by
  induction xs with
  | nil => rfl
  | cons x xs ih => rw [parsedElements, ih, List.map_cons]

theorem parsedMembers_eq_map (es : List (S × Json S N)) :
    parsedMembers text number es = es.map (fun e => (text e.1, parsed text number e.2)) := by
  induction es with
  | nil => rfl
  | cons e es ih => rw [parsedMembers, ih, List.map_cons]

/-- With distinct keys every member stays. -/
theorem parsed_obj {es : List (S × Json S N)} (htext : Function.Injective text) (hnodup : (es.map Prod.fst).Nodup) :
    parsed text number (.obj es) = .obj (es.map (fun e => (text e.1, parsed text number e.2))) := by
  rw [parsed, parsedMembers_eq_map, objectOf_of_nodup]
  have hkeys : (es.map (fun e => (text e.1, parsed text number e.2))).map Prod.fst = (es.map Prod.fst).map text := by
    simp
  rw [hkeys]
  exact hnodup.map htext

end

theorem json_induction {motive : Json S N → Prop} (null : motive .null) (bool : ∀ b, motive (.bool b))
    (str : ∀ s, motive (.str s)) (num : ∀ n, motive (.num n))
    (arr : ∀ xs, (∀ x ∈ xs, motive x) → motive (.arr xs))
    (obj : ∀ es, (∀ e ∈ es, motive e.2) → motive (.obj es)) (v : Json S N) : motive v :=
  Json.rec (motive_1 := motive) (motive_2 := fun xs => ∀ x ∈ xs, motive x)
    (motive_3 := fun es => ∀ e ∈ es, motive e.2) (motive_4 := fun e => motive e.2)
    null bool str num arr obj (by simp) (fun _ _ hx hxs => List.forall_mem_cons.mpr ⟨hx, hxs⟩)
    (by simp) (fun _ _ he hes => List.forall_mem_cons.mpr ⟨he, hes⟩) (fun _ _ h => h) v

/-- The value itself and every element and member value in it. -/
inductive Node : Json S N → Json S N → Prop
  | self (v : Json S N) : Node v v
  | element {xs : List (Json S N)} {x u : Json S N} (hx : x ∈ xs) (h : Node x u) : Node (.arr xs) u
  | member {es : List (S × Json S N)} {e : S × Json S N} {u : Json S N} (he : e ∈ es) (h : Node e.2 u) :
      Node (.obj es) u

theorem forall_node_arr {xs : List (Json S N)} {P : Json S N → Prop} :
    (∀ u, Node (.arr xs) u → P u) ↔ P (.arr xs) ∧ ∀ x ∈ xs, ∀ u, Node x u → P u := by
  constructor
  · exact fun h => ⟨h _ (.self _), fun x hx u hu => h u (.element hx hu)⟩
  · rintro ⟨hself, helements⟩ u hu
    cases hu with
    | self => exact hself
    | element hx hu => exact helements _ hx u hu

theorem forall_node_obj {es : List (S × Json S N)} {P : Json S N → Prop} :
    (∀ u, Node (.obj es) u → P u) ↔ P (.obj es) ∧ ∀ e ∈ es, ∀ u, Node e.2 u → P u := by
  constructor
  · exact fun h => ⟨h _ (.self _), fun e he u hu => h u (.member he hu)⟩
  · rintro ⟨hself, hmembers⟩ u hu
    cases hu with
    | self => exact hself
    | member he hu => exact hmembers _ he u hu

/-- A value without parts is its only node. -/
theorem forall_node_leaf {v : Json S N} {P : Json S N → Prop} (h : ∀ u, Node v u → u = v) :
    (∀ u, Node v u → P u) ↔ P v :=
  ⟨fun hall => hall _ (.self _), fun hv u hu => h u hu ▸ hv⟩

theorem forall_node_null {P : Json S N → Prop} : (∀ u, Node null u → P u) ↔ P null :=
  forall_node_leaf fun u hu => by cases hu; rfl

theorem forall_node_num {n : N} {P : Json S N → Prop} : (∀ u, Node (num n) u → P u) ↔ P (num n) :=
  forall_node_leaf fun u hu => by cases hu; rfl

theorem forall_node_str {s : S} {P : Json S N → Prop} : (∀ u, Node (str s) u → P u) ↔ P (str s) :=
  forall_node_leaf fun u hu => by cases hu; rfl

def isNumber : Json S N → Bool
  | num _ => true
  | _ => false

end Json

end Js
