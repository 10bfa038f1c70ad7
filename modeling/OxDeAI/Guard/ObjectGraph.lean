import OxDeAI.Guard.DelegationSnapshot
import OxDeAI.Lib.Noted

/-! The snapshot of an object graph as the caller holds it: proxies, accessors, symbol
keys, class instances, sharing and cycles included. It is taken exactly of plain
acyclic data, runs none of the caller's code, and is what the guard reads. -/

namespace OxDeAI.ObjectGraph

open Js

/-- What a snapshot copies as it is. -/
inductive Primitive
  | undefined
  | null
  | bool (b : Bool)
  | num (n : JsNumber)
  | bigint (z : ℤ)
  | str (s : JsString)
  deriving DecidableEq

/-- A value; objects are known by their place in the heap. -/
inductive Slot (n : ℕ)
  | prim (p : Primitive)
  | function
  | symbol
  | ref (a : Fin n)
  deriving DecidableEq

inductive PropertyKey
  | str (s : JsString)
  | symbol (id : ℕ)
  deriving DecidableEq

inductive Descriptor (n : ℕ)
  | data (value : Slot n) (enumerable : Bool)
  | accessor
  deriving DecidableEq

inductive Prototype
  | object
  | array
  | null
  | other
  deriving DecidableEq

/-- Own properties, in the order in which `Reflect.ownKeys` lists them. -/
structure Properties (n : ℕ) where
  entries : List (PropertyKey × Descriptor n)
  nodup : (entries.map Prod.fst).Nodup

/-- The own properties of an array are listed without its `length`. -/
inductive HeapObject (n : ℕ)
  | proxy
  | ordinary (proto : Prototype) (own : Properties n)
  | array (proto : Prototype) (length : ℕ) (own : Properties n)

abbrev Heap (n : ℕ) := Fin n → HeapObject n

def Properties.keys {n : ℕ} (own : Properties n) : List PropertyKey := own.entries.map Prod.fst

def Properties.own? {n : ℕ} (own : Properties n) (key : PropertyKey) : Option (Descriptor n) :=
  (own.entries.find? fun e => e.1 = key).map Prod.snd

/-- A copy: fresh objects, each with one holder. -/
inductive Snap
  | leaf (p : Primitive)
  | arr (xs : List Snap)
  | obj (nullPrototype : Bool) (es : List (JsString × Snap))

/-- What the walk does to an object. A proxy would run a trap of its handler. -/
inductive Reflection (n : ℕ)
  | getPrototypeOf (a : Fin n)
  | ownKeys (a : Fin n)
  | length (a : Fin n)
  | getOwnPropertyDescriptor (a : Fin n) (key : PropertyKey)

def Reflection.target {n : ℕ} : Reflection n → Fin n
  | getPrototypeOf a => a
  | ownKeys a => a
  | length a => a
  | getOwnPropertyDescriptor a _ => a

/-- A `DelegationSnapshotError`, or the `RangeError` of a full call stack. -/
inductive SnapshotError
  | unsupported (path reason : JsString)
  | range
  deriving DecidableEq

abbrev Walk (n : ℕ) (α : Type) := Noted (Reflection n) SnapshotError α

section

variable {n : ℕ}

def refuse {α : Type} (path reason : JsString) : Walk n α := Noted.fail (.unsupported path reason)

def readDataProperty (owner : Fin n) (own : Properties n) (key : PropertyKey) (path : JsString)
    (descend : Slot n → Walk n Snap) : Walk n Snap := do
  Noted.note (.getOwnPropertyDescriptor owner key)
  match own.own? key with
  | none => refuse path (js "missing own property")
  | some .accessor => refuse path (js "accessor properties are not supported")
  | some (.data value enumerable) =>
    if !enumerable then refuse path (js "non-enumerable properties are not supported") else descend value

/-- No limit stands for `Infinity`. -/
def checkNesting (limit : Option ℕ) (path : JsString) (depth : ℕ) : Walk n PUnit :=
  match limit with
  | none => pure ⟨⟩
  | some m => if m ≤ depth then refuse path (js "nesting exceeds " ++ natDecimal m) else pure ⟨⟩

def checkAcyclic (seen : List (Fin n)) (a : Fin n) (path : JsString) : Walk n PUnit :=
  if a ∈ seen then refuse path (js "cyclic structure") else pure ⟨⟩

/-- The calls that the stack still has room for come first. -/
def snapshotValue (H : Heap n) (limit : Option ℕ) : ℕ → Slot n → JsString → ℕ → List (Fin n) → Walk n Snap
  | 0, _, _, _, _ => Noted.fail .range
  | stack + 1, value, path, depth, seen =>
    match value with
    | .prim p => pure (.leaf p)
    | .function => refuse path (js "unsupported value type function")
    | .symbol => refuse path (js "unsupported value type symbol")
    | .ref a =>
      match H a with
      | .proxy => refuse path (js "Proxy objects are not supported")
      | .ordinary proto own => do
        checkNesting limit path depth
        checkAcyclic seen a path
        Noted.note (.getPrototypeOf a)
        if proto ≠ .object ∧ proto ≠ .null then
          refuse path (js "only plain objects and plain arrays are supported")
        else do
          Noted.note (.ownKeys a)
          let es ← Noted.forEach (fun key => match key with
            | .symbol _ => refuse path (js "symbol-keyed properties are not supported")
            | .str k => do
              let v ← readDataProperty a own key (path ++ js "." ++ k) (fun v =>
                snapshotValue H limit stack v (path ++ js "." ++ k) (depth + 1) (a :: seen))
              return (k, v)) own.keys
          return .obj (proto = .null) es
      | .array proto length own => do
        checkNesting limit path depth
        checkAcyclic seen a path
        Noted.note (.getPrototypeOf a)
        if proto ≠ .array then refuse path (js "only plain objects and plain arrays are supported")
        else do
          Noted.note (.ownKeys a)
          Noted.note (.length a)
          if own.keys.length + 1 ≠ length + 1 then
            refuse path (js "sparse arrays and arrays with extra properties are not supported")
          else do
            let xs ← Noted.forEach (fun i =>
              readDataProperty a own (.str (natDecimal i)) (path ++ js "[" ++ natDecimal i ++ js "]") (fun v =>
                snapshotValue H limit stack v (path ++ js "[" ++ natDecimal i ++ js "]") (depth + 1) (a :: seen)))
              (List.range length)
            return .arr xs

def snapshotPlainData (H : Heap n) (stack : ℕ) (limit : Option ℕ) (value : Slot n) (path : JsString) : Walk n Snap :=
  snapshotValue H limit stack value path 0 []

end

mutual

/-- The copy that is handed to the upstream's executor. -/
def mutableCopyOfSnapshot : Snap → Snap
  | .leaf p => .leaf p
  | .arr xs => .arr (mutableCopyOfElements xs)
  | .obj nullPrototype es => .obj nullPrototype (mutableCopyOfMembers es)

def mutableCopyOfElements : List Snap → List Snap
  | [] => []
  | x :: xs => mutableCopyOfSnapshot x :: mutableCopyOfElements xs

def mutableCopyOfMembers : List (JsString × Snap) → List (JsString × Snap)
  | [] => []
  | (k, v) :: es => (k, mutableCopyOfSnapshot v) :: mutableCopyOfMembers es

end

def Primitive.toJsValue : Primitive → JsValue
  | .undefined => .undefined
  | .null => .null
  | .bool b => .bool b
  | .num n => .num n
  | .bigint z => .bigint z
  | .str s => .str s

mutual

/-- A copy as the guard's model has it, where prototypes are not told apart. -/
def Snap.toJsValue : Snap → JsValue
  | .leaf p => p.toJsValue
  | .arr xs => .arr (elementsToJsValue xs)
  | .obj _ es => .obj (membersToJsValue es)

def elementsToJsValue : List Snap → List JsValue
  | [] => []
  | x :: xs => x.toJsValue :: elementsToJsValue xs

def membersToJsValue : List (JsString × Snap) → List (JsString × JsValue)
  | [] => []
  | (k, v) :: es => (k, v.toJsValue) :: membersToJsValue es

end

/-- The value is plain data, with this copy: the same leaves, keys in their order, and
prototypes at every level. -/
inductive Copies {n : ℕ} (H : Heap n) : Slot n → Snap → Prop
  | leaf (p : Primitive) : Copies H (.prim p) (.leaf p)
  | arr {a : Fin n} {own : Properties n} {vs : List (Slot n)} {xs : List Snap}
    (h : H a = .array .array xs.length own) (hown : own.keys.length = xs.length) (hlen : vs.length = xs.length)
    (hvalue : List.Forall₂ (fun i v => own.own? (.str (natDecimal i)) = some (.data v true)) (List.range xs.length) vs)
    (hcopies : ∀ p ∈ vs.zip xs, Copies H p.1 p.2) : Copies H (.ref a) (.arr xs)
  | obj {a : Fin n} {proto : Prototype} {own : Properties n} {vs : List (JsString × Slot n)}
    {es : List (JsString × Snap)} (h : H a = .ordinary proto own) (hproto : proto = .object ∨ proto = .null)
    (hown : own.entries = vs.map fun e => (.str e.1, .data e.2 true)) (hlen : vs.length = es.length)
    (hkeys : ∀ p ∈ vs.zip es, p.1.1 = p.2.1) (hcopies : ∀ p ∈ vs.zip es, Copies H p.1.2 p.2.2) :
    Copies H (.ref a) (.obj (proto = .null) es)

/-- Objects and arrays are nested to at most this many levels. -/
def Snap.Within : ℕ → Snap → Prop
  | _, .leaf _ => True
  | 0, _ => False
  | m + 1, .arr xs => ∀ x ∈ xs, x.Within m
  | m + 1, .obj _ es => ∀ e ∈ es, e.2.Within m

section

variable {n : ℕ} {H : Heap n} {limit : Option ℕ} {stack depth : ℕ} {v : Slot n} {s t : Snap} {path : JsString}
  {seen : List (Fin n)} {a : Fin n} {own : Properties n} {key : PropertyKey}

theorem Copies.unique (hs : Copies H v s) (ht : Copies H v t) : s = t := by
  induction hs generalizing t with
  | leaf p =>
    cases ht
    rfl
  | arr h hown hlen hvalue _ ih =>
    cases ht with
    | obj h' =>
      rw [h] at h'
      cases h'
    | arr h' hown' hlen' hvalue' hcopies' =>
      rw [h] at h'
      injection h' with _ hlength howns
      subst howns
      rw [← hlength] at hvalue'
      obtain rfl := List.right_unique_forall₂' (fun i v w hi hi' => by
        rw [hi] at hi'
        exact (Descriptor.data.inj (Option.some.inj hi')).1) hvalue hvalue'
      rw [Noted.zip_unique hlen hlen' fun v x y hx hy => ih _ hx (hcopies' _ hy)]
  | obj h hproto hown hlen hkeys _ ih =>
    cases ht with
    | arr h' =>
      rw [h] at h'
      cases h'
    | obj h' hproto' hown' hlen' hkeys' hcopies' =>
      rw [h] at h'
      injection h' with hprotos howns
      subst hprotos howns
      rw [hown] at hown'
      obtain rfl := List.map_injective_iff.mpr (fun e e' he => by
        simp only [Prod.mk.injEq, PropertyKey.str.injEq, Descriptor.data.injEq, and_true] at he
        exact Prod.ext he.1 he.2) hown'
      rw [Noted.zip_unique hlen hlen' fun v x y hx hy =>
        Prod.ext ((hkeys _ hx).symm.trans (hkeys' _ hy)) (ih _ hx (hcopies' _ hy))]

theorem result_readDataProperty {descend : Slot n → Walk n Snap} :
    (readDataProperty a own key path descend).result = .ok s ↔
      ∃ v, own.own? key = some (.data v true) ∧ (descend v).result = .ok s := by
  rw [readDataProperty, Noted.result_note_bind]
  cases hkey : own.own? key with
  | none => simp [refuse]
  | some d =>
    cases d with
    | accessor => simp [refuse]
    | data v enumerable => cases enumerable <;> simp [refuse]

theorem result_checkNesting {u : PUnit} :
    (checkNesting (n := n) limit path depth).result = .ok u ↔ ∀ m, limit = some m → depth < m := by
  cases limit with
  | none => simp [checkNesting]
  | some m =>
    rw [checkNesting]
    by_cases h : m ≤ depth
    · have hnot : ¬ depth < m := by omega
      simp [h, refuse, hnot]
    · have hlt : depth < m := by omega
      simp [h, hlt]

theorem result_checkAcyclic {u : PUnit} : (checkAcyclic seen a path).result = .ok u ↔ a ∉ seen := by
  rw [checkAcyclic]
  by_cases h : a ∈ seen <;> simp [h, refuse]

theorem Properties.own?_eq_some {d : Descriptor n} (h : own.own? key = some d) : (key, d) ∈ own.entries := by
  obtain ⟨e, he, rfl⟩ := Option.map_eq_some_iff.mp h
  have hkey := List.find?_some he
  have hmem := List.mem_of_find?_eq_some he
  rw [← of_decide_eq_true hkey]
  exact hmem

theorem Properties.own?_of_mem {d : Descriptor n} (h : (key, d) ∈ own.entries) : own.own? key = some d := by
  cases hd : own.own? key with
  | none =>
    rw [own?, Option.map_eq_none_iff, List.find?_eq_none] at hd
    exact absurd (decide_eq_true rfl) (hd _ h)
  | some d' =>
    have hinj : (key, d') = (key, d) := List.inj_on_of_nodup_map own.nodup (own?_eq_some hd) h rfl
    rw [(Prod.mk.inj hinj).2]

theorem result_array {proto : Prototype} {length : ℕ} (h : H a = .array proto length own) :
    (snapshotValue H limit (stack + 1) (.ref a) path depth seen).result = .ok s ↔
      (∀ m, limit = some m → depth < m) ∧ a ∉ seen ∧ proto = .array ∧ own.keys.length = length ∧
        ∃ xs, List.Forall₂ (fun i x => ∃ v, own.own? (.str (natDecimal i)) = some (.data v true) ∧
          (snapshotValue H limit stack v (path ++ js "[" ++ natDecimal i ++ js "]") (depth + 1) (a :: seen)).result =
            .ok x) (List.range length) xs ∧ Snap.arr xs = s := by
  simp only [snapshotValue, h, Noted.result_bind, result_checkNesting, result_checkAcyclic, Noted.result_note]
  by_cases hproto : proto = .array
  · by_cases hlength : own.keys.length = length
    · simp [hproto, hlength, Noted.result_bind, Noted.result_forEach, result_readDataProperty]
    · simp [hproto, hlength, refuse]
  · simp [hproto, refuse]

theorem result_ordinary {proto : Prototype} (h : H a = .ordinary proto own) :
    (snapshotValue H limit (stack + 1) (.ref a) path depth seen).result = .ok s ↔
      (∀ m, limit = some m → depth < m) ∧ a ∉ seen ∧ (proto = .object ∨ proto = .null) ∧
        ∃ es, List.Forall₂ (fun entry (e : JsString × Snap) => ∃ v, entry = (.str e.1, .data v true) ∧
          (snapshotValue H limit stack v (path ++ js "." ++ e.1) (depth + 1) (a :: seen)).result = .ok e.2)
            own.entries es ∧ Snap.obj (proto = .null) es = s := by
  simp only [snapshotValue, h, Noted.result_bind, result_checkNesting, result_checkAcyclic, Noted.result_note]
  by_cases hproto : proto ≠ .object ∧ proto ≠ .null
  · simp [hproto, refuse]
  · have hplain : proto = .object ∨ proto = .null := by
      by_contra hnot
      exact hproto ⟨fun h => hnot (.inl h), fun h => hnot (.inr h)⟩
    simp only [hproto, hplain, if_false, Noted.result_note_bind, Noted.result_bind, Noted.result_forEach,
      Noted.result_pure, Except.ok.injEq, exists_const, true_and, Properties.keys, List.forall₂_map_left_iff]
    refine and_congr_right fun _ => and_congr_right fun _ => exists_congr fun es => ?_
    rw [Noted.forall₂_congr_mem fun entry hentry e => ?_]
    obtain ⟨key, d⟩ := entry
    cases key with
    | symbol id => simp [refuse]
    | str k =>
      simp only [Noted.result_bind, result_readDataProperty, Properties.own?_of_mem hentry]
      simp only [Noted.result_pure, Except.ok.injEq, Option.some.injEq, Prod.mk.injEq, PropertyKey.str.injEq]
      constructor
      · rintro ⟨t, ⟨v, hv, ht⟩, rfl⟩
        exact ⟨v, ⟨rfl, hv⟩, ht⟩
      · rintro ⟨v, ⟨rfl, hv⟩, ht⟩
        exact ⟨e.2, ⟨v, hv, ht⟩, rfl⟩

theorem copies_of_result (h : (snapshotValue H limit stack v path depth seen).result = .ok s) :
    Copies H v s ∧ ∀ m, limit = some m → s.Within (m - depth) := by
  induction stack generalizing v path depth seen s with
  | zero => cases h
  | succ stack ih =>
    cases v with
    | prim p =>
      cases h
      refine ⟨.leaf p, fun m _ => ?_⟩
      cases m - depth <;> trivial
    | function => cases h
    | symbol => cases h
    | ref a =>
      cases ha : H a with
      | proxy =>
        simp only [snapshotValue, ha] at h
        cases h
      | array proto length own =>
        obtain ⟨hnesting, _, rfl, hown, xs, hxs, rfl⟩ := (result_array ha).mp h
        have hlength : length = xs.length := by
          have hlen := hxs.length_eq
          rwa [List.length_range] at hlen
        subst hlength
        have hread : List.Forall₂ (fun i x => ∃ v, own.own? (.str (natDecimal i)) = some (Descriptor.data v true) ∧
            (Copies H v x ∧ ∀ m, limit = some m → x.Within (m - (depth + 1)))) (List.range xs.length) xs :=
          hxs.imp fun i x ⟨v, hv, hx⟩ => ⟨v, hv, ih hx⟩
        obtain ⟨vs, hvs, hlen, hcopies⟩ := Noted.forall₂_exists_iff.mp hread
        refine ⟨.arr ha hown hlen hvs fun p hp => (hcopies p hp).1, fun m hm => ?_⟩
        have hstep : m - depth = m - (depth + 1) + 1 := by
          have hlt := hnesting m hm
          omega
        rw [hstep]
        intro x hx
        obtain ⟨v, hv⟩ := Noted.exists_zip_of_mem hlen hx
        exact (hcopies (v, x) hv).2 m hm
      | ordinary proto own =>
        obtain ⟨hnesting, _, hproto, es, hes, rfl⟩ := (result_ordinary ha).mp h
        have hread : List.Forall₂ (fun entry (e : JsString × Snap) => ∃ v : JsString × Slot n,
            entry = (PropertyKey.str v.1, Descriptor.data v.2 true) ∧
              (v.1 = e.1 ∧ Copies H v.2 e.2 ∧ ∀ m, limit = some m → e.2.Within (m - (depth + 1)))) own.entries es :=
          hes.imp fun entry e ⟨v, hv, hx⟩ => ⟨(e.1, v), hv, rfl, ih hx⟩
        obtain ⟨vs, hvs, hlen, hcopies⟩ := Noted.forall₂_exists_iff.mp hread
        have hown : own.entries = vs.map fun e => (.str e.1, .data e.2 true) := by
          rw [← List.forall₂_eq_eq_eq, List.forall₂_map_right_iff]
          exact hvs
        refine ⟨.obj ha hproto hown hlen (fun p hp => (hcopies p hp).1) (fun p hp => (hcopies p hp).2.1),
          fun m hm => ?_⟩
        have hstep : m - depth = m - (depth + 1) + 1 := by
          have hlt := hnesting m hm
          omega
        rw [hstep]
        intro e he
        obtain ⟨v, hv⟩ := Noted.exists_zip_of_mem hlen he
        exact (hcopies (v, e) hv).2.2 m hm

theorem Snap.sizeOf_element {xs : List Snap} {x : Snap} (h : x ∈ xs) : sizeOf x < sizeOf (Snap.arr xs) := by
  have hlt := List.sizeOf_lt_of_mem h
  simp only [arr.sizeOf_spec]
  omega

theorem Snap.sizeOf_member {b : Bool} {es : List (JsString × Snap)} {e : JsString × Snap} (h : e ∈ es) :
    sizeOf e.2 < sizeOf (Snap.obj b es) := by
  have hlt := List.sizeOf_lt_of_mem h
  obtain ⟨k, x⟩ := e
  simp only [obj.sizeOf_spec, Prod.mk.sizeOf_spec] at hlt ⊢
  omega

/-- The objects on the way down are distinct, so the stack lasts. -/
structure OnPath (H : Heap n) (stack : ℕ) (seen : List (Fin n)) (s : Snap) : Prop where
  nodup : seen.Nodup
  room : n < stack + seen.length
  above : ∀ a ∈ seen, ∃ t, Copies H (.ref a) t ∧ sizeOf s < sizeOf t

theorem OnPath.stack_pos (h : OnPath H stack seen s) : stack ≠ 0 := by
  have hcard := h.nodup.length_le_card
  have hroom := h.room
  rw [Fintype.card_fin] at hcard
  omega

theorem OnPath.not_mem (h : OnPath H stack seen s) (hs : Copies H (.ref a) s) : a ∉ seen := by
  intro hmem
  obtain ⟨t, ht, hlt⟩ := h.above a hmem
  rw [hs.unique ht] at hlt
  omega

theorem OnPath.down (h : OnPath H (stack + 1) seen t) (ht : Copies H (.ref a) t) (hlt : sizeOf s < sizeOf t) :
    OnPath H stack (a :: seen) s where
  nodup := List.nodup_cons.mpr ⟨h.not_mem ht, h.nodup⟩
  room := by
    have hroom := h.room
    rw [List.length_cons]
    omega
  above b hb := by
    rcases List.mem_cons.mp hb with rfl | hb
    · exact ⟨t, ht, hlt⟩
    · obtain ⟨u, hu, htu⟩ := h.above b hb
      exact ⟨u, hu, hlt.trans htu⟩

theorem nesting_of_within {P : ℕ → Prop} (hzero : ¬ P 0) (h : ∀ m, limit = some m → P (m - depth)) :
    (∀ m, limit = some m → depth < m) ∧ ∀ m, limit = some m → P (m - (depth + 1) + 1) := by
  have hlt : ∀ m, limit = some m → depth < m := by
    intro m hm
    by_contra hge
    have hsub : m - depth = 0 := by omega
    have hp := h m hm
    rw [hsub] at hp
    exact hzero hp
  refine ⟨hlt, fun m hm => ?_⟩
  have hsub : m - (depth + 1) + 1 = m - depth := by
    have hnesting := hlt m hm
    omega
  rw [hsub]
  exact h m hm

theorem result_of_copies (hs : Copies H v s) (hpath : OnPath H stack seen s)
    (hwithin : ∀ m, limit = some m → s.Within (m - depth)) :
    (snapshotValue H limit stack v path depth seen).result = .ok s := by
  induction hs generalizing stack path depth seen with
  | leaf p =>
    obtain ⟨stack, rfl⟩ := Nat.exists_eq_succ_of_ne_zero hpath.stack_pos
    rfl
  | @arr a own vs xs h hown hlen hvalue hcopies ih =>
    obtain ⟨stack, rfl⟩ := Nat.exists_eq_succ_of_ne_zero hpath.stack_pos
    have harr := Copies.arr h hown hlen hvalue hcopies
    obtain ⟨hnesting, hbelow⟩ := nesting_of_within (P := fun m => (Snap.arr xs).Within m) id hwithin
    refine (result_array h).mpr ⟨hnesting, hpath.not_mem harr, rfl, hown, xs, ?_, rfl⟩
    have hread : ∀ p ∈ vs.zip xs, ∀ path : JsString,
        (snapshotValue H limit stack p.1 path (depth + 1) (a :: seen)).result = .ok p.2 := by
      intro p hp path
      have hmem : p.2 ∈ xs := (List.of_mem_zip hp).2
      exact ih p hp (hpath.down harr (Snap.sizeOf_element hmem)) fun m hm => hbelow m hm p.2 hmem
    have hboth := Noted.forall₂_exists_iff (S := fun v x => ∀ path : JsString,
      (snapshotValue H limit stack v path (depth + 1) (a :: seen)).result = .ok x).mpr ⟨vs, hvalue, hlen, hread⟩
    exact hboth.imp fun i x ⟨v, hv, hx⟩ => ⟨v, hv, hx _⟩
  | @obj a proto own vs es h hproto hown hlen hkeys hcopies ih =>
    obtain ⟨stack, rfl⟩ := Nat.exists_eq_succ_of_ne_zero hpath.stack_pos
    have hobj := Copies.obj h hproto hown hlen hkeys hcopies
    obtain ⟨hnesting, hbelow⟩ := nesting_of_within (P := fun m => (Snap.obj (proto = .null) es).Within m) id hwithin
    refine (result_ordinary h).mpr ⟨hnesting, hpath.not_mem hobj, hproto, es, ?_, rfl⟩
    have hread : ∀ p ∈ vs.zip es, p.1.1 = p.2.1 ∧ ∀ path : JsString,
        (snapshotValue H limit stack p.1.2 path (depth + 1) (a :: seen)).result = .ok p.2.2 := by
      intro p hp
      have hmem : p.2 ∈ es := (List.of_mem_zip hp).2
      refine ⟨hkeys p hp, fun path => ?_⟩
      exact ih p hp (hpath.down hobj (Snap.sizeOf_member hmem)) fun m hm => hbelow m hm p.2 hmem
    have hentries : List.Forall₂ (fun entry v => entry = (PropertyKey.str v.1, Descriptor.data v.2 true))
        own.entries vs := by
      rw [hown, List.forall₂_map_left_iff, List.forall₂_same]
      exact fun _ _ => rfl
    have hboth := Noted.forall₂_exists_iff (S := fun v e => v.1 = e.1 ∧ ∀ path : JsString,
      (snapshotValue H limit stack v.2 path (depth + 1) (a :: seen)).result = .ok e.2).mpr ⟨vs, hentries, hlen, hread⟩
    refine hboth.imp fun entry e ⟨v, hv, hkey, hx⟩ => ⟨v.2, ?_, hx _⟩
    rw [hv, hkey]

/-- No proxy is reflected on, and the stack fills only when it has room for `N` objects
and `N` is no more than there are. -/
abbrev Safe {α : Type} (H : Heap n) (N : ℕ) (x : Walk n α) : Prop :=
  Noted.Keeps (fun r => H r.target ≠ .proxy) (fun e => e = .range → N ≤ n) x

variable {N : ℕ}

theorem safe_refuse {α : Type} {reason : JsString} : Safe H N (refuse path reason : Walk n α) :=
  Noted.keeps_fail fun h => by cases h

theorem safe_note {r : Reflection n} (h : H r.target ≠ .proxy) : Safe H N (Noted.note r : Walk n PUnit) :=
  Noted.keeps_note h

theorem safe_readDataProperty {descend : Slot n → Walk n Snap} (ha : H a ≠ .proxy)
    (hdescend : ∀ v, Safe H N (descend v)) : Safe H N (readDataProperty a own key path descend) := by
  refine (safe_note ha).bind fun _ _ => ?_
  cases own.own? key with
  | none => exact safe_refuse
  | some d =>
    cases d with
    | accessor => exact safe_refuse
    | data v enumerable =>
      cases enumerable with
      | false => exact safe_refuse
      | true => exact hdescend v

theorem safe_checkNesting : Safe H N (checkNesting limit path depth) := by
  cases limit with
  | none => exact Noted.keeps_pure
  | some m =>
    rw [checkNesting]
    split
    · exact safe_refuse
    · exact Noted.keeps_pure

theorem safe_checkAcyclic : Safe H N (checkAcyclic seen a path) := by
  rw [checkAcyclic]
  split
  · exact safe_refuse
  · exact Noted.keeps_pure

theorem safe_snapshotValue (hnodup : seen.Nodup) (hroom : stack + seen.length = N) :
    Safe H N (snapshotValue H limit stack v path depth seen) := by
  induction stack generalizing v path depth seen with
  | zero =>
    refine Noted.keeps_fail fun _ => ?_
    have hcard := hnodup.length_le_card
    rw [Fintype.card_fin] at hcard
    omega
  | succ stack ih =>
    have hbelow : ∀ {a path v}, a ∉ seen → Safe H N (snapshotValue H limit stack v path (depth + 1) (a :: seen)) := by
      intro a path v ha
      refine ih (List.nodup_cons.mpr ⟨ha, hnodup⟩) ?_
      rw [List.length_cons]
      omega
    cases v with
    | prim p => exact Noted.keeps_pure
    | function => exact safe_refuse
    | symbol => exact safe_refuse
    | ref a =>
      rw [snapshotValue]
      cases ha : H a with
      | proxy => exact safe_refuse
      | ordinary proto own =>
        have hproxy : H a ≠ .proxy := by
          rw [ha]
          intro h
          cases h
        refine safe_checkNesting.bind fun _ _ => safe_checkAcyclic.bind fun _ hacyclic => ?_
        have hfresh := result_checkAcyclic.mp hacyclic
        refine (safe_note hproxy).bind fun _ _ => ?_
        split
        · exact safe_refuse
        · refine (safe_note hproxy).bind fun _ _ => ?_
          refine (Noted.Keeps.forEach fun key _ => ?_).bind fun _ _ => Noted.keeps_pure
          cases key with
          | symbol id => exact safe_refuse
          | str k => exact (safe_readDataProperty hproxy fun v => hbelow hfresh).bind fun _ _ => Noted.keeps_pure
      | array proto length own =>
        have hproxy : H a ≠ .proxy := by
          rw [ha]
          intro h
          cases h
        refine safe_checkNesting.bind fun _ _ => safe_checkAcyclic.bind fun _ hacyclic => ?_
        have hfresh := result_checkAcyclic.mp hacyclic
        refine (safe_note hproxy).bind fun _ _ => ?_
        split
        · exact safe_refuse
        · refine (safe_note hproxy).bind fun _ _ => (safe_note hproxy).bind fun _ _ => ?_
          split
          · exact safe_refuse
          · refine (Noted.Keeps.forEach fun i _ => ?_).bind fun _ _ => Noted.keeps_pure
            exact safe_readDataProperty hproxy fun v => hbelow hfresh

end

mutual

theorem mutableCopyOfSnapshot_eq (s : Snap) : mutableCopyOfSnapshot s = s := by
  cases s with
  | leaf p => rw [mutableCopyOfSnapshot]
  | arr xs => rw [mutableCopyOfSnapshot, mutableCopyOfElements_eq xs]
  | obj nullPrototype es => rw [mutableCopyOfSnapshot, mutableCopyOfMembers_eq es]

theorem mutableCopyOfElements_eq (xs : List Snap) : mutableCopyOfElements xs = xs := by
  cases xs with
  | nil => rw [mutableCopyOfElements]
  | cons x xs => rw [mutableCopyOfElements, mutableCopyOfSnapshot_eq x, mutableCopyOfElements_eq xs]

theorem mutableCopyOfMembers_eq (es : List (JsString × Snap)) : mutableCopyOfMembers es = es := by
  match es with
  | [] => rw [mutableCopyOfMembers]
  | (k, v) :: es => rw [mutableCopyOfMembers, mutableCopyOfSnapshot_eq v, mutableCopyOfMembers_eq es]

end

theorem within_pos {limit depth : ℕ} {P : ℕ → Prop} (hzero : ¬ P 0) :
    P (limit - depth) ↔ ¬ limit ≤ depth ∧ P (limit - (depth + 1) + 1) := by
  by_cases h : limit ≤ depth
  · have hsub : limit - depth = 0 := by omega
    simp [h, hsub, hzero]
  · have hsub : limit - depth = limit - (depth + 1) + 1 := by omega
    rw [hsub]
    exact (and_iff_right h).symm

mutual

theorem snapshotValue_toJsValue (s : Snap) (limit : ℕ) (path : JsString) (depth : ℕ) :
    OxDeAI.snapshotValue limit path depth s.toJsValue = .ok s.toJsValue ↔ s.Within (limit - depth) := by
  match s with
  | .leaf p =>
    have hwithin : (Snap.leaf p).Within (limit - depth) := by cases limit - depth <;> trivial
    refine iff_of_true ?_ hwithin
    cases p <;> rfl
  | .arr xs =>
    rw [within_pos (P := fun m => (Snap.arr xs).Within m) id, Snap.toJsValue, OxDeAI.snapshotValue]
    split
    · simp [*]
    · have hxs := snapshotElements_toJsValue xs limit path depth 0
      simp only [map_eq_ok, JsValue.arr.injEq, exists_eq_right, Snap.Within, *, not_false_eq_true, true_and]
  | .obj nullPrototype es =>
    rw [within_pos (P := fun m => (Snap.obj nullPrototype es).Within m) id, Snap.toJsValue, OxDeAI.snapshotValue]
    split
    · simp [*]
    · have hes := snapshotMembers_toJsValue es limit path depth
      simp only [map_eq_ok, JsValue.obj.injEq, exists_eq_right, Snap.Within, *, not_false_eq_true, true_and]

theorem snapshotElements_toJsValue (xs : List Snap) (limit : ℕ) (path : JsString) (depth i : ℕ) :
    OxDeAI.snapshotElements limit path depth i (elementsToJsValue xs) = .ok (elementsToJsValue xs) ↔
      ∀ x ∈ xs, x.Within (limit - (depth + 1)) := by
  match xs with
  | [] => simp [elementsToJsValue, OxDeAI.snapshotElements]
  | x :: xs =>
    have hx := snapshotValue_toJsValue x limit (path ++ js "[" ++ natDecimal i ++ js "]") (depth + 1)
    have hxs := snapshotElements_toJsValue xs limit path depth (i + 1)
    rw [elementsToJsValue, OxDeAI.snapshotElements, List.forall_mem_cons, ← hx, ← hxs]
    simp only [bind_eq_ok]
    constructor
    · rintro ⟨y, hy, ys, hys, h⟩
      obtain ⟨rfl, rfl⟩ := List.cons.inj (Except.ok.inj h)
      exact ⟨hy, hys⟩
    · rintro ⟨hy, hys⟩
      exact ⟨_, hy, _, hys, rfl⟩

theorem snapshotMembers_toJsValue (es : List (JsString × Snap)) (limit : ℕ) (path : JsString) (depth : ℕ) :
    OxDeAI.snapshotMembers limit path depth (membersToJsValue es) = .ok (membersToJsValue es) ↔
      ∀ e ∈ es, e.2.Within (limit - (depth + 1)) := by
  match es with
  | [] => simp [membersToJsValue, OxDeAI.snapshotMembers]
  | (k, v) :: es =>
    have hv := snapshotValue_toJsValue v limit (path ++ js "." ++ k) (depth + 1)
    have hes := snapshotMembers_toJsValue es limit path depth
    rw [membersToJsValue, OxDeAI.snapshotMembers, List.forall_mem_cons, ← hv, ← hes]
    simp only [bind_eq_ok]
    constructor
    · rintro ⟨y, hy, ys, hys, h⟩
      obtain ⟨hhead, rfl⟩ := List.cons.inj (Except.ok.inj h)
      rw [(Prod.mk.inj hhead).2] at hy
      exact ⟨hy, hys⟩
    · rintro ⟨hy, hys⟩
      exact ⟨_, hy, _, hys, rfl⟩

end

/-- Whatever the graph, the snapshot ends without a trap; it returns a copy exactly of
plain data that is nested no deeper than the limit. The guard's model reads that copy
under the same limit, and the upstream is handed the same again. -/
theorem snapshot_taken_iff {n : ℕ} (H : Heap n) {stack : ℕ} (hstack : n < stack) (limit : Option ℕ) (value : Slot n)
    (path : JsString) :
    (∀ s, (snapshotPlainData H stack limit value path).result = .ok s ↔
      Copies H value s ∧ ∀ m, limit = some m → s.Within m) ∧
    (snapshotPlainData H stack limit value path).result ≠ .error .range ∧
    (∀ r ∈ (snapshotPlainData H stack limit value path).notes, H r.target ≠ .proxy) ∧
    ∀ s, Copies H value s → mutableCopyOfSnapshot s = s ∧ ∀ m, s.Within m ↔
      OxDeAI.snapshotValue m path 0 s.toJsValue = .ok s.toJsValue := by
  have hsafe : Safe H stack (snapshotPlainData H stack limit value path) :=
    safe_snapshotValue List.nodup_nil rfl
  refine ⟨fun s => ⟨copies_of_result, fun ⟨hs, hwithin⟩ => ?_⟩, fun hrange => ?_, hsafe.notes, fun s _ => ?_⟩
  · have hpath : OnPath H stack [] s := ⟨List.nodup_nil, by simpa using hstack, fun a ha => absurd ha List.not_mem_nil⟩
    exact result_of_copies hs hpath hwithin
  · have hfull := hsafe.failure .range hrange rfl
    omega
  · exact ⟨mutableCopyOfSnapshot_eq s, fun m => (snapshotValue_toJsValue s m path 0).symm⟩

/-- An object with a null prototype and its own `__proto__`, held twice. -/
def sampleHeap : Heap 2
  | 0 => .array .array 2 ⟨[(.str (js "0"), .data (.ref 1) true), (.str (js "1"), .data (.ref 1) true)], by decide⟩
  | 1 => .ordinary .null ⟨[(.str (js "__proto__"), .data (.prim (.bool true)) true)], by decide⟩

def sampleCopy : Snap :=
  .arr (List.replicate 2 (.obj true [(js "__proto__", .leaf (.bool true))]))

theorem snapshot_taken_iff_sample : Copies sampleHeap (.ref 0) sampleCopy ∧ sampleCopy.Within 2 := by
  have htaken := snapshot_taken_iff sampleHeap (by decide : 2 < 3) (some 2) (.ref 0) (js "input")
  have hcopy := (htaken.1 sampleCopy).mp rfl
  exact ⟨hcopy.1, hcopy.2 2 rfl⟩

end OxDeAI.ObjectGraph
