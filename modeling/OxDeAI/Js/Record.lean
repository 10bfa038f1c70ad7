import OxDeAI.Js.Text

/-! Plain objects used as maps: the own properties in creation order, and what
a read finds on `Object.prototype` when the key is not an own property. -/

namespace Js

variable {α : Type*}

structure Record (α : Type*) where
  entries : List (JsString × α)
  nodup : (entries.map Prod.fst).Nodup
  deriving DecidableEq

/-- What `Object.prototype` supplies: itself under `__proto__`, else a function. -/
inductive Inherited
  | prototype
  | method
  deriving DecidableEq

def protoKey : JsString := js "__proto__"

def prototypeMethods : List JsString :=
  [js "constructor", js "__defineGetter__", js "__defineSetter__", js "hasOwnProperty",
    js "__lookupGetter__", js "__lookupSetter__", js "isPrototypeOf", js "propertyIsEnumerable",
    js "toString", js "valueOf", js "toLocaleString"]

def inherited? (k : JsString) : Option Inherited :=
  if k = protoKey then some .prototype
  else if k ∈ prototypeMethods then some .method
  else none

/-- The outcome of reading `record[key]`. -/
inductive Read (α : Type*)
  | own (v : α)
  | inherited (i : Inherited)
  | absent
  deriving DecidableEq

/-- The value of an own property. -/
def Read.value? : Read α → Option α
  | .own v => some v
  | _ => none

def Read.isInherited : Read α → Bool
  | .inherited _ => true
  | _ => false

def ownEntry (k : JsString) : List (JsString × α) → Option α
  | [] => none
  | e :: es => if e.1 = k then some e.2 else ownEntry k es

def setEntry (k : JsString) (v : α) : List (JsString × α) → List (JsString × α)
  | [] => [(k, v)]
  | e :: es => if e.1 = k then (k, v) :: es else e :: setEntry k v es

theorem ownEntry_isSome {k : JsString} {es : List (JsString × α)} :
    (ownEntry k es).isSome = true ↔ k ∈ es.map Prod.fst := by
  induction es with
  | nil => simp [ownEntry]
  | cons e es ih =>
    by_cases h : e.1 = k
    · simp [ownEntry, h]
    · simp [ownEntry, h, ih, Ne.symm h]

theorem ownEntry_eq_none {k : JsString} {es : List (JsString × α)} :
    ownEntry k es = none ↔ k ∉ es.map Prod.fst := by
  rw [← ownEntry_isSome]
  cases ownEntry k es <;> simp

theorem ownEntry_mem {k : JsString} {v : α} {es : List (JsString × α)}
    (h : ownEntry k es = some v) : (k, v) ∈ es := by
  induction es with
  | nil => simp [ownEntry] at h
  | cons e es ih =>
    by_cases he : e.1 = k
    · simp only [ownEntry, he, if_true, Option.some.injEq] at h
      exact List.mem_cons.mpr (.inl (Prod.ext he.symm h.symm))
    · simp only [ownEntry, he, if_false] at h
      exact List.mem_cons_of_mem _ (ih h)

theorem ownEntry_of_mem {k : JsString} {v : α} {es : List (JsString × α)}
    (hnd : (es.map Prod.fst).Nodup) (h : (k, v) ∈ es) : ownEntry k es = some v := by
  induction es with
  | nil => simp at h
  | cons e es ih =>
    rw [List.map_cons, List.nodup_cons] at hnd
    rcases List.mem_cons.mp h with rfl | h
    · simp [ownEntry]
    · have hne : e.1 ≠ k := fun he => hnd.1 (List.mem_map.mpr ⟨(k, v), h, he.symm⟩)
      simp [ownEntry, hne, ih hnd.2 h]

theorem ownEntry_setEntry (k k' : JsString) (v : α) (es : List (JsString × α)) :
    ownEntry k' (setEntry k v es) = if k' = k then some v else ownEntry k' es := by
  induction es with
  | nil => simp [setEntry, ownEntry, eq_comm]
  | cons e es ih =>
    by_cases he : e.1 = k
    · by_cases hk : k' = k
      · simp [setEntry, ownEntry, he, hk]
      · simp [setEntry, ownEntry, he, hk, Ne.symm hk]
    · by_cases hk : k' = k
      · subst hk
        simp [setEntry, ownEntry, he, ih]
      · simp [setEntry, ownEntry, he, ih, hk]

theorem keys_setEntry (k : JsString) (v : α) (es : List (JsString × α)) :
    (setEntry k v es).map Prod.fst =
      if k ∈ es.map Prod.fst then es.map Prod.fst else es.map Prod.fst ++ [k] := by
  induction es with
  | nil => simp [setEntry]
  | cons e es ih =>
    by_cases he : e.1 = k
    · simp [setEntry, he]
    · have hm : k ∈ (e :: es).map Prod.fst ↔ k ∈ es.map Prod.fst := by simp [Ne.symm he]
      simp only [hm, setEntry, he, if_false]
      rw [List.map_cons, ih]
      split <;> simp

theorem setEntry_of_notMem {k : JsString} {v : α} {es : List (JsString × α)}
    (h : k ∉ es.map Prod.fst) : setEntry k v es = es ++ [(k, v)] := by
  induction es with
  | nil => rfl
  | cons e es ih =>
    rw [List.map_cons, List.mem_cons, not_or] at h
    simp [setEntry, Ne.symm h.1, ih h.2]

theorem setEntry_append {k : JsString} {v w : α} {pre post : List (JsString × α)}
    (h : k ∉ pre.map Prod.fst) : setEntry k v (pre ++ (k, w) :: post) = pre ++ (k, v) :: post := by
  induction pre with
  | nil => simp [setEntry]
  | cons e es ih =>
    rw [List.map_cons, List.mem_cons, not_or] at h
    simp [setEntry, Ne.symm h.1, ih h.2]

theorem ownEntry_map {β : Type*} (f : α → β) (key : JsString) (es : List (JsString × α)) :
    ownEntry key (es.map (fun e => (e.1, f e.2))) = (ownEntry key es).map f := by
  induction es with
  | nil => rfl
  | cons e es ih =>
    by_cases hk : e.1 = key
    · simp [ownEntry, hk]
    · simp [ownEntry, hk, ih]

theorem ownEntry_perm {es fs : List (JsString × α)} (h : es.Perm fs) (hnd : (es.map Prod.fst).Nodup)
    (k : JsString) : ownEntry k es = ownEntry k fs := by
  have hnd' : (fs.map Prod.fst).Nodup := (h.map Prod.fst).nodup_iff.mp hnd
  apply Option.ext
  intro v
  constructor
  · intro hv
    exact ownEntry_of_mem hnd' (h.mem_iff.mp (ownEntry_mem hv))
  · intro hv
    exact ownEntry_of_mem hnd (h.mem_iff.mpr (ownEntry_mem hv))

namespace Record

variable (r : Record α)

def empty : Record α := ⟨[], List.nodup_nil⟩

/-- `Object.keys`. -/
def keys : List JsString := r.entries.map Prod.fst

def size : ℕ := r.entries.length

def own? (k : JsString) : Option α := ownEntry k r.entries

def get (k : JsString) : Read α :=
  match r.own? k with
  | some v => .own v
  | none => match inherited? k with
    | some i => .inherited i
    | none => .absent

/-- `{ ...record, [key]: value }`. -/
def set (k : JsString) (v : α) : Record α where
  entries := setEntry k v r.entries
  nodup := by
    rw [keys_setEntry]
    split
    · exact r.nodup
    · rename_i hk
      exact List.nodup_append.mpr ⟨r.nodup, by simp, by
        intro a ha b hb
        obtain rfl : b = k := by simpa using hb
        exact fun he => hk (he ▸ ha)⟩

/-- `record[key] = value` on a plain object. The setter behind `__proto__`
creates no own property. -/
def assign (k : JsString) (v : α) : Record α :=
  if k = protoKey ∧ r.own? k = none then r else r.set k v

/-- `const { [key]: _, ...rest } = record`. -/
def without (k : JsString) : Record α where
  entries := r.entries.filter (fun e => e.1 ≠ k)
  nodup := r.nodup.sublist (List.filter_sublist.map Prod.fst)

/-- The entries that satisfy a predicate, in the same order. -/
def filter (p : JsString × α → Bool) : Record α where
  entries := r.entries.filter p
  nodup := r.nodup.sublist (List.filter_sublist.map Prod.fst)

/-- The same keys with other values. -/
def mapValues {β : Type*} (f : α → β) : Record β where
  entries := r.entries.map (fun e => (e.1, f e.2))
  nodup := by simpa [List.map_map, Function.comp_def] using r.nodup

theorem mem_keys {k : JsString} : k ∈ r.keys ↔ (r.own? k).isSome = true := ownEntry_isSome.symm

theorem own?_eq_none {k : JsString} : r.own? k = none ↔ k ∉ r.keys := ownEntry_eq_none

theorem own?_eq_some {k : JsString} {v : α} : r.own? k = some v ↔ (k, v) ∈ r.entries :=
  ⟨ownEntry_mem, ownEntry_of_mem r.nodup⟩

theorem length_keys : r.keys.length = r.size := List.length_map _

theorem nodup_keys : r.keys.Nodup := r.nodup

@[simp] theorem own?_empty (k : JsString) : (empty : Record α).own? k = none := rfl

@[simp] theorem own?_set (k k' : JsString) (v : α) :
    (r.set k v).own? k' = if k' = k then some v else r.own? k' := ownEntry_setEntry k k' v r.entries

theorem own?_set_self (k : JsString) (v : α) : (r.set k v).own? k = some v := by simp

theorem own?_set_of_ne {k k' : JsString} (h : k' ≠ k) (v : α) :
    (r.set k v).own? k' = r.own? k' := by simp [h]

/-- An own property splits the entries around it. -/
theorem split_own {k : JsString} {v : α} (h : r.own? k = some v) :
    ∃ pre post, r.entries = pre ++ (k, v) :: post ∧ k ∉ pre.map Prod.fst := by
  obtain ⟨pre, post, hes⟩ := List.append_of_mem (r.own?_eq_some.mp h)
  refine ⟨pre, post, hes, fun hk => ?_⟩
  have hnd := r.nodup
  rw [hes, List.map_append, List.nodup_append] at hnd
  exact hnd.2.2 k hk k (by simp) rfl

theorem set_own {k : JsString} {v : α} (h : r.own? k = some v) : r.set k v = r := by
  obtain ⟨pre, post, hes, hpre⟩ := r.split_own h
  cases r
  simp only at hes
  simp only [set, hes, setEntry_append hpre]

theorem setEntry_setEntry (k : JsString) (v w : α) (es : List (JsString × α)) :
    setEntry k w (setEntry k v es) = setEntry k w es := by
  induction es with
  | nil => simp [setEntry]
  | cons e es ih => by_cases he : e.1 = k <;> simp [setEntry, he, ih]

@[simp] theorem set_set (k : JsString) (v w : α) : (r.set k v).set k w = r.set k w := by
  simp only [set, setEntry_setEntry]

theorem keys_set (k : JsString) (v : α) :
    (r.set k v).keys = if k ∈ r.keys then r.keys else r.keys ++ [k] := keys_setEntry k v r.entries

theorem size_set (k : JsString) (v : α) :
    (r.set k v).size = if k ∈ r.keys then r.size else r.size + 1 := by
  rw [← length_keys, keys_set, ← length_keys]
  split <;> simp

theorem own?_without (k k' : JsString) : (r.without k).own? k' = if k' = k then none else r.own? k' := by
  have hs : ∀ v, (r.without k).own? k' = some v ↔ r.own? k' = some v ∧ k' ≠ k := by
    intro v
    rw [own?_eq_some, own?_eq_some]
    simp [without]
  by_cases h : k' = k
  · rw [if_pos h, Option.eq_none_iff_forall_ne_some]
    exact fun v hv => ((hs v).mp hv).2 h
  · rw [if_neg h]
    exact Option.ext fun v => by simp [hs, h]

theorem own?_filter {p : JsString × α → Bool} {k : JsString} {v : α} :
    (r.filter p).own? k = some v ↔ r.own? k = some v ∧ p (k, v) = true := by
  rw [own?_eq_some, own?_eq_some]
  exact List.mem_filter

theorem keys_without (k : JsString) : (r.without k).keys = r.keys.filter (fun k' => k' ≠ k) := by
  simp [keys, without, List.filter_map, Function.comp_def]

theorem size_without_of_mem {k : JsString} (h : k ∈ r.keys) : (r.without k).size + 1 = r.size := by
  have he : (r.without k).keys = r.keys.erase k := by
    rw [keys_without, r.nodup_keys.erase_eq_filter]
    exact List.filter_congr (fun k' _ => by by_cases hk : k' = k <;> simp [hk])
  have hl := List.length_erase_of_mem h
  have := List.length_pos_of_mem h
  rw [← length_keys, ← length_keys, he]
  omega

theorem without_of_notMem {k : JsString} (h : k ∉ r.keys) : r.without k = r := by
  have hf : r.entries.filter (fun e => e.1 ≠ k) = r.entries := by
    apply List.filter_eq_self.mpr
    intro e he
    have hm : e.1 ∈ r.keys := List.mem_map.mpr ⟨e, he, rfl⟩
    simpa using fun hk : e.1 = k => h (hk ▸ hm)
  cases r
  simpa only [without, mk.injEq] using hf

theorem get_eq_own {k : JsString} {v : α} : r.get k = .own v ↔ r.own? k = some v := by
  unfold get
  cases r.own? k with
  | some w => simp
  | none => cases inherited? k <;> simp

@[simp] theorem value?_get (k : JsString) : (r.get k).value? = r.own? k := by
  unfold get
  cases r.own? k with
  | some v => rfl
  | none => cases inherited? k <;> rfl

theorem isInherited_get {k : JsString} :
    (r.get k).isInherited = true ↔ r.own? k = none ∧ inherited? k ≠ none := by
  unfold get
  cases r.own? k with
  | some v => simp [Read.isInherited]
  | none => cases inherited? k <;> simp [Read.isInherited]

theorem get_of_own? {k : JsString} {v : α} (h : r.own? k = some v) : r.get k = .own v :=
  r.get_eq_own.mpr h

theorem get_of_none {k : JsString} (h : r.own? k = none) (hk : inherited? k = none) :
    r.get k = .absent := by simp [get, h, hk]

theorem get_congr {r s : Record α} {k : JsString} (h : r.own? k = s.own? k) :
    r.get k = s.get k := by simp [get, h]

theorem assign_of_own {k : JsString} {v w : α} (h : r.own? k = some v) :
    r.assign k w = r.set k w := by simp [assign, h]

theorem own?_assign_of_ne {k k' : JsString} (h : k' ≠ k) (v : α) :
    (r.assign k v).own? k' = r.own? k' := by
  rw [assign]
  split
  · rfl
  · exact r.own?_set_of_ne h v

theorem assign_of_ne {k : JsString} (h : k ≠ protoKey) (v : α) : r.assign k v = r.set k v := by
  simp [assign, h]

end Record

end Js
