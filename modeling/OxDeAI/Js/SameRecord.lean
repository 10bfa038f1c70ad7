import OxDeAI.Js.Record

/-! Records with the same entries, whatever the order they were created in. -/

namespace Js

variable {α : Type*}

/-- The same keys, with related values. -/
def SameRecord (R : α → α → Prop) (r r' : Record α) : Prop := ∀ k, Option.Rel R (r.own? k) (r'.own? k)

/-- Two reads that find the same kind of thing. -/
inductive SameRead (R : α → α → Prop) : Read α → Read α → Prop
  | own {v v' : α} (h : R v v') : SameRead R (.own v) (.own v')
  | inherited (i : Inherited) : SameRead R (.inherited i) (.inherited i)
  | absent : SameRead R .absent .absent

theorem rel_eq {o o' : Option α} : Option.Rel (· = ·) o o' ↔ o = o' := by
  constructor
  · rintro (⟨rfl⟩ | _)
    · rfl
    · rfl
  · rintro rfl
    cases o with
    | none => exact .none
    | some v => exact .some rfl

theorem rel_symm {R : α → α → Prop} (hR : ∀ x y, R x y → R y x) {o o' : Option α} (h : Option.Rel R o o') :
    Option.Rel R o' o := by
  cases h with
  | none => exact .none
  | some h => exact .some (hR _ _ h)

theorem rel_trans {R : α → α → Prop} (hR : ∀ x y z, R x y → R y z → R x z) {o o' o'' : Option α}
    (h : Option.Rel R o o') (h' : Option.Rel R o' o'') : Option.Rel R o o'' := by
  cases h with
  | none => exact h'
  | some h =>
    cases h' with
    | some h' => exact .some (hR _ _ _ h h')

theorem rel_isSome {R : α → α → Prop} {o o' : Option α} (h : Option.Rel R o o') : o.isSome = o'.isSome := by
  cases h <;> rfl

namespace SameRecord

variable {R : α → α → Prop} {r r' : Record α}

theorem refl (hR : ∀ x, R x x) (r : Record α) : SameRecord R r r := by
  intro k
  cases r.own? k with
  | none => exact .none
  | some v => exact .some (hR v)

theorem symm (hR : ∀ x y, R x y → R y x) (h : SameRecord R r r') : SameRecord R r' r := fun k => rel_symm hR (h k)

theorem trans (hR : ∀ x y z, R x y → R y z → R x z) {r'' : Record α} (h : SameRecord R r r')
    (h' : SameRecord R r' r'') : SameRecord R r r'' := fun k => rel_trans hR (h k) (h' k)

theorem own?_eq (h : SameRecord (· = ·) r r') (k : JsString) : r.own? k = r'.own? k := rel_eq.mp (h k)

theorem mem_keys (h : SameRecord R r r') (k : JsString) : k ∈ r.keys ↔ k ∈ r'.keys := by
  rw [Record.mem_keys, Record.mem_keys, rel_isSome (h k)]

theorem keys_perm (h : SameRecord R r r') : r.keys.Perm r'.keys :=
  (List.perm_ext_iff_of_nodup r.nodup_keys r'.nodup_keys).mpr h.mem_keys

theorem size_eq (h : SameRecord R r r') : r.size = r'.size := by
  rw [← r.length_keys, ← r'.length_keys, h.keys_perm.length_eq]

theorem entries_perm (h : SameRecord (· = ·) r r') : r.entries.Perm r'.entries := by
  refine (List.perm_ext_iff_of_nodup (List.Nodup.of_map _ r.nodup) (List.Nodup.of_map _ r'.nodup)).mpr ?_
  rintro ⟨k, v⟩
  rw [← r.own?_eq_some, ← r'.own?_eq_some, h.own?_eq]

theorem get (h : SameRecord R r r') (k : JsString) : SameRead R (r.get k) (r'.get k) := by
  have hk := h k
  rw [Record.get, Record.get]
  generalize r.own? k = o at hk
  generalize r'.own? k = o' at hk
  cases hk with
  | some hv => exact .own hv
  | none =>
    cases inherited? k with
    | none => exact .absent
    | some i => exact .inherited i

theorem get_eq (h : SameRecord (· = ·) r r') (k : JsString) : r.get k = r'.get k := Record.get_congr (h.own?_eq k)

theorem set (h : SameRecord R r r') (k : JsString) {v v' : α} (hv : R v v') :
    SameRecord R (r.set k v) (r'.set k v') := by
  intro k'
  rw [Record.own?_set, Record.own?_set]
  split
  · exact .some hv
  · exact h k'

theorem without (h : SameRecord R r r') (k : JsString) : SameRecord R (r.without k) (r'.without k) := by
  intro k'
  rw [Record.own?_without, Record.own?_without]
  split
  · exact .none
  · exact h k'

theorem filter (h : SameRecord (· = ·) r r') (p : JsString × α → Bool) :
    SameRecord (· = ·) (r.filter p) (r'.filter p) := by
  intro k
  rw [rel_eq]
  ext v
  rw [Record.own?_filter, Record.own?_filter, h.own?_eq]

/-- Related values satisfy a property in both records or in neither. -/
theorem forall_entries (h : SameRecord R r r') {p : α → Prop} (hp : ∀ x y, R x y → (p x ↔ p y)) :
    (∀ e ∈ r.entries, p e.2) ↔ ∀ e ∈ r'.entries, p e.2 := by
  have hown : ∀ s : Record α, (∀ e ∈ s.entries, p e.2) ↔ ∀ k, ∀ v ∈ s.own? k, p v := by
    intro s
    constructor
    · intro hall k v hv
      exact hall (k, v) (s.own?_eq_some.mp hv)
    · rintro hall ⟨k, v⟩ he
      exact hall k v (s.own?_eq_some.mpr he)
  rw [hown, hown]
  refine forall_congr' fun k => ?_
  have hk := h k
  generalize r.own? k = o at hk
  generalize r'.own? k = o' at hk
  cases hk with
  | none => simp
  | some hv => simpa using hp _ _ hv

theorem forall_entries_eq (h : SameRecord (· = ·) r r') (p : α → Prop) :
    (∀ e ∈ r.entries, p e.2) ↔ ∀ e ∈ r'.entries, p e.2 := by simp only [h.entries_perm.mem_iff]

end SameRecord

end Js
