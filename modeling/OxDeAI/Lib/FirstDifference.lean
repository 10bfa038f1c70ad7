import Mathlib.Data.List.Forall2
import Mathlib.Tactic

/-! Texts that differ at a position both of them have. Whatever is appended to
such texts, they stay different. -/

namespace FirstDifference

variable {α β γ δ : Type*}

inductive Differ : List α → List α → Prop
  | here {x y : α} (h : x ≠ y) (xs ys : List α) : Differ (x :: xs) (y :: ys)
  | later (x : α) {xs ys : List α} (h : Differ xs ys) : Differ (x :: xs) (x :: ys)

theorem Differ.ne {xs ys : List α} (h : Differ xs ys) : xs ≠ ys := by
  induction h with
  | here h => exact fun heq => h (List.cons.inj heq).1
  | later x _ ih => exact fun heq => ih (List.cons.inj heq).2

theorem Differ.symm {xs ys : List α} (h : Differ xs ys) : Differ ys xs := by
  induction h with
  | here h xs ys => exact .here h.symm ys xs
  | later x _ ih => exact .later x ih

theorem Differ.append {xs ys : List α} (h : Differ xs ys) (us vs : List α) : Differ (xs ++ us) (ys ++ vs) := by
  induction h with
  | here h xs ys => exact .here h _ _
  | later x _ ih => exact .later x ih

theorem Differ.prepend {xs ys : List α} (h : Differ xs ys) (us : List α) : Differ (us ++ xs) (us ++ ys) := by
  induction us with
  | nil => exact h
  | cons u us ih => exact .later u ih

theorem differ_of_length {xs ys : List α} (hlength : xs.length = ys.length) (hne : xs ≠ ys) : Differ xs ys := by
  induction xs generalizing ys with
  | nil => exact absurd (List.eq_nil_of_length_eq_zero hlength.symm).symm hne
  | cons x xs ih =>
    cases ys with
    | nil => cases hlength
    | cons y ys =>
      by_cases hxy : x = y
      · subst hxy
        exact .later x (ih (Nat.succ.inj hlength) fun h => hne (by rw [h]))
      · exact .here hxy xs ys

/-- Two lists of one length have the same elements up to the first that differ. -/
theorem split_of_ne {xs ys : List α} (hlength : xs.length = ys.length) (hne : xs ≠ ys) :
    ∃ (pre : List α) (x y : α) (xs' ys' : List α), x ≠ y ∧ xs = pre ++ x :: xs' ∧ ys = pre ++ y :: ys' := by
  have h := differ_of_length hlength hne
  clear hlength hne
  induction h with
  | here h xs ys => exact ⟨[], _, _, xs, ys, h, rfl, rfl⟩
  | later x _ ih =>
    obtain ⟨pre, a, b, xs', ys', hab, rfl, rfl⟩ := ih
    exact ⟨x :: pre, a, b, xs', ys', hab, rfl, rfl⟩

/-- The same, or different where both have a letter. -/
def SameOrDiffer (xs ys : List α) : Prop := xs = ys ∨ Differ xs ys

theorem SameOrDiffer.append {xs ys us vs : List α} (h : SameOrDiffer xs ys) (h' : SameOrDiffer us vs) :
    SameOrDiffer (xs ++ us) (ys ++ vs) := by
  rcases h with rfl | h
  · rcases h' with rfl | h'
    · exact .inl rfl
    · exact .inr (h'.prepend xs)
  · exact .inr (h.append us vs)

theorem SameOrDiffer.differ {xs ys : List α} (h : SameOrDiffer xs ys) (hne : xs ≠ ys) : Differ xs ys :=
  h.resolve_left hne

/-- After equal or different beginnings, different ends differ. -/
theorem SameOrDiffer.append_differ {xs ys us vs : List α} (h : SameOrDiffer xs ys) (h' : Differ us vs) :
    Differ (xs ++ us) (ys ++ vs) := by
  rcases h with rfl | h
  · exact h'.prepend xs
  · exact h.append us vs

/-- Neither is the beginning of a longer one. -/
theorem sameOrDiffer_of_append {xs ys : List α} (h : ∀ us vs, xs ++ us = ys ++ vs → us = vs) : SameOrDiffer xs ys := by
  induction xs generalizing ys with
  | nil =>
    have hys : ys = [] := h ys [] (by simp)
    exact .inl hys.symm
  | cons x xs ih =>
    cases ys with
    | nil =>
      have hxs : [] = x :: xs := h [] (x :: xs) (by simp)
      cases hxs
    | cons y ys =>
      by_cases hxy : x = y
      · subst hxy
        exact SameOrDiffer.append (.inl (rfl : [x] = [x])) (ih fun us vs heq => h us vs (congrArg (x :: ·) heq))
      · exact .inr (.here hxy xs ys)

section

variable {f g : α → List β}

theorem flatMap_differ (h : ∀ a, SameOrDiffer (f a) (g a)) {s : List α} {a : α} (ha : a ∈ s)
    (hdiffer : Differ (f a) (g a)) : Differ (s.flatMap f) (s.flatMap g) := by
  induction s with
  | nil => cases ha
  | cons b s ih =>
    rcases List.mem_cons.mp ha with rfl | ha
    · exact hdiffer.append _ _
    · exact (h b).append_differ (ih ha)

/-- Two letters never share the beginning of their codes, and no code begins
like the end mark: then the codes of two words differ. -/
theorem flatMap_end_differ {stop : List β} (hpair : ∀ a b, a ≠ b → Differ (f a) (g b))
    (hsame : ∀ a, SameOrDiffer (f a) (g a)) (hf : ∀ a, Differ (f a) stop) (hg : ∀ a, Differ stop (g a))
    {s t : List α} (hne : s ≠ t) : Differ (s.flatMap f ++ stop) (t.flatMap g ++ stop) := by
  induction s generalizing t with
  | nil =>
    cases t with
    | nil => exact absurd rfl hne
    | cons b t =>
      have h := (hg b).append [] (t.flatMap g ++ stop)
      simpa using h
  | cons a s ih =>
    cases t with
    | nil =>
      have h := (hf a).append (s.flatMap f ++ stop) []
      simpa using h
    | cons b t =>
      rw [List.flatMap_cons, List.flatMap_cons, List.append_assoc, List.append_assoc]
      by_cases hab : a = b
      · subst hab
        exact (hsame a).append_differ (ih fun hst => hne (by rw [hst]))
      · exact (hpair a b hab).append _ _

end

theorem intercalate_cons (sep x : List α) (xs : List (List α)) :
    sep.intercalate (x :: xs) = x ++ xs.flatMap (sep ++ ·) := by
  induction xs generalizing x with
  | nil => simp
  | cons y xs ih => rw [List.intercalate_cons_cons, ih, List.flatMap_cons]; simp

theorem flatMap_sep_sameOrDiffer (sep : List α) {xs ys : List (List α)} (h : List.Forall₂ SameOrDiffer xs ys) :
    SameOrDiffer (xs.flatMap (sep ++ ·)) (ys.flatMap (sep ++ ·)) := by
  induction h with
  | nil => exact .inl rfl
  | cons h _ ih => exact (SameOrDiffer.append (.inl rfl) h).append ih

theorem intercalate_sameOrDiffer (sep : List α) {xs ys : List (List α)} (h : List.Forall₂ SameOrDiffer xs ys) :
    SameOrDiffer (sep.intercalate xs) (sep.intercalate ys) := by
  cases h with
  | nil => exact .inl rfl
  | cons h hs =>
    rw [intercalate_cons, intercalate_cons]
    exact h.append (flatMap_sep_sameOrDiffer sep hs)

/-- One different part after equal or different ones, whatever follows. -/
theorem intercalate_differ (sep : List α) {xs ys us vs : List (List α)} {x y : List α}
    (h : List.Forall₂ SameOrDiffer xs ys) (hdiffer : Differ x y) :
    Differ (sep.intercalate (xs ++ x :: us)) (sep.intercalate (ys ++ y :: vs)) := by
  cases h with
  | nil =>
    rw [List.nil_append, List.nil_append, intercalate_cons, intercalate_cons]
    exact hdiffer.append _ _
  | cons h hs =>
    rw [List.cons_append, List.cons_append, intercalate_cons, intercalate_cons, List.flatMap_append,
      List.flatMap_append, List.flatMap_cons, List.flatMap_cons]
    have hmiddle : Differ (sep ++ x ++ us.flatMap (sep ++ ·)) (sep ++ y ++ vs.flatMap (sep ++ ·)) :=
      (hdiffer.prepend sep).append _ _
    exact h.append_differ ((flatMap_sep_sameOrDiffer sep hs).append_differ hmiddle)

/-- Two lists of texts for one list of things, each thing with one text twice or
with two texts that differ. -/
theorem intercalate_cases {ι : Type*} {R S : ι → List α → Prop} {P : ι → Prop} {is : List ι} (sep : List α)
    {xs ys : List (List α)} (hxs : List.Forall₂ R is xs) (hys : List.Forall₂ S is ys)
    (h : ∀ i ∈ is, ∀ x y, R i x → S i y → x = y ∧ P i ∨ Differ x y ∧ ¬ P i) :
    sep.intercalate xs = sep.intercalate ys ∧ (∀ i ∈ is, P i) ∨
      Differ (sep.intercalate xs) (sep.intercalate ys) ∧ ∃ i ∈ is, ¬ P i := by
  have hsplit : (xs = ys ∧ ∀ i ∈ is, P i) ∨ (∃ i ∈ is, ¬ P i) ∧ ∃ (us vs us' vs' : List (List α)) (x y : List α),
      List.Forall₂ SameOrDiffer us vs ∧ Differ x y ∧ xs = us ++ x :: us' ∧ ys = vs ++ y :: vs' := by
    induction hxs generalizing ys with
    | nil =>
      cases hys with
      | nil => exact .inl ⟨rfl, fun i hi => absurd hi List.not_mem_nil⟩
    | @cons i x is xs hx _ ih =>
      cases hys with
      | @cons _ y _ ys hy hys =>
        rcases h i List.mem_cons_self x y hx hy with ⟨rfl, hi⟩ | ⟨hdiffer, hi⟩
        · rcases ih hys fun j hj => h j (List.mem_cons_of_mem _ hj) with ⟨rfl, hall⟩ | ⟨⟨j, hj, hno⟩, hparts⟩
          · exact .inl ⟨rfl, List.forall_mem_cons.mpr ⟨hi, hall⟩⟩
          · obtain ⟨us, vs, us', vs', x', y', hsame, hdiffer, rfl, rfl⟩ := hparts
            exact .inr ⟨⟨j, List.mem_cons_of_mem _ hj, hno⟩, x :: us, x :: vs, us', vs', x', y',
              .cons (.inl rfl) hsame, hdiffer, rfl, rfl⟩
        · exact .inr ⟨⟨i, List.mem_cons_self, hi⟩, [], [], xs, ys, x, y, .nil, hdiffer, rfl, rfl⟩
  rcases hsplit with ⟨rfl, hall⟩ | ⟨hno, us, vs, us', vs', x, y, hsame, hdiffer, rfl, rfl⟩
  · exact .inl ⟨rfl, hall⟩
  · exact .inr ⟨intercalate_differ sep hsame hdiffer, hno⟩

theorem intercalate_map_eq_iff {ι : Type*} (sep : List α) {is : List ι} {f g : ι → List α}
    (h : ∀ i ∈ is, SameOrDiffer (f i) (g i)) :
    sep.intercalate (is.map f) = sep.intercalate (is.map g) ↔ ∀ i ∈ is, f i = g i := by
  have hsame : ∀ f : ι → List α, List.Forall₂ (fun i t => f i = t) is (is.map f) := fun f =>
    List.forall₂_map_right_iff.mpr (List.forall₂_same.mpr fun _ _ => rfl)
  have hparts := intercalate_cases (P := fun i => f i = g i) sep (hsame f) (hsame g) fun i hi x y hx hy => by
    rw [← hx, ← hy]
    exact (h i hi).imp (fun heq => ⟨heq, heq⟩) fun hdiffer => ⟨hdiffer, hdiffer.ne⟩
  rcases hparts with ⟨heq, hall⟩ | ⟨hdiffer, i, hi, hno⟩
  · exact iff_of_true heq hall
  · exact iff_of_false hdiffer.ne fun hall => hno (hall i hi)

end FirstDifference
