import Mathlib.Tactic

/-! Loops that may throw. A traversal returns exactly when every step does. -/

namespace Js

universe u

variable {ε : Type*} {α β : Type u}

theorem mapM_cons_ok {f : α → Except ε β} {x : α} {xs : List α} {ys : List β} :
    (x :: xs).mapM f = .ok ys ↔ ∃ y ys', f x = .ok y ∧ xs.mapM f = .ok ys' ∧ ys = y :: ys' := by
  rw [List.mapM_cons]
  cases hx : f x with
  | error e => simp [bind, Except.bind]
  | ok y =>
    cases hxs : xs.mapM f with
    | error e => simp [bind, Except.bind]
    | ok ys' => simp [bind, Except.bind, pure, Except.pure, eq_comm]

theorem mapM_nil_ok {f : α → Except ε β} {ys : List β} :
    ([] : List α).mapM f = .ok ys ↔ ys = [] := by
  simp [pure, Except.pure, eq_comm]

theorem mapM_eq_ok {f : α → Except ε β} {xs : List α} {ys : List β} :
    xs.mapM f = .ok ys ↔ List.Forall₂ (fun x y => f x = .ok y) xs ys := by
  induction xs generalizing ys with
  | nil => rw [mapM_nil_ok, List.forall₂_nil_left_iff]
  | cons x xs ih =>
    rw [mapM_cons_ok]
    constructor
    · rintro ⟨y, ys', hx, hxs, rfl⟩
      exact .cons hx (ih.mp hxs)
    · rintro (_ | ⟨hx, hxs⟩)
      exact ⟨_, _, hx, ih.mpr hxs, rfl⟩

/-- A traversal whose steps are decided by a predicate and a function. -/
theorem mapM_ok_iff {f : α → Except ε β} {p : α → Prop} {g : α → β} {xs : List α} {ys : List β}
    (h : ∀ x ∈ xs, ∀ y, f x = .ok y ↔ p x ∧ y = g x) :
    xs.mapM f = .ok ys ↔ (∀ x ∈ xs, p x) ∧ ys = xs.map g := by
  induction xs generalizing ys with
  | nil => rw [mapM_nil_ok]; simp
  | cons x xs ih =>
    rw [mapM_cons_ok, List.forall_mem_cons, List.map_cons]
    have hx := h x (by simp)
    have hxs := fun ys' => @ih ys' (fun z hz => h z (by simp [hz]))
    constructor
    · rintro ⟨y, ys', hy, hys, rfl⟩
      obtain ⟨hp, rfl⟩ := (hx y).mp hy
      obtain ⟨hps, rfl⟩ := (hxs ys').mp hys
      exact ⟨⟨hp, hps⟩, rfl⟩
    · rintro ⟨⟨hp, hps⟩, rfl⟩
      exact ⟨_, _, (hx _).mpr ⟨hp, rfl⟩, (hxs _).mpr ⟨hps, rfl⟩, rfl⟩

/-- Two traversals, the steps of the first with a condition besides. -/
theorem mapM_ok_and_iff {δ : Type*} {f : α → Except ε β} {g : α → Except δ β} {p : α → Prop} {xs : List α} {ys : List β}
    (h : ∀ x ∈ xs, ∀ y, f x = .ok y ↔ g x = .ok y ∧ p x) :
    xs.mapM f = .ok ys ↔ xs.mapM g = .ok ys ∧ ∀ x ∈ xs, p x := by
  induction xs generalizing ys with
  | nil =>
    rw [mapM_nil_ok, mapM_nil_ok]
    simp
  | cons x xs ih =>
    rw [mapM_cons_ok, mapM_cons_ok, List.forall_mem_cons]
    simp only [h x List.mem_cons_self, ih fun x hx => h x (List.mem_cons_of_mem _ hx)]
    constructor
    · rintro ⟨y, ys', ⟨hy, hp⟩, ⟨hys, hps⟩, rfl⟩
      exact ⟨⟨y, ys', hy, hys, rfl⟩, hp, hps⟩
    · rintro ⟨⟨y, ys', hy, hys, rfl⟩, hp, hps⟩
      exact ⟨y, ys', ⟨hy, hp⟩, ⟨hys, hps⟩, rfl⟩

theorem exists_mem_of_forall₂ {R : α → β → Prop} {xs : List α} {ys : List β}
    (h : List.Forall₂ R xs ys) {y : β} (hy : y ∈ ys) : ∃ x ∈ xs, R x y := by
  induction h with
  | nil => simp at hy
  | cons hr _ ih =>
    rcases List.mem_cons.mp hy with rfl | hy
    · exact ⟨_, by simp, hr⟩
    · obtain ⟨x, hx, hxy⟩ := ih hy
      exact ⟨x, by simp [hx], hxy⟩

theorem bind_eq_ok {x : Except ε α} {f : α → Except ε β} {b : β} :
    x >>= f = .ok b ↔ ∃ a, x = .ok a ∧ f a = .ok b := by
  cases x <;> simp [bind, Except.bind]

theorem map_eq_ok {x : Except ε α} {f : α → β} {b : β} :
    x.map f = .ok b ↔ ∃ a, x = .ok a ∧ f a = b := by
  cases x <;> simp [Except.map]

/-- A traversal returns exactly if every step does. -/
theorem mapM_returns {f : α → Except ε β} {xs : List α} :
    (∃ ys, xs.mapM f = .ok ys) ↔ ∀ x ∈ xs, ∃ y, f x = .ok y := by
  induction xs with
  | nil => exact ⟨fun _ x hx => absurd hx List.not_mem_nil, fun _ => ⟨[], mapM_nil_ok.mpr rfl⟩⟩
  | cons x xs ih =>
    rw [List.forall_mem_cons, ← ih]
    constructor
    · rintro ⟨ys, h⟩
      obtain ⟨y, ys', hy, hys, -⟩ := mapM_cons_ok.mp h
      exact ⟨⟨y, hy⟩, ys', hys⟩
    · rintro ⟨⟨y, hy⟩, ys, hys⟩
      exact ⟨y :: ys, mapM_cons_ok.mpr ⟨y, ys, hy, hys, rfl⟩⟩

theorem map_returns {x : Except ε α} {f : α → β} : (∃ b, x.map f = .ok b) ↔ ∃ a, x = .ok a := by
  cases x <;> simp [Except.map]

/-- What each step of a loop keeps about the elements behind it. -/
theorem foldlM_ok {f : β → α → Except ε β} (P : List α → β → Prop) {xs : List α} {b b' : β}
    (hstep : ∀ pre b x b', P pre b → x ∈ xs → f b x = .ok b' → P (pre ++ [x]) b') (h0 : P [] b)
    (h : xs.foldlM f b = .ok b') : P xs b' := by
  have hfrom : ∀ (ys pre : List α) (c : β), (∀ y ∈ ys, y ∈ xs) → P pre c → ys.foldlM f c = .ok b' → P (pre ++ ys) b' := by
    intro ys
    induction ys with
    | nil =>
      intro pre c _ hc h
      obtain rfl := Except.ok.inj h
      rwa [List.append_nil]
    | cons y ys ih =>
      intro pre c hmem hc h
      rw [List.foldlM_cons] at h
      obtain ⟨d, hd, hrest⟩ := bind_eq_ok.mp h
      have hone := hstep pre c y d hc (hmem y List.mem_cons_self) hd
      have hall := ih (pre ++ [y]) d (fun z hz => hmem z (List.mem_cons_of_mem _ hz)) hone hrest
      rwa [List.append_assoc] at hall
  exact hfrom xs [] b (fun _ hx => hx) h0 h

/-- Both throw the same, or both return related values. -/
inductive ExceptRel (R : α → β → Prop) : Except ε α → Except ε β → Prop
  | error (e : ε) : ExceptRel R (.error e) (.error e)
  | ok {a : α} {b : β} (h : R a b) : ExceptRel R (.ok a) (.ok b)

namespace ExceptRel

variable {γ δ : Type u} {R : α → β → Prop} {S : γ → δ → Prop}

theorem bind {x : Except ε α} {y : Except ε β} {f : α → Except ε γ} {g : β → Except ε δ}
    (h : ExceptRel R x y) (hf : ∀ a b, R a b → ExceptRel S (f a) (g b)) :
    ExceptRel S (x >>= f) (y >>= g) := by
  cases h with
  | error e => exact .error e
  | ok h => exact hf _ _ h

theorem map {x : Except ε α} {y : Except ε β} {f : α → γ} {g : β → δ} (h : ExceptRel R x y)
    (hf : ∀ a b, R a b → S (f a) (g b)) : ExceptRel S (x.map f) (y.map g) := by
  cases h with
  | error e => exact .error e
  | ok h => exact .ok (hf _ _ h)

theorem mapM {ι : Type u} {f : ι → Except ε α} {g : ι → Except ε β} {xs : List ι}
    (h : ∀ x ∈ xs, ExceptRel R (f x) (g x)) : ExceptRel (List.Forall₂ R) (xs.mapM f) (xs.mapM g) := by
  induction xs with
  | nil => exact .ok .nil
  | cons x xs ih =>
    rw [List.mapM_cons, List.mapM_cons]
    have hx := h x List.mem_cons_self
    have hxs := ih (fun y hy => h y (List.mem_cons_of_mem _ hy))
    refine hx.bind fun a b hab => hxs.bind fun as bs habs => ?_
    exact .ok (.cons hab habs)

theorem foldlM {ι κ : Type u} {T : ι → κ → Prop} {f : α → ι → Except ε α} {g : β → κ → Except ε β}
    {xs : List ι} {ys : List κ} (hf : ∀ a b x y, R a b → T x y → ExceptRel R (f a x) (g b y))
    (hxs : List.Forall₂ T xs ys) {a : α} {b : β} (hab : R a b) :
    ExceptRel R (xs.foldlM f a) (ys.foldlM g b) := by
  induction hxs generalizing a b with
  | nil => exact .ok hab
  | cons hxy _ ih =>
    rw [List.foldlM_cons, List.foldlM_cons]
    exact (hf a b _ _ hab hxy).bind fun a' b' hab' => ih hab'

end ExceptRel

/-- Both throw, each what it likes, or both return related values. -/
inductive Alike {δ : Type*} (R : α → β → Prop) : Except ε α → Except δ β → Prop
  | thrown (e : ε) (d : δ) : Alike R (.error e) (.error d)
  | returned {a : α} {b : β} (h : R a b) : Alike R (.ok a) (.ok b)

namespace Alike

variable {δ : Type*} {γ η : Type u} {R : α → β → Prop} {S : γ → η → Prop}

theorem bind {x : Except ε α} {y : Except δ β} {f : α → Except ε γ} {g : β → Except δ η}
    (h : Alike R x y) (hf : ∀ a b, R a b → Alike S (f a) (g b)) : Alike S (x >>= f) (y >>= g) := by
  cases h with
  | thrown e d => exact .thrown e d
  | returned h => exact hf _ _ h

theorem map {x : Except ε α} {y : Except δ β} {f : α → γ} {g : β → η} (h : Alike R x y)
    (hf : ∀ a b, R a b → S (f a) (g b)) : Alike S (x.map f) (y.map g) := by
  cases h with
  | thrown e d => exact .thrown e d
  | returned h => exact .returned (hf _ _ h)

theorem mapM {ι κ : Type u} {f : ι → Except ε α} {g : κ → Except δ β} {xs : List ι} {ys : List κ}
    (h : List.Forall₂ (fun x y => Alike R (f x) (g y)) xs ys) :
    Alike (List.Forall₂ R) (xs.mapM f) (ys.mapM g) := by
  induction h with
  | nil => exact .returned .nil
  | cons hxy _ ih =>
    rw [List.mapM_cons, List.mapM_cons]
    exact hxy.bind fun a b hab => ih.bind fun as bs habs => .returned (.cons hab habs)

end Alike

theorem exceptRel_eq {x y : Except ε α} (h : ExceptRel (· = ·) x y) : x = y := by
  cases h with
  | error e => rfl
  | ok h => rw [h]

end Js
