import Mathlib.Data.List.Forall2

/-! Fallible computations that note what they do on the way, also when they fail. -/

universe u

structure Noted (ω ε α : Type u) where
  result : Except ε α
  notes : List ω

namespace Noted

section

variable {ω ε α β : Type u}

def done (a : α) : Noted ω ε α := ⟨.ok a, []⟩

def fail (e : ε) : Noted ω ε α := ⟨.error e, []⟩

def note (w : ω) : Noted ω ε PUnit := ⟨.ok ⟨⟩, [w]⟩

/-- The second computation runs when the first returned. -/
def andThen (x : Noted ω ε α) (f : α → Noted ω ε β) : Noted ω ε β :=
  match x.result with
  | .error e => ⟨.error e, x.notes⟩
  | .ok a => ⟨(f a).result, x.notes ++ (f a).notes⟩

instance : Monad (Noted ω ε) where
  pure := done
  bind := andThen

/-- In order, up to the first failure. -/
def forEach (f : α → Noted ω ε β) : List α → Noted ω ε (List β)
  | [] => pure []
  | x :: xs => do
    let y ← f x
    let ys ← forEach f xs
    return y :: ys

variable {x : Noted ω ε α} {f : α → Noted ω ε β} {xs : List α} {ys : List β} {a : α} {b : β} {e : ε} {w : ω}

@[simp] theorem result_pure : (pure a : Noted ω ε α).result = .ok a := rfl

@[simp] theorem result_note : (note w : Noted ω ε PUnit).result = .ok ⟨⟩ := rfl

@[simp] theorem result_fail : (fail e : Noted ω ε α).result = .error e := rfl

theorem result_bind : (x >>= f).result = .ok b ↔ ∃ a, x.result = .ok a ∧ (f a).result = .ok b := by
  have hbind : x >>= f = x.andThen f := rfl
  rw [hbind, andThen]
  cases x.result <;> simp

@[simp] theorem result_note_bind {k : PUnit → Noted ω ε β} : (note w >>= k).result = (k ⟨⟩).result := rfl

theorem result_forEach : (forEach f xs).result = .ok ys ↔ List.Forall₂ (fun x y => (f x).result = .ok y) xs ys := by
  induction xs generalizing ys with
  | nil =>
    rw [forEach, List.forall₂_nil_left_iff, result_pure, Except.ok.injEq]
    exact eq_comm
  | cons x xs ih =>
    rw [forEach, result_bind, List.forall₂_cons_left_iff]
    simp only [result_bind, ih, result_pure, Except.ok.injEq]
    constructor
    · rintro ⟨y, hy, ys', hys, rfl⟩
      exact ⟨y, ys', hy, hys, rfl⟩
    · rintro ⟨y, ys', hy, hys, rfl⟩
      exact ⟨y, hy, ys', hys, rfl⟩

/-- Every note satisfies the first condition, and every failure the second. -/
structure Keeps (C : ω → Prop) (E : ε → Prop) (x : Noted ω ε α) : Prop where
  notes : ∀ w ∈ x.notes, C w
  failure : ∀ e, x.result = .error e → E e

variable {C : ω → Prop} {E : ε → Prop}

theorem keeps_pure : Keeps C E (pure a : Noted ω ε α) where
  notes _ h := absurd h List.not_mem_nil
  failure _ h := by cases h

theorem keeps_fail (h : E e) : Keeps C E (fail e : Noted ω ε α) where
  notes _ h := absurd h List.not_mem_nil
  failure _ h' := by
    cases h'
    exact h

theorem keeps_note (h : C w) : Keeps C E (note w : Noted ω ε PUnit) where
  notes w' hw' := by
    rw [List.mem_singleton.mp hw']
    exact h
  failure _ h' := by cases h'

theorem Keeps.bind (h : Keeps C E x) (hf : ∀ a, x.result = .ok a → Keeps C E (f a)) : Keeps C E (x >>= f) := by
  have hbind : x >>= f = x.andThen f := rfl
  rw [hbind, andThen]
  cases hx : x.result with
  | error e =>
    refine ⟨h.notes, fun e' he' => ?_⟩
    cases he'
    exact h.failure e hx
  | ok a =>
    refine ⟨fun w hw => ?_, (hf a hx).failure⟩
    rcases List.mem_append.mp hw with hw | hw
    · exact h.notes w hw
    · exact (hf a hx).notes w hw

theorem Keeps.forEach (h : ∀ x ∈ xs, Keeps C E (f x)) : Keeps C E (Noted.forEach f xs) := by
  induction xs with
  | nil => exact keeps_pure
  | cons x xs ih =>
    refine (h x List.mem_cons_self).bind fun _ _ => ?_
    exact (ih fun z hz => h z (List.mem_cons_of_mem _ hz)).bind fun _ _ => keeps_pure

end

theorem zip_unique {α β : Type} {l : List α} {xs ys : List β} (hxs : l.length = xs.length) (hys : l.length = ys.length)
    (h : ∀ a x y, (a, x) ∈ l.zip xs → (a, y) ∈ l.zip ys → x = y) : xs = ys := by
  induction l generalizing xs ys with
  | nil => rw [List.length_eq_zero_iff.mp hxs.symm, List.length_eq_zero_iff.mp hys.symm]
  | cons a l ih =>
    cases xs with
    | nil => cases hxs
    | cons x xs =>
      cases ys with
      | nil => cases hys
      | cons y ys =>
        have hx : x = y := h a x y List.mem_cons_self List.mem_cons_self
        have htail : xs = ys := ih (Nat.succ.inj hxs) (Nat.succ.inj hys) fun a x y hx hy =>
          h a x y (List.mem_cons_of_mem _ hx) (List.mem_cons_of_mem _ hy)
        rw [hx, htail]

theorem exists_zip_of_mem {α β : Type} {xs : List α} {ys : List β} {y : β} (hlen : xs.length = ys.length)
    (hy : y ∈ ys) : ∃ x, (x, y) ∈ xs.zip ys := by
  rw [← List.unzip_zip_right (Nat.le_of_eq hlen.symm), List.unzip_snd, List.mem_map] at hy
  obtain ⟨p, hp, rfl⟩ := hy
  exact ⟨p.1, hp⟩

theorem forall₂_congr_mem {α β : Type} {R S : α → β → Prop} {xs : List α} {ys : List β}
    (h : ∀ x ∈ xs, ∀ y, R x y ↔ S x y) : List.Forall₂ R xs ys ↔ List.Forall₂ S xs ys := by
  induction xs generalizing ys with
  | nil => simp
  | cons x xs ih =>
    simp only [List.forall₂_cons_left_iff, h x List.mem_cons_self,
      ih fun z hz => h z (List.mem_cons_of_mem _ hz)]

/-- What two lists go through on the way from one to the other. -/
theorem forall₂_exists_iff {α β γ : Type} {R : α → γ → Prop} {S : γ → β → Prop} {xs : List α} {ys : List β} :
    List.Forall₂ (fun x y => ∃ z, R x z ∧ S z y) xs ys ↔
      ∃ zs, List.Forall₂ R xs zs ∧ zs.length = ys.length ∧ ∀ p ∈ zs.zip ys, S p.1 p.2 := by
  constructor
  · intro h
    induction h with
    | nil => exact ⟨[], .nil, rfl, fun p hp => absurd hp List.not_mem_nil⟩
    | cons h _ ih =>
      obtain ⟨z, hz, hzy⟩ := h
      obtain ⟨zs, hzs, hlen, hys⟩ := ih
      refine ⟨z :: zs, .cons hz hzs, congrArg Nat.succ hlen, ?_⟩
      rw [List.zip_cons_cons, List.forall_mem_cons]
      exact ⟨hzy, hys⟩
  · rintro ⟨zs, hzs, hlen, hys⟩
    induction hzs generalizing ys with
    | nil =>
      rw [List.length_eq_zero_iff.mp hlen.symm]
      exact .nil
    | cons hz _ ih =>
      cases ys with
      | nil => cases hlen
      | cons y ys =>
        rw [List.zip_cons_cons, List.forall_mem_cons] at hys
        exact .cons ⟨_, hz, hys.1⟩ (ih (Nat.succ.inj hlen) hys.2)

end Noted
