import Mathlib
import OxDeAI.Lib.Call

/-! Calls that make no request twice. A fixed table of answers does for them what any
environment does, however it changes its answers. -/

namespace Async

universe u

section

variable {σ ι : Type u} {ρ : ι → Type u} {α β : Type u} {p q : Prog σ ι ρ α} {evs more : List (Sigma ρ)}
  {post : α → List (Sigma ρ) → Prop}

/-- A request that was not made before. -/
def Fresh (evs : List (Sigma ρ)) (i : ι) : Prop := ∀ e ∈ evs, e.1 ≠ i

/-- A table that gives these answers. -/
def Gives (reply : (i : ι) → ρ i) (evs : List (Sigma ρ)) : Prop := ∀ e ∈ evs, reply e.1 = e.2

theorem Follows.nodup (h : Follows Fresh p evs post) (hp : Path p more q) (hevs : (evs.map Sigma.fst).Nodup) :
    ((evs ++ more).map Sigma.fst).Nodup := by
  induction hp generalizing evs with
  | nil p =>
    rw [List.append_nil]
    exact hevs
  | act s _ ih => exact ih (h s) hevs
  | @ask i next rest q a hrest ih =>
    obtain ⟨hfresh, hnext⟩ := h
    have hsnoc : ((evs ++ [(⟨i, a⟩ : Sigma ρ)]).map Sigma.fst).Nodup := by
      rw [List.map_append, List.nodup_append]
      refine ⟨hevs, List.nodup_singleton _, ?_⟩
      intro j hj k hk
      obtain ⟨e, he, rfl⟩ := List.mem_map.mp hj
      rw [List.mem_singleton.mp hk]
      exact hfresh e he
    have htail := ih (hnext a) hsnoc
    rwa [List.append_assoc, List.singleton_append] at htail

theorem exists_table [DecidableEq ι] (other : (i : ι) → ρ i) (h : (evs.map Sigma.fst).Nodup) :
    ∃ reply, Gives reply evs := by
  induction evs with
  | nil => exact ⟨other, fun e he => absurd he List.not_mem_nil⟩
  | cons e evs ih =>
    rw [List.map_cons, List.nodup_cons] at h
    obtain ⟨reply, hreply⟩ := ih h.2
    refine ⟨Function.update reply e.1 e.2, ?_⟩
    intro e' he'
    rcases List.mem_cons.mp he' with rfl | he'
    · exact Function.update_self _ _ _
    · have hne : e'.1 ≠ e.1 := fun heq => h.1 (heq ▸ List.mem_map_of_mem he')
      rw [Function.update_of_ne hne]
      exact hreply e' he'

/-- A program that was run by these answers is run so by a table that gives them. -/
theorem Path.alone [Subsingleton σ] {reply : (i : ι) → ρ i} {a : α} (hp : Path p evs (.done a)) (h : Gives reply evs)
    (s : σ) : (p.alone reply s).2 = a := by
  generalize hq : Prog.done a = q at hp
  induction hp generalizing s with
  | nil p =>
    rw [← hq]
    rfl
  | act s' _ ih =>
    obtain rfl := Subsingleton.elim s s'
    exact ih h _ hq
  | @ask i next rest q answer _ ih =>
    have hanswer : reply i = answer := h ⟨i, answer⟩ List.mem_cons_self
    rw [Prog.alone, hanswer]
    exact ih (fun e he => h e (List.mem_cons_of_mem _ he)) s hq

/-- A table of answers leads a program to its end. -/
theorem exists_path (p : Prog σ ι ρ α) (reply : (i : ι) → ρ i) (s : σ) :
    ∃ evs, Path p evs (.done (p.alone reply s).2) ∧ Gives reply evs := by
  induction p generalizing s with
  | done a => exact ⟨[], .nil _, fun e he => absurd he List.not_mem_nil⟩
  | act f next ih =>
    obtain ⟨evs, hpath, hgives⟩ := ih s (f s)
    exact ⟨evs, .act s hpath, hgives⟩
  | ask i next ih =>
    obtain ⟨evs, hpath, hgives⟩ := ih (reply i) s
    refine ⟨⟨i, reply i⟩ :: evs, .ask (reply i) hpath, fun e he => ?_⟩
    rcases List.mem_cons.mp he with rfl | he
    · rfl
    · exact hgives e he

end

namespace Call

section

variable {σ ι : Type u} {ρ : ι → Type u} {τ ε α β : Type u} {m : Call σ ι ρ τ ε α} {k : α → Call σ ι ρ τ ε β}
  {R S : Set ι}

/-- Every request is in the region, and none is made twice. -/
def Within (R : Set ι) (m : Call σ ι ρ τ ε α) : Prop :=
  ∀ evs : List (Sigma ρ), (∀ e ∈ evs, e.1 ∉ R) → m.Follows Fresh evs fun _ evs' => ∀ e ∈ evs', e ∈ evs ∨ e.1 ∈ R

theorem Within.mono (h : m.Within R) (hsub : R ⊆ S) : m.Within S := by
  intro evs hevs
  refine (h evs fun e he hmem => hevs e he (hsub hmem)).imp fun _ evs' hpost e he => ?_
  exact (hpost e he).imp_right fun hmem => hsub hmem

theorem within_pure {a : α} : (pure a : Call σ ι ρ τ ε α).Within R :=
  fun _ _ => follows_pure fun _ he => .inl he

theorem within_throw {e : ε} : (throw e : Call σ ι ρ τ ε α).Within R := fun _ _ => follows_throw

theorem within_request {i : ι} : (request i : Call σ ι ρ τ ε (ρ i)).Within {i} := by
  intro evs hevs
  refine follows_request (fun e he heq => hevs e he heq) fun a e he => ?_
  rcases List.mem_append.mp he with he | he
  · exact .inl he
  · rw [List.mem_singleton.mp he]
    exact .inr rfl

/-- One region after another that it does not meet. -/
theorem Within.bind (h : m.Within R) (hk : ∀ a, (k a).Within S) (hd : Disjoint R S) : (m >>= k).Within (R ∪ S) := by
  intro evs hevs
  refine Follows.bind (h evs fun e he hmem => hevs e he (.inl hmem)) fun a evs' hpost => ?_
  have houtside : ∀ e ∈ evs', e.1 ∉ S := by
    intro e he hmem
    rcases hpost e he with hold | hnew
    · exact hevs e hold (.inr hmem)
    · exact Set.disjoint_left.mp hd hnew hmem
  refine (hk a evs' houtside).imp fun _ evs'' hlast e he => ?_
  rcases hlast e he with hold | hnew
  · exact (hpost e hold).imp_right .inl
  · exact .inr (.inr hnew)

/-- In order, up to the first throw. -/
def forEach {γ : Type u} (f : γ → Call σ ι ρ τ ε α) : List γ → Call σ ι ρ τ ε (List α)
  | [] => pure []
  | x :: xs => do
    let y ← f x
    let ys ← forEach f xs
    pure (y :: ys)

/-- A region for each item. -/
theorem within_forEach {γ : Type u} {f : γ → Call σ ι ρ τ ε α} {xs : List γ} {region : γ → Set ι}
    (h : ∀ x ∈ xs, (f x).Within (region x)) (hd : xs.Pairwise fun x y => Disjoint (region x) (region y)) :
    (forEach f xs).Within {i | ∃ x ∈ xs, i ∈ region x} := by
  induction xs with
  | nil => exact within_pure
  | cons x xs ih =>
    rw [List.pairwise_cons] at hd
    have htail : ∀ y, (forEach f xs >>= fun ys => pure (y :: ys)).Within {i | ∃ x ∈ xs, i ∈ region x} := by
      intro y
      have hbind := (ih (fun z hz => h z (List.mem_cons_of_mem _ hz)) hd.2).bind (S := ∅)
        (k := fun ys => (pure (y :: ys) : Call σ ι ρ τ ε (List α))) (fun _ => within_pure) (Set.disjoint_empty _)
      rwa [Set.union_empty] at hbind
    have hapart : Disjoint (region x) {i | ∃ x ∈ xs, i ∈ region x} := by
      rw [Set.disjoint_left]
      rintro i hi ⟨z, hz, hiz⟩
      exact Set.disjoint_left.mp (hd.1 z hz) hi hiz
    refine ((h x List.mem_cons_self).bind htail hapart).mono ?_
    rintro i (hi | ⟨z, hz, hiz⟩)
    · exact ⟨x, List.mem_cons_self, hi⟩
    · exact ⟨z, List.mem_cons_of_mem _ hz, hiz⟩

/-- Whatever answered, a table of answers leads to the same end. -/
theorem Within.table [DecidableEq ι] [Subsingleton σ] (h : m.Within R) (other : (i : ι) → ρ i) {evs : List (Sigma ρ)}
    {t : τ} {r : Except ε α × τ} (hp : Path (m t) evs (.done r)) (s : σ) :
    (evs.map Sigma.fst).Nodup ∧ ∃ reply, Gives reply evs ∧ ((m t).alone reply s).2 = r := by
  have hnodup := Async.Follows.nodup (h [] (fun e he => absurd he List.not_mem_nil) t) hp List.nodup_nil
  rw [List.nil_append] at hnodup
  obtain ⟨reply, hreply⟩ := exists_table other hnodup
  exact ⟨hnodup, reply, hreply, hp.alone hreply s⟩

end

section

variable {ι : Type u} {ρ : ι → Type u} {ε α β : Type u} {reply : (i : ι) → ρ i}
  {m : Call PUnit.{u+1} ι ρ PUnit.{u+1} ε α} {k : α → Call PUnit.{u+1} ι ρ PUnit.{u+1} ε β}

/-- How a call that keeps nothing ends. -/
def ends (reply : (i : ι) → ρ i) (m : Call PUnit.{u+1} ι ρ PUnit.{u+1} ε α) : Except ε α := ((m ⟨⟩).alone reply ⟨⟩).2.1

/-- The table that ends a call so leads to that end. -/
theorem ends_path (reply : (i : ι) → ρ i) (m : Call PUnit.{u+1} ι ρ PUnit.{u+1} ε α) :
    ∃ evs, Path (m ⟨⟩) evs (.done (ends reply m, ⟨⟩)) ∧ Gives reply evs := exists_path (m ⟨⟩) reply ⟨⟩

theorem ends_pure {a : α} : ends reply (pure a : Call PUnit.{u+1} ι ρ PUnit.{u+1} ε α) = .ok a := rfl

theorem ends_throw {e : ε} : ends reply (throw e : Call PUnit.{u+1} ι ρ PUnit.{u+1} ε α) = .error e := rfl

theorem ends_request {i : ι} : ends reply (request i : Call PUnit.{u+1} ι ρ PUnit.{u+1} ε (ρ i)) = .ok (reply i) := rfl

theorem ends_bind : ends reply (m >>= k) = (ends reply m).bind fun a => ends reply (k a) := by
  have hbind : (m >>= k) ⟨⟩ = m ⟨⟩ >>= resume k := rfl
  rw [ends, hbind, Prog.alone_bind]
  generalize hr : ((m ⟨⟩).alone reply ⟨⟩) = r
  rw [ends, hr]
  obtain ⟨s, answer, t⟩ := r
  cases answer with
  | error e => rfl
  | ok a => rfl

theorem ends_bind_ok {b : β} : ends reply (m >>= k) = .ok b ↔ ∃ a, ends reply m = .ok a ∧ ends reply (k a) = .ok b := by
  rw [ends_bind]
  cases ends reply m with
  | error e => simp [Except.bind]
  | ok a => simp [Except.bind]

theorem ends_forEach_ok {γ : Type u} {f : γ → Call PUnit.{u+1} ι ρ PUnit.{u+1} ε α} {xs : List γ} {ys : List α} :
    ends reply (forEach f xs) = .ok ys ↔ List.Forall₂ (fun x y => ends reply (f x) = .ok y) xs ys := by
  induction xs generalizing ys with
  | nil =>
    rw [forEach, ends_pure, List.forall₂_nil_left_iff, Except.ok.injEq]
    exact eq_comm
  | cons x xs ih =>
    rw [forEach, ends_bind_ok, List.forall₂_cons_left_iff]
    simp only [ends_bind_ok, ih, ends_pure, Except.ok.injEq]
    constructor
    · rintro ⟨y, hy, ys', hys, rfl⟩
      exact ⟨y, ys', hy, hys, rfl⟩
    · rintro ⟨y, ys', hy, hys, rfl⟩
      exact ⟨y, hy, ys', hys, rfl⟩

end

end Call

end Async
