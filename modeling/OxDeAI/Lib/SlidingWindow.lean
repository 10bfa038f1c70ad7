import OxDeAI.Lib.Run

/-! Admission by a log of the last window: entries that have left the window are
dropped at each admission, and what is left is counted, in all and by label. -/

namespace SlidingWindow

open Run

structure Entry (κ : Type*) where
  time : ℤ
  label : κ

section

variable {κ : Type*}

def prune (window : ℕ) (now : ℤ) (log : List (Entry κ)) : List (Entry κ) :=
  log.filter (fun e => now - e.time < window)

/-- Whatever is still in the window at a time that no admission exceeds is in the log. -/
def Covers (window : ℕ) (es log : List (Entry κ)) : Prop :=
  ∀ now, (∀ e ∈ es, e.time ≤ now) → (prune window now es).Sublist (prune window now log)

/-- Every admission is followed by a later entry of the log. -/
def Dominated (es log : List (Entry κ)) : Prop := ∀ x ∈ es, ∃ y ∈ log, x.time ≤ y.time

theorem prune_prune {window : ℕ} {now now' : ℤ} (h : now ≤ now') (log : List (Entry κ)) :
    prune window now' (prune window now log) = prune window now' log := by
  rw [prune, prune, List.filter_filter]
  apply List.filter_congr
  intro e _
  simp only [Bool.and_eq_left_iff_imp, decide_eq_true_eq]
  intro hlt
  omega

theorem prune_append {window : ℕ} (now : ℤ) (l l' : List (Entry κ)) :
    prune window now (l ++ l') = prune window now l ++ prune window now l' := List.filter_append ..

variable [DecidableEq κ]

def labelled (label : κ) (log : List (Entry κ)) : ℕ := log.countP (fun e => e.label = label)

/-- An admission: no entry is later, and there is room, also for its label. -/
structure Step (window max : ℕ) (limit : κ → Option ℕ) (log : List (Entry κ)) (e : Entry κ)
    (log' : List (Entry κ)) : Prop where
  notBefore : ∀ x ∈ log, x.time ≤ e.time
  room : (prune window e.time log).length < max
  labelRoom : ∀ k, limit e.label = some k → labelled e.label (prune window e.time log) < k
  next : log' = prune window e.time log ++ [e]

/-- The entries of a half-open interval of times. -/
def within (lo : ℤ) (length : ℕ) (e : Entry κ) : Bool := lo ≤ e.time && e.time < lo + length

variable {window max : ℕ} {limit : κ → Option ℕ} {log₀ log log' es : List (Entry κ)} {e : Entry κ}

theorem Covers.step (h : Covers window es log) (hstep : Step window max limit log e log') :
    Covers window (es ++ [e]) log' := by
  intro now hnow
  have hprev := h now fun x hx => hnow x (List.mem_append_left _ hx)
  have he : e.time ≤ now := hnow e (by simp)
  rw [hstep.next, prune_append, prune_append, prune_prune he]
  exact hprev.append (List.Sublist.refl _)

theorem Dominated.step (h : Dominated es log) (hstep : Step window max limit log e log') :
    (∀ x ∈ es, x.time ≤ e.time) ∧ Dominated (es ++ [e]) log' := by
  have hle : ∀ x ∈ es, x.time ≤ e.time := by
    intro x hx
    obtain ⟨y, hy, hxy⟩ := h x hx
    exact hxy.trans (hstep.notBefore y hy)
  have hlast : e ∈ log' := by
    rw [hstep.next]
    simp
  refine ⟨hle, fun x hx => ?_⟩
  rcases List.mem_append.mp hx with hx | hx
  · exact ⟨e, hlast, hle x hx⟩
  · rw [List.mem_singleton.mp hx]
    exact ⟨e, hlast, le_rfl⟩

/-- What is counted over any interval of a window's length is counted in the log that
the last of it was admitted with. -/
theorem countP_le {bound : ℕ} {counted : Entry κ → Bool} (h : Trace (Step window max limit) log₀ es log)
    (hroom : ∀ log e log', Step window max limit log e log' → counted e = true →
      (prune window e.time log).countP counted < bound) (lo : ℤ) :
    es.countP (fun e => within lo window e && counted e) ≤ bound := by
  refine (h.history (H := fun es log => Covers window es log ∧ Dominated es log ∧
    es.countP (fun e => within lo window e && counted e) ≤ bound) ⟨?_, ?_, ?_⟩ ?_).2.2
  · exact fun _ _ => List.nil_sublist _
  · exact fun x hx => absurd hx List.not_mem_nil
  · exact Nat.zero_le _
  · intro es log e log' _ hhist hstep
    obtain ⟨hcovers, hdominated, hle⟩ := hhist
    obtain ⟨hlast, hdominated'⟩ := hdominated.step hstep
    refine ⟨hcovers.step hstep, hdominated', ?_⟩
    rw [List.countP_append, List.countP_singleton]
    by_cases hin : (within lo window e && counted e) = true
    · rw [if_pos hin]
      simp only [within, Bool.and_eq_true, decide_eq_true_eq] at hin
      -- the interval ends within a window of `e`, so all of it is still in the log
      have hinterval : es.countP (fun x => within lo window x && counted x) ≤
          (prune window e.time es).countP counted := by
        rw [prune, List.countP_filter]
        refine List.countP_mono_left fun x hx hwithin => ?_
        have := hlast x hx
        simp only [within, Bool.and_eq_true, decide_eq_true_eq] at hwithin ⊢
        exact ⟨hwithin.2, by omega⟩
      have hlog : (prune window e.time es).countP counted ≤ (prune window e.time log).countP counted :=
        (hcovers e.time hlast).countP_le
      have hbound := hroom log e log' hstep hin.2
      omega
    · rw [if_neg hin]
      exact hle

/-- An interval of a window's length admits at most the limit. -/
theorem within_le (h : Trace (Step window max limit) log₀ es log) (lo : ℤ) :
    es.countP (within lo window) ≤ max := by
  have hall : es.countP (fun e => within lo window e && true) ≤ max := by
    apply countP_le h
    intro log e log' hstep _
    rw [List.countP_true]
    exact hstep.room
  simpa using hall

/-- And at most the limit of each label. -/
theorem within_label_le (h : Trace (Step window max limit) log₀ es log) {label : κ} {k : ℕ}
    (hk : limit label = some k) (lo : ℤ) :
    es.countP (fun e => within lo window e && decide (e.label = label)) ≤ k := by
  apply countP_le h
  intro log e log' hstep hlabel
  obtain rfl := of_decide_eq_true hlabel
  exact hstep.labelRoom k hk

end

end SlidingWindow
