import OxDeAI.Lib.Run

/-! Admission counted in fixed windows: a window opens at an admission that no open
window covers, and admits at most `max`. Times may go back. -/

namespace FixedWindow

open Run

/-- The start of the open window and what it has admitted. -/
structure Counter where
  start : ℤ
  count : ℕ

/-- An admission and the start of the window that counts it. -/
structure Admission where
  time : ℤ
  start : ℤ

inductive Step (window max : ℕ) : Option Counter → Admission → Option Counter → Prop
  | first {t : ℤ} (room : 1 ≤ max) : Step window max none ⟨t, t⟩ (some ⟨t, 1⟩)
  | reopen {c : Counter} {t : ℤ} (elapsed : c.start + window ≤ t) (room : 1 ≤ max) :
    Step window max (some c) ⟨t, t⟩ (some ⟨t, 1⟩)
  | count {c : Counter} {t : ℤ} (begun : c.start ≤ t) (running : t < c.start + window) (room : c.count < max) :
    Step window max (some c) ⟨t, c.start⟩ (some ⟨c.start, c.count + 1⟩)

/-- A window is open no earlier than its start, and holds no more than its limit. -/
theorem Step.bounds {window max : ℕ} {c : Option Counter} {a : Admission} {c' : Counter}
    (h : Step window max c a (some c')) : c'.start ≤ a.time ∧ c'.count ≤ max := by
  cases h with
  | first room => exact ⟨le_refl _, room⟩
  | reopen elapsed room => exact ⟨le_refl _, room⟩
  | count begun running room => exact ⟨begun, room⟩

/-- What the initial counter has recorded of a window. -/
def recorded : Option Counter → ℤ → ℕ
  | none, _ => 0
  | some c, start => if c.start = start then c.count else 0

def countedIn (start : ℤ) (as : List Admission) : ℕ := as.countP (fun a => a.start = start)

/-- The admissions of a half-open interval of times. -/
def admittedIn (lo : ℤ) (length : ℕ) (as : List Admission) : ℕ :=
  as.countP (fun a => lo ≤ a.time && a.time < lo + length)

section

variable {window max : ℕ} {c₀ c : Option Counter} {as : List Admission}

/-- The counter is right about its window, and every other window ended before. -/
structure Accounts (window : ℕ) (c₀ : Option Counter) (as : List Admission) (k : Counter) : Prop where
  count : k.count = recorded c₀ k.start + countedIn k.start as
  earlier : ∀ a ∈ as, a.start = k.start ∨ a.start + window ≤ k.start
  initial : ∀ k₀, c₀ = some k₀ → k₀.start = k.start ∨ k₀.start + window ≤ k.start

theorem countedIn_concat (start : ℤ) (as : List Admission) (a : Admission) :
    countedIn start (as ++ [a]) = countedIn start as + if a.start = start then 1 else 0 := by
  rw [countedIn, List.countP_append, List.countP_singleton]
  simp only [decide_eq_true_eq]
  rfl

theorem countedIn_eq_zero {start : ℤ} (h : ∀ a ∈ as, a.start ≠ start) : countedIn start as = 0 := by
  rw [countedIn, List.countP_eq_zero]
  intro a ha
  simpa using h a ha

theorem recorded_eq_zero {start : ℤ} (h : ∀ k₀, c₀ = some k₀ → k₀.start ≠ start) : recorded c₀ start = 0 := by
  cases c₀ with
  | none => rfl
  | some k₀ => exact if_neg (h k₀ rfl)

/-- A window that opens after all others has counted nothing yet. -/
theorem Accounts.fresh (hw : 0 < window) {k : Counter} (h : Accounts window c₀ as k) {t : ℤ}
    (hover : k.start + window ≤ t) : recorded c₀ t = 0 ∧ countedIn t as = 0 := by
  constructor
  · apply recorded_eq_zero
    intro k₀ hk₀
    have := h.initial k₀ hk₀
    omega
  · apply countedIn_eq_zero
    intro a ha
    have := h.earlier a ha
    omega

theorem Accounts.reopened (hw : 0 < window) {k : Counter} (h : Accounts window c₀ as k) {t : ℤ}
    (hover : k.start + window ≤ t) : Accounts window c₀ (as ++ [⟨t, t⟩]) ⟨t, 1⟩ := by
  obtain ⟨hrec, hcount⟩ := h.fresh hw hover
  constructor
  · rw [countedIn_concat, hrec, hcount, if_pos rfl]
  · intro a ha
    rcases List.mem_append.mp ha with ha | ha
    · have := h.earlier a ha
      right
      show a.start + window ≤ t
      omega
    · left
      rw [List.mem_singleton.mp ha]
  · intro k₀ hk₀
    have := h.initial k₀ hk₀
    right
    show k₀.start + window ≤ t
    omega

theorem Accounts.counted {k : Counter} (h : Accounts window c₀ as k) (t : ℤ) :
    Accounts window c₀ (as ++ [⟨t, k.start⟩]) ⟨k.start, k.count + 1⟩ := by
  constructor
  · rw [countedIn_concat, if_pos rfl]
    have := h.count
    show k.count + 1 = recorded c₀ k.start + (countedIn k.start as + 1)
    omega
  · intro a ha
    rcases List.mem_append.mp ha with ha | ha
    · exact h.earlier a ha
    · left
      rw [List.mem_singleton.mp ha]
  · exact h.initial

/-- What is known of a run and of the counter it leaves. -/
def Counts (window : ℕ) (c₀ : Option Counter) (as : List Admission) : Option Counter → Prop
  | none => c₀ = none ∧ as = []
  | some k => Accounts window c₀ as k

theorem counts_initial : Counts window c₀ [] c₀ := by
  cases c₀ with
  | none => exact ⟨rfl, rfl⟩
  | some k =>
    constructor
    · simp [recorded, countedIn]
    · simp
    · intro k₀ hk₀
      left
      rw [Option.some.inj hk₀]

theorem Counts.step (hw : 0 < window) (h : Counts window c₀ as c) {a : Admission} {c' : Option Counter}
    (hstep : Step window max c a c') : Counts window c₀ (as ++ [a]) c' := by
  cases hstep with
  | first room =>
    obtain ⟨rfl, rfl⟩ := h
    constructor
    · simp [recorded, countedIn]
    · simp
    · nofun
  | reopen elapsed room => exact Accounts.reopened hw h elapsed
  | count begun running room => exact Accounts.counted h _

/-- Each admission lies in the window that counts it. -/
theorem mem_window (hw : 0 < window) (h : Trace (Step window max) c₀ as c) :
    ∀ a ∈ as, a.start ≤ a.time ∧ a.time < a.start + window := by
  refine h.forall_label (I := fun _ => True) (fun _ _ _ _ _ => trivial) ?_ trivial
  intro c a c' _ hstep
  cases hstep with
  | first room => exact ⟨le_rfl, by simpa using hw⟩
  | reopen elapsed room => exact ⟨le_rfl, by simpa using hw⟩
  | count begun running room => exact ⟨begun, running⟩

theorem Counts.window_step (hw : 0 < window) (h : Counts window c₀ as c) {a : Admission} {c' : Option Counter}
    (hstep : Step window max c a c') : ∀ prev ∈ as, prev.start = a.start ∨ prev.start + window ≤ a.start := by
  intro prev hprev
  cases hstep with
  | first room =>
    rw [h.2] at hprev
    cases hprev
  | @reopen k t elapsed room =>
    have := Accounts.earlier h prev hprev
    right
    show prev.start + window ≤ t
    omega
  | count begun running room => exact Accounts.earlier h prev hprev

/-- Windows start at least a window's length apart. -/
theorem windows_apart (hw : 0 < window) (h : Trace (Step window max) c₀ as c) :
    as.Pairwise (fun a b : Admission => a.start = b.start ∨ a.start + (window : ℤ) ≤ b.start) := by
  refine h.pairwise (R := fun _ _ => True) (H := fun as c => Counts window c₀ as c)
    (List.pairwise_of_forall fun _ _ => trivial) counts_initial ?_
  intro as c a c' hcounts _ hstep
  exact ⟨hcounts.step hw hstep, hcounts.window_step hw hstep⟩

/-- Also apart from the window that was open at first. -/
theorem apart_from_initial (hw : 0 < window) (h : Trace (Step window max) c₀ as c) {k₀ : Counter}
    (hk₀ : c₀ = some k₀) : ∀ a ∈ as, k₀.start = a.start ∨ k₀.start + window ≤ a.start := by
  refine h.forall_label (I := fun c => ∃ k, c = some k ∧ (k₀.start = k.start ∨ k₀.start + window ≤ k.start))
    ?_ ?_ ⟨k₀, hk₀, .inl rfl⟩
  · rintro c a c' ⟨k, rfl, hk⟩ hstep
    cases hstep with
    | @reopen _ t elapsed room =>
      refine ⟨_, rfl, .inr ?_⟩
      show k₀.start + window ≤ t
      omega
    | count begun running room => exact ⟨_, rfl, hk⟩
  · rintro c a c' ⟨k, rfl, hk⟩ hstep
    cases hstep with
    | @reopen _ t elapsed room =>
      right
      show k₀.start + window ≤ t
      omega
    | count begun running room => exact hk

/-- A window admits at most what the initial counter left of it. -/
theorem counted_le (hw : 0 < window) (h : Trace (Step window max) c₀ as c) (start : ℤ) :
    countedIn start as ≤ max - recorded c₀ start := by
  refine (h.history (H := fun as c => Counts window c₀ as c ∧ countedIn start as ≤ max - recorded c₀ start)
    ⟨counts_initial, Nat.zero_le _⟩ ?_).2
  intro as c a c' _ hboth hstep
  obtain ⟨hcounts, hle⟩ := hboth
  refine ⟨hcounts.step hw hstep, ?_⟩
  rw [countedIn_concat]
  split
  · rename_i hstart
    cases hstep with
    | first room =>
      obtain ⟨rfl, rfl⟩ := hcounts
      simpa [countedIn, recorded] using room
    | @reopen k t elapsed room =>
      obtain rfl : t = start := hstart
      obtain ⟨hrec, hcount⟩ := Accounts.fresh hw hcounts elapsed
      omega
    | @count k t begun running room =>
      obtain rfl : k.start = start := hstart
      have hk := Accounts.count hcounts
      omega
  · exact hle

theorem starts_apart (hw : 0 < window) (h : Trace (Step window max) c₀ as c) {a b : Admission} (ha : a ∈ as)
    (hb : b ∈ as) : a.start = b.start ∨ a.start + window ≤ b.start ∨ b.start + window ≤ a.start := by
  have happart := windows_apart hw h
  have hsymm : as.Pairwise (fun a b : Admission =>
      a.start = b.start ∨ a.start + (window : ℤ) ≤ b.start ∨ b.start + (window : ℤ) ≤ a.start) :=
    happart.imp fun hab => by omega
  exact hsymm.forall_of_forall_of_flip (fun a _ => .inl rfl) (happart.imp fun hab => by
    show _ ∨ _
    omega) ha hb

/-- An interval of a window's length touches at most two windows. -/
theorem exists_two_windows (hw : 0 < window) (h : Trace (Step window max) c₀ as c) (lo : ℤ) :
    ∃ v w : ℤ, ∀ a ∈ as, lo ≤ a.time → a.time < lo + window → a.start = v ∨ a.start = w := by
  by_cases hsome : ∃ a ∈ as, lo ≤ a.time ∧ a.time < lo + window
  · obtain ⟨a, ha, halo, hahi⟩ := hsome
    by_cases hother : ∃ b ∈ as, (lo ≤ b.time ∧ b.time < lo + window) ∧ b.start ≠ a.start
    · obtain ⟨b, hb, ⟨hblo, hbhi⟩, hne⟩ := hother
      refine ⟨a.start, b.start, fun x hx hlo hhi => ?_⟩
      have hmem := mem_window hw h
      have hma := hmem a ha
      have hmb := hmem b hb
      have hmx := hmem x hx
      have hab := starts_apart hw h ha hb
      have hax := starts_apart hw h ha hx
      have hbx := starts_apart hw h hb hx
      omega
    · refine ⟨a.start, a.start, fun x hx hlo hhi => .inl ?_⟩
      by_contra hne
      exact hother ⟨x, hx, ⟨hlo, hhi⟩, hne⟩
  · exact ⟨0, 0, fun a ha hlo hhi => absurd ⟨a, ha, hlo, hhi⟩ hsome⟩

/-- An interval of a window's length admits at most twice the limit. -/
theorem admittedIn_le (hw : 0 < window) (h : Trace (Step window max) c₀ as c) (lo : ℤ) :
    admittedIn lo window as ≤ 2 * max := by
  obtain ⟨v, w, hvw⟩ := exists_two_windows hw h lo
  have hsplit : admittedIn lo window as ≤ as.countP (fun a => decide (a.start = v) || decide (a.start = w)) := by
    refine List.countP_mono_left fun a ha hin => ?_
    have := hvw a ha
    simp only [Bool.and_eq_true, decide_eq_true_eq] at hin
    simpa using this hin.1 hin.2
  have hsum : as.countP (fun a => decide (a.start = v) || decide (a.start = w)) ≤
      countedIn v as + countedIn w as := by
    clear hvw hsplit h
    induction as with
    | nil => simp [countedIn]
    | cons a as ih =>
      simp only [countedIn, List.countP_cons] at ih ⊢
      by_cases hv : a.start = v <;> by_cases hw' : a.start = w <;> simp [hv, hw'] at ih ⊢ <;> omega
  have hv := counted_le hw h v
  have hw' := counted_le hw h w
  omega

end

end FixedWindow
