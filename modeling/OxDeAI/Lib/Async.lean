import OxDeAI.Lib.Run

/-! Asynchronous programs over a shared state. Between two requests to its
environment a program runs alone; at a request the others may run first. -/

namespace Async

universe u

/-- `act` updates the shared state and continues with the state before it. -/
inductive Prog (σ ι : Type u) (ρ : ι → Type u) (α : Type u) : Type u
  | done (a : α)
  | act (f : σ → σ) (next : σ → Prog σ ι ρ α)
  | ask (i : ι) (next : ρ i → Prog σ ι ρ α)

namespace Prog

variable {σ ι : Type u} {ρ : ι → Type u} {α β : Type u}

def bind : Prog σ ι ρ α → (α → Prog σ ι ρ β) → Prog σ ι ρ β
  | done a, k => k a
  | act f next, k => act f (fun s => (next s).bind k)
  | ask i next, k => ask i (fun a => (next a).bind k)

instance : Monad (Prog σ ι ρ) where
  pure := done
  bind := bind

def request (i : ι) : Prog σ ι ρ (ρ i) := ask i done

def update (f : σ → σ) : Prog σ ι ρ PUnit := act f (fun _ => done ⟨⟩)

def read : Prog σ ι ρ σ := act id done

/-- Run to the next request, or to the end. -/
def settle : Prog σ ι ρ α → σ → σ × Prog σ ι ρ α
  | done a, s => (s, done a)
  | act f next, s => (next s).settle (f s)
  | ask i next, s => (s, ask i next)

/-- Run alone, with these answers. -/
def alone (reply : (i : ι) → ρ i) : Prog σ ι ρ α → σ → σ × α
  | done a, s => (s, a)
  | act f next, s => (next s).alone reply (f s)
  | ask i next, s => (next (reply i)).alone reply s

theorem alone_bind (reply : (i : ι) → ρ i) (p : Prog σ ι ρ α) (k : α → Prog σ ι ρ β) (s : σ) :
    (p >>= k).alone reply s = (k (p.alone reply s).2).alone reply (p.alone reply s).1 := by
  induction p generalizing s with
  | done a => rfl
  | act f next ih => exact ih s (f s)
  | ask i next ih => exact ih (reply i) s

end Prog

/-- What is promised about requests and updates, and what is known of the state
in which a request is answered. -/
structure Spec (σ ι : Type u) (ρ : ι → Type u) where
  issue : ι → σ → Prop
  answer : σ → (i : ι) → ρ i → σ → Prop
  change : σ → σ → Prop

section

variable {σ ι : Type u} {ρ : ι → Type u} {α β : Type u} (S : Spec σ ι ρ)

/-- From this state the program keeps its promises, and ends as `post` says. -/
def Keeps : Prog σ ι ρ α → σ → (α → σ → Prop) → Prop
  | .done a, s, post => post a s
  | .act f next, s, post => S.change s (f s) ∧ Keeps (next s) (f s) post
  | .ask i next, s, post => S.issue i s ∧ ∀ a s', S.answer s i a s' → Keeps (next a) s' post

variable {S} {p : Prog σ ι ρ α} {s : σ} {post post' : α → σ → Prop}

theorem Keeps.imp (h : Keeps S p s post) (himp : ∀ a s, post a s → post' a s) : Keeps S p s post' := by
  induction p generalizing s with
  | done a => exact himp a s h
  | act f next ih => exact ⟨h.1, ih s h.2⟩
  | ask i next ih => exact ⟨h.1, fun a s' ha => ih a (h.2 a s' ha)⟩

theorem Keeps.bind {k : α → Prog σ ι ρ β} {postk : β → σ → Prop} (h : Keeps S p s post)
    (hk : ∀ a s, post a s → Keeps S (k a) s postk) : Keeps S (p >>= k) s postk := by
  induction p generalizing s with
  | done a => exact hk a s h
  | act f next ih => exact ⟨h.1, ih s h.2⟩
  | ask i next ih => exact ⟨h.1, fun a s' ha => ih a (h.2 a s' ha)⟩

theorem keeps_pure {a : α} (h : post a s) : Keeps S (pure a : Prog σ ι ρ α) s post := h

theorem keeps_update_bind {f : σ → σ} {k : PUnit → Prog σ ι ρ α} (hf : S.change s (f s))
    (hk : Keeps S (k ⟨⟩) (f s) post) : Keeps S (Prog.update f >>= k) s post := ⟨hf, hk⟩

theorem keeps_read_bind {k : σ → Prog σ ι ρ α} (hs : S.change s s) (hk : Keeps S (k s) s post) :
    Keeps S (Prog.read >>= k) s post := ⟨hs, hk⟩

theorem keeps_request_bind {i : ι} {k : ρ i → Prog σ ι ρ α} (hi : S.issue i s)
    (hk : ∀ a s', S.answer s i a s' → Keeps S (k a) s' post) : Keeps S (Prog.request i >>= k) s post :=
  ⟨hi, hk⟩

/-- A run up to the next request changes the state as promised, and leaves a
program that keeps the promises. -/
theorem Keeps.settle (hrefl : ∀ s, S.change s s)
    (htrans : ∀ {a b c}, S.change a b → S.change b c → S.change a c) (h : Keeps S p s post) :
    S.change s (p.settle s).1 ∧ Keeps S (p.settle s).2 (p.settle s).1 post := by
  induction p generalizing s with
  | done a => exact ⟨hrefl s, h⟩
  | ask i next ih => exact ⟨hrefl s, h⟩
  | act f next ih =>
    obtain ⟨hchange, hkeeps⟩ := ih s h.2
    exact ⟨htrans h.1 hchange, hkeeps⟩

end

/-- The shared state and the programs that have started, each at a request or done. -/
structure System (σ ι : Type u) (ρ : ι → Type u) (α : Type u) where
  shared : σ
  procs : List (Prog σ ι ρ α)

/-- What a step of the system is: a program starts, or a request is answered. -/
inductive Event (ι : Type u) (ρ : ι → Type u)
  | start
  | answer (i : ι) (a : ρ i)

section

variable {σ ι : Type u} {ρ : ι → Type u} {α : Type u}

/-- `serve s i a t`: the environment may answer `i` by `a`, which turns the shared
state from `s` into `t`. -/
inductive Step (program : Prog σ ι ρ α → Prop) (serve : σ → (i : ι) → ρ i → σ → Prop) :
    System σ ι ρ α → Event ι ρ → System σ ι ρ α → Prop
  | start {sys : System σ ι ρ α} {p : Prog σ ι ρ α} (hp : program p) :
    Step program serve sys .start ⟨(p.settle sys.shared).1, sys.procs ++ [(p.settle sys.shared).2]⟩
  | answer {sys : System σ ι ρ α} (n : ℕ) {i : ι} {next : ρ i → Prog σ ι ρ α}
    (hn : sys.procs[n]? = some (.ask i next)) (a : ρ i) {t : σ} (ht : serve sys.shared i a t) :
    Step program serve sys (.answer i a)
      ⟨((next a).settle t).1, sys.procs.set n ((next a).settle t).2⟩

/-- A program may run alone from its start to its end. -/
theorem Step.alone (program : Prog σ ι ρ α → Prop) (serve : σ → (i : ι) → ρ i → σ → Prop)
    (reply : (i : ι) → ρ i) (hserve : ∀ s i, serve s i (reply i) s) {p : Prog σ ι ρ α} (hp : program p) (s : σ)
    (procs : List (Prog σ ι ρ α)) : ∃ evs, Run.Trace (Step program serve) ⟨s, procs⟩ evs
      ⟨(p.alone reply s).1, procs ++ [.done (p.alone reply s).2]⟩ := by
  have hrest : ∀ (q : Prog σ ι ρ α) (s : σ), ∃ evs, Run.Trace (Step program serve)
      ⟨(q.settle s).1, procs ++ [(q.settle s).2]⟩ evs ⟨(q.alone reply s).1, procs ++ [.done (q.alone reply s).2]⟩ := by
    intro q
    induction q with
    | done a => exact fun s => ⟨[], .nil⟩
    | act f next ih => exact fun s => ih s (f s)
    | ask i next ih =>
      intro s
      obtain ⟨evs, hevs⟩ := ih (reply i) s
      have hn : (procs ++ [Prog.ask i next])[procs.length]? = some (.ask i next) := by simp
      have hanswer : Step program serve ⟨s, procs ++ [Prog.ask i next]⟩ (.answer i (reply i)) _ :=
        .answer procs.length hn (reply i) (hserve s i)
      have hset : (procs ++ [Prog.ask i next]).set procs.length ((next (reply i)).settle s).2 =
          procs ++ [((next (reply i)).settle s).2] := by simp
      rw [hset] at hanswer
      exact ⟨_, (Run.Trace.nil.snoc hanswer).append hevs⟩
  obtain ⟨evs, hevs⟩ := hrest p s
  exact ⟨_, (Run.Trace.nil.snoc (.start hp)).append hevs⟩

/-- The answer, if the event is one, arrives in a state where `C` holds of it. -/
def Event.Meets (C : (i : ι) → ρ i → σ → Prop) (s : σ) : Event ι ρ → Prop
  | .start => True
  | .answer i a => C i a s

/-- Promises among others: while a request is open the state may become anything. -/
def amongOthers (serve : σ → (i : ι) → ρ i → σ → Prop) (C : (i : ι) → ρ i → σ → Prop)
    (R : σ → σ → Prop) : Spec σ ι ρ where
  issue _ _ := True
  answer _ i a t := ∃ s, C i a s ∧ serve s i a t
  change := R

def KeepsAmong (serve : σ → (i : ι) → ρ i → σ → Prop) (C : (i : ι) → ρ i → σ → Prop)
    (R : σ → σ → Prop) (p : Prog σ ι ρ α) (s : σ) : Prop :=
  Keeps (amongOthers serve C R) p s (fun _ _ => True)

variable {program : Prog σ ι ρ α → Prop} {serve : σ → (i : ι) → ρ i → σ → Prop}
  {C : (i : ι) → ρ i → σ → Prop} {R : σ → σ → Prop}

/-- At a request the state is forgotten. -/
theorem KeepsAmong.settled {p : Prog σ ι ρ α} {s : σ} (h : KeepsAmong serve C R p s) (t : σ) :
    KeepsAmong serve C R (p.settle s).2 t := by
  induction p generalizing s with
  | done a => trivial
  | ask i next ih => exact h
  | act f next ih => exact ih s h.2

theorem KeepsAmong.change {p : Prog σ ι ρ α} {s : σ} (hrefl : ∀ s, R s s)
    (htrans : ∀ {a b c}, R a b → R b c → R a c) (h : KeepsAmong serve C R p s) :
    R s (p.settle s).1 := (Keeps.settle hrefl htrans h).1

/-- What one step does when every program keeps its promises. -/
theorem Step.keeps {sys sys' : System σ ι ρ α} {ev : Event ι ρ} (hrefl : ∀ s, R s s)
    (htrans : ∀ {a b c}, R a b → R b c → R a c)
    (hserve : ∀ s i a t, C i a s → serve s i a t → R s t)
    (hprogram : ∀ p, program p → ∀ s, KeepsAmong serve C R p s) (h : Step program serve sys ev sys')
    (hmeets : ev.Meets C sys.shared) (hprocs : ∀ p ∈ sys.procs, ∀ s, KeepsAmong serve C R p s) :
    R sys.shared sys'.shared ∧ ∀ p ∈ sys'.procs, ∀ s, KeepsAmong serve C R p s := by
  cases h with
  | @start p hp =>
    have hk := hprogram p hp sys.shared
    refine ⟨hk.change hrefl htrans, fun q hq => ?_⟩
    rcases List.mem_append.mp hq with hq | hq
    · exact hprocs q hq
    · obtain rfl := List.mem_singleton.mp hq
      exact hk.settled
  | @answer n i next hn a t ht =>
    have hmem : Prog.ask i next ∈ sys.procs := List.mem_of_getElem? hn
    have hk : KeepsAmong serve C R (next a) t := (hprocs _ hmem sys.shared).2 a t ⟨_, hmeets, ht⟩
    refine ⟨htrans (hserve _ _ _ _ hmeets ht) (hk.change hrefl htrans), fun q hq => ?_⟩
    rcases List.mem_or_eq_of_mem_set hq with hq | rfl
    · exact hprocs q hq
    · exact hk.settled

/-- What a run does all of whose answers meet the condition. -/
theorem run_keeps {sys sys' : System σ ι ρ α} {evs : List (Event ι ρ)} (hrefl : ∀ s, R s s)
    (htrans : ∀ {a b c}, R a b → R b c → R a c)
    (hserve : ∀ s i a t, C i a s → serve s i a t → R s t)
    (hprogram : ∀ p, program p → ∀ s, KeepsAmong serve C R p s)
    (h : Run.Trace (fun a ev b => Step program serve a ev b ∧ ev.Meets C a.shared) sys evs sys')
    (hprocs : ∀ p ∈ sys.procs, ∀ s, KeepsAmong serve C R p s) :
    R sys.shared sys'.shared ∧ ∀ p ∈ sys'.procs, ∀ s, KeepsAmong serve C R p s := by
  induction h with
  | nil => exact ⟨hrefl _, hprocs⟩
  | snoc _ last ih =>
    have hlast := last.1.keeps hrefl htrans hserve hprogram last.2 ih.2
    exact ⟨htrans ih.1 hlast.1, hlast.2⟩

end

section

variable {σ ι : Type u} {ρ : ι → Type u} {α : Type u}

/-- At a request, or done. -/
def Prog.Settled : Prog σ ι ρ α → Prop
  | .act _ _ => False
  | _ => True

theorem Prog.settled_settle (p : Prog σ ι ρ α) (s : σ) : (p.settle s).2.Settled := by
  induction p generalizing s with
  | done a => trivial
  | ask i next ih => trivial
  | act f next ih => exact ih s (f s)

/-- Promises among programs that all keep an invariant and move the state along an
order: while a request is open the state has moved that way. -/
def amongKeepers (serve : σ → (i : ι) → ρ i → σ → Prop) (I : σ → Prop) (R : σ → σ → Prop) : Spec σ ι ρ where
  issue _ _ := True
  answer s i a t := I t ∧ R s t ∧ ∃ u, serve u i a t
  change s t := I t ∧ R s t

variable {program : Prog σ ι ρ α → Prop} {serve : σ → (i : ι) → ρ i → σ → Prop} {I : σ → Prop}
  {R : σ → σ → Prop} {post : α → σ → Prop} {p : Prog σ ι ρ α} {s t : σ}

/-- What is promised now is promised in any later state. -/
theorem Keeps.later (htrans : ∀ {a b c}, R a b → R b c → R a c)
    (hstable : ∀ a s t, post a s → R s t → post a t) (hp : p.Settled)
    (h : Keeps (amongKeepers serve I R) p s post) (hR : R s t) : Keeps (amongKeepers serve I R) p t post := by
  cases p with
  | done a => exact hstable a s t h hR
  | act f next => cases hp
  | ask i next =>
    refine ⟨trivial, fun a u hanswer => h.2 a u ?_⟩
    exact ⟨hanswer.1, htrans hR hanswer.2.1, hanswer.2.2⟩

theorem Keeps.settle_keepers (hrefl : ∀ s, R s s) (htrans : ∀ {a b c}, R a b → R b c → R a c)
    (h : Keeps (amongKeepers serve I R) p s post) (hI : I s) :
    I (p.settle s).1 ∧ R s (p.settle s).1 ∧ Keeps (amongKeepers serve I R) (p.settle s).2 (p.settle s).1 post := by
  induction p generalizing s with
  | done a => exact ⟨hI, hrefl s, h⟩
  | ask i next ih => exact ⟨hI, hrefl s, h⟩
  | act f next ih =>
    obtain ⟨hinv, hmove, hkeeps⟩ := ih s h.2 h.1.1
    exact ⟨hinv, htrans h.1.2 hmove, hkeeps⟩

/-- The state such a program ends in is later than the one it started in. -/
theorem Keeps.moves (hrefl : ∀ s, R s s) (htrans : ∀ {a b c}, R a b → R b c → R a c)
    (h : Keeps (amongKeepers serve I R) p s post) :
    Keeps (amongKeepers serve I R) p s (fun a t => post a t ∧ R s t) := by
  induction p generalizing s with
  | done a => exact ⟨h, hrefl s⟩
  | act f next ih =>
    refine ⟨h.1, (ih s h.2).imp fun a t ht => ?_⟩
    exact ⟨ht.1, htrans h.1.2 ht.2⟩
  | ask i next ih =>
    refine ⟨trivial, fun a u hanswer => (ih a (h.2 a u hanswer)).imp fun b t ht => ?_⟩
    exact ⟨ht.1, htrans hanswer.2.1 ht.2⟩

/-- What is known of a system of such programs. -/
structure KeepersHold (serve : σ → (i : ι) → ρ i → σ → Prop) (I : σ → Prop) (R : σ → σ → Prop)
    (post : α → σ → Prop) (sys : System σ ι ρ α) : Prop where
  invariant : I sys.shared
  procs : ∀ p ∈ sys.procs, p.Settled ∧ Keeps (amongKeepers serve I R) p sys.shared post

theorem Step.keepers {sys sys' : System σ ι ρ α} {ev : Event ι ρ} (hrefl : ∀ s, R s s)
    (htrans : ∀ {a b c}, R a b → R b c → R a c) (hstable : ∀ a s t, post a s → R s t → post a t)
    (hserve : ∀ s i a t, I s → serve s i a t → I t ∧ R s t)
    (hprogram : ∀ p, program p → ∀ s, I s → Keeps (amongKeepers serve I R) p s post)
    (h : Step program serve sys ev sys') (hsys : KeepersHold serve I R post sys) :
    KeepersHold serve I R post sys' ∧ R sys.shared sys'.shared := by
  cases h with
  | @start p hp =>
    obtain ⟨hI, hR, hkeeps⟩ :=
      Keeps.settle_keepers hrefl htrans (hprogram p hp sys.shared hsys.invariant) hsys.invariant
    refine ⟨⟨hI, fun q hq => ?_⟩, hR⟩
    rcases List.mem_append.mp hq with hq | hq
    · obtain ⟨hsettled, hq⟩ := hsys.procs q hq
      exact ⟨hsettled, hq.later htrans hstable hsettled hR⟩
    · obtain rfl := List.mem_singleton.mp hq
      exact ⟨Prog.settled_settle p _, hkeeps⟩
  | @answer n i next hn a t ht =>
    have hmem : Prog.ask i next ∈ sys.procs := List.mem_of_getElem? hn
    obtain ⟨hIt, hRt⟩ := hserve _ _ _ _ hsys.invariant ht
    have hnext := (hsys.procs _ hmem).2.2 a t ⟨hIt, hRt, _, ht⟩
    obtain ⟨hI, hR, hkeeps⟩ := Keeps.settle_keepers hrefl htrans hnext hIt
    have hmoved := htrans hRt hR
    refine ⟨⟨hI, fun q hq => ?_⟩, hmoved⟩
    rcases List.mem_or_eq_of_mem_set hq with hq | rfl
    · obtain ⟨hsettled, hq⟩ := hsys.procs q hq
      exact ⟨hsettled, hq.later htrans hstable hsettled hmoved⟩
    · exact ⟨Prog.settled_settle _ _, hkeeps⟩

/-- What a run keeps, and what its finished programs have established. -/
theorem run_keepers {sys sys' : System σ ι ρ α} {evs : List (Event ι ρ)} (hrefl : ∀ s, R s s)
    (htrans : ∀ {a b c}, R a b → R b c → R a c) (hstable : ∀ a s t, post a s → R s t → post a t)
    (hserve : ∀ s i a t, I s → serve s i a t → I t ∧ R s t)
    (hprogram : ∀ p, program p → ∀ s, I s → Keeps (amongKeepers serve I R) p s post)
    (h : Run.Trace (Step program serve) sys evs sys') (hsys : KeepersHold serve I R post sys) :
    KeepersHold serve I R post sys' ∧ R sys.shared sys'.shared := by
  induction h with
  | nil => exact ⟨hsys, hrefl _⟩
  | snoc _ last ih =>
    obtain ⟨hlast, hR⟩ := last.keepers hrefl htrans hstable hserve hprogram ih.1
    exact ⟨hlast, htrans ih.2 hR⟩

theorem KeepersHold.done {sys : System σ ι ρ α} (h : KeepersHold serve I R post sys) {a : α}
    (ha : Prog.done a ∈ sys.procs) : post a sys.shared := (h.procs _ ha).2

end

section

variable {σ ι : Type u} {ρ : ι → Type u} {α : Type u}

/-- Promises of a program that nobody disturbs, with answers of which `A` holds. -/
def undisturbed (A : (i : ι) → ρ i → Prop) (I : ι → σ → Prop) : Spec σ ι ρ where
  issue := I
  answer s i a t := A i a ∧ t = s
  change _ _ := True

/-- Every program is done. -/
def System.Idle (sys : System σ ι ρ α) : Prop := ∀ p ∈ sys.procs, ∃ a, p = .done a

variable {program : Prog σ ι ρ α → Prop} {serve : σ → (i : ι) → ρ i → σ → Prop}
  {A : (i : ι) → ρ i → Prop} {I : ι → σ → Prop} {post : α → σ → Prop} {p : Prog σ ι ρ α} {s : σ}

theorem Keeps.settle_undisturbed (h : Keeps (undisturbed A I) p s post) :
    Keeps (undisturbed A I) (p.settle s).2 (p.settle s).1 post :=
  (h.settle (fun _ => trivial) (fun _ _ => trivial)).2

/-- An answer in a system where only the last program waits for one. -/
theorem Step.answer_last {sys sys' : System σ ι ρ α} {done : List (Prog σ ι ρ α)} {i : ι} {a : ρ i}
    (hdone : ∀ d ∈ done, ∃ b, d = .done b) (hprocs : sys.procs = done ++ [p])
    (h : Step program serve sys (.answer i a) sys') : ∃ next t, p = .ask i next ∧ serve sys.shared i a t ∧
      sys' = ⟨((next a).settle t).1, done ++ [((next a).settle t).2]⟩ := by
  cases h with
  | @answer n _ next hn _ t ht =>
    have hlen : n = done.length := by
      rw [hprocs] at hn
      rcases Nat.lt_trichotomy n done.length with hlt | heq | hgt
      · rw [List.getElem?_append_left hlt] at hn
        obtain ⟨b, hb⟩ := hdone _ (List.mem_of_getElem? hn)
        cases hb
      · exact heq
      · have hnone : (done ++ [p])[n]? = none := by
          apply List.getElem?_eq_none
          simp only [List.length_append, List.length_singleton]
          omega
        rw [hnone] at hn
        cases hn
    subst hlen
    rw [hprocs, List.getElem?_concat_length] at hn
    refine ⟨next, t, Option.some.inj hn, ht, ?_⟩
    rw [hprocs]
    simp

/-- From an idle system a program starts and gets its answers: it still keeps its
promises. -/
theorem undisturbed_run {sys sys₁ sys' : System σ ι ρ α} {answers : List (Event ι ρ)} (hidle : sys.Idle)
    (hserve : ∀ s i a t, serve s i a t → t = s) (hA : ∀ i a, Event.answer i a ∈ answers → A i a)
    (hstart : sys₁ = ⟨(p.settle sys.shared).1, sys.procs ++ [(p.settle sys.shared).2]⟩)
    (hrun : Run.Trace (Step program serve) sys₁ answers sys') (hsame : Event.start ∉ answers)
    (hk : Keeps (undisturbed A I) p sys.shared post) :
    ∃ q, sys'.procs = sys.procs ++ [q] ∧ q.Settled ∧ Keeps (undisturbed A I) q sys'.shared post := by
  induction hrun with
  | nil =>
    rw [hstart]
    exact ⟨_, rfl, Prog.settled_settle p _, hk.settle_undisturbed⟩
  | @snoc earlier sys₂ ev sys₃ _ last ih =>
    have hearlier : ∀ i a, Event.answer i a ∈ earlier → A i a :=
      fun i a h => hA i a (List.mem_append_left _ h)
    obtain ⟨q, hprocs, -, hq⟩ := ih hearlier (fun h => hsame (List.mem_append_left _ h))
    cases ev with
    | start => exact absurd (List.mem_append_right _ (List.mem_singleton.mpr rfl)) hsame
    | answer i a =>
      obtain ⟨next, t, rfl, ht, rfl⟩ := last.answer_last hidle hprocs
      have hanswer : A i a := hA i a (List.mem_append_right _ (List.mem_singleton.mpr rfl))
      have hnext : Keeps (undisturbed A I) (next a) t post := hq.2 a t ⟨hanswer, hserve _ _ _ _ ht⟩
      exact ⟨_, rfl, Prog.settled_settle _ _, hnext.settle_undisturbed⟩

end

section

variable {σ ι : Type u} {ρ : ι → Type u} {α β : Type u}

/-- A program that updates nothing. -/
def Prog.Silent : Prog σ ι ρ α → Prop
  | .done _ => True
  | .act _ _ => False
  | .ask _ next => ∀ a, (next a).Silent

/-- A program that updates nothing, or only in the turn it is at, in this way. -/
def Prog.OneTurn (Q : (σ → σ) → Prop) : Prog σ ι ρ α → Prop
  | .act f next => Q f ∧ ∀ s, (next s).Silent
  | p => p.Silent

theorem Prog.silent_pure (a : α) : (pure a : Prog σ ι ρ α).Silent := trivial

theorem Prog.silent_request_bind {i : ι} {k : ρ i → Prog σ ι ρ α} (hk : ∀ a, (k a).Silent) :
    (Prog.request i >>= k).Silent := hk

theorem Prog.Silent.oneTurn {Q : (σ → σ) → Prop} {p : Prog σ ι ρ α} (h : p.Silent) : p.OneTurn Q := by
  cases p with
  | done a => exact h
  | act f next => exact h.elim
  | ask i next => exact h

theorem Prog.Silent.settle {p : Prog σ ι ρ α} (h : p.Silent) (s : σ) : p.settle s = (s, p) := by
  cases p with
  | done a => rfl
  | act f next => exact h.elim
  | ask i next => rfl

theorem Prog.Silent.alone {p : Prog σ ι ρ α} (h : p.Silent) (reply : (i : ι) → ρ i) (s : σ) :
    (p.alone reply s).1 = s := by
  induction p with
  | done a => rfl
  | act f next _ => exact h.elim
  | ask i next ih => exact ih (reply i) (h (reply i))

/-- The turn itself. -/
theorem Prog.OneTurn.settle {Q : (σ → σ) → Prop} {p : Prog σ ι ρ α} (h : p.OneTurn Q) (s : σ) :
    ((p.settle s).1 = s ∨ ∃ f, Q f ∧ (p.settle s).1 = f s) ∧ (p.settle s).2.Silent := by
  cases p with
  | done a => exact ⟨.inl rfl, trivial⟩
  | ask i next => exact ⟨.inl rfl, h⟩
  | act f next =>
    have hrest : (Prog.act f next).settle s = (f s, next s) := (h.2 s).settle (f s)
    rw [hrest]
    exact ⟨.inr ⟨f, h.1, rfl⟩, h.2 s⟩

end

section

variable {σ ι ι' : Type u} {ρ' : ι' → Type u} {α β : Type u}

/-- The same program, with its requests among more. -/
def Prog.embed (e : ι → ι') : Prog σ ι (fun i => ρ' (e i)) α → Prog σ ι' ρ' α
  | .done a => .done a
  | .act f next => .act f (fun s => (next s).embed e)
  | .ask i next => .ask (e i) (fun a => (next a).embed e)

end

section

variable {σ ι : Type u} {ρ : ι → Type u} {α β : Type u}

/-- Every update moves the state along `R`. -/
def Prog.Moves (R : σ → σ → Prop) : Prog σ ι ρ α → Prop
  | .done _ => True
  | .act f next => ∀ s, R s (f s) ∧ (next s).Moves R
  | .ask _ next => ∀ a, (next a).Moves R

variable {R : σ → σ → Prop} {p : Prog σ ι ρ α}

theorem Prog.moves_pure (a : α) : (pure a : Prog σ ι ρ α).Moves R := trivial

theorem Prog.moves_update_bind {f : σ → σ} {k : PUnit → Prog σ ι ρ α} (hf : ∀ s, R s (f s))
    (hk : (k ⟨⟩).Moves R) : (Prog.update f >>= k).Moves R := fun s => ⟨hf s, hk⟩

theorem Prog.moves_read_bind {k : σ → Prog σ ι ρ α} (hrefl : ∀ s, R s s) (hk : ∀ s, (k s).Moves R) :
    (Prog.read >>= k).Moves R := fun s => ⟨hrefl s, hk s⟩

theorem Prog.moves_request_bind {i : ι} {k : ρ i → Prog σ ι ρ α} (hk : ∀ a, (k a).Moves R) :
    (Prog.request i >>= k).Moves R := hk

theorem Prog.Moves.bind {k : α → Prog σ ι ρ β} (h : p.Moves R) (hk : ∀ a, (k a).Moves R) :
    (p >>= k).Moves R := by
  induction p with
  | done a => exact hk a
  | act f next ih => exact fun s => ⟨(h s).1, ih s (h s).2⟩
  | ask i next ih => exact fun a => ih a (h a)

theorem Prog.Moves.embed {ι' : Type u} {ρ' : ι' → Type u} {e : ι → ι'} {p : Prog σ ι (fun i => ρ' (e i)) α}
    (h : p.Moves R) : (p.embed e).Moves R := by
  induction p with
  | done a => trivial
  | act f next ih => exact fun s => ⟨(h s).1, ih s (h s).2⟩
  | ask i next ih => exact fun a => ih a (h a)

/-- A program that only moves along the order keeps its promises among others. -/
theorem Prog.Moves.keeps {serve : σ → (i : ι) → ρ i → σ → Prop} (h : p.Moves R) (s : σ) :
    Keeps (amongKeepers serve (fun _ => True) R) p s (fun _ _ => True) := by
  induction p generalizing s with
  | done a => trivial
  | act f next ih => exact ⟨⟨trivial, (h s).1⟩, ih s (h s).2 (f s)⟩
  | ask i next ih => exact ⟨trivial, fun a t _ => ih a (h a) t⟩

/-- Steps that meet a condition are steps of an environment that serves under it. -/
theorem Step.meets {program : Prog σ ι ρ α → Prop} {serve : σ → (i : ι) → ρ i → σ → Prop}
    {C : (i : ι) → ρ i → σ → Prop} {sys sys' : System σ ι ρ α} {ev : Event ι ρ}
    (h : Step program serve sys ev sys') (hmeets : ev.Meets C sys.shared) :
    Step program (fun s i a t => C i a s ∧ serve s i a t) sys ev sys' := by
  cases h with
  | start hp => exact .start hp
  | answer n hn a ht => exact .answer n hn a ⟨hmeets, ht⟩

end

end Async
