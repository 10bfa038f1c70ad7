import OxDeAI.Lib.Async

/-! What a program asks after the answers it got, and calls: programs that keep
variables of their own and may throw. -/

namespace Async

universe u

section

variable {σ ι : Type u} {ρ : ι → Type u} {α β : Type u}

/-- `p` comes to `q` by these answers, whatever the shared state is meanwhile. -/
inductive Path : Prog σ ι ρ α → List (Sigma ρ) → Prog σ ι ρ α → Prop
  | nil (p : Prog σ ι ρ α) : Path p [] p
  | act {f : σ → σ} {next : σ → Prog σ ι ρ α} {evs : List (Sigma ρ)} {q : Prog σ ι ρ α} (s : σ)
    (h : Path (next s) evs q) : Path (.act f next) evs q
  | ask {i : ι} {next : ρ i → Prog σ ι ρ α} {evs : List (Sigma ρ)} {q : Prog σ ι ρ α} (a : ρ i)
    (h : Path (next a) evs q) : Path (.ask i next) (⟨i, a⟩ :: evs) q

/-- After these answers the program asks `i`. -/
def Asks (p : Prog σ ι ρ α) (evs : List (Sigma ρ)) (i : ι) : Prop :=
  ∃ next, Path p evs (.ask i next)

theorem Path.bind {p q : Prog σ ι ρ α} {evs : List (Sigma ρ)} (h : Path p evs q)
    (k : α → Prog σ ι ρ β) : Path (p >>= k) evs (q >>= k) := by
  induction h with
  | nil p => exact .nil _
  | act s _ ih => exact .act s ih
  | ask a _ ih => exact .ask a ih

theorem Path.append {p q r : Prog σ ι ρ α} {evs more : List (Sigma ρ)} (h : Path p evs q)
    (hq : Path q more r) : Path p (evs ++ more) r := by
  induction h with
  | nil p => exact hq
  | act s _ ih => exact .act s (ih hq)
  | ask a _ ih => exact .ask a (ih hq)

theorem Path.asks_at {p q : Prog σ ι ρ α} {i : ι} {a : ρ i} {before after : List (Sigma ρ)}
    (h : Path p (before ++ ⟨i, a⟩ :: after) q) : Asks p before i := by
  generalize hevs : before ++ ⟨i, a⟩ :: after = evs at h
  induction h generalizing before with
  | nil p => simp at hevs
  | act s _ ih =>
    obtain ⟨rest, hrest⟩ := ih hevs
    exact ⟨rest, .act s hrest⟩
  | ask b _ ih =>
    cases before with
    | nil =>
      cases hevs
      exact ⟨_, .nil _⟩
    | cons e before =>
      cases hevs
      obtain ⟨rest, hrest⟩ := ih rfl
      exact ⟨rest, .ask b hrest⟩

/-- Each request comes after answers that allow it, and the end is as `post` says. -/
def Follows (allowed : List (Sigma ρ) → ι → Prop) :
    Prog σ ι ρ α → List (Sigma ρ) → (α → List (Sigma ρ) → Prop) → Prop
  | .done a, evs, post => post a evs
  | .act _ next, evs, post => ∀ s, Follows allowed (next s) evs post
  | .ask i next, evs, post => allowed evs i ∧ ∀ a, Follows allowed (next a) (evs ++ [⟨i, a⟩]) post

variable {allowed : List (Sigma ρ) → ι → Prop} {p q : Prog σ ι ρ α} {evs more : List (Sigma ρ)}
  {post post' : α → List (Sigma ρ) → Prop}

theorem Follows.imp (h : Follows allowed p evs post) (himp : ∀ a evs, post a evs → post' a evs) :
    Follows allowed p evs post' := by
  induction p generalizing evs with
  | done a => exact himp a evs h
  | act f next ih => exact fun s => ih s (h s)
  | ask i next ih => exact ⟨h.1, fun a => ih a (h.2 a)⟩

theorem Follows.bind {k : α → Prog σ ι ρ β} {postk : β → List (Sigma ρ) → Prop}
    (h : Follows allowed p evs post) (hk : ∀ a evs, post a evs → Follows allowed (k a) evs postk) :
    Follows allowed (p >>= k) evs postk := by
  induction p generalizing evs with
  | done a => exact hk a evs h
  | act f next ih => exact fun s => ih s (h s)
  | ask i next ih => exact ⟨h.1, fun a => ih a (h.2 a)⟩

theorem follows_pure {a : α} (h : post a evs) : Follows allowed (pure a : Prog σ ι ρ α) evs post := h

theorem follows_request {i : ι} {post : ρ i → List (Sigma ρ) → Prop} (hi : allowed evs i)
    (h : ∀ a, post a (evs ++ [⟨i, a⟩])) : Follows allowed (Prog.request i : Prog σ ι ρ (ρ i)) evs post :=
  ⟨hi, h⟩

theorem follows_request_bind {i : ι} {k : ρ i → Prog σ ι ρ α} (hi : allowed evs i)
    (h : ∀ a, Follows allowed (k a) (evs ++ [⟨i, a⟩]) post) :
    Follows allowed (Prog.request i >>= k) evs post := ⟨hi, h⟩

/-- What is left of the program goes on following. -/
theorem Follows.along (h : Follows allowed p evs post) (hp : Path p more q) :
    Follows allowed q (evs ++ more) post := by
  induction hp generalizing evs with
  | nil p => rwa [List.append_nil]
  | act s _ ih => exact ih (h s)
  | ask a _ ih =>
    have hrest := ih (h.2 a)
    rwa [List.append_assoc, List.singleton_append] at hrest

theorem Follows.asks {i : ι} (h : Follows allowed p evs post) (hp : Asks p more i) :
    allowed (evs ++ more) i := by
  obtain ⟨next, hpath⟩ := hp
  exact (h.along hpath).1

end

/-- A program with variables `τ` of its own that may throw an `ε`. -/
def Call (σ ι : Type u) (ρ : ι → Type u) (τ ε α : Type u) : Type u := τ → Prog σ ι ρ (Except ε α × τ)

namespace Call

variable {σ ι : Type u} {ρ : ι → Type u} {τ ε α β : Type u}

/-- A call goes on with its answer; what it threw ends it. -/
def resume (k : α → Call σ ι ρ τ ε β) : Except ε α × τ → Prog σ ι ρ (Except ε β × τ)
  | (.ok a, t) => k a t
  | (.error e, t) => pure (.error e, t)

instance : Monad (Call σ ι ρ τ ε) where
  pure a := fun t => pure (.ok a, t)
  bind m k := fun t => m t >>= resume k

def throw (e : ε) : Call σ ι ρ τ ε α := fun t => pure (.error e, t)

def request (i : ι) : Call σ ι ρ τ ε (ρ i) := fun t => Prog.request i >>= fun a => pure (.ok a, t)

def modify (f : τ → τ) : Call σ ι ρ τ ε PUnit := fun t => pure (.ok ⟨⟩, f t)

/-- A program that is run within a call; what it ends with in error is thrown. -/
def invoke (p : Prog σ ι ρ (Except ε α)) : Call σ ι ρ τ ε α := fun t => p >>= fun r => pure (r, t)

/-- Requests follow the order, and so does what a result comes after. A call that
throws promises nothing more. -/
def Follows (allowed : List (Sigma ρ) → ι → Prop) (m : Call σ ι ρ τ ε α) (evs : List (Sigma ρ))
    (post : α → List (Sigma ρ) → Prop) : Prop :=
  ∀ t, Async.Follows allowed (m t) evs (fun r evs => ∀ a, r.1 = .ok a → post a evs)

variable {allowed : List (Sigma ρ) → ι → Prop} {m : Call σ ι ρ τ ε α} {evs : List (Sigma ρ)}
  {post post' : α → List (Sigma ρ) → Prop}

theorem Follows.imp (h : m.Follows allowed evs post) (himp : ∀ a evs, post a evs → post' a evs) :
    m.Follows allowed evs post' :=
  fun t => (h t).imp fun _ evs hr a ha => himp a evs (hr a ha)

theorem Follows.bind {k : α → Call σ ι ρ τ ε β} {postk : β → List (Sigma ρ) → Prop}
    (h : m.Follows allowed evs post) (hk : ∀ a evs, post a evs → (k a).Follows allowed evs postk) :
    (m >>= k).Follows allowed evs postk := by
  intro t
  refine Async.Follows.bind (h t) fun r evs hr => ?_
  obtain ⟨answer, t'⟩ := r
  cases answer with
  | ok a => exact hk a evs (hr a rfl) t'
  | error e => exact follows_pure nofun

theorem follows_pure {a : α} (h : post a evs) :
    (pure a : Call σ ι ρ τ ε α).Follows allowed evs post := by
  intro t
  refine Async.follows_pure fun b hb => ?_
  cases hb
  exact h

theorem follows_throw {e : ε} : (throw e : Call σ ι ρ τ ε α).Follows allowed evs post :=
  fun _ => Async.follows_pure nofun

theorem follows_request {i : ι} {post : ρ i → List (Sigma ρ) → Prop} (hi : allowed evs i)
    (h : ∀ a, post a (evs ++ [⟨i, a⟩])) :
    (request i : Call σ ι ρ τ ε (ρ i)).Follows allowed evs post := by
  refine fun t => ⟨hi, fun a => Async.follows_pure fun b hb => ?_⟩
  cases hb
  exact h a

theorem follows_modify {f : τ → τ} {post : PUnit → List (Sigma ρ) → Prop} (h : post ⟨⟩ evs) :
    (modify f : Call σ ι ρ τ ε PUnit).Follows allowed evs post := by
  refine fun t => Async.follows_pure fun b _ => ?_
  exact h

variable {k : PUnit → Call σ ι ρ τ ε β} {postk : β → List (Sigma ρ) → Prop}

theorem follows_modify_bind {f : τ → τ} (h : (k ⟨⟩).Follows allowed evs postk) :
    (modify f >>= k).Follows allowed evs postk := fun t => h (f t)

theorem follows_request_bind {i : ι} {k : ρ i → Call σ ι ρ τ ε β} (hi : allowed evs i)
    (h : ∀ a, (k a).Follows allowed (evs ++ [⟨i, a⟩]) postk) :
    (request i >>= k).Follows allowed evs postk := fun t => ⟨hi, fun a => h a t⟩

/-- A result as `Q` says, or a throw as `E` says. -/
def Ends (E : ε → τ → List (Sigma ρ) → Prop) (Q : α → τ → List (Sigma ρ) → Prop) :
    Except ε α → τ → List (Sigma ρ) → Prop
  | .ok a => Q a
  | .error e => E e

/-- From these variables, after these answers, the call ends as `Q` and `E` say. -/
def Tracks (m : Call σ ι ρ τ ε α) (t : τ) (evs : List (Sigma ρ)) (E : ε → τ → List (Sigma ρ) → Prop)
    (Q : α → τ → List (Sigma ρ) → Prop) : Prop :=
  Async.Follows (fun _ _ => True) (m t) evs (fun r evs => Ends E Q r.1 r.2 evs)

section

variable {t : τ} {E : ε → τ → List (Sigma ρ) → Prop} {Q : α → τ → List (Sigma ρ) → Prop}
  {R : β → τ → List (Sigma ρ) → Prop}

theorem Tracks.bind {k : α → Call σ ι ρ τ ε β} (h : m.Tracks t evs E Q)
    (hk : ∀ a t evs, Q a t evs → (k a).Tracks t evs E R) : (m >>= k).Tracks t evs E R := by
  refine Async.Follows.bind h fun r evs hr => ?_
  obtain ⟨answer, t'⟩ := r
  cases answer with
  | ok a => exact hk a t' evs hr
  | error e => exact Async.follows_pure hr

theorem tracks_pure {a : α} (h : Q a t evs) : (pure a : Call σ ι ρ τ ε α).Tracks t evs E Q := h

theorem tracks_throw {e : ε} (h : E e t evs) : (throw e : Call σ ι ρ τ ε α).Tracks t evs E Q := h

theorem tracks_request_bind {i : ι} {k : ρ i → Call σ ι ρ τ ε β}
    (h : ∀ a, (k a).Tracks t (evs ++ [⟨i, a⟩]) E R) : (request i >>= k).Tracks t evs E R := ⟨trivial, h⟩

theorem tracks_request {i : ι} {Q : ρ i → τ → List (Sigma ρ) → Prop} (h : ∀ a, Q a t (evs ++ [⟨i, a⟩])) :
    (request i : Call σ ι ρ τ ε (ρ i)).Tracks t evs E Q := ⟨trivial, h⟩

/-- How a call ends that has come to its end. -/
theorem Tracks.path {more : List (Sigma ρ)} {r : Except ε α × τ} (h : m.Tracks t evs E Q)
    (hp : Path (m t) more (.done r)) : Ends E Q r.1 r.2 (evs ++ more) := Async.Follows.along h hp

end

/-- By these answers the call returns `a`, whatever its variables are. -/
def Returns (m : Call σ ι ρ τ ε α) (evs : List (Sigma ρ)) (a : α) : Prop :=
  ∀ t, ∃ t', Path (m t) evs (.done (.ok a, t'))

/-- By these answers the call throws `e`, whatever its variables are. -/
def Throws (m : Call σ ι ρ τ ε α) (evs : List (Sigma ρ)) (e : ε) : Prop :=
  ∀ t, ∃ t', Path (m t) evs (.done (.error e, t'))

/-- After these answers the call asks `i`, whatever its variables are. -/
def Asks (m : Call σ ι ρ τ ε α) (evs : List (Sigma ρ)) (i : ι) : Prop :=
  ∀ t, Async.Asks (m t) evs i

section

variable {m : Call σ ι ρ τ ε α} {k : α → Call σ ι ρ τ ε β} {more : List (Sigma ρ)} {a : α} {b : β} {i : ι}

theorem Returns.bind (h : m.Returns evs a) (hk : (k a).Returns more b) :
    (m >>= k).Returns (evs ++ more) b := by
  intro t
  obtain ⟨t', hm⟩ := h t
  obtain ⟨t'', hrest⟩ := hk t'
  exact ⟨t'', (hm.bind (resume k)).append hrest⟩

theorem Returns.throws {e : ε} (h : m.Returns evs a) (hk : (k a).Throws more e) :
    (m >>= k).Throws (evs ++ more) e := by
  intro t
  obtain ⟨t', hm⟩ := h t
  obtain ⟨t'', hrest⟩ := hk t'
  exact ⟨t'', (hm.bind (resume k)).append hrest⟩

theorem throws_throw {e : ε} : (throw e : Call σ ι ρ τ ε α).Throws [] e := fun t => ⟨t, .nil _⟩

theorem Returns.asks (h : m.Returns evs a) (hk : (k a).Asks more i) : (m >>= k).Asks (evs ++ more) i := by
  intro t
  obtain ⟨t', hm⟩ := h t
  obtain ⟨next, hrest⟩ := hk t'
  exact ⟨next, (hm.bind (resume k)).append hrest⟩

theorem Asks.bind (h : m.Asks evs i) : (m >>= k).Asks evs i := by
  intro t
  obtain ⟨next, hm⟩ := h t
  exact ⟨_, hm.bind (resume k)⟩

theorem returns_pure : (pure a : Call σ ι ρ τ ε α).Returns [] a := fun t => ⟨t, .nil _⟩

theorem returns_modify {f : τ → τ} : (modify f : Call σ ι ρ τ ε PUnit).Returns [] ⟨⟩ :=
  fun t => ⟨f t, .nil _⟩

theorem returns_request {a : ρ i} : (request i : Call σ ι ρ τ ε (ρ i)).Returns [⟨i, a⟩] a :=
  fun t => ⟨t, .ask a (.nil _)⟩

theorem asks_request : (request i : Call σ ι ρ τ ε (ρ i)).Asks [] i := fun _ => ⟨_, .nil _⟩

theorem returns_modify_bind {f : τ → τ} {k : PUnit → Call σ ι ρ τ ε β} (hk : (k ⟨⟩).Returns more b) :
    (modify f >>= k).Returns more b := fun t => hk (f t)

theorem asks_modify_bind {f : τ → τ} {k : PUnit → Call σ ι ρ τ ε β} (hk : (k ⟨⟩).Asks more i) :
    (modify f >>= k).Asks more i := fun t => hk (f t)

theorem returns_request_bind {k : ρ i → Call σ ι ρ τ ε β} {a : ρ i} (hk : (k a).Returns more b) :
    (request i >>= k).Returns (⟨i, a⟩ :: more) b := by
  intro t
  obtain ⟨t', hrest⟩ := hk t
  exact ⟨t', .ask a hrest⟩

theorem asks_request_bind {j : ι} {k : ρ i → Call σ ι ρ τ ε β} {a : ρ i} (hk : (k a).Asks more j) :
    (request i >>= k).Asks (⟨i, a⟩ :: more) j := by
  intro t
  obtain ⟨next, hrest⟩ := hk t
  exact ⟨next, .ask a hrest⟩

end

end Call

end Async
