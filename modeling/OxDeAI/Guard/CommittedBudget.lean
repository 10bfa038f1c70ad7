import OxDeAI.Engine.BudgetConservation
import OxDeAI.Guard.IssuedExecution
import OxDeAI.Lib.CompareAndSet
import OxDeAI.Lib.Histories

/-! Guard calls that share a store of policy states whose `setState` is a compare-and-set:
what they commit is one sequential run of the engine, and what they execute stays within
the budgets of the state the store began with. -/

namespace OxDeAI

open Js Async Run Versioned

section

variable {V : Type} (P : Platform) (e : PolicyEngine)

/-- An evaluation of the engine that answers the guard with this result. -/
structure EngineGives (ev : Evaluation) (intent : JsValue) (state : State) (t : JsNumber)
    (result : EngineResult State) : Prop where
  intent : intentValue ev.intent = intent
  before : ev.before = state
  time : ev.evaluationTime = t
  mode : ev.mode = .failFast
  evaluated : ∃ log, (evaluatePure P e ev.intent ev.before ev.evaluationTime ev.mode log).1 = ev.result
  result : ∃ out, ev.result = .ok out ∧ engineResult out = result

/-- A load finds the present state and version, and a set under that version, and only it,
replaces them. An error of the store may come before the set or after it. -/
def StoreServes (c : Cell State V) : (i : GuardRequest State V) → GuardAnswer i → Cell State V → Prop
  | .getState, a, d => d = c ∧ ∀ state version, a = .ok (.value (some (state, some version))) →
    state = c.value ∧ version = c.version
  | .evaluatePure intent state t, a, d => d = c ∧ ∀ result, a = .ok (some result) →
    ∃ ev, EngineGives P e ev intent state t result
  | .setState nextState version, a, d =>
    (d = c ∧ ∀ answer, a = .ok answer → answer.isTruthy = false) ∨
      (c.Replaces version nextState d ∧ ∀ answer, a = .ok answer → answer.isTruthy = true)
  | _, _, d => d = c

end

/-- A call of a guard. -/
structure StoreCall where
  H : Host
  cfg : GuardConfig
  action : JsValue
  delegationInput : JsValue

section

variable {V : Type}

def StoreCall.Asks (call : StoreCall) (evs : GuardHistory State V) (i : GuardRequest State V) : Prop :=
  Async.Asks (guardCall call.H call.cfg call.action call.delegationInput :
    Prog Unit (GuardRequest State V) GuardAnswer (Except Thrown JsValue)) evs i

/-- After these answers a call without a delegation invokes what it protects. -/
def StoreCall.Executes (call : StoreCall) (evs : GuardHistory State V) : Prop :=
  call.delegationInput.isTruthy = false ∧ call.Asks evs .execute

abbrev StoreCalls (V : Type) := Calls (Cell State V) (GuardAnswer (S := State) (V := V))

abbrev StoreRun (P : Platform) (e : PolicyEngine) (calls : ℕ → StoreCall) (start : Cell State V)
    (es : List (ℕ × Sigma (GuardAnswer (S := State) (V := V)))) (c : StoreCalls V) : Prop :=
  Trace (CallStep (fun n => (calls n).Asks) (StoreServes P e)) (.start start) es c

/-- The intent is of this agent, moves this amount, and is no RELEASE. -/
structure MovesAmount (intent : JsValue) (agent : JsString) (amount : ℤ) : Prop where
  agent : intent.field (js "agent_id") = .str agent
  type : intent.field (js "type") ≠ .str (js "RELEASE")
  amount : intent.field (js "amount") = .bigint amount

/-- The executions of an agent in a run: the number of the call and the amount it moves. -/
def executions (calls : ℕ → StoreCall) (c : StoreCalls V) (agent : JsString) : Set (ℕ × ℤ) :=
  { p | ∃ evs, evs <+: c.history p.1 ∧ (calls p.1).Executes evs ∧ ∃ intent state t result,
    ⟨.evaluatePure intent state t, .ok (some result)⟩ ∈ evs ∧ MovesAmount intent agent p.2 }

/-- The engine allows this in the state, and leaves the next one. -/
def Commits (P : Platform) (e : PolicyEngine) (s : State) (r : ℕ × Evaluation) (s' : State) : Prop :=
  r.2.isAllowed = true ∧ ∃ log log', EngineStep P e (s, log) r.2 (s', log')

/-- The commits of a run, in their order, each with the number of the call that made it. -/
structure Serializes (P : Platform) (e : PolicyEngine) (calls : ℕ → StoreCall) (start : State)
    (c : StoreCalls V) (commits : List (ℕ × Evaluation)) : Prop where
  sequential : Trace (Commits P e) start commits c.shared.value
  made : ∀ r ∈ commits, ∃ version a, ⟨.setState r.2.after version, a⟩ ∈ c.history r.1
  once : (commits.map Prod.fst).Nodup
  executed : ∀ {n evs}, evs <+: c.history n → (calls n).Executes evs → ∃ r ∈ commits, r.1 = n ∧
    ∃ result version answer, EngineGives P e r.2 (intentValue r.2.intent) r.2.before r.2.evaluationTime result ∧
      ⟨.evaluatePure (intentValue r.2.intent) r.2.before r.2.evaluationTime, .ok (some result)⟩ ∈ evs ∧
      ⟨.setState r.2.after version, .ok answer⟩ ∈ evs ∧ answer.isTruthy = true

end

section

variable {V : Type} {P : Platform} {e : PolicyEngine} {c d : Cell State V} {i : GuardRequest State V}
  {a : GuardAnswer i}

theorem serves_cases (h : StoreServes P e c i a d) :
    (d = c ∧ ∀ nextState version answer, (⟨i, a⟩ : Sigma (GuardAnswer (S := State) (V := V))) =
      ⟨.setState nextState version, .ok answer⟩ → answer.isTruthy = false) ∨
    ∃ nextState version, i = .setState nextState version ∧ c.Replaces version nextState d := by
  cases i with
  | setState nextState version =>
    rcases h with ⟨hd, hfalse⟩ | ⟨hreplaces, -⟩
    · refine .inl ⟨hd, fun nextState' version' answer heq => ?_⟩
      cases heq
      exact hfalse answer rfl
    · exact .inr ⟨nextState, version, rfl, hreplaces⟩
  | getState => exact .inl ⟨h.1, fun _ _ _ heq => by cases heq⟩
  | evaluatePure intent state t => exact .inl ⟨h.1, fun _ _ _ heq => by cases heq⟩
  | _ => exact .inl ⟨h, fun _ _ _ heq => by cases heq⟩

theorem serves_read (h : StoreServes P e c i a d) {state : State} {version : V} (hread : c.Read state version) :
    d.Read state version := by
  rcases serves_cases h with ⟨rfl, -⟩ | ⟨_, _, -, hreplaces⟩
  · exact hread
  · exact hread.replaces hreplaces

theorem EngineGives.step {ev : Evaluation} {intent : JsValue} {state : State} {t : JsNumber}
    {result : EngineResult State} (h : EngineGives P e ev intent state t result) {nextState : State}
    (hpermits : Permits result nextState) (n : ℕ) : Commits P e state (n, ev) nextState ∧ ev.after = nextState := by
  obtain ⟨log, hresult⟩ := h.evaluated
  obtain ⟨out, hout, rfl⟩ := h.result
  cases out with
  | deny reasons => exact absurd hpermits.notDenied (by simp [engineResult, JsValue.isText])
  | allow authorization next =>
    obtain rfl : next = nextState := Option.some.inj hpermits.nextState
    have hafter : ev.after = next := by simp [Evaluation.after, hout]
    have hstep : EngineStep P e (state, log) ev
        (next, (evaluatePure P e ev.intent ev.before ev.evaluationTime ev.mode log).2) :=
      ⟨h.before, Prod.ext hresult rfl, hafter.symm⟩
    exact ⟨⟨by simp [Evaluation.isAllowed, Evaluation.authorization?, hout], log, _, hstep⟩, hafter⟩

end

section

variable {V : Type} {P : Platform} {e : PolicyEngine} {calls : ℕ → StoreCall} {start : State}
  {c c' : StoreCalls V} {commits : List (ℕ × Evaluation)} {n : ℕ} {i : GuardRequest State V} {a : GuardAnswer i}
  {d : Cell State V}

/-- The answers on which a call committed an evaluation. -/
structure CommittedBy (P : Platform) (e : PolicyEngine) (action : JsValue) (evs : GuardHistory State V)
    (ev : Evaluation) (k : IssuedCall State V) : Prop where
  history : k.consumed action <+: evs
  gives : EngineGives P e ev k.intent k.state k.evaluationTime k.result
  permits : Permits k.result k.nextState

theorem CommittedBy.mono {action : JsValue} {evs evs' : GuardHistory State V} {ev : Evaluation}
    {k : IssuedCall State V} (h : CommittedBy P e action evs ev k) (hle : evs <+: evs') :
    CommittedBy P e action evs' ev k :=
  ⟨h.history.trans hle, h.gives, h.permits⟩

/-- What was loaded was the store's, what was evaluated was the engine's, and each commit
was one step of the engine, made by a call of its own. -/
structure Coordinated (P : Platform) (e : PolicyEngine) (calls : ℕ → StoreCall) (start : State)
    (c : StoreCalls V) (commits : List (ℕ × Evaluation)) : Prop where
  read : ∀ {n state version}, ⟨.getState, .ok (.value (some (state, some version)))⟩ ∈ c.history n →
    c.shared.Read state version
  evaluated : ∀ {n intent state t result}, ⟨.evaluatePure intent state t, .ok (some result)⟩ ∈ c.history n →
    ∃ ev, EngineGives P e ev intent state t result
  sequential : Trace (Commits P e) start commits c.shared.value
  made : ∀ r ∈ commits, ∃ version a, ⟨.setState r.2.after version, a⟩ ∈ c.history r.1
  once : (commits.map Prod.fst).Nodup
  committed : ∀ {n nextState version answer}, ⟨.setState nextState version, .ok answer⟩ ∈ c.history n →
    answer.isTruthy = true → ∃ r ∈ commits, r.1 = n ∧ ∃ k, CommittedBy P e (calls n).action (c.history n) r.2 k

theorem coordinated_start (s : Cell State V) : Coordinated P e calls s.value (.start s) [] where
  read h := absurd h List.not_mem_nil
  evaluated h := absurd h List.not_mem_nil
  sequential := .nil
  made _ h := absurd h List.not_mem_nil
  once := .nil
  committed h := absurd h List.not_mem_nil

theorem history_grows (c : StoreCalls V) (m : ℕ) : c.history m <+: (c.record n ⟨i, a⟩ d).history m := by
  by_cases hm : m = n
  · subst hm
    simp [Calls.record]
  · simp [Calls.record, hm]

theorem Coordinated.read_step (h : Coordinated P e calls start c commits)
    (hserves : StoreServes P e c.shared i a d) {m : ℕ} {state : State} {version : V}
    (hmem : ⟨.getState, .ok (.value (some (state, some version)))⟩ ∈ (c.record n ⟨i, a⟩ d).history m) :
    d.Read state version := by
  rcases Calls.mem_record.mp hmem with hold | ⟨-, hlast⟩
  · exact serves_read hserves (h.read hold)
  · cases hlast
    obtain ⟨rfl, hloaded⟩ := hserves
    obtain ⟨rfl, rfl⟩ := hloaded state version rfl
    exact c.shared.read_now

theorem Coordinated.evaluated_step (h : Coordinated P e calls start c commits)
    (hserves : StoreServes P e c.shared i a d) {m : ℕ} {intent : JsValue} {state : State} {t : JsNumber}
    {result : EngineResult State}
    (hmem : ⟨.evaluatePure intent state t, .ok (some result)⟩ ∈ (c.record n ⟨i, a⟩ d).history m) :
    ∃ ev, EngineGives P e ev intent state t result := by
  rcases Calls.mem_record.mp hmem with hold | ⟨-, hlast⟩
  · exact h.evaluated hold
  · cases hlast
    exact hserves.2 result rfl

theorem Coordinated.made_step (h : Coordinated P e calls start c commits) {r : ℕ × Evaluation} (hr : r ∈ commits) :
    ∃ version b, ⟨.setState r.2.after version, b⟩ ∈ (c.record n ⟨i, a⟩ d).history r.1 := by
  obtain ⟨version, b, hmem⟩ := h.made r hr
  exact ⟨version, b, Calls.mem_record.mpr (.inl hmem)⟩

theorem Coordinated.committed_step (h : Coordinated P e calls start c commits) {m : ℕ} {nextState : State}
    {version : V} {answer : JsValue} (hmem : ⟨.setState nextState version, .ok answer⟩ ∈ c.history m)
    (htrue : answer.isTruthy = true) : ∃ r ∈ commits, r.1 = m ∧
      ∃ k, CommittedBy P e (calls m).action ((c.record n ⟨i, a⟩ d).history m) r.2 k := by
  obtain ⟨r, hr, hm, k, hk⟩ := h.committed hmem htrue
  exact ⟨r, hr, hm, k, hk.mono (history_grows c m)⟩

/-- A step that leaves the store alone commits nothing. -/
theorem Coordinated.kept (h : Coordinated P e calls start c commits)
    (hserves : StoreServes P e c.shared i a c.shared)
    (hfalse : ∀ nextState version answer, (⟨i, a⟩ : Sigma (GuardAnswer (S := State) (V := V))) =
      ⟨.setState nextState version, .ok answer⟩ → answer.isTruthy = false) :
    Coordinated P e calls start (c.record n ⟨i, a⟩ c.shared) commits where
  read := h.read_step hserves
  evaluated := h.evaluated_step hserves
  sequential := h.sequential
  made _ hr := h.made_step hr
  once := h.once
  committed hmem htrue := by
    rcases Calls.mem_record.mp hmem with hold | ⟨-, hlast⟩
    · exact h.committed_step hold htrue
    · rw [hfalse _ _ _ hlast.symm] at htrue
      cases htrue

theorem setState_not_mem_consumed {k : IssuedCall State V} {action : JsValue} {nextState : State} {version : V}
    {b : Except CallbackError JsValue} : ⟨.setState nextState version, b⟩ ∉ k.consumed action := by
  intro h
  simp only [IssuedCall.consumed, IssuedCall.bound, IssuedCall.evaluated, loadedHistory, List.cons_append,
    List.nil_append, List.mem_cons, List.not_mem_nil, or_false] at h
  rcases h with h | h | h | h | h | h | h | h
  all_goals cases h

theorem evaluated_mem_consumed {k : IssuedCall State V} {action : JsValue} :
    ⟨.evaluatePure k.intent k.state k.evaluationTime, .ok (some k.result)⟩ ∈ k.consumed action := by
  simp [IssuedCall.consumed, IssuedCall.bound, IssuedCall.evaluated]

/-- A replacement is a step of the engine on what the store held, and the first of its call. -/
theorem Coordinated.replaced (h : Coordinated P e calls start c commits) {nextState : State} {version : V}
    {b : GuardAnswer (.setState nextState version : GuardRequest State V)}
    (hasks : (calls n).Asks (c.history n) (.setState nextState version))
    (hserves : StoreServes P e c.shared (.setState nextState version) b d)
    (hreplaces : c.shared.Replaces version nextState d) :
    ∃ ev, Coordinated P e calls start (c.record n ⟨.setState nextState version, b⟩ d) (commits ++ [(n, ev)]) := by
  obtain ⟨-, k, hbound, hevs, rfl, rfl⟩ := guardCall_follows.asks hasks
  rw [List.nil_append] at hevs
  have hloaded : (⟨.getState, .ok (.value (some (k.state, some k.version)))⟩ :
      Sigma (GuardAnswer (S := State) (V := V))) ∈ c.history n := by
    rw [hevs]
    simp [IssuedCall.consumed, IssuedCall.bound, IssuedCall.evaluated, loadedHistory]
  have hanswered : (⟨.evaluatePure k.intent k.state k.evaluationTime, .ok (some k.result)⟩ :
      Sigma (GuardAnswer (S := State) (V := V))) ∈ c.history n := by
    rw [hevs]
    exact evaluated_mem_consumed
  have hread := h.read hloaded
  obtain ⟨ev, hgives⟩ := h.evaluated hanswered
  obtain ⟨hcommits, hafter⟩ := hgives.step hbound.permits n
  have hheld : k.state = c.shared.value := hread.replaced hreplaces
  have hby : CommittedBy P e (calls n).action
      ((c.record n ⟨.setState k.nextState k.version, b⟩ d).history n) ev k :=
    ⟨hevs ▸ history_grows c n, hgives, hbound.permits⟩
  refine ⟨ev, h.read_step hserves, h.evaluated_step hserves, ?_, ?_, ?_, ?_⟩
  · rw [hheld] at hcommits
    have hvalue : (c.record n ⟨.setState k.nextState k.version, b⟩ d).shared.value = k.nextState := hreplaces.value
    rw [hvalue]
    exact h.sequential.snoc hcommits
  · intro r hr
    rcases List.mem_append.mp hr with hr | hr
    · exact h.made_step hr
    · obtain rfl := List.mem_singleton.mp hr
      refine ⟨k.version, b, Calls.mem_record.mpr (.inr ⟨rfl, ?_⟩)⟩
      dsimp only
      rw [hafter]
  · have hnew : n ∉ commits.map Prod.fst := by
      intro hmem
      obtain ⟨r, hr, rfl⟩ := List.mem_map.mp hmem
      obtain ⟨version, b', hset⟩ := h.made r hr
      rw [hevs] at hset
      exact setState_not_mem_consumed hset
    rw [List.map_append, List.nodup_append]
    refine ⟨h.once, List.nodup_singleton _, fun m hm m' hm' heq => ?_⟩
    obtain rfl := List.mem_singleton.mp hm'
    exact hnew (heq ▸ hm)
  · intro m nextState' version' answer hmem htrue
    rcases Calls.mem_record.mp hmem with hold | ⟨rfl, hlast⟩
    · obtain ⟨r, hr, hm, hk⟩ := h.committed_step hold htrue
      exact ⟨r, List.mem_append_left _ hr, hm, hk⟩
    · exact ⟨(m, ev), List.mem_append_right _ (List.mem_singleton.mpr rfl), rfl, k, hby⟩

theorem coordinated_step {ev : ℕ × Sigma (GuardAnswer (S := State) (V := V))}
    (h : ∃ commits, Coordinated P e calls start c commits)
    (hstep : CallStep (fun n => (calls n).Asks) (StoreServes P e) c ev c') :
    ∃ commits, Coordinated P e calls start c' commits := by
  obtain ⟨commits, h⟩ := h
  obtain ⟨hasks, b, hserves⟩ := hstep
  rcases serves_cases hserves with ⟨rfl, hfalse⟩ | ⟨nextState, version, rfl, hreplaces⟩
  · exact ⟨commits, h.kept hserves hfalse⟩
  · obtain ⟨ev, hnew⟩ := h.replaced hasks hserves hreplaces
    exact ⟨_, hnew⟩

theorem exists_coordinated {s : Cell State V} {es : List (ℕ × Sigma (GuardAnswer (S := State) (V := V)))}
    (h : StoreRun P e calls s es c) : ∃ commits, Coordinated P e calls s.value c commits :=
  h.invariant (fun _ _ _ hc hstep => coordinated_step hc hstep) ⟨[], coordinated_start s⟩

/-- The answers of a standard call hold one evaluation. -/
theorem evaluated_of_mem_committed {k : IssuedCall State V} {cfg : GuardConfig} {action answer intent : JsValue}
    {state : State} {t : JsNumber} {result : EngineResult State}
    (h : ⟨.evaluatePure intent state t, .ok (some result)⟩ ∈
      k.committed action answer ++ gateHistory cfg action k.authorization) : intent = k.intent := by
  rcases List.mem_append.mp h with h | h
  · simp only [IssuedCall.committed, IssuedCall.consumed, IssuedCall.bound, IssuedCall.evaluated, loadedHistory,
      List.cons_append, List.nil_append, List.mem_cons, List.not_mem_nil, or_false] at h
    rcases h with h | h | h | h | h | h | h | h | h
    all_goals cases h
    rfl
  · unfold gateHistory at h
    split at h
    · cases List.mem_singleton.mp h
    · cases h

theorem consumed_inj {k k' : IssuedCall State V} {action : JsValue} (h : k'.consumed action = k.consumed action) :
    k'.intent = k.intent ∧ k'.state = k.state ∧ k'.evaluationTime = k.evaluationTime ∧ k'.result = k.result := by
  have hanswer : k'.result = k.result ∧ k'.evaluationTime = k.evaluationTime ∧ k'.state = k.state ∧
      k'.intent = k.intent := by
    simp only [IssuedCall.consumed, IssuedCall.bound, IssuedCall.evaluated, loadedHistory, List.cons_append,
      List.nil_append, List.cons.injEq] at h
    obtain ⟨-, -, -, h, -⟩ := h
    cases k
    cases k'
    cases h
    exact ⟨rfl, rfl, rfl, rfl⟩
  obtain ⟨hresult, htime, hstate, hintent⟩ := hanswer
  exact ⟨hintent, hstate, htime, hresult⟩

/-- What a call executes on is what it committed. -/
theorem Coordinated.executed (h : Coordinated P e calls start c commits) {evs : GuardHistory State V}
    (hle : evs <+: c.history n) (hexecutes : (calls n).Executes evs) : ∃ r ∈ commits, r.1 = n ∧
      ∃ (k : IssuedCall State V) (answer : JsValue), answer.isTruthy = true ∧
        evs = k.committed (calls n).action answer ++ gateHistory (calls n).cfg (calls n).action k.authorization ∧
        EngineGives P e r.2 k.intent k.state k.evaluationTime k.result ∧ r.2.after = k.nextState := by
  obtain ⟨hpath, hasks⟩ := hexecutes
  rcases guardCall_follows.asks hasks with ⟨-, k, answer, hbound, htrue, hevs⟩ | ⟨hpath', -⟩
  · rw [List.nil_append] at hevs
    have hset : ⟨.setState k.nextState k.version, .ok answer⟩ ∈ c.history n :=
      hle.subset (by rw [hevs]; simp [IssuedCall.committed])
    obtain ⟨r, hr, hn, k', hby⟩ := h.committed hset htrue
    have hconsumed : k.consumed (calls n).action <+: c.history n := by
      refine List.IsPrefix.trans ?_ hle
      rw [hevs]
      unfold IssuedCall.committed
      rw [List.append_assoc]
      exact List.prefix_append _ _
    have hsame : k'.consumed (calls n).action = k.consumed (calls n).action :=
      (List.prefix_of_prefix_length_le hby.history hconsumed (le_of_eq rfl)).eq_of_length rfl
    obtain ⟨hintent, hstate, htime, hresult⟩ := consumed_inj hsame
    have hgives := hby.gives
    rw [hintent, hstate, htime, hresult] at hgives
    exact ⟨r, hr, hn, k, answer, htrue, hevs, hgives, (hgives.step hbound.permits n).2⟩
  · rw [hpath] at hpath'
    cases hpath'

theorem Coordinated.serializes (h : Coordinated P e calls start c commits) :
    Serializes P e calls start c commits where
  sequential := h.sequential
  made := h.made
  once := h.once
  executed hle hexecutes := by
    obtain ⟨r, hr, hn, k, answer, htrue, hevs, hgives, hafter⟩ := h.executed hle hexecutes
    refine ⟨r, hr, hn, k.result, k.version, answer, ?_, ?_, ?_, htrue⟩
    · rw [hgives.intent, hgives.before, hgives.time]
      exact hgives
    · rw [hgives.intent, hgives.before, hgives.time, hevs]
      unfold IssuedCall.committed
      exact List.mem_append_left _ (List.mem_append_left _ evaluated_mem_consumed)
    · rw [hafter, hevs]
      simp [IssuedCall.committed]

end

section

variable {V : Type} {P : Platform} {e : PolicyEngine} {calls : ℕ → StoreCall} {s s' : State}
  {c : StoreCalls V} {commits : List (ℕ × Evaluation)} {agent : JsString}

theorem commits_spent (h : Trace (Commits P e) s commits s') (agent : JsString) :
    spentBy s' agent = spentBy s agent + (commits.map fun r => r.2.charge agent).sum := by
  refine h.sum_eq (f := fun s => spentBy s agent) fun a r b hcommits => ?_
  obtain ⟨-, log, log', hstep⟩ := hcommits
  exact hstep.spentBy_eq agent

theorem commits_limit (h : Trace (Commits P e) s commits s') : s'.budget.budgetLimit = s.budget.budgetLimit := by
  refine h.invariant (I := fun t => t.budget.budgetLimit = s.budget.budgetLimit) (fun a r b ha hcommits => ?_) rfl
  obtain ⟨-, log, log', hstep⟩ := hcommits
  exact hstep.limits.1.trans ha

theorem commits_allowed (h : Trace (Commits P e) s commits s') : ∀ r ∈ commits, r.2.isAllowed = true :=
  h.forall_label (I := fun _ => True) (fun _ _ _ _ _ => trivial) (fun _ _ _ _ hcommits => hcommits.1) trivial

theorem charge_nonneg (h : Trace (Commits P e) s commits s') : ∀ r ∈ commits, 0 ≤ r.2.charge agent := by
  refine h.forall_label (I := fun _ => True) (fun _ _ _ _ _ => trivial) (fun a r b _ hcommits => ?_) trivial
  obtain ⟨-, log, log', hstep⟩ := hcommits
  rw [Evaluation.charge]
  split
  · rename_i hexecutes
    exact (hstep.charged hexecutes).nonneg
  · exact le_rfl

/-- From its first allowed execution on, an agent has a limit and is within it. -/
theorem commits_within (h : Trace (Commits P e) s commits s') (hsome : ∃ r ∈ commits, r.2.executes agent = true) :
    ∃ limit, s'.budget.budgetLimit.own? agent = some limit ∧ spentBy s' agent ≤ limit := by
  induction h with
  | nil =>
    obtain ⟨r, hr, -⟩ := hsome
    exact absurd hr List.not_mem_nil
  | @snoc commits t r t' run last ih =>
    obtain ⟨-, log, log', hstep⟩ := last
    by_cases hexecutes : r.2.executes agent = true
    · have hlimit := (hstep.charged hexecutes).limit
      rwa [← hstep.after] at hlimit
    · obtain ⟨r', hr', hexecutes'⟩ := hsome
      have hold : r' ∈ commits := by
        rcases List.mem_append.mp hr' with hr' | hr'
        · exact hr'
        · rw [List.mem_singleton.mp hr'] at hexecutes'
          exact absurd hexecutes' hexecutes
      obtain ⟨limit, hlimit, hspent⟩ := ih ⟨r', hold, hexecutes'⟩
      have hsame : spentBy t' agent = spentBy t agent := by
        rw [hstep.spentBy_eq agent, Evaluation.charge, if_neg hexecutes, add_zero]
      refine ⟨limit, ?_, hsame ▸ hspent⟩
      rw [hstep.limits.1]
      exact hlimit

/-- Distinct executions that were all committed cost no more than what was committed. -/
theorem sum_le_committed (h : Trace (Commits P e) s commits s') (honce : (commits.map Prod.fst).Nodup)
    {T : Finset (ℕ × ℤ)} (hT : ∀ p ∈ T, ∃ r ∈ commits, r.1 = p.1 ∧ r.2.charge agent = p.2) :
    ∑ p ∈ T, p.2 ≤ (commits.map fun r => r.2.charge agent).sum := by
  have hnodup : (commits.map fun r => (r.1, r.2.charge agent)).Nodup := by
    refine List.Nodup.of_map Prod.fst ?_
    rw [List.map_map]
    exact honce
  have hsub : T ⊆ (commits.map fun r => (r.1, r.2.charge agent)).toFinset := by
    intro p hp
    obtain ⟨r, hr, hn, hcharge⟩ := hT p hp
    exact List.mem_toFinset.mpr (List.mem_map.mpr ⟨r, hr, Prod.ext hn hcharge⟩)
  calc ∑ p ∈ T, p.2 ≤ ∑ p ∈ (commits.map fun r => (r.1, r.2.charge agent)).toFinset, p.2 := by
        refine Finset.sum_le_sum_of_subset_of_nonneg hsub fun p hp _ => ?_
        obtain ⟨r, hr, rfl⟩ := List.mem_map.mp (List.mem_toFinset.mp hp)
        exact charge_nonneg h r hr
    _ = (commits.map fun r => r.2.charge agent).sum := by
        rw [List.sum_toFinset _ hnodup, List.map_map]
        rfl

theorem movesAmount_intentValue {intent : Intent} {amount : ℤ} (h : MovesAmount (intentValue intent) agent amount) :
    intent.agentId = agent ∧ intent.kind = .execute ∧ intent.amount = amount := by
  have hagent := h.agent
  have htype := h.type
  have hamount := h.amount
  rw [field_intentValue (v := some (.str intent.agentId)) (by simp [bindingFields])] at hagent
  rw [field_intentValue (v := intent.type.map fun t => .str t.text) (by simp [bindingFields])] at htype
  rw [field_intentValue (v := some (.bigint intent.amount)) (by simp [bindingFields])] at hamount
  refine ⟨JsValue.str.inj hagent, ?_, JsValue.bigint.inj hamount⟩
  rw [Intent.kind]
  cases hk : intent.type with
  | none => rfl
  | some kind =>
    cases kind with
    | execute => rfl
    | release =>
      rw [hk] at htype
      exact absurd rfl htype

theorem Coordinated.charged (h : Coordinated P e calls s c commits) {p : ℕ × ℤ}
    (hp : p ∈ executions calls c agent) :
    ∃ r ∈ commits, r.1 = p.1 ∧ r.2.executes agent = true ∧ r.2.charge agent = p.2 := by
  obtain ⟨evs, hle, hexecutes, intent, state, t, result, hmem, hmoves⟩ := hp
  obtain ⟨r, hr, hn, k, answer, -, hevs, hgives, -⟩ := h.executed hle hexecutes
  rw [hevs] at hmem
  obtain rfl := evaluated_of_mem_committed hmem
  rw [← hgives.intent] at hmoves
  obtain ⟨hagent, hkind, hamount⟩ := movesAmount_intentValue hmoves
  have hx := executes_iff.mpr ⟨commits_allowed h.sequential r hr, hkind, hagent⟩
  exact ⟨r, hr, hn, hx, by rw [Evaluation.charge, if_pos hx, hamount]⟩

end

/-- In every interleaving of guard calls over one compare-and-set store, the commits are one
sequential run of allowed evaluations, each execution has a commit of its own call before
it, and the executions of an agent stay within what was left of its budget. -/
theorem committed_budget {V : Type} (P : Platform) (e : PolicyEngine) (calls : ℕ → StoreCall)
    {start : Cell State V} {es : List (ℕ × Sigma (GuardAnswer (S := State) (V := V)))} {c : StoreCalls V}
    (h : StoreRun P e calls start es c) :
    ∃ commits, Serializes P e calls start.value c commits ∧
      ∀ (agent : JsString) (T : Finset (ℕ × ℤ)), T.Nonempty → (∀ p ∈ T, p ∈ executions calls c agent) →
        ∃ limit, start.value.budget.budgetLimit.own? agent = some limit ∧
          ∑ p ∈ T, p.2 ≤ limit - spentBy start.value agent := by
  obtain ⟨commits, hc⟩ := exists_coordinated h
  refine ⟨commits, hc.serializes, fun agent T hsome hT => ?_⟩
  have hcharged : ∀ p ∈ T, ∃ r ∈ commits, r.1 = p.1 ∧ r.2.charge agent = p.2 := by
    intro p hp
    obtain ⟨r, hr, hn, -, hcharge⟩ := hc.charged (hT p hp)
    exact ⟨r, hr, hn, hcharge⟩
  obtain ⟨p, hp⟩ := hsome
  obtain ⟨r, hr, -, hexecutes, -⟩ := hc.charged (hT p hp)
  obtain ⟨limit, hlimit, hwithin⟩ := commits_within hc.sequential ⟨r, hr, hexecutes⟩
  rw [commits_limit hc.sequential] at hlimit
  refine ⟨limit, hlimit, ?_⟩
  have hsum := sum_le_committed hc.sequential hc.once hcharged
  have hspent := commits_spent hc.sequential agent
  omega

def signingCall : StoreCall := ⟨envelopeHost, signingGuardConfig, .obj [], .undefined⟩

def firstCell : Cell State ℕ := ⟨sampleState (js "a"), 0, {0}, rfl⟩

/-- The store after the commit. -/
def secondCell (parts : AuthorizationParts) : Cell State ℕ := ⟨(signedCall parts).nextState, 1, {0, 1}, .inr rfl⟩

theorem replaces_signedCall (parts : AuthorizationParts) :
    firstCell.Replaces (signedCall parts).version (signedCall parts).nextState (secondCell parts) :=
  ⟨rfl, rfl, by simp [firstCell, secondCell], Set.pair_comm 0 1⟩

theorem signedCall_served {parts : AuthorizationParts} (h : Permitted envelopeHost.toPlatform signingEngine
    (sampleIntent (js "a")) (sampleState (js "a")) (.int 1000) sampleCharge parts) :
    Trace (fun (c : Cell State ℕ) (ev : Sigma (GuardAnswer (S := State) (V := ℕ))) d =>
      StoreServes envelopeHost.toPlatform signingEngine c ev.1 ev.2 d)
      firstCell ((signedCall parts).committed (.obj []) (.bool true)) (secondCell parts) := by
  have hgives : EngineGives envelopeHost.toPlatform signingEngine
      ⟨sampleIntent (js "a"), .int 1000, .failFast, sampleState (js "a"), .ok (.allow (authorizationFor
        envelopeHost.toPlatform signingEngine (sampleIntent (js "a")) (sampleState (js "a")) (.int 1000) parts)
        (signedCall parts).nextState)⟩
      (signedCall parts).intent (signedCall parts).state (signedCall parts).evaluationTime (signedCall parts).result :=
    ⟨rfl, rfl, rfl, rfl, ⟨_, signedCall_allows h⟩, _, rfl, rfl⟩
  have hcommitted : (signedCall parts).committed (.obj []) (.bool true) =
      [⟨.getState, .ok (.value (some (sampleState (js "a"), some 0)))⟩] ++
        [⟨.normalize (.obj []), .ok (intentValue (sampleIntent (js "a")))⟩] ++ [⟨.clock, .int 1000⟩] ++
        [⟨.evaluatePure (signedCall parts).intent (signedCall parts).state (signedCall parts).evaluationTime,
          .ok (some (signedCall parts).result)⟩] ++ [⟨.clock, .int 1000⟩] ++
        [⟨.trustedKeySets, [sampleKeySet]⟩] ++
        [⟨.computeStateHash (sampleState (js "a")), .ok (.str parts.stateHash)⟩] ++
        [⟨.consumeAuthId ((signedCall parts).authorization.field (js "auth_id"))
          (consumeExpiry (signedCall parts).authorization), .ok (.bool true)⟩] ++
        [⟨.setState (signedCall parts).nextState 0, .ok (.bool true)⟩] := rfl
  rw [hcommitted]
  refine .snoc (.snoc (.snoc (.snoc (.snoc (.snoc (.snoc (.snoc (.snoc .nil ⟨rfl, ?_⟩) rfl) rfl) ⟨rfl, ?_⟩) rfl)
    rfl) rfl) rfl) (.inr ⟨replaces_signedCall parts, ?_⟩)
  · intro state version hanswer
    cases hanswer
    exact ⟨rfl, rfl⟩
  · intro result hanswer
    cases hanswer
    exact ⟨_, hgives⟩
  · intro answer hanswer
    cases hanswer
    rfl

theorem signedCall_executes {parts : AuthorizationParts} (h : Permitted envelopeHost.toPlatform signingEngine
    (sampleIntent (js "a")) (sampleState (js "a")) (.int 1000) sampleCharge parts) :
    signingCall.Executes ((signedCall parts).committed (.obj []) (.bool true)) := by
  have hasks : signingCall.Asks ((signedCall parts).committed (.obj []) (.bool true) ++
      gateHistory signingGuardConfig (.obj []) (signedCall parts).authorization) .execute :=
    guardCall_asks_standard rfl (bound_signedCall h) rfl
  have hgate : gateHistory signingGuardConfig (.obj []) (signedCall parts).authorization =
      ([] : GuardHistory State ℕ) := rfl
  rw [hgate, List.append_nil] at hasks
  exact ⟨rfl, hasks⟩

theorem committed_budget_sample : ∃ es c, StoreRun envelopeHost.toPlatform signingEngine (fun _ => signingCall)
    firstCell es c ∧ (0, 10) ∈ executions (fun _ => signingCall) c (js "a") ∧
      ∃ limit, (sampleState (js "a")).budget.budgetLimit.own? (js "a") = some limit ∧
        10 ≤ limit - spentBy (sampleState (js "a")) (js "a") := by
  obtain ⟨parts, hp⟩ := permitted_signing
  have hexecutes := signedCall_executes hp
  obtain ⟨es, hrun⟩ : ∃ es, StoreRun envelopeHost.toPlatform signingEngine (fun _ => signingCall) firstCell es
      ⟨secondCell parts, Function.update (fun _ => []) 0 ((signedCall parts).committed (.obj []) (.bool true))⟩ := by
    obtain ⟨_, hpath⟩ := hexecutes.2
    refine run_alone (signedCall_served hp) fun before ev after hevs => ?_
    rw [hevs] at hpath
    exact hpath.asks_at
  have htype : (intentValue (sampleIntent (js "a"))).field (js "type") ≠ .str (js "RELEASE") := by
    intro htype
    cases htype
  have hmem : (0, 10) ∈ executions (fun _ => signingCall) ⟨secondCell parts, Function.update (fun _ => []) 0
      ((signedCall parts).committed (.obj []) (.bool true))⟩ (js "a") :=
    ⟨_, by simp, hexecutes, _, _, _, _, List.mem_append_left _ evaluated_mem_consumed, rfl, htype, rfl⟩
  obtain ⟨commits, -, hbudget⟩ := committed_budget envelopeHost.toPlatform signingEngine (fun _ => signingCall) hrun
  obtain ⟨limit, hlimit, hsum⟩ := hbudget (js "a") {(0, 10)} (Finset.singleton_nonempty _)
    (fun p hp => Finset.mem_singleton.mp hp ▸ hmem)
  refine ⟨es, _, hrun, hmem, limit, hlimit, ?_⟩
  rwa [Finset.sum_singleton] at hsum

end OxDeAI
