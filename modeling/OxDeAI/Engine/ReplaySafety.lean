import OxDeAI.Engine.Runs

/-! Replay safety of runs. A recorded nonce outlives the freshness of the intent
it came with. -/

namespace OxDeAI

open Js Run

/-- The nonces recorded for an agent. -/
def recorded (state : State) (agent : JsString) : List NonceEntry :=
  (state.replay.nonces.own? agent).getD []

theorem nonceList_eq {state : State} {agent : JsString} {list : List NonceEntry}
    (h : nonceList state agent = .ok list) : list = recorded state agent := by
  simp only [nonceList] at h
  split at h
  · rename_i hg
    cases h
    rw [recorded, (Record.get_eq_own _).mp hg, Option.getD_some]
  · rename_i hg
    cases h
    rw [recorded, ← Record.value?_get, hg]
    rfl
  · cases h

section

variable {P : Platform} {e : PolicyEngine} {s s' : State × AuditLog} {ev : Evaluation}

theorem recorded_recordNonce {intent : Intent} {state next : State} {context : PolicyEvaluationContext}
    {pruned : List NonceEntry} (h : next.replay = recordNonce intent state context pruned)
    (agent : JsString) :
    recorded next agent = if agent = intent.agentId then
      pruned ++ [⟨nonceKey intent, context.evaluationTime⟩] else recorded state agent := by
  simp only [recorded, h, recordNonce, Record.own?_set]
  split <;> rfl

/-- How long an intent stays fresh. -/
structure Horizon (e : PolicyEngine) (skew age : ℕ) : Prop where
  clockSkew : e.opts.maxClockSkewSeconds = .int skew
  intentAge : e.opts.maxIntentAgeSeconds = .int age
  skew_le : skew ≤ JsNumber.maxSafeInteger
  age_le : age ≤ JsNumber.maxSafeInteger

theorem exists_horizon (e : PolicyEngine) : ∃ skew age, Horizon e skew age := by
  obtain ⟨skew, age, hs, ha, hs', ha'⟩ := e.exists_seconds
  exact ⟨skew, age, hs, ha, hs', ha'⟩

/-- The entry an allowed evaluation records is still there as long as no later
evaluation happened after the horizon. -/
def Retains (skew age : ℕ) (evs : List Evaluation) (state : State) : Prop :=
  ∀ ev ∈ evs, ev.isAllowed = true → ∀ t : ℕ, ev.evaluationTime = .int t →
    t ≤ JsNumber.maxSafeInteger → ∀ now : ℕ,
    (∀ ev' ∈ evs, ev'.isAllowed = true → ev'.evaluationTime.le (.int now) = true) →
    now ≤ t + (age + skew) →
    ⟨nonceKey ev.intent, ev.evaluationTime⟩ ∈ recorded state ev.intent.agentId

theorem mem_pruned {skew age t now : ℕ} (hz : Horizon e skew age) {state : State} {agent : JsString}
    {pruned list : List NonceEntry} (hlist : nonceList state agent = .ok list)
    (hp : pruned = pruneNonces (windowStart state.replay (moduleContext e (.int now))) list)
    (hconfig : validReplayConfig state.replay = true) (ht : t ≤ JsNumber.maxSafeInteger)
    (hle : now ≤ t + (age + skew)) {nonce : JsString}
    (hmem : ⟨nonce, .int t⟩ ∈ recorded state agent) : ⟨nonce, .int t⟩ ∈ pruned := by
  rw [hp]
  have hw : state.replay.windowSeconds.isNaN = false := by
    simp only [validReplayConfig, Bool.and_eq_true, Bool.not_eq_true', Bool.or_eq_false_iff] at hconfig
    exact hconfig.1.1
  refine mem_pruneNonces hw (nonceList_eq hlist ▸ hmem) rfl ht ?_
  rcases e.freshnessHorizonSeconds_eq hz.clockSkew hz.intentAge with h | h
  · exact .inl h
  · exact .inr ⟨_, h, hle⟩

/-- One step keeps every entry that is still within its horizon. -/
theorem Retains.step {skew age : ℕ} (hz : Horizon e skew age) {evs : List Evaluation}
    (hR : Retains skew age evs s.1) (hstep : EngineStep P e s ev s') :
    Retains skew age (evs ++ [ev]) s'.1 := by
  intro old hold hallowed t ht hsafe now hnow hle
  rw [hstep.after]
  have hlater : ∀ ev' ∈ evs, ev'.isAllowed = true → ev'.evaluationTime.le (.int now) = true :=
    fun ev' h => hnow ev' (List.mem_append_left _ h)
  cases hcur : ev.isAllowed with
  | false =>
    rw [ev.after_of_not_allowed hcur, hstep.before]
    rcases List.mem_append.mp hold with hold | hold
    · exact hR old hold hallowed t ht hsafe now hlater hle
    · obtain rfl := List.mem_singleton.mp hold
      simp [hcur] at hallowed
  | true =>
    obtain ⟨c, parts, ha⟩ := hstep.allowed hcur
    rw [ha.after, recorded_recordNonce nextStateFor_replay]
    rcases List.mem_append.mp hold with hold | hold
    · have hkept : ∀ now' : ℕ, (∀ ev' ∈ evs, ev'.isAllowed = true →
          ev'.evaluationTime.le (.int now') = true) → now' ≤ t + (age + skew) →
          ⟨nonceKey old.intent, old.evaluationTime⟩ ∈ recorded ev.before old.intent.agentId := by
        intro now' h1 h2
        rw [hstep.before]
        exact hR old hold hallowed t ht hsafe now' h1 h2
      by_cases hagent : old.intent.agentId = ev.intent.agentId
      · rw [if_pos hagent]
        apply List.mem_append_left
        obtain ⟨T, hT, -⟩ := ha.exists_time
        have hTnow : T ≤ now := by
          have := hnow ev (by simp) hcur
          rw [hT] at this
          exact_mod_cast (by simpa using this : (T : ℤ) ≤ now)
        obtain ⟨list, hlist, hp⟩ := ha.permitted.admitted.replay.own
        rw [ht]
        rw [hT] at hp
        refine mem_pruned hz hlist hp ha.permitted.admitted.replay.config hsafe
          (show T ≤ t + (age + skew) by omega) ?_
        rw [← ht, ← hagent]
        exact hkept now hlater hle
      · rw [if_neg hagent]
        exact hkept now hlater hle
    · obtain rfl := List.mem_singleton.mp hold
      rw [if_pos rfl]
      exact List.mem_append_right _ (by simp [moduleContext])

def SameNonce (a b : Evaluation) : Prop :=
  a.intent.agentId = b.intent.agentId ∧ a.intent.nonce = b.intent.nonce ∧
    a.intent.timestamp = b.intent.timestamp

/-- An intent evaluated again while it is still fresh finds its own nonce. -/
theorem not_allowed_again {skew age : ℕ} (hz : Horizon e skew age) {prev : Evaluation}
    {c c' : Charge} {parts parts' : AuthorizationParts} (hprev : AllowedStep P e prev c parts)
    (hev : AllowedStep P e ev c' parts') (hsame : SameNonce prev ev)
    (hrec : ∀ t now : ℕ, prev.evaluationTime = .int t → t ≤ JsNumber.maxSafeInteger →
      ev.evaluationTime = .int now → now ≤ t + (age + skew) →
      ⟨nonceKey prev.intent, prev.evaluationTime⟩ ∈ recorded ev.before prev.intent.agentId) : False := by
  obtain ⟨t, ht, ht'⟩ := hprev.exists_time
  obtain ⟨now, hnow, hnow'⟩ := hev.exists_time
  have hf := hprev.permitted.fresh
  have hf' := hev.permitted.fresh
  rw [ht, hz.clockSkew, hz.intentAge, verifyTrustedTime_allow ht' hz.skew_le hz.age_le] at hf
  rw [hnow, hz.clockSkew, hz.intentAge, verifyTrustedTime_allow hnow' hz.skew_le hz.age_le] at hf'
  obtain ⟨-, ts, hts, -, h1, -⟩ := hf
  obtain ⟨-, ts', hts', -, -, h2⟩ := hf'
  obtain ⟨hagent, hnonce, htime⟩ := hsame
  obtain rfl : ts = ts' := by
    rw [hts, hts'] at htime
    simpa using htime
  have hle : now ≤ t + (age + skew) := by omega
  have hmem := hrec t now ht ht' hnow hle
  obtain ⟨list, hlist, hp⟩ := hev.permitted.admitted.replay.own
  rw [hnow] at hp
  rw [ht, hagent] at hmem
  have hin := mem_pruned hz hlist hp hev.permitted.admitted.replay.config ht' hle hmem
  exact hev.permitted.admitted.replay.unused _ hin (by simp [nonceKey, hnonce])

theorem pairwise_not_both_allowed {evs : List Evaluation} (hrun : EngineRun P e s evs s')
    (hclock : Clocked evs) :
    evs.Pairwise (fun a b => SameNonce a b → ¬ (a.isAllowed = true ∧ b.isAllowed = true)) := by
  obtain ⟨skew, age, hz⟩ := exists_horizon e
  refine hrun.pairwise (H := fun evs s => Retains skew age evs s.1 ∧
    ∀ ev ∈ evs, ev.isAllowed = true → ∃ c parts, AllowedStep P e ev c parts) hclock
    ⟨by simp [Retains], by simp⟩ ?_
  rintro evs a ev b ⟨hR, hall⟩ hprev hstep
  refine ⟨⟨hR.step hz hstep, ?_⟩, ?_⟩
  · intro ev' hev' ha
    rcases List.mem_append.mp hev' with hev' | hev'
    · exact hall ev' hev' ha
    · obtain rfl := List.mem_singleton.mp hev'
      exact hstep.allowed ha
  · rintro prev hp hsame ⟨h1, h2⟩
    obtain ⟨c, parts, hprev'⟩ := hall prev hp h1
    obtain ⟨c', parts', hev⟩ := hstep.allowed h2
    refine not_allowed_again hz hprev' hev hsame fun t now ht ht' hnow hle => ?_
    rw [hstep.before]
    exact hR prev hp h1 t ht ht' now (fun ev' hev' _ => hnow ▸ hprev ev' hev') hle

/-- No two intents with one agent, nonce and timestamp are ever both allowed. -/
theorem replay_safety {evs : List Evaluation} (hrun : EngineRun P e s evs s') (hclock : Clocked evs) :
    evs.Pairwise (fun a b => SameNonce a b → ¬ (a.isAllowed = true ∧ b.isAllowed = true)) :=
  pairwise_not_both_allowed hrun hclock

end

/-- The sample intent is allowed, and presenting it again in the same second is not. -/
theorem replay_safety_sample :
    let first := evaluation samplePlatform sampleEngine (AuditLog.initial samplePlatform)
      (sampleIntent (js "a")) (sampleState (js "a")) (.int 1000) .failFast
    let log := (evaluatePure samplePlatform sampleEngine (sampleIntent (js "a")) (sampleState (js "a"))
      (.int 1000) .failFast (AuditLog.initial samplePlatform)).2
    first.isAllowed = true ∧ (evaluation samplePlatform sampleEngine log
      (sampleIntent (js "a")) first.after (.int 1000) .failFast).isAllowed = false := by
  intro first log
  obtain ⟨parts, hp⟩ := permitted_sample
  have hfirst : first.isAllowed = true := (evaluation_allowedStep samplePlatform_laws.nfc rfl hp _ _).isAllowed
  have hrun := Trace.snoc (.snoc .nil (evaluation_step samplePlatform sampleEngine
    (AuditLog.initial samplePlatform) (sampleIntent (js "a")) (sampleState (js "a")) (.int 1000) .failFast))
    (evaluation_step samplePlatform sampleEngine log (sampleIntent (js "a")) first.after (.int 1000) .failFast)
  have hpair := replay_safety hrun (by simp [Clocked, evaluation])
  rw [List.nil_append, List.singleton_append, List.pairwise_pair] at hpair
  refine ⟨hfirst, ?_⟩
  have hnot := hpair ⟨rfl, rfl, rfl⟩
  rw [not_and] at hnot
  simpa using hnot hfirst

end OxDeAI
