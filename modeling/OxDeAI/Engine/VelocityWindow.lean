import OxDeAI.Lib.FixedWindow
import OxDeAI.Engine.Runs

/-! What runs do to velocity counters. Seen through the counter of one agent, a
run is a run of the fixed window that the counter describes. -/

namespace OxDeAI

open Js Run

/-- A counter whose fields are integers. -/
def windowCounter : Option VelocityCounter → Option FixedWindow.Counter
  | some ⟨.int start, .int count⟩ => some ⟨start, count.toNat⟩
  | _ => none

def counterOf (agent : JsString) (state : State) : Option FixedWindow.Counter :=
  windowCounter (state.velocity.counters.own? agent).join

/-- The start of the window an agent's counter is in. -/
def windowOf (agent : JsString) (state : State) : ℤ :=
  match counterOf agent state with
  | some c => c.start
  | none => 0

def Evaluation.admission (agent : JsString) (ev : Evaluation) : Option FixedWindow.Admission :=
  if ev.executes agent then some ⟨ev.seconds, windowOf agent ev.after⟩ else none

/-- The executions of an agent that one window counts. -/
def executedIn (agent : JsString) (start : ℤ) (evs : List Evaluation) : ℕ :=
  evs.countP (fun ev => ev.executes agent && windowOf agent ev.after = start)

/-- The executions of an agent in a half-open interval of evaluation times. -/
def executedWithin (agent : JsString) (lo : ℤ) (length : ℕ) (evs : List Evaluation) : ℕ :=
  evs.countP (fun ev => ev.executes agent && (lo ≤ ev.seconds && ev.seconds < lo + length))

section

variable {window max t : ℕ} {c : Option VelocityCounter} {next : VelocityCounter} {state : State}
  {agent : JsString} {now : JsNumber}

theorem readCounter_own (h : readCounter state agent now = some c) :
    (state.velocity.counters.own? agent).join = c ∧ ∀ k, c = some k → validCounter now k = true := by
  rw [← Record.value?_get]
  simp only [readCounter] at h
  split at h
  · rename_i k hget
    split at h
    · rename_i hvalid
      cases h
      rw [hget]
      refine ⟨rfl, fun k' hk' => ?_⟩
      cases hk'
      exact hvalid
    · cases h
  · rename_i hget
    cases h
    rw [hget]
    exact ⟨rfl, fun k hk => by cases hk⟩
  · rename_i hget
    cases h
    rw [hget]
    exact ⟨rfl, fun k hk => by cases hk⟩
  · cases h

/-- The fields of a counter that the module accepts. -/
theorem validCounter_int {k : VelocityCounter} (h : validCounter (.int t) k = true) :
    ∃ start count : ℕ, k = ⟨.int start, .int count⟩ ∧ start ≤ t ∧ count ≤ JsNumber.maxSafeInteger := by
  obtain ⟨start, count⟩ := k
  simp only [validCounter, Bool.and_eq_true] at h
  obtain ⟨⟨⟨⟨hstart, hstart0⟩, hcount⟩, hcount0⟩, hnow⟩ := h
  obtain ⟨s, rfl, hs⟩ := JsNumber.exists_int_of_isSafeInteger hstart
  obtain ⟨n, rfl, hn⟩ := JsNumber.exists_int_of_isSafeInteger hcount
  simp only [JsNumber.lt_int, Bool.not_eq_true', decide_eq_false_iff_not] at hstart0 hcount0 hnow
  refine ⟨s.toNat, n.toNat, ?_, by omega, by omega⟩
  rw [Int.toNat_of_nonneg (by omega), Int.toNat_of_nonneg (by omega)]

/-- The configurations under which anything is admitted. -/
theorem validVelocityConfig_int {cfg : VelocityConfig} (h : validVelocityConfig cfg = true) :
    ∃ window max : ℕ, cfg = ⟨.int window, .int max⟩ ∧ 0 < window ∧ max ≤ JsNumber.maxSafeInteger := by
  obtain ⟨windowSeconds, maxActions⟩ := cfg
  simp only [validVelocityConfig, Bool.and_eq_true] at h
  obtain ⟨⟨⟨hwindow, hpos⟩, hmax⟩, hnonneg⟩ := h
  obtain ⟨w, rfl, hw⟩ := JsNumber.exists_int_of_isSafeInteger hwindow
  obtain ⟨m, rfl, hm⟩ := JsNumber.exists_int_of_isSafeInteger hmax
  simp only [JsNumber.le_int, JsNumber.lt_int, Bool.not_eq_true', decide_eq_false_iff_not] at hpos hnonneg
  refine ⟨w.toNat, m.toNat, ?_, by omega, by omega⟩
  rw [Int.toNat_of_nonneg (by omega), Int.toNat_of_nonneg (by omega)]

/-- One more action is a step of the window. -/
theorem nextCounter_step (ht : t ≤ JsNumber.maxSafeInteger)
    (hvalid : ∀ k, c = some k → validCounter (.int t) k = true)
    (hnext : nextCounter ⟨.int window, .int max⟩ (.int t) c = some next) :
    ∃ start count : ℕ, next = ⟨.int start, .int count⟩ ∧
      FixedWindow.Step window max (windowCounter c) ⟨t, start⟩ (some ⟨start, count⟩) := by
  cases c with
  | none =>
    simp only [nextCounter] at hnext
    split at hnext
    · cases hnext
    · rename_i hroom
      cases hnext
      simp only [JsNumber.lt_int, decide_eq_true_eq] at hroom
      exact ⟨t, 1, rfl, .first (by omega)⟩
  | some k =>
    obtain ⟨start, count, rfl, hstart, hcount⟩ := validCounter_int (hvalid k rfl)
    have hsub : (JsNumber.int t).sub (.int start) = .int (t - start) := by
      apply JsNumber.sub_int
      simp only [JsNumber.maxSafeInteger] at ht
      omega
    have hadd : (JsNumber.int count).add (.int 1) = .int (count + 1 : ℕ) := by
      apply JsNumber.add_int
      simp only [JsNumber.maxSafeInteger] at hcount
      omega
    simp only [nextCounter, hsub, hadd, JsNumber.ge_int, JsNumber.lt_int, decide_eq_true_eq] at hnext
    split at hnext
    · rename_i helapsed
      split at hnext
      · cases hnext
      · rename_i hroom
        cases hnext
        refine ⟨t, 1, rfl, .reopen ?_ (by omega)⟩
        show (start : ℤ) + window ≤ t
        omega
    · rename_i hrunning
      split at hnext
      · cases hnext
      · rename_i hroom
        cases hnext
        refine ⟨start, count + 1, rfl, ?_⟩
        apply FixedWindow.Step.count (c := ⟨start, count⟩)
        · show (start : ℤ) ≤ t
          omega
        · show (t : ℤ) < start + window
          omega
        · show count < max
          omega

end

section

variable {P : Platform} {e : PolicyEngine} {s s' : State × AuditLog} {ev : Evaluation} {agent : JsString}

/-- The limits stay what they are. -/
theorem EngineStep.velocityConfig (h : EngineStep P e s ev s') :
    s'.1.velocity.config = s.1.velocity.config := by
  rw [h.after, ← h.before]
  cases hcur : ev.isAllowed with
  | false => rw [ev.after_of_not_allowed hcur]
  | true =>
    obtain ⟨c, parts, ha⟩ := h.allowed hcur
    rw [ha.after, nextStateFor_velocity]
    cases c.counter <;> rfl

/-- The counter of an agent moves only when an execution of that agent is allowed. -/
theorem EngineStep.counter_unchanged (h : EngineStep P e s ev s') (hno : ev.executes agent = false) :
    ev.after.velocity.counters.own? agent = ev.before.velocity.counters.own? agent := by
  cases hcur : ev.isAllowed with
  | false => rw [ev.after_of_not_allowed hcur]
  | true =>
    obtain ⟨c, parts, ha⟩ := h.allowed hcur
    rw [ha.after, nextStateFor_velocity]
    cases hk : ev.intent.kind with
    | release => rw [(ha.permitted.admitted.release hk).2]
    | execute =>
      have hne : agent ≠ ev.intent.agentId := by
        rintro rfl
        simp [Evaluation.executes, hcur, hk] at hno
      cases c.counter with
      | none => rfl
      | some counter => exact Record.own?_set_of_ne _ hne _

/-- What an allowed execution does to the counter of its agent. -/
structure CountedExecution (agent : JsString) (window max : ℕ) (ev : Evaluation) : Prop where
  clock : ev.evaluationTime = .int ev.seconds
  config : ev.before.velocity.config = ⟨.int window, .int max⟩
  positive : 0 < window
  notBefore : ∀ c, ev.before.velocity.counters.own? agent = some (some c) →
    ev.evaluationTime.lt c.windowStart = false
  step : ∃ k, counterOf agent ev.after = some k ∧
    FixedWindow.Step window max (counterOf agent ev.before) ⟨ev.seconds, windowOf agent ev.after⟩ (some k)

theorem EngineStep.counted (h : EngineStep P e s ev s') (hx : ev.executes agent = true) :
    ∃ window max, CountedExecution agent window max ev := by
  obtain ⟨hcur, hk, rfl⟩ := executes_iff.mp hx
  obtain ⟨c, parts, ha⟩ := h.allowed hcur
  have hadm := ha.permitted.admitted.execute hk
  obtain ⟨t, ht, hsafe⟩ := ha.exists_time
  have hseconds : ev.seconds = t := by simp [Evaluation.seconds, ht]
  obtain ⟨window, max, hcfg, hpos, -⟩ := validVelocityConfig_int hadm.velocityConfig
  obtain ⟨counter, next, hread, hnext, hc⟩ := hadm.velocity
  have hread' : readCounter ev.before ev.intent.agentId (.int t) = some counter := by rw [← ht]; exact hread
  obtain ⟨hown, hvalid⟩ := readCounter_own hread'
  have hnext' : nextCounter ⟨.int window, .int max⟩ (.int t) counter = some next := by
    rw [← ht, ← hcfg]
    exact hnext
  obtain ⟨start, count, rfl, hstep⟩ := nextCounter_step hsafe hvalid hnext'
  have hafter : counterOf ev.intent.agentId ev.after = some ⟨start, count⟩ := by
    rw [counterOf, ha.after, nextStateFor_velocity, hc]
    simp [windowCounter]
  have hwindow : windowOf ev.intent.agentId ev.after = start := by
    rw [windowOf, hafter]
  refine ⟨window, max, by rw [hseconds, ht], hcfg, hpos, ?_, ⟨start, count⟩, hafter, ?_⟩
  · intro k hk'
    have hcounter : counter = some k := by
      rw [← hown, hk']
      rfl
    obtain ⟨start', count', rfl, hle, -⟩ := validCounter_int (hvalid k hcounter)
    rw [ht, JsNumber.lt_int]
    exact decide_eq_false (by omega)
  · rw [hseconds, hwindow, counterOf, hown]
    exact hstep

/-- The counter's view of one step. -/
theorem EngineStep.window (h : EngineStep P e s ev s') {window max : ℕ}
    (hcfg : s.1.velocity.config = ⟨.int window, .int max⟩) {a : FixedWindow.Admission}
    (ha : ev.admission agent = some a) :
    FixedWindow.Step window max (counterOf agent s.1) a (counterOf agent s'.1) := by
  simp only [Evaluation.admission] at ha
  split at ha
  · rename_i hx
    cases ha
    obtain ⟨window', max', hcounted⟩ := h.counted hx
    have hsame := hcounted.config
    rw [h.before, hcfg, VelocityConfig.mk.injEq, JsNumber.int.injEq, JsNumber.int.injEq] at hsame
    obtain ⟨k, hk, hstep⟩ := hcounted.step
    obtain ⟨rfl, rfl⟩ : window = window' ∧ max = max' := by omega
    rw [h.after, hk, ← h.before]
    exact hstep
  · cases ha

theorem EngineStep.window_hidden (h : EngineStep P e s ev s') (ha : ev.admission agent = none) :
    counterOf agent s'.1 = counterOf agent s.1 := by
  simp only [Evaluation.admission] at ha
  split at ha
  · cases ha
  · rename_i hno
    rw [h.after, ← h.before, counterOf, counterOf, h.counter_unchanged (by simpa using hno)]

theorem window_of_run {evs : List Evaluation} (hrun : EngineRun P e s evs s') {window max : ℕ}
    (hcfg : s.1.velocity.config = ⟨.int window, .int max⟩) :
    Trace (FixedWindow.Step window max) (counterOf agent s.1) (evs.filterMap (Evaluation.admission agent))
      (counterOf agent s'.1) := by
  refine hrun.project (fun b => counterOf agent b.1)
    (I := fun b => b.1.velocity.config = ⟨.int window, .int max⟩) ?_ hcfg ?_ ?_
  · intro a ev b hI h
    exact h.velocityConfig.trans hI
  · intro a ev b _ h hnone
    exact h.window_hidden hnone
  · intro a ev b d hI h hsome
    exact h.window hI hsome

/-- Either the agent never executes, or its counters are good. -/
theorem config_of_run {evs : List Evaluation} (hrun : EngineRun P e s evs s') :
    (∀ ev ∈ evs, ev.executes agent = false) ∨
      ∃ window max : ℕ, s.1.velocity.config = ⟨.int window, .int max⟩ ∧ 0 < window := by
  by_cases hsome : ∃ ev ∈ evs, ev.executes agent = true
  · right
    have hall := hrun.forall_label (I := fun b => b.1.velocity.config = s.1.velocity.config)
      (Q := fun ev => ev.executes agent = true →
        ∃ window max : ℕ, s.1.velocity.config = ⟨.int window, .int max⟩ ∧ 0 < window)
      (fun _ _ _ hI h => h.velocityConfig.trans hI) ?_ rfl
    · obtain ⟨ev, hev, hx⟩ := hsome
      exact hall ev hev hx
    · intro a ev b hI h hx
      obtain ⟨window, max, hcounted⟩ := h.counted hx
      refine ⟨window, max, ?_, hcounted.positive⟩
      rw [← hI, ← h.before]
      exact hcounted.config
  · left
    intro ev hev
    by_contra hx
    exact hsome ⟨ev, hev, by simpa using hx⟩

theorem mem_admissions {evs : List Evaluation} (hev : ev ∈ evs) (hx : ev.executes agent = true) :
    ⟨ev.seconds, windowOf agent ev.after⟩ ∈ evs.filterMap (Evaluation.admission agent) := by
  rw [List.mem_filterMap]
  exact ⟨ev, hev, if_pos hx⟩

theorem filterMap_admission (evs : List Evaluation) :
    evs.filterMap (Evaluation.admission agent) = (evs.filter (fun ev => ev.executes agent)).map
      (fun ev => ⟨ev.seconds, windowOf agent ev.after⟩) := by
  induction evs with
  | nil => rfl
  | cons ev evs ih =>
    cases hx : ev.executes agent with
    | false =>
      rw [List.filter_cons_of_neg (by simp [hx]), ← ih]
      exact List.filterMap_cons_none (by simp [Evaluation.admission, hx])
    | true =>
      rw [List.filter_cons_of_pos (by exact hx), List.map_cons, ← ih]
      exact List.filterMap_cons_some (by simp [Evaluation.admission, hx])

theorem countP_admissions (p : FixedWindow.Admission → Bool) (evs : List Evaluation) :
    (evs.filterMap (Evaluation.admission agent)).countP p =
      evs.countP (fun ev => ev.executes agent && p ⟨ev.seconds, windowOf agent ev.after⟩) := by
  rw [filterMap_admission, List.countP_map, List.countP_filter]
  apply List.countP_congr
  intro ev _
  rw [Bool.and_comm]
  rfl

/-- What the counter of an agent bounds over a run. A window that the initial
counter is in has room only for what that counter leaves. -/
structure VelocityBound (agent : JsString) (window max : ℕ) (s : State) (evs : List Evaluation) : Prop where
  clock : ∀ ev ∈ evs, ev.executes agent = true → ev.evaluationTime = .int ev.seconds
  notBefore : ∀ ev ∈ evs, ev.executes agent = true →
    ∀ c, ev.before.velocity.counters.own? agent = some (some c) → ev.evaluationTime.lt c.windowStart = false
  inWindow : ∀ ev ∈ evs, ev.executes agent = true →
    windowOf agent ev.after ≤ ev.seconds ∧ ev.seconds < windowOf agent ev.after + window
  unmoved : ∀ ev ∈ evs, ev.executes agent = false →
    ev.after.velocity.counters.own? agent = ev.before.velocity.counters.own? agent
  apart : (evs.filter (fun ev => ev.executes agent)).Pairwise (fun a b =>
    windowOf agent a.after = windowOf agent b.after ∨ windowOf agent a.after + window ≤ windowOf agent b.after)
  apartInitial : ∀ c, counterOf agent s = some c → ∀ ev ∈ evs, ev.executes agent = true →
    c.start = windowOf agent ev.after ∨ c.start + window ≤ windowOf agent ev.after
  perWindow : ∀ start, executedIn agent start evs ≤ max - FixedWindow.recorded (counterOf agent s) start
  perInterval : ∀ lo, executedWithin agent lo window evs ≤ 2 * max

/-- Over any run, whatever the order of its times, an agent that executes at all
is held by the windows of its counter. -/
theorem fixed_window_velocity {evs : List Evaluation} (hrun : EngineRun P e s evs s') (agent : JsString) :
    (∀ ev ∈ evs, ev.executes agent = false) ∨
      ∃ window max : ℕ, s.1.velocity.config = ⟨.int window, .int max⟩ ∧ 0 < window ∧
        VelocityBound agent window max s.1 evs := by
  have hcases : (∀ ev ∈ evs, ev.executes agent = false) ∨ _ := config_of_run hrun
  rcases hcases with hnone | ⟨window, max, hcfg, hpos⟩
  · exact .inl hnone
  · right
    refine ⟨window, max, hcfg, hpos, ?_⟩
    have htrace : Trace _ (counterOf agent s.1) _ _ := window_of_run hrun hcfg
    have hsteps := hrun.forall_label (I := fun _ => True)
      (Q := fun ev => ev.executes agent = true → ∃ window max, CountedExecution agent window max ev)
      (fun _ _ _ _ _ => trivial) (fun _ _ _ _ h hx => h.counted hx) trivial
    constructor
    · intro ev hev hx
      obtain ⟨_, _, hcounted⟩ := hsteps ev hev hx
      exact hcounted.clock
    · intro ev hev hx
      obtain ⟨_, _, hcounted⟩ := hsteps ev hev hx
      exact hcounted.notBefore
    · intro ev hev hx
      exact FixedWindow.mem_window hpos htrace _ (mem_admissions hev hx)
    · exact hrun.forall_label (I := fun _ => True) (fun _ _ _ _ _ => trivial)
        (fun _ _ _ _ h hx => h.counter_unchanged hx) trivial
    · have happart := FixedWindow.windows_apart hpos htrace
      rw [filterMap_admission, List.pairwise_map] at happart
      exact happart
    · intro c hc ev hev hx
      exact FixedWindow.apart_from_initial hpos htrace hc _ (mem_admissions hev hx)
    · intro start
      have hle := FixedWindow.counted_le hpos htrace start
      rw [FixedWindow.countedIn, countP_admissions] at hle
      exact hle
    · intro lo
      have hle := FixedWindow.admittedIn_le hpos htrace lo
      rw [FixedWindow.admittedIn, countP_admissions] at hle
      exact hle

/-- The sample execution is the only one of its window, as the same intent is refused later on. -/
theorem fixed_window_velocity_sample :
    (sampleRun (sampleIntent (js "a"))).map (fun ev => ev.executes (js "a")) = [true, false] ∧
    ∃ window max : ℕ, (sampleState (js "a")).velocity.config = ⟨.int window, .int max⟩ ∧ 0 < window ∧
      VelocityBound (js "a") window max (sampleState (js "a")) (sampleRun (sampleIntent (js "a"))) := by
  obtain ⟨parts, hp⟩ := permitted_sample
  have hexecutes : (sampleCall sampleStart (sampleIntent (js "a")) (.int 1000)).executes (js "a") = true :=
    executes_iff.mpr ⟨sampleCall_allowed hp, rfl, rfl⟩
  refine ⟨?_, ?_⟩
  · rw [sampleRun, List.map_cons, List.map_singleton, hexecutes, sampleCall_late_executes _ rfl]
  rcases fixed_window_velocity (sampleRun_run (sampleIntent (js "a"))) (js "a") with hnone | hbound
  · have hfalse := hnone _ List.mem_cons_self
    rw [hexecutes] at hfalse
    cases hfalse
  · exact hbound

end

end OxDeAI
