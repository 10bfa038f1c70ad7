import OxDeAI.Lib.SlidingWindow
import OxDeAI.Engine.Runs

/-! What runs do to tool calls. Seen through the calls of one agent, a run is a
run of the log of the last window. -/

namespace OxDeAI

open Js Run

/-- An ALLOWed EXECUTE of an agent that names a tool. -/
def Evaluation.callsTool (agent : JsString) (ev : Evaluation) : Bool :=
  ev.executes agent && ev.intent.tool.any (fun tool => tool ≠ [])

def callEntry (call : ToolCall) : SlidingWindow.Entry (Option JsString) :=
  { time := match call.ts with
      | .int t => t
      | _ => 0
    label := call.tool }

/-- The persisted calls of an agent. -/
def callsOf (agent : JsString) (state : State) : List (SlidingWindow.Entry (Option JsString)) :=
  ((currentCalls state.toolLimits agent).getD []).map callEntry

/-- The cap an agent has of its own for a tool. -/
def ownToolCap (tl : ToolLimitsState) (agent tool : JsString) : Option (Option JsNumber) :=
  match tl.maxCallsByTool with
  | none => none
  | some byTool => match byTool.own? agent with
    | some (some caps) => caps.own? tool
    | _ => none

def toolLimit (tl : ToolLimitsState) (agent : JsString) : Option JsString → Option ℕ
  | none => none
  | some tool => match ownToolCap tl agent tool with
    | some (some (.int cap)) => some cap.toNat
    | _ => none

def Evaluation.call (agent : JsString) (ev : Evaluation) : Option (SlidingWindow.Entry (Option JsString)) :=
  if ev.callsTool agent then some ⟨ev.seconds, ev.intent.tool⟩ else none

/-- The limits of a state, without its calls. -/
def SameToolLimits (a b : ToolLimitsState) : Prop :=
  a.windowSeconds = b.windowSeconds ∧ a.maxCalls = b.maxCalls ∧ a.maxCallsByTool = b.maxCallsByTool

/-- The executions of an agent that name a tool, in a half-open interval of
evaluation times. -/
def toolCallsWithin (agent : JsString) (lo : ℤ) (length : ℕ) (evs : List Evaluation) : ℕ :=
  evs.countP (fun ev => ev.callsTool agent && (lo ≤ ev.seconds && ev.seconds < lo + length))

/-- Those of them that name one tool. -/
def namedCallsWithin (agent tool : JsString) (lo : ℤ) (length : ℕ) (evs : List Evaluation) : ℕ :=
  evs.countP (fun ev => ev.callsTool agent &&
    ((lo ≤ ev.seconds && ev.seconds < lo + length) && ev.intent.tool = some tool))

section

variable {tl : ToolLimitsState} {agent tool : JsString} {max : JsNumber} {intent : Intent} {state : State}
  {now : JsNumber} {delta : Option StateDelta} {calls : List ToolCall}

/-- The limits under which a tool call is judged at all. -/
theorem aggregateLimit_int (h : aggregateLimit tl agent = some max) :
    ∃ window limit : ℕ, tl.windowSeconds = .int window ∧ 0 < window ∧ window ≤ JsNumber.maxSafeInteger ∧
      max = .int limit ∧ tl.maxCalls.own? agent = some (some (.int limit)) := by
  simp only [aggregateLimit, Record.value?_get] at h
  split at h
  · cases h
  · rename_i hwindow
    split at h
    · cases h
    · rename_i m hm
      split at h
      · cases h
      · rename_i hvalid
        cases h
        simp only [Bool.or_eq_true, not_or, Bool.not_eq_true, Bool.not_eq_false',
          isNonNegativeSafeInteger, Bool.and_eq_true] at hwindow hvalid
        obtain ⟨w, hw, hwsafe⟩ := JsNumber.exists_int_of_isSafeInteger hwindow.1
        obtain ⟨m, rfl, -⟩ := JsNumber.exists_int_of_isSafeInteger hvalid.1.1.1
        have hpos := hwindow.2
        have hnonneg := hvalid.1.1.2
        rw [hw, JsNumber.le_int, decide_eq_false_iff_not] at hpos
        rw [JsNumber.ge_int, decide_eq_true_eq] at hnonneg
        refine ⟨w.toNat, m.toNat, ?_, by omega, by omega, ?_, ?_⟩
        · rw [hw, Int.toNat_of_nonneg (by omega)]
        · rw [Int.toNat_of_nonneg hnonneg]
        · rw [Int.toNat_of_nonneg hnonneg]
          exact Option.join_eq_some_iff.mp hm

/-- A cap of a well configured state is a number. -/
theorem ownToolCap_int (h : aggregateLimit tl agent = some max) {cap : Option JsNumber}
    (hcap : ownToolCap tl agent tool = some cap) :
    ∃ k : ℕ, cap = some (.int k) ∧ (configuredToolLimits tl agent).cap tool = some (.int k) := by
  simp only [ownToolCap] at hcap
  split at hcap
  · cases hcap
  · rename_i byTool hby
    split at hcap
    · rename_i caps hcaps
      have hconf : configuredToolLimits tl agent = .own (some caps) := by
        simp only [configuredToolLimits, hby]
        exact Record.get_of_own? _ hcaps
      have hgood : contradicts max cap = false := by
        simp only [aggregateLimit] at h
        split at h
        · cases h
        · split at h
          · cases h
          · split at h
            · cases h
            · rename_i hvalid
              cases h
              simp only [Bool.or_eq_true, not_or, Bool.not_eq_true, hconf] at hvalid
              rw [List.any_eq_false] at hvalid
              have hmem := caps.own?_eq_some.mp hcap
              simpa using hvalid.2 (tool, cap) hmem
      cases cap with
      | none => cases hgood
      | some cap =>
        simp only [contradicts, Bool.or_eq_false_iff, Bool.not_eq_false', isNonNegativeSafeInteger,
          Bool.and_eq_true] at hgood
        obtain ⟨⟨hsafe, hge⟩, -⟩ := hgood
        obtain ⟨k, rfl, -⟩ := JsNumber.exists_int_of_isSafeInteger hsafe
        rw [JsNumber.ge_int, decide_eq_true_eq] at hge
        have hk : (k.toNat : ℤ) = k := Int.toNat_of_nonneg hge
        refine ⟨k.toNat, by rw [hk], ?_⟩
        rw [hk, hconf, ToolCaps.cap]
        simp only [Record.get_of_own? _ hcap]
    · cases hcap

/-- A named tool call is allowed only as one more entry of the log. -/
structure RecordedCall (state : State) (agent tool : JsString) (now : JsNumber) (delta : Option StateDelta)
    (max : JsNumber) (calls : List ToolCall) : Prop where
  limit : aggregateLimit state.toolLimits agent = some max
  current : currentCalls state.toolLimits agent = some calls
  coherent : coherentCalls max now (configuredToolLimits state.toolLimits agent) calls = true
  room : (JsNumber.int (pruneCalls state.toolLimits now calls).length).ge max = false
  toolRoom : toolCapReached (configuredToolLimits state.toolLimits agent) tool
    (pruneCalls state.toolLimits now calls) = false
  delta : delta = some { toolLimits := some { state.toolLimits with
    calls := state.toolLimits.calls.set agent
      (some (pruneCalls state.toolLimits now calls ++ [⟨now, some tool⟩])) } }

theorem limitToolCall_allow (hk : intent.kind = .execute) (ht : intent.tool = some tool) (hne : tool ≠ [])
    (h : limitToolCall intent state now tool = .allow delta) :
    ∃ max calls, RecordedCall state intent.agentId tool now delta max calls := by
  simp only [limitToolCall] at h
  split at h
  · cases h
  · rename_i max hmax
    rw [isRateLimitedToolCall_of_limit hk ht hne hmax] at h
    simp only [Bool.not_true, Bool.false_eq_true, if_false] at h
    split at h
    · cases h
    · rename_i calls hcalls
      split at h
      · cases h
      · rename_i hcoherent
        split at h
        · cases h
        · rename_i hroom
          cases h
          simp only [Bool.or_eq_true, not_or, Bool.not_eq_true] at hroom
          exact ⟨max, calls, hmax, hcalls, by simpa using hcoherent, hroom.1, hroom.2, rfl⟩

/-- The entries of a coherent log are whole seconds, none of them in the future. -/
theorem coherentCalls_time {caps : ToolCaps} {t : ℕ} (h : coherentCalls max (.int t) caps calls = true)
    {call : ToolCall} (hcall : call ∈ calls) :
    ∃ ts : ℕ, call.ts = .int ts ∧ ts ≤ t ∧ (callEntry call).time = ts := by
  simp only [coherentCalls, Bool.and_eq_true, Bool.not_eq_true', List.all_eq_true, List.any_eq_false] at h
  obtain ⟨⟨⟨hvalid, -⟩, hpast⟩, -⟩ := h
  have hts := hvalid call hcall
  simp only [isValidEvent, isNonNegativeSafeInteger, Bool.and_eq_true] at hts
  obtain ⟨z, hz, -⟩ := JsNumber.exists_int_of_isSafeInteger hts.1.1
  have hnonneg := hts.1.2
  have hle := hpast call hcall
  rw [hz, JsNumber.ge_int, decide_eq_true_eq] at hnonneg
  rw [hz, JsNumber.lt_int, decide_eq_true_eq, not_lt] at hle
  have hnat : (z.toNat : ℤ) = z := Int.toNat_of_nonneg hnonneg
  refine ⟨z.toNat, ?_, by omega, ?_⟩
  · rw [hz, hnat]
  · simp only [callEntry, hz, hnat]

/-- The calls kept are those of the window. -/
theorem map_pruneCalls {caps : ToolCaps} {window t : ℕ} (ht : t ≤ JsNumber.maxSafeInteger)
    (hwindow : tl.windowSeconds = .int window) (h : coherentCalls max (.int t) caps calls = true) :
    (pruneCalls tl (.int t) calls).map callEntry = SlidingWindow.prune window t (calls.map callEntry) := by
  rw [pruneCalls, SlidingWindow.prune, List.filter_map]
  congr 1
  apply List.filter_congr
  intro call hcall
  obtain ⟨ts, hts, hle, htime⟩ := coherentCalls_time h hcall
  have hsub : (JsNumber.int t).sub (.int ts) = .int (t - ts) := by
    apply JsNumber.sub_int
    simp only [JsNumber.maxSafeInteger] at ht
    omega
  rw [hts, hwindow, hsub, JsNumber.lt_int, Function.comp_apply, htime]

theorem countTool_eq (tool : JsString) (calls : List ToolCall) :
    countTool tool calls = SlidingWindow.labelled (some tool) (calls.map callEntry) := by
  rw [countTool, SlidingWindow.labelled, List.countP_map]
  rfl

/-- A recorded call is a step of the window. -/
theorem RecordedCall.step {t window limit : ℕ} (h : RecordedCall state agent tool (.int t) delta (.int limit) calls)
    (ht : t ≤ JsNumber.maxSafeInteger) (hwindow : state.toolLimits.windowSeconds = .int window) :
    SlidingWindow.Step window limit (toolLimit state.toolLimits agent) (calls.map callEntry) ⟨t, some tool⟩
      ((pruneCalls state.toolLimits (.int t) calls ++ ([⟨.int t, some tool⟩] : List ToolCall)).map callEntry) := by
  have hprune := map_pruneCalls ht hwindow h.coherent
  constructor
  · intro x hx
    obtain ⟨call, hcall, rfl⟩ := List.mem_map.mp hx
    obtain ⟨ts, -, hle, htime⟩ := coherentCalls_time h.coherent hcall
    rw [htime]
    show (ts : ℤ) ≤ t
    omega
  · show (SlidingWindow.prune window t (calls.map callEntry)).length < limit
    have hroom := h.room
    rw [JsNumber.ge_int, decide_eq_false_iff_not] at hroom
    rw [← hprune, List.length_map]
    omega
  · intro k hk
    show SlidingWindow.labelled (some tool) (SlidingWindow.prune window t (calls.map callEntry)) < k
    simp only [toolLimit] at hk
    split at hk
    · rename_i cap hcap
      cases hk
      obtain ⟨k, hk, hconf⟩ := ownToolCap_int h.limit hcap
      cases hk
      have hroom := h.toolRoom
      rw [toolCapReached, hconf, Option.any_some, JsNumber.ge_int, decide_eq_false_iff_not,
        countTool_eq, hprune] at hroom
      omega
    · cases hk
  · rw [List.map_append, hprune]
    rfl

end

section

variable {P : Platform} {e : PolicyEngine} {s s' : State × AuditLog} {ev : Evaluation} {agent : JsString}

theorem callsTool_iff : ev.callsTool agent = true ↔
    ev.executes agent = true ∧ ∃ tool, ev.intent.tool = some tool ∧ tool ≠ [] := by
  rw [Evaluation.callsTool, Bool.and_eq_true, Option.any_eq_true]
  simp only [decide_eq_true_eq]

theorem SameToolLimits.trans {a b c : ToolLimitsState} (h : SameToolLimits a b) (h' : SameToolLimits b c) :
    SameToolLimits a c := ⟨h.1.trans h'.1, h.2.1.trans h'.2.1, h.2.2.trans h'.2.2⟩

theorem aggregateLimit_of_same {a b : ToolLimitsState} (h : SameToolLimits a b) (agent : JsString) :
    aggregateLimit a agent = aggregateLimit b agent := by
  obtain ⟨windowSeconds, maxCalls, maxCallsByTool, calls⟩ := a
  obtain ⟨rfl, rfl, rfl⟩ := h
  rfl

theorem toolLimit_of_same {a b : ToolLimitsState} (h : SameToolLimits a b) : toolLimit a = toolLimit b := by
  funext agent label
  cases label with
  | none => rfl
  | some tool => simp only [toolLimit, ownToolCap, h.2.2]

/-- The limits stay what they are. -/
theorem EngineStep.toolLimits (h : EngineStep P e s ev s') :
    SameToolLimits s'.1.toolLimits s.1.toolLimits := by
  rw [h.after, ← h.before]
  cases hcur : ev.isAllowed with
  | false =>
    rw [ev.after_of_not_allowed hcur]
    exact ⟨rfl, rfl, rfl⟩
  | true =>
    obtain ⟨c, parts, ha⟩ := h.allowed hcur
    rw [ha.after, nextStateFor_toolLimits]
    cases c.events <;> exact ⟨rfl, rfl, rfl⟩

theorem currentCalls_of_own {tl tl' : ToolLimitsState} (h : tl.calls.own? agent = tl'.calls.own? agent) :
    currentCalls tl agent = currentCalls tl' agent := by
  simp only [currentCalls, Record.get_congr h]

/-- The calls of an agent move only when an execution of that agent names a tool. -/
theorem EngineStep.calls_unchanged (h : EngineStep P e s ev s') (hno : ev.callsTool agent = false) :
    callsOf agent ev.after = callsOf agent ev.before := by
  cases hcur : ev.isAllowed with
  | false => rw [ev.after_of_not_allowed hcur]
  | true =>
    obtain ⟨c, parts, ha⟩ := h.allowed hcur
    rw [callsOf, callsOf, ha.after, nextStateFor_toolLimits]
    cases hevents : c.events with
    | none => rfl
    | some events =>
      have hk : ev.intent.kind = .execute := by
        cases hk : ev.intent.kind with
        | execute => rfl
        | release =>
          rw [(ha.permitted.admitted.release hk).1] at hevents
          cases hevents
      have htool := (ha.permitted.admitted.execute hk).tool
      rw [hevents] at htool
      have hne : agent ≠ ev.intent.agentId := by
        intro hagent
        have hexec : ev.executes agent = true := executes_iff.mpr ⟨hcur, hk, hagent.symm⟩
        -- an intent without a tool proposes nothing
        cases ht : ev.intent.tool with
        | none =>
          simp only [toolAmplificationModule, hk, ht] at htool
          cases htool
        | some tool =>
          by_cases hempty : tool = []
          · simp only [toolAmplificationModule, hk, ht, hempty, if_true] at htool
            cases htool
          · rw [callsTool_iff.mpr ⟨hexec, tool, ht, hempty⟩] at hno
            cases hno
      have hown : (ev.before.toolLimits.calls.set ev.intent.agentId (some events)).own? agent =
          ev.before.toolLimits.calls.own? agent := Record.own?_set_of_ne _ hne _
      rw [@currentCalls_of_own _ _ ev.before.toolLimits hown]

/-- What an allowed execution that names a tool does to the log of its agent. -/
structure LoggedExecution (agent : JsString) (window limit : ℕ) (ev : Evaluation) : Prop where
  clock : ev.evaluationTime = .int ev.seconds
  aggregate : aggregateLimit ev.before.toolLimits agent = some (.int limit)
  windowSeconds : ev.before.toolLimits.windowSeconds = .int window
  positive : 0 < window
  maxCalls : ev.before.toolLimits.maxCalls.own? agent = some (some (.int limit))
  step : SlidingWindow.Step window limit (toolLimit ev.before.toolLimits agent) (callsOf agent ev.before)
    ⟨ev.seconds, ev.intent.tool⟩ (callsOf agent ev.after)

theorem EngineStep.logged (h : EngineStep P e s ev s') (hx : ev.callsTool agent = true) :
    ∃ window limit, LoggedExecution agent window limit ev := by
  obtain ⟨hexec, tool, ht, hne⟩ := callsTool_iff.mp hx
  obtain ⟨hcur, hk, rfl⟩ := executes_iff.mp hexec
  obtain ⟨c, parts, ha⟩ := h.allowed hcur
  obtain ⟨t, htime, hsafe⟩ := ha.exists_time
  have hseconds : ev.seconds = t := by simp [Evaluation.seconds, htime]
  have htool := (ha.permitted.admitted.execute hk).tool
  simp only [toolAmplificationModule, hk, ht, if_neg hne, Except.ok.injEq] at htool
  obtain ⟨max, calls, hrec⟩ := limitToolCall_allow hk ht hne htool
  obtain ⟨window, limit, hwindow, hpos, -, rfl, hmax⟩ := aggregateLimit_int hrec.limit
  have hevents : c.events = some (pruneCalls ev.before.toolLimits ev.evaluationTime calls ++
      [⟨ev.evaluationTime, some tool⟩]) :=
    toolDelta_inj (show toolDelta ev.intent ev.before _ = toolDelta ev.intent ev.before _ from hrec.delta)
  have hbefore : callsOf ev.intent.agentId ev.before = calls.map callEntry := by
    rw [callsOf, hrec.current]
    rfl
  have hafter : callsOf ev.intent.agentId ev.after = (pruneCalls ev.before.toolLimits ev.evaluationTime calls ++
      ([⟨ev.evaluationTime, some tool⟩] : List ToolCall)).map callEntry := by
    rw [callsOf, ha.after, nextStateFor_toolLimits, hevents]
    simp only [currentCalls, Record.get_of_own? _ (Record.own?_set_self _ _ _)]
    rfl
  refine ⟨window, limit, by rw [hseconds, htime], hrec.limit, hwindow, hpos, hmax, ?_⟩
  rw [hbefore, hafter, hseconds, ht, htime]
  rw [show (moduleContext e ev.evaluationTime).evaluationTime = .int t from htime] at hrec
  exact hrec.step hsafe hwindow

theorem EngineStep.log_hidden (h : EngineStep P e s ev s') (ha : ev.call agent = none) :
    callsOf agent s'.1 = callsOf agent s.1 := by
  simp only [Evaluation.call] at ha
  split at ha
  · cases ha
  · rename_i hno
    rw [h.after, ← h.before]
    exact h.calls_unchanged (by simpa using hno)

/-- The log's view of one step. -/
theorem EngineStep.log (h : EngineStep P e s ev s') {tl : ToolLimitsState} {window limit : ℕ}
    (hsame : SameToolLimits s.1.toolLimits tl) (hwindow : tl.windowSeconds = .int window)
    (hmax : tl.maxCalls.own? agent = some (some (.int limit)))
    {entry : SlidingWindow.Entry (Option JsString)} (ha : ev.call agent = some entry) :
    SlidingWindow.Step window limit (toolLimit tl agent) (callsOf agent s.1) entry (callsOf agent s'.1) := by
  simp only [Evaluation.call] at ha
  split at ha
  · rename_i hx
    cases ha
    obtain ⟨window', limit', hlogged⟩ := h.logged hx
    have hw := hlogged.windowSeconds
    have hm := hlogged.maxCalls
    rw [h.before, hsame.1, hwindow, JsNumber.int.injEq] at hw
    rw [h.before, hsame.2.1, hmax, Option.some.injEq, Option.some.injEq, JsNumber.int.injEq] at hm
    obtain ⟨rfl, rfl⟩ : window = window' ∧ limit = limit' := by omega
    have hstep := hlogged.step
    rw [h.before, toolLimit_of_same hsame] at hstep
    rw [h.after]
    exact hstep
  · cases ha

theorem countP_calls (p : SlidingWindow.Entry (Option JsString) → Bool) (evs : List Evaluation) :
    (evs.filterMap (Evaluation.call agent)).countP p =
      evs.countP (fun ev => ev.callsTool agent && p ⟨ev.seconds, ev.intent.tool⟩) := by
  induction evs with
  | nil => rfl
  | cons ev evs ih =>
    cases hx : ev.callsTool agent with
    | false =>
      rw [List.filterMap_cons_none (by simp [Evaluation.call, hx]), ih]
      simp [hx]
    | true =>
      have hsome : ev.call agent = some ⟨ev.seconds, ev.intent.tool⟩ := by simp [Evaluation.call, hx]
      rw [List.filterMap_cons_some hsome, List.countP_cons, List.countP_cons, ih]
      simp [hx]

/-- Each allowed call in turn is admitted by the log of its agent. -/
theorem log_of_run {evs : List Evaluation} (hrun : EngineRun P e s evs s') {window limit : ℕ}
    (hwindow : s.1.toolLimits.windowSeconds = .int window)
    (hmax : s.1.toolLimits.maxCalls.own? agent = some (some (.int limit))) :
    Trace (SlidingWindow.Step window limit (toolLimit s.1.toolLimits agent)) (callsOf agent s.1)
      (evs.filterMap (Evaluation.call agent)) (callsOf agent s'.1) := by
  refine hrun.project (fun b => callsOf agent b.1)
    (I := fun b => SameToolLimits b.1.toolLimits s.1.toolLimits) ?_ ⟨rfl, rfl, rfl⟩ ?_ ?_
  · intro a ev b hI h
    exact h.toolLimits.trans hI
  · intro a ev b _ h hnone
    exact h.log_hidden hnone
  · intro a ev b d hI h hsome
    exact h.log hI hwindow hmax hsome

/-- What the tool limits of an agent bound over a run. -/
structure ToolCapBound (agent : JsString) (window max : ℕ) (s : State) (evs : List Evaluation) : Prop where
  clock : ∀ ev ∈ evs, ev.callsTool agent = true → ev.evaluationTime = .int ev.seconds
  aggregate : ∀ lo, toolCallsWithin agent lo window evs ≤ max
  perTool : ∀ tool cap, ownToolCap s.toolLimits agent tool = some cap →
    ∃ k : ℕ, cap = some (.int k) ∧ ∀ lo, namedCallsWithin agent tool lo window evs ≤ k

/-- Over any run, whatever the order of its times, an agent that calls a tool at
all is held to its limits in every interval of a window's length. -/
theorem sliding_window_tool_cap {evs : List Evaluation} (hrun : EngineRun P e s evs s') (agent : JsString) :
    (∀ ev ∈ evs, ev.callsTool agent = false) ∨
      ∃ window max : ℕ, s.1.toolLimits.windowSeconds = .int window ∧ 0 < window ∧
        s.1.toolLimits.maxCalls.own? agent = some (some (.int max)) ∧
        ToolCapBound agent window max s.1 evs := by
  have hlogged := hrun.forall_label (I := fun b => SameToolLimits b.1.toolLimits s.1.toolLimits)
    (Q := fun ev => ev.callsTool agent = true → SameToolLimits ev.before.toolLimits s.1.toolLimits ∧
      ∃ window limit, LoggedExecution agent window limit ev) ?_ ?_ ⟨rfl, rfl, rfl⟩
  · by_cases hsome : ∃ ev ∈ evs, ev.callsTool agent = true
    · right
      obtain ⟨ev, hev, hx⟩ := hsome
      obtain ⟨hsame, window, max, hexec⟩ := hlogged ev hev hx
      have hwindow : s.1.toolLimits.windowSeconds = .int window := hsame.1 ▸ hexec.windowSeconds
      have hmax : s.1.toolLimits.maxCalls.own? agent = some (some (.int max)) := hsame.2.1 ▸ hexec.maxCalls
      have htrace := log_of_run hrun hwindow hmax
      refine ⟨window, max, hwindow, hexec.positive, hmax, ?_, ?_, ?_⟩
      · intro ev hev hx
        obtain ⟨-, _, _, hexec⟩ := hlogged ev hev hx
        exact hexec.clock
      · intro lo
        have hle := SlidingWindow.within_le htrace lo
        rw [countP_calls] at hle
        exact hle
      · intro tool cap hcap
        have hlimit := hexec.aggregate
        rw [aggregateLimit_of_same hsame] at hlimit
        obtain ⟨k, rfl, -⟩ := ownToolCap_int hlimit hcap
        refine ⟨k, rfl, fun lo => ?_⟩
        have hk : toolLimit s.1.toolLimits agent (some tool) = some k := by
          simp only [toolLimit, hcap, Int.toNat_natCast]
        have hle := SlidingWindow.within_label_le htrace hk lo
        rw [countP_calls] at hle
        exact hle
    · left
      intro ev hev
      by_contra hx
      exact hsome ⟨ev, hev, by simpa using hx⟩
  · intro a ev b hI h
    exact h.toolLimits.trans hI
  · intro a ev b hI h hx
    rw [h.before]
    exact ⟨hI, h.logged hx⟩

/-- The sample execution, with a tool. -/
def sampleToolIntent : Intent := { sampleIntent (js "a") with tool := some (js "w") }

def sampleToolCharge : Charge := { sampleCharge with events := some [⟨.int 1000, some (js "w")⟩] }

theorem permitted_sampleTool : ∃ parts, Permitted samplePlatform sampleEngine sampleToolIntent
    (sampleState (js "a")) (.int 1000) sampleToolCharge parts := by
  have hh : ∃ hash, intentHash samplePlatform sampleToolIntent = .ok hash :=
    ⟨_, sha256HexFromJson_ok.mpr ⟨(isCanonical_iff _).mp (by decide), rfl⟩⟩
  obtain ⟨hash, hh⟩ := hh
  have hadm := admitted_sample.execute rfl
  have hadmitted : Admitted sampleToolIntent (sampleState (js "a"))
      (moduleContext sampleEngine (.int 1000)) sampleToolCharge := {
    killSwitch := rfl
    replay := ⟨⟨[], rfl, rfl⟩, by decide, by simp [sampleToolCharge, sampleCharge], by decide⟩
    leases := ⟨by decide, rfl, .inl ⟨rfl, rfl, rfl⟩⟩
    execute := fun _ => {
      allowlist := rfl
      depth := rfl
      capacity := hadm.capacity
      tool := rfl
      nonneg := hadm.nonneg
      cap := hadm.cap
      limit := hadm.limit
      velocityConfig := hadm.velocityConfig
      velocity := hadm.velocity }
    release := fun h => by cases h }
  exact exists_permitted samplePlatform_laws.nfc (canSign_sampleEngine _) (precheck_ok.mp rfl) hh rfl
    hadmitted (isHashable_iff.mp (by decide)) (isHashable_iff.mp (by decide))

/-- The sample execution names a tool, and its agent is held to five calls; the same intent is
refused later on. -/
theorem sliding_window_tool_cap_sample :
    (sampleRun sampleToolIntent).map (Evaluation.callsTool (js "a")) = [true, false] ∧
    ∃ window max : ℕ, (sampleState (js "a")).toolLimits.windowSeconds = .int window ∧ 0 < window ∧
      (sampleState (js "a")).toolLimits.maxCalls.own? (js "a") = some (some (.int max)) ∧
      ToolCapBound (js "a") window max (sampleState (js "a")) (sampleRun sampleToolIntent) := by
  obtain ⟨parts, hp⟩ := permitted_sampleTool
  have hcalls : (sampleCall sampleStart sampleToolIntent (.int 1000)).callsTool (js "a") = true := by
    apply callsTool_iff.mpr
    refine ⟨executes_iff.mpr ⟨sampleCall_allowed hp, rfl, rfl⟩, js "w", rfl, ?_⟩
    decide
  have hnot : (sampleCall (sampleLeft sampleStart sampleToolIntent (.int 1000)) sampleToolIntent (.int 2000)).callsTool
      (js "a") = false := by
    rw [Bool.eq_false_iff]
    intro h
    have hexecutes := (callsTool_iff.mp h).1
    rw [sampleCall_late_executes _ rfl] at hexecutes
    cases hexecutes
  refine ⟨?_, ?_⟩
  · rw [sampleRun, List.map_cons, List.map_singleton, hcalls, hnot]
  rcases sliding_window_tool_cap (sampleRun_run sampleToolIntent) (js "a") with hnone | hbound
  · have hfalse := hnone _ List.mem_cons_self
    rw [hcalls] at hfalse
    cases hfalse
  · exact hbound

end

end OxDeAI
