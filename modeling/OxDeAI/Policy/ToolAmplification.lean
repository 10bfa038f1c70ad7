import OxDeAI.Policy.Gates

/-! Tool calls: an aggregate limit over a rolling window, tightened per tool. -/

namespace OxDeAI

open Js

def isNonNegativeSafeInteger (n : JsNumber) : Bool := n.isSafeInteger && n.ge (.int 0)

def isValidEvent (event : ToolCall) : Bool :=
  isNonNegativeSafeInteger event.ts && event.tool.all (fun tool => tool ≠ [])

/-- `max_calls_by_tool?.[agent]`. -/
abbrev ToolCaps := Read (Option (Record (Option JsNumber)))

def configuredToolLimits (tl : ToolLimitsState) (agent : JsString) : ToolCaps :=
  match tl.maxCallsByTool with
  | none => .absent
  | some byTool => byTool.get agent

namespace ToolCaps

/-- Own entries. `Object.prototype` lists none. -/
def entries : ToolCaps → List (JsString × Option JsNumber)
  | .own (some caps) => caps.entries
  | _ => []

/-- The cap of one tool, as a comparison reads it: an inherited member is `NaN`,
and the prototype of `Object.prototype` is null, hence zero. -/
def cap (caps : ToolCaps) (tool : JsString) : Option JsNumber :=
  match caps with
  | .own (some caps) => match caps.get tool with
    | .own cap => cap
    | .inherited _ => some .nan
    | .absent => none
  | .inherited .prototype => match inherited? tool with
    | some .prototype => some (.int 0)
    | some .method => some .nan
    | none => none
  | _ => none

end ToolCaps

def isRateLimitedToolCall (intent : Intent) (state : State) : Bool :=
  match intent.kind, intent.tool with
  | .execute, some tool =>
    tool ≠ [] && (((configuredToolLimits state.toolLimits intent.agentId).cap tool).isSome ||
      match state.toolLimits.maxCalls.get intent.agentId with
      | .own max => max.isSome
      | .inherited _ => true
      | .absent => false)
  | _, _ => false

/-- A per-tool cap may tighten, but cannot contradict, the aggregate cap. -/
def contradicts (max : JsNumber) : Option JsNumber → Bool
  | none => true
  | some configuredMax => !isNonNegativeSafeInteger configuredMax || max.lt configuredMax

def countTool (tool : JsString) (events : List ToolCall) : ℕ :=
  events.countP (fun e => e.tool = some tool)

def overrun (current : List ToolCall) (e : JsString × Option JsNumber) : Bool :=
  match e.2 with
  | none => true
  | some configuredMax =>
    !isNonNegativeSafeInteger configuredMax || configuredMax.lt (.int (countTool e.1 current))

def currentCalls (tl : ToolLimitsState) (agent : JsString) : Option (List ToolCall) :=
  match tl.calls.get agent with
  | .own calls => some (calls.getD [])
  | .absent => some []
  | .inherited _ => none

def pruneCalls (tl : ToolLimitsState) (now : JsNumber) (current : List ToolCall) : List ToolCall :=
  current.filter (fun e => (now.sub e.ts).lt tl.windowSeconds)

/-- The persisted calls agree with the limits and the clock. -/
def coherentCalls (max now : JsNumber) (caps : ToolCaps) (current : List ToolCall) : Bool :=
  current.all isValidEvent && !max.lt (.int current.length) &&
  !current.any (fun e => now.lt e.ts) && !caps.entries.any (overrun current)

def toolCapReached (caps : ToolCaps) (tool : JsString) (pruned : List ToolCall) : Bool :=
  (caps.cap tool).any (fun toolMax => (JsNumber.int (countTool tool pruned)).ge toolMax)

/-- The aggregate limit of a state whose tool limits are well configured. -/
def aggregateLimit (tl : ToolLimitsState) (agent : JsString) : Option JsNumber :=
  if !tl.windowSeconds.isSafeInteger || tl.windowSeconds.le (.int 0) then none
  else match (tl.maxCalls.get agent).value?.join with
    | none => none
    | some max =>
      let caps := configuredToolLimits tl agent
      if !isNonNegativeSafeInteger max || caps = .inherited .method ||
          caps.entries.any (fun e => contradicts max e.2) then none
      else some max

def limitToolCall (intent : Intent) (state : State) (now : JsNumber) (toolName : JsString) :
    PolicyResult :=
  let agent := intent.agentId
  let tl := state.toolLimits
  let caps := configuredToolLimits tl agent
  match aggregateLimit tl agent with
  | none => .deny [.stateInvalid]
  | some max =>
    if !isRateLimitedToolCall intent state then .allow none
    else match currentCalls tl agent with
      | none => .deny [.stateInvalid]
      | some current =>
        if !coherentCalls max now caps current then .deny [.stateInvalid]
        else
          let pruned := pruneCalls tl now current
          if (JsNumber.int pruned.length).ge max || toolCapReached caps toolName pruned then
            .deny [.toolCallLimitExceeded]
          else .allow (some { toolLimits := some { tl with
            calls := tl.calls.set agent (some (pruned ++ [⟨now, some toolName⟩])) } })

def toolAmplificationModule : PolicyModule := fun intent state context =>
  match intent.kind, intent.tool with
  | .execute, some toolName =>
    .ok (if toolName = [] then .allow none
      else limitToolCall intent state context.evaluationTime toolName)
  | _, _ => .ok (.allow none)

/-- What a permitted tool call proposes. -/
inductive ToolDelta (intent : Intent) (state : State) : Option StateDelta → Prop
  | unchanged : ToolDelta intent state none
  | recorded (events : List ToolCall)
      (h : (state.toolLimits.calls.get intent.agentId).isInherited = false) :
      ToolDelta intent state (some { toolLimits := some { state.toolLimits with
        calls := state.toolLimits.calls.set intent.agentId (some events) } })

theorem not_inherited_of_currentCalls {tl : ToolLimitsState} {agent : JsString} {l : List ToolCall}
    (h : currentCalls tl agent = some l) : (tl.calls.get agent).isInherited = false := by
  simp only [currentCalls] at h
  split at h
  · rename_i hg
    rw [hg]
    rfl
  · rename_i hg
    rw [hg]
    rfl
  · cases h

theorem toolAmplificationModule_allow {intent : Intent} {state : State}
    {context : PolicyEvaluationContext} {delta : Option StateDelta}
    (h : toolAmplificationModule intent state context = .ok (.allow delta)) :
    ToolDelta intent state delta := by
  simp only [toolAmplificationModule] at h
  split at h
  · split at h
    · cases h
      exact .unchanged
    · simp only [limitToolCall, Except.ok.injEq] at h
      split at h
      · cases h
      · split at h
        · cases h
          exact .unchanged
        · split at h
          · cases h
          · rename_i hcur
            split at h
            · cases h
            · split at h
              · cases h
              · cases h
                exact .recorded _ (not_inherited_of_currentCalls hcur)
  · cases h
    exact .unchanged

/-- The classifier never exempts a named tool of an agent with an aggregate limit. -/
theorem isRateLimitedToolCall_of_limit {intent : Intent} {state : State} {tool : JsString}
    {max : JsNumber} (hk : intent.kind = .execute) (ht : intent.tool = some tool) (hne : tool ≠ [])
    (hmax : aggregateLimit state.toolLimits intent.agentId = some max) :
    isRateLimitedToolCall intent state = true := by
  have hown : (state.toolLimits.maxCalls.own? intent.agentId).join = some max := by
    simp only [aggregateLimit, Record.value?_get] at hmax
    split at hmax
    · cases hmax
    · split at hmax
      · cases hmax
      · rename_i m hm
        split at hmax
        · cases hmax
        · cases hmax
          exact hm
  have hget := Record.get_of_own? _ (Option.join_eq_some_iff.mp hown)
  simp [isRateLimitedToolCall, hk, ht, hne, hget]

end OxDeAI
