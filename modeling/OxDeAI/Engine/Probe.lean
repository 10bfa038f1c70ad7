import OxDeAI.Engine.IntentCongruence

/-! States that tell intents apart: with the kill switch on and all reasons
collected, the outcome lists what every module holds against the intent. -/

namespace OxDeAI

open Js

def reasonsOf : PolicyResult → List ReasonCode
  | .allow _ => []
  | .deny reasons => reasons

theorem collectResults_collectAll {working : State} {reasons : List ReasonCode} (results : List PolicyResult)
    (h : reasons ≠ []) : collectResults .collectAll working reasons results =
      .deny (reasons ++ results.flatMap reasonsOf) := by
  induction results generalizing working reasons with
  | nil => simp [collectResults, h]
  | cons r results ih =>
    cases r with
    | allow delta => cases delta <;> exact ih h
    | deny rs =>
      have hne : reasons ++ rs ≠ [] := by simp [h]
      rw [collectResults, ih hne, List.flatMap_cons, reasonsOf, List.append_assoc]

/-- An engine that accepts every timestamp. -/
def probeEngine : PolicyEngine where
  opts := {
    policyVersion := js "v1"
    engineSecret := js "0123456789abcdef0123456789abcdef"
    maxClockSkewSeconds := .int JsNumber.maxSafeInteger
    maxIntentAgeSeconds := .int JsNumber.maxSafeInteger }
  authorizationTtl := .int 60
  secretLength := by decide
  clockSkew := by decide
  intentAge := by decide
  ttl := isValidTtl_sixty

/-- An agent behind a kill switch, with given allowlists, leases and tool caps. -/
def probeState (agent : JsString) (allowlists : AllowLists) (leases : Record Lease)
    (caps : Record (Option JsNumber)) : State where
  policyVersion := js "v1"
  periodId := js "p1"
  killSwitch := ⟨true, Record.empty⟩
  allowlists := allowlists
  budget := ⟨Record.empty.set agent 0, Record.empty.set agent 0⟩
  maxAmountPerAction := Record.empty.set agent (some 0)
  velocity := ⟨⟨.int 60, .int 10⟩, Record.empty⟩
  replay := ⟨.int 60, .int 10, Record.empty.set agent []⟩
  concurrency := ⟨Record.empty.set agent (.int 5), Record.empty.set agent (.int 5),
    Record.empty.set agent leases⟩
  recursion := ⟨Record.empty.set agent (.int 3)⟩
  toolLimits := ⟨.int 60, Record.empty.set agent (some (.int 5)),
    some (Record.empty.set agent (some caps)), Record.empty.set agent (some [])⟩

def noLists : AllowLists := ⟨none, none, none⟩

theorem get_set_self {α : Type*} (r : Record α) (k : JsString) (v : α) : (r.set k v).get k = .own v :=
  Record.get_of_own? _ (r.own?_set_self k v)

section

variable {P : Platform} {intent a b : Intent} {agent : JsString} {al : AllowLists} {leases : Record Lease}
  {caps : Record (Option JsNumber)} {log : AuditLog}

theorem prechecked_probe (hv : validateIntent intent = .ok ()) :
    Prechecked probeEngine intent (probeState intent.agentId al leases caps) (.int 0) := by
  refine ⟨hv, rfl, ⟨⟨0, ?_⟩, ?_, ⟨0, ?_⟩, ⟨.int 5, ?_, rfl⟩, ⟨.int 3, ?_, rfl⟩, ⟨.int 5, ?_, rfl⟩⟩, rfl,
    ⟨by decide, by decide⟩⟩
  · exact Record.own?_set_self _ _ _
  · simp only [probeState, get_set_self, Read.isInherited]
  · exact Record.own?_set_self _ _ _
  · exact Record.own?_set_self _ _ _
  · exact Record.own?_set_self _ _ _
  · exact Record.own?_set_self _ _ _

theorem fresh_probe {n : JsNumber} (h : isProtocolSeconds n = true) :
    verifyTrustedTime n (.int 0) probeEngine.opts.maxClockSkewSeconds
      probeEngine.opts.maxIntentAgeSeconds = .ok (.allow none) := by
  obtain ⟨ts, rfl, hts⟩ := isProtocolSeconds_iff.mp h
  exact (verifyTrustedTime_allow (t := 0) (by decide) le_rfl le_rfl).mpr
    ⟨rfl, ts, rfl, hts, by omega, by omega⟩

/-- Every module answers on a probe. -/
theorem exists_probe_result {m : PolicyModule} (hm : m ∈ modulesFor intent)
    (context : PolicyEvaluationContext) :
    ∃ r, m intent (probeState intent.agentId al leases caps) context = .ok r := by
  have hreplay : ∃ r, replayModule intent (probeState intent.agentId al leases caps) context = .ok r := by
    simp only [replayModule, nonceList, probeState, get_set_self]
    split <;> exact ⟨_, rfl⟩
  have hkill : ∃ r, killSwitchModule intent (probeState intent.agentId al leases caps) context = .ok r :=
    ⟨_, rfl⟩
  have hconc : ∃ r, concurrencyModule intent (probeState intent.agentId al leases caps) context = .ok r := by
    simp only [concurrencyModule]
    repeat' split
    all_goals exact ⟨_, rfl⟩
  simp only [modulesFor] at hm
  split at hm
  · simp only [releaseModules, List.mem_cons, List.not_mem_nil, or_false] at hm
    rcases hm with rfl | rfl | rfl
    · exact hkill
    · exact hreplay
    · exact hconc
  · simp only [executeModules, List.mem_cons, List.not_mem_nil, or_false] at hm
    rcases hm with rfl | rfl | rfl | rfl | rfl | rfl | rfl | rfl
    · exact hkill
    · exact ⟨_, rfl⟩
    · exact hreplay
    · simp only [recursionDepthModule]
      repeat' split
      all_goals exact ⟨_, rfl⟩
    · exact hconc
    · simp only [toolAmplificationModule]
      split <;> exact ⟨_, rfl⟩
    · simp only [budgetModule]
      repeat' split
      all_goals exact ⟨_, rfl⟩
    · simp only [velocityModule]
      repeat' split
      all_goals exact ⟨_, rfl⟩

/-- What a module holds against an intent. -/
def objections (intent : Intent) (state : State) (m : PolicyModule) : List ReasonCode :=
  match m intent state (moduleContext probeEngine (.int 0)) with
  | .ok r => reasonsOf r
  | .error _ => []

/-- The outcome of a probe. -/
theorem evaluatePure_probe (hn : NfcLaws P.nfc) (hv : validateIntent intent = .ok ())
    {hash : JsString} (hh : intentHash P intent = .ok hash)
    (hts : isProtocolSeconds intent.timestamp = true) :
    (evaluatePure P probeEngine intent (probeState intent.agentId al leases caps) (.int 0) .collectAll
      log).1 = .ok (.deny ((modulesFor intent).flatMap
        (objections intent (probeState intent.agentId al leases caps)))) := by
  have hresults : ∀ ms : List PolicyModule, (∀ m ∈ ms, m ∈ modulesFor intent) →
      ∃ rs : List PolicyResult, ms.mapM (fun m => m intent (probeState intent.agentId al leases caps)
        (moduleContext probeEngine (.int 0))) = .ok rs ∧
        rs.flatMap reasonsOf = ms.flatMap
          (objections intent (probeState intent.agentId al leases caps)) := by
    intro ms hms
    induction ms with
    | nil => exact ⟨[], rfl, rfl⟩
    | cons m ms ih =>
      obtain ⟨rs, hrs, hflat⟩ := ih (fun m' hm' => hms m' (by simp [hm']))
      obtain ⟨r, hr⟩ := exists_probe_result (hms m (by simp)) (moduleContext probeEngine (.int 0))
      refine ⟨r :: rs, mapM_cons_ok.mpr ⟨r, rs, hr, hrs, rfl⟩, ?_⟩
      rw [List.flatMap_cons, List.flatMap_cons, hflat, objections, hr]
  have hdecision : runDecisionModules intent (probeState intent.agentId al leases caps)
      (moduleContext probeEngine (.int 0)) .collectAll (modulesFor intent) =
      .ok (.deny ((modulesFor intent).flatMap
        (objections intent (probeState intent.agentId al leases caps)))) := by
    obtain ⟨ms, hms⟩ : ∃ ms, modulesFor intent = killSwitchModule :: ms := by
      simp only [modulesFor]
      split
      · exact ⟨_, rfl⟩
      · exact ⟨_, rfl⟩
    obtain ⟨rs, hrs, hflat⟩ := hresults ms (fun m hm => by simp [hms, hm])
    have hkill : killSwitchModule intent (probeState intent.agentId al leases caps)
        (moduleContext probeEngine (.int 0)) = .ok (.deny [.killSwitch]) := rfl
    have hall : (killSwitchModule :: ms).mapM (fun m : PolicyModule =>
        m intent (probeState intent.agentId al leases caps) (moduleContext probeEngine (.int 0))) =
          .ok (.deny [.killSwitch] :: rs) := mapM_cons_ok.mpr ⟨_, rs, hkill, hrs, rfl⟩
    have hcollect : collectResults .collectAll (probeState intent.agentId al leases caps) []
        (.deny [.killSwitch] :: rs) = .deny ([.killSwitch] ++ rs.flatMap reasonsOf) :=
      collectResults_collectAll rs (by simp)
    have hfirst : objections intent (probeState intent.agentId al leases caps) killSwitchModule =
        [.killSwitch] := by simp only [objections, hkill, reasonsOf]
    rw [runDecisionModules, hms, hall, Except.map, hcollect, List.flatMap_cons, hfirst, hflat]
  rw [evaluatePure_fst hn, precheck_ok.mpr (prechecked_probe hv)]
  simp only [outcome, hh, Except.bind, fresh_probe hts, outcomeAfterGate, hdecision]
  rfl

/-- The part of an intent that every module but those of the allowlists, the
tools and the leases is limited to. -/
def Intent.core (intent : Intent) : Intent :=
  { intent.read with asset := none, target := [], tool := none, authorizationId := none }

theorem core_eq {nfc : JsString → JsString} (h : SameBinding nfc a b) (ha : a.agentId = b.agentId) :
    a.core = b.core := by
  have hk := h.kind
  rw [Intent.core, Intent.core, Intent.read, Intent.read, ← hk]
  cases a.kind with
  | execute => simp only [ha, h.actionType, h.depth, h.amount, h.timestamp, h.nonce, h.type]
  | release => simp only [ha, h.actionType, h.depth, h.amount, h.timestamp, h.nonce, h.type]

theorem objections_core (intent : Intent) (state : State) {m : PolicyModule}
    (hm : m ∈ [killSwitchModule, replayModule, recursionDepthModule, budgetModule, velocityModule]) :
    objections intent state m = objections intent.core state m := by
  obtain ⟨_, _, _, _, _, _, _, _, _, _, _, type, _, _, _⟩ := intent
  simp only [List.mem_cons, List.not_mem_nil, or_false] at hm
  rcases hm with rfl | rfl | rfl | rfl | rfl
  all_goals
    cases type with
    | none => rfl
    | some type => cases type <;> rfl

theorem objections_leases_core (intent : Intent) (state : State) (hk : intent.kind = .execute) :
    objections intent state concurrencyModule = objections intent.core state concurrencyModule := by
  obtain ⟨_, _, _, _, _, _, _, _, _, _, _, type, _, _, _⟩ := intent
  cases type with
  | none => rfl
  | some type =>
    cases type with
    | execute => rfl
    | release => cases hk

theorem objections_tool_core (intent : Intent) (state : State) :
    objections intent state toolAmplificationModule =
      objections { intent.core with tool := intent.tool } state toolAmplificationModule := by
  obtain ⟨_, _, _, _, _, _, _, _, _, _, _, type, _, _, _⟩ := intent
  cases type with
  | none => rfl
  | some type => cases type <;> rfl

theorem objections_noLists (context : JsString) :
    objections intent (probeState context noLists leases caps) allowlistModule = [] := by
  cases ha : intent.asset <;> simp [objections, allowlistModule, probeState, noLists, refuses, reasonsOf, ha]

/-- A probe that caps one tool at zero calls. -/
theorem objections_tool (hk : intent.kind = .execute) {x y : JsString} (hx : x ≠ [])
    (htool : intent.tool = some y) :
    objections intent (probeState intent.agentId al leases (Record.empty.set x (some (.int 0))))
      toolAmplificationModule = if y = x then [.toolCallLimitExceeded] else [] := by
  have hcaps : configuredToolLimits (probeState intent.agentId al leases
      (Record.empty.set x (some (.int 0)))).toolLimits intent.agentId =
        .own (some (Record.empty.set x (some (.int 0)))) := by
    simp only [configuredToolLimits, probeState, get_set_self]
  have hlimit : aggregateLimit (probeState intent.agentId al leases
      (Record.empty.set x (some (.int 0)))).toolLimits intent.agentId = some (.int 5) := by
    have hmax : (probeState intent.agentId al leases
        (Record.empty.set x (some (.int 0)))).toolLimits.maxCalls.get intent.agentId =
          .own (some (.int 5)) := get_set_self _ _ _
    simp only [aggregateLimit, hcaps, hmax]
    rfl
  have hcurrent : currentCalls (probeState intent.agentId al leases
      (Record.empty.set x (some (.int 0)))).toolLimits intent.agentId = some [] := by
    simp only [currentCalls, probeState, get_set_self, Option.getD_some]
  have hempty : y = [] → ¬ y = x := fun h h' => hx (h'.symm.trans h)
  simp only [objections, toolAmplificationModule, hk, htool]
  by_cases hy : y = []
  · rw [if_pos hy, if_neg (hempty hy)]
    rfl
  · have hlimited := isRateLimitedToolCall_of_limit hk htool hy hlimit
    have hcap : (ToolCaps.cap (.own (some (Record.empty.set x (some (.int 0))))) y).any
        (fun toolMax => (JsNumber.int (countTool y [])).ge toolMax) = decide (y = x) := by
      simp only [ToolCaps.cap]
      by_cases hyx : y = x
      · subst hyx
        rw [get_set_self]
        simp [countTool]
      · rw [decide_eq_false hyx, Record.get, Record.own?_set, if_neg hyx, Record.own?_empty]
        cases inherited? y <;> rfl
    rw [if_neg hy]
    simp only [limitToolCall, hlimit, hlimited, hcurrent, hcaps]
    have hcoherent : coherentCalls (.int 5) (moduleContext probeEngine (.int 0)).evaluationTime
        (.own (some (Record.empty.set x (some (.int 0))))) [] = true := rfl
    have hroom : (JsNumber.int ((pruneCalls (probeState intent.agentId al leases
        (Record.empty.set x (some (.int 0)))).toolLimits
        (moduleContext probeEngine (.int 0)).evaluationTime []).length : ℕ)).ge (.int 5) = false := rfl
    have hprune : pruneCalls (probeState intent.agentId al leases
        (Record.empty.set x (some (.int 0)))).toolLimits
        (moduleContext probeEngine (.int 0)).evaluationTime [] = [] := rfl
    rw [hprune] at hroom ⊢
    rw [hcoherent, hroom, toolCapReached, hcap]
    by_cases hyx : y = x
    · simp [hyx, reasonsOf]
    · simp [hyx, reasonsOf]

theorem objections_asset {x y : JsString} (hasset : intent.asset = some y) (context : JsString) :
    objections intent (probeState context ⟨none, some [x], none⟩ leases caps) allowlistModule =
      if y ≠ [] ∧ y ≠ x then [.allowlistAsset] else [] := by
  by_cases hy : y = []
  · simp [objections, allowlistModule, probeState, refuses, reasonsOf, hasset, hy]
  · by_cases hyx : y = x
    · simp [objections, allowlistModule, probeState, refuses, reasonsOf, hasset, hyx]
    · simp [objections, allowlistModule, probeState, refuses, reasonsOf, hasset, hy, hyx]

theorem objections_target {x : JsString} (context : JsString) :
    objections intent (probeState context ⟨none, none, some [x]⟩ leases caps) allowlistModule =
      if intent.target ≠ x then [.allowlistTarget] else [] := by
  by_cases hx : intent.target = x
  · cases ha : intent.asset <;>
      simp [objections, allowlistModule, probeState, refuses, reasonsOf, ha, hx]
  · cases ha : intent.asset <;>
      simp [objections, allowlistModule, probeState, refuses, reasonsOf, ha, hx]

/-- A probe whose leases are all live. -/
theorem objections_leases (hk : intent.kind = .release) {id : JsString}
    (hid : intent.authorizationId = some id) (hne : id ≠ []) (hwf : wellFormedLeases leases = true)
    (hsize : leases.size ≤ 5) :
    objections intent (probeState intent.agentId al leases caps) concurrencyModule =
      if LeaseMap.truthy ⟨liveLeases (.int 0) leases, protoLease (.int 0) leases⟩ id then []
      else [.concurrencyReleaseInvalid] := by
  have hactive : activeCount (probeState intent.agentId al leases caps) intent.agentId = .int 5 := by
    simp only [activeCount, probeState, get_set_self]
  have hresident : residentLeases (probeState intent.agentId al leases caps) intent.agentId = leases := by
    simp only [residentLeases, probeState, get_set_self]
  have hmax : (probeState intent.agentId al leases caps).concurrency.maxConcurrent.get intent.agentId =
      .own (.int 5) := get_set_self _ _ _
  have hlt : (JsNumber.int 5).lt (.int leases.size) = false := by
    rw [JsNumber.lt_int, decide_eq_false_iff_not]
    omega
  have htime : (moduleContext probeEngine (.int 0)).evaluationTime = .int 0 := rfl
  simp only [objections, concurrencyModule, hmax, computeConcurrencyLeases, hactive, hresident, hlt,
    scanLeases_eq, htime, hwf, if_true, Bool.false_eq_true, if_false, Option.map_some, leaseTransition,
    hk, hid]
  by_cases ht : LeaseMap.truthy ⟨liveLeases (.int 0) leases, protoLease (.int 0) leases⟩ id = true
  · simp [ht, hne, reasonsOf]
  · simp [ht, hne, reasonsOf]

/-- Without leases only inherited names count as live. -/
theorem truthy_empty (id : JsString) :
    LeaseMap.truthy ⟨liveLeases (.int 0) Record.empty, protoLease (.int 0) Record.empty⟩ id =
      (inherited? id).isSome := by
  simp [LeaseMap.truthy, liveLeases, protoLease, Record.filter, Record.empty, Record.own?, ownEntry]

theorem truthy_single {x : JsString} (hx : x ≠ protoKey) (id : JsString) :
    LeaseMap.truthy ⟨liveLeases (.int 0) (Record.empty.set x ⟨.int 100⟩),
      protoLease (.int 0) (Record.empty.set x ⟨.int 100⟩)⟩ id = (decide (id = x) || (inherited? id).isSome) := by
  have hproto : protoLease (.int 0) (Record.empty.set x ⟨.int 100⟩) = none := by
    rw [protoLease, Record.own?_set, if_neg (Ne.symm hx)]
    rfl
  have hlive : liveLeases (.int 0) (Record.empty.set x ⟨.int 100⟩) = Record.empty.set x ⟨.int 100⟩ := by
    simp [liveLeases, Record.filter, Record.empty, Record.set, setEntry, isLive, hx]
  rw [hproto, hlive, LeaseMap.truthy, Record.own?_set]
  by_cases hid : id = x
  · simp [hid]
  · simp [hid]

end

end OxDeAI
