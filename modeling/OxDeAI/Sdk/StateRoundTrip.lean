import OxDeAI.Engine.OrderFree
import OxDeAI.Sdk.StateParts

/-! A state that was saved and loaded has the hash of the one that was saved and is judged
alike, where nothing in it is there with no value. -/

namespace OxDeAI

open Js

section

variable {sourceText : JsValue → JsString} {v x y budget m limits spent caps : JsValue} {s s' : State} {key : JsString}

theorem field_obj_setEntry (es : List (JsString × JsValue)) :
    (JsValue.obj (setEntry key m es)).field key = m := by
  rw [JsValue.field, JsValue.entries, ownEntry_setEntry, if_pos rfl]
  rfl

theorem field_obj_setEntry_ne {key' : JsString} (h : key' ≠ key) (es : List (JsString × JsValue)) :
    (JsValue.obj (setEntry key m es)).field key' = (JsValue.obj es).field key' := by
  rw [JsValue.field, JsValue.field, JsValue.entries, JsValue.entries, ownEntry_setEntry, if_neg h]

theorem field_ownProperties (h : x.isRecord = true) : (JsValue.obj (ownProperties x)).field key = x.field key := by
  cases x <;> first | rfl | cases h

/-- The members of a state, each by its reader. -/
theorem stateOf_eq_some {readLimits : Reader (Record ℤ)} {readCaps : Reader (Record (Option ℤ))} :
    Reader.stateOf readLimits readCaps x = some s ↔
      Reader.text (x.field (js "policy_version")) = some s.policyVersion ∧
      Reader.text (x.field (js "period_id")) = some s.periodId ∧
      Reader.killSwitch (x.field (js "kill_switch")) = some s.killSwitch ∧
      Reader.allowlists (x.field (js "allowlists")) = some s.allowlists ∧
      (readLimits ((x.field (js "budget")).field (js "budget_limit")) = some s.budget.budgetLimit ∧
        readLimits ((x.field (js "budget")).field (js "spent_in_period")) = some s.budget.spentInPeriod) ∧
      readCaps (x.field (js "max_amount_per_action")) = some s.maxAmountPerAction ∧
      Reader.velocity (x.field (js "velocity")) = some s.velocity ∧
      Reader.replay (x.field (js "replay")) = some s.replay ∧
      Reader.concurrency (x.field (js "concurrency")) = some s.concurrency ∧
      Reader.recursion (x.field (js "recursion")) = some s.recursion ∧
      Reader.toolLimits (x.field (js "tool_limits")) = some s.toolLimits := by
  have hbudget : ∀ w b, Reader.budget readLimits w = some b ↔
      readLimits (w.field (js "budget_limit")) = some b.budgetLimit ∧
        readLimits (w.field (js "spent_in_period")) = some b.spentInPeriod := by
    intro w b
    rw [Reader.budget, Reader.into, Option.map_eq_some_iff]
    constructor
    · rintro ⟨p, hp, rfl⟩
      exact both_eq_some.mp hp
    · intro h
      exact ⟨(b.budgetLimit, b.spentInPeriod), both_eq_some.mpr h, rfl⟩
  rw [← hbudget, Reader.stateOf, Reader.into, Option.map_eq_some_iff]
  constructor
  · rintro ⟨p, hp, rfl⟩
    simp only [both_eq_some] at hp
    exact hp
  · intro h
    refine ⟨(s.policyVersion, s.periodId, s.killSwitch, s.allowlists, s.budget, s.maxAmountPerAction, s.velocity,
      s.replay, s.concurrency, s.recursion, s.toolLimits), ?_, rfl⟩
    simp only [both_eq_some]
    exact h

theorem bigInts_iff {α : Type} {f : Reader α} {r : Record α} :
    Reader.bigInts f x = some r ↔ ∃ w, mapRecordBigInt x = .ok w ∧ Reader.record f w = some r := by
  rw [Reader.bigInts, Option.bind_eq_some_iff]
  cases mapRecordBigInt x with
  | error err => simp [Except.toOption]
  | ok w => simp [Except.toOption]

/-- The raw state with its three maps replaced. -/
def withMaps (raw limits spent caps : JsValue) : JsValue :=
  .obj (setEntry (js "max_amount_per_action") caps (setEntry (js "budget")
    (.obj (setEntry (js "spent_in_period") spent (setEntry (js "budget_limit") limits
      (ownProperties (raw.field (js "budget")))))) (ownProperties raw)))

theorem normalizeStateBigInts_ok (hx : x.isRecord = true) : normalizeStateBigInts x = .ok y ↔
    ∃ limits spent caps, mapRecordBigInt ((x.field (js "budget")).field (js "budget_limit")) = .ok limits ∧
      mapRecordBigInt ((x.field (js "budget")).field (js "spent_in_period")) = .ok spent ∧
      mapRecordBigInt (x.field (js "max_amount_per_action")) = .ok caps ∧ y = withMaps x limits spent caps := by
  have hnullish : x.isNullish = false := by
    cases x <;> first | rfl | cases hx
  rw [normalizeStateBigInts, hnullish]
  simp only [Bool.false_eq_true, if_false, bind_eq_ok]
  constructor
  · rintro ⟨limits, hlimits, spent, hspent, caps, hcaps, h⟩
    exact ⟨limits, spent, caps, hlimits, hspent, hcaps, (Except.ok.inj h).symm⟩
  · rintro ⟨limits, spent, caps, hlimits, hspent, hcaps, rfl⟩
    exact ⟨limits, hlimits, spent, hspent, caps, hcaps, rfl⟩

theorem field_withMaps (hx : x.isRecord = true) (hcaps : key ≠ js "max_amount_per_action") (hbudget : key ≠ js "budget") :
    (withMaps x limits spent caps).field key = x.field key := by
  rw [withMaps, field_obj_setEntry_ne hcaps, field_obj_setEntry_ne hbudget, field_ownProperties hx]

theorem caps_withMaps : (withMaps x limits spent caps).field (js "max_amount_per_action") = caps :=
  field_obj_setEntry _

theorem limits_withMaps :
    ((withMaps x limits spent caps).field (js "budget")).field (js "budget_limit") = limits := by
  rw [withMaps, field_obj_setEntry_ne (by decide), field_obj_setEntry, field_obj_setEntry_ne (by decide),
    field_obj_setEntry]

theorem spent_withMaps :
    ((withMaps x limits spent caps).field (js "budget")).field (js "spent_in_period") = spent := by
  rw [withMaps, field_obj_setEntry_ne (by decide), field_obj_setEntry, field_obj_setEntry]

/-- The loader reads the three maps of bigints. -/
theorem normalized_iff (hx : x.isRecord = true) :
    (∃ y, normalizeStateBigInts x = .ok y ∧ Reader.state y = some s) ↔ Reader.fileState x = some s := by
  simp only [Reader.fileState, stateOf_eq_some, bigInts_iff]
  constructor
  · rintro ⟨y, hy, hread⟩
    obtain ⟨limits, spent, caps, hlimits, hspent, hcaps, rfl⟩ := (normalizeStateBigInts_ok hx).mp hy
    rw [Reader.state, stateOf_eq_some, limits_withMaps, spent_withMaps, caps_withMaps] at hread
    simp (disch := decide) only [field_withMaps hx] at hread
    obtain ⟨hpolicy, hperiod, hkill, hallow, ⟨hlimit, hspend⟩, hcap, hrest⟩ := hread
    exact ⟨hpolicy, hperiod, hkill, hallow, ⟨⟨limits, hlimits, hlimit⟩, spent, hspent, hspend⟩, ⟨caps, hcaps, hcap⟩,
      hrest⟩
  · rintro ⟨hpolicy, hperiod, hkill, hallow, ⟨⟨limits, hlimits, hlimit⟩, spent, hspent, hspend⟩, ⟨caps, hcaps, hcap⟩,
      hrest⟩
    refine ⟨_, (normalizeStateBigInts_ok hx).mpr ⟨limits, spent, caps, hlimits, hspent, hcaps, rfl⟩, ?_⟩
    rw [Reader.state, stateOf_eq_some, limits_withMaps, spent_withMaps, caps_withMaps]
    simp (disch := decide) only [field_withMaps hx]
    exact ⟨hpolicy, hperiod, hkill, hallow, ⟨hlimit, hspend⟩, hcap, hrest⟩

/-- A state is an object. -/
theorem isRecord_of_state (h : Reader.state v = some s) : v.isRecord = true := by
  have hversion := (stateOf_eq_some.mp h).1
  by_contra hrecord
  have hentries : v.entries = [] := by
    cases v <;> first | rfl | exact absurd rfl hrecord
  rw [JsValue.field, hentries] at hversion
  cases hversion

theorem load_save_iff (hv : IsValue v) (hs : Reader.state v = some s) :
    (∃ y, load (save sourceText v) = .ok y ∧ Reader.state y = some s') ↔
      Reader.fileState (stored sourceText v) = some s' := by
  rw [load_save hv]
  exact normalized_iff (isRecord_stored (isRecord_of_state hs))

/-- No record of the state has a key `__proto__` of its own. -/
structure OrdinaryKeys (s : State) : Prop where
  agents : s.killSwitch.agents.own? protoKey = none
  budgetLimit : s.budget.budgetLimit.own? protoKey = none
  spentInPeriod : s.budget.spentInPeriod.own? protoKey = none
  maxAmountPerAction : s.maxAmountPerAction.own? protoKey = none
  counters : s.velocity.counters.own? protoKey = none
  nonces : s.replay.nonces.own? protoKey = none
  maxConcurrent : s.concurrency.maxConcurrent.own? protoKey = none
  active : s.concurrency.active.own? protoKey = none
  activeAuths : s.concurrency.activeAuths.own? protoKey = none
  leases : ∀ agent auths, s.concurrency.activeAuths.own? agent = some auths → auths.own? protoKey = none
  maxDepth : s.recursion.maxDepth.own? protoKey = none
  maxCalls : s.toolLimits.maxCalls.own? protoKey = none
  maxCallsByTool : ∀ byTool, s.toolLimits.maxCallsByTool = some byTool → byTool.own? protoKey = none
  tools : ∀ byTool agent tools, s.toolLimits.maxCallsByTool = some byTool → byTool.own? agent = some (some tools) →
    tools.own? protoKey = none
  calls : s.toolLimits.calls.own? protoKey = none

theorem ButProto.same {α : Type} {R R' : α → α → Prop} {r r' : Record α} (h : ButProto R r r')
    (hproto : r.own? protoKey = none) (hR : ∀ k a a', r.own? k = some a → R a a' → R' a a') : SameRecord R' r r' := by
  intro k
  by_cases hk : k = protoKey
  · rw [hk, hproto, h.proto]
    exact .none
  · have hown := h.own k hk
    generalize ha : r.own? k = o at hown
    generalize r'.own? k = o' at hown
    cases hown with
    | none => exact .none
    | some hrel => exact .some (hR k _ _ ha hrel)

theorem ButProto.sameEq {α : Type} {r r' : Record α} (h : ButProto (· = ·) r r') (hproto : r.own? protoKey = none) :
    SameRecord (· = ·) r r' := h.same hproto (fun _ _ _ _ hR => hR)

theorem Reloaded.sameState (h : Reloaded (· = ·) s s') (hkeys : OrdinaryKeys s) : SameState s s' where
  policyVersion := h.policyVersion
  periodId := h.periodId
  killSwitch := ⟨h.globalSwitch, h.agents.sameEq hkeys.agents⟩
  allowlists := by
    rw [← h.allowlists]
    exact (SameState.refl s).allowlists
  budget := ⟨h.budgetLimit.sameEq hkeys.budgetLimit, h.spentInPeriod.sameEq hkeys.spentInPeriod⟩
  maxAmountPerAction := h.maxAmountPerAction.sameEq hkeys.maxAmountPerAction
  velocity := ⟨h.config, h.counters.sameEq hkeys.counters⟩
  replay := ⟨h.replayWindow, h.maxNonces, h.nonces.same hkeys.nonces fun _ _ _ _ hR => hR ▸ List.Perm.refl _⟩
  concurrency := ⟨h.maxConcurrent.sameEq hkeys.maxConcurrent, h.active.sameEq hkeys.active,
    h.activeAuths.same hkeys.activeAuths fun agent _ _ hown hR => hR.sameEq (hkeys.leases agent _ hown)⟩
  recursion := h.maxDepth.sameEq hkeys.maxDepth
  toolLimits := by
    refine ⟨h.toolLimits.windowSeconds, h.toolLimits.maxCalls.sameEq hkeys.maxCalls, ?_, ?_⟩
    · have hrel := h.toolLimits.maxCallsByTool
      generalize hby : s.toolLimits.maxCallsByTool = o at hrel
      generalize s'.toolLimits.maxCallsByTool = o' at hrel
      cases hrel with
      | none => exact .none
      | @some byTool byTool' hR =>
        refine .some (hR.same (hkeys.maxCallsByTool _ hby) fun agent tools tools' hown hT => ?_)
        cases hT with
        | none => exact .none
        | some hT => exact .some (hT.sameEq (hkeys.tools _ agent _ hby hown))
    · refine h.toolLimits.calls.same hkeys.calls fun _ calls calls' _ hC => ?_
      cases hC with
      | none => exact .none
      | some hC =>
        rw [forall₂_eq] at hC
        exact .some (hC ▸ List.Perm.refl _)

theorem Reloaded.callsAgree (h : Reloaded (· = ·) s s') : CallsAgree s.toolLimits s'.toolLimits := by
  intro agent calls calls' hne hown hown'
  have hrel := h.toolLimits.calls.own agent hne
  rw [hown, hown'] at hrel
  cases hrel with
  | some hC =>
    cases hC with
    | none => exact fun _ => rfl
    | some hC =>
      rw [forall₂_eq] at hC
      rw [hC]
      exact fun _ => rfl

def isNamedCall (call : ToolCall) : Bool := call.tool.isSome

theorem isNamedCall_of_normalForm {nfc : JsString → JsString} {a b : ToolCall}
    (h : normalForm nfc (toolCallPayload a) = normalForm nfc (toolCallPayload b)) : isNamedCall a = isNamedCall b := by
  have hlength := length_of_normalForm h
  rw [isNamedCall, isNamedCall]
  cases ha : a.tool <;> cases hb : b.tool <;> simp_all [optionalField]

theorem countP_of_normalForm {nfc : JsString → JsString} {calls calls' : Option (List ToolCall)}
    (h : normalForm nfc (callsPayload calls) = normalForm nfc (callsPayload calls')) :
    (calls.getD []).countP isNamedCall = (calls'.getD []).countP isNamedCall := by
  simp only [callsPayload, normalForm, JsValue.arr.injEq, normalElements_eq_map, List.map_map] at h
  have hcount : ∀ l l' : List ToolCall, l.map (normalForm nfc ∘ toolCallPayload) = l'.map (normalForm nfc ∘ toolCallPayload) →
      l.countP isNamedCall = l'.countP isNamedCall := by
    intro l
    induction l with
    | nil =>
      intro l' hl
      rw [List.map_eq_nil_iff.mp hl.symm]
    | cons a l ih =>
      intro l' hl
      cases l' with
      | nil => cases hl
      | cons b l' =>
        rw [List.map_cons, List.map_cons, List.cons.injEq] at hl
        rw [List.countP_cons, List.countP_cons, ih l' hl.2, isNamedCall_of_normalForm hl.1]
  have hsorted := hcount _ _ h
  rwa [sortCalls, sortCalls, (List.perm_insertionSort _ _).countP_eq, (List.perm_insertionSort _ _).countP_eq] at hsorted

/-- A drift only adds names. -/
theorem CallDrift.named {c c' : ToolCall} (h : CallDrift c c') (hc : isNamedCall c = true) : isNamedCall c' = true := by
  rw [isNamedCall] at hc ⊢
  rcases h.tool with htool | htool
  · rw [← htool]
    exact hc
  · rw [htool] at hc
    cases hc

theorem countP_le_of_drift {l l' : List ToolCall} (h : List.Forall₂ CallDrift l l') :
    l.countP isNamedCall ≤ l'.countP isNamedCall := by
  induction h with
  | nil => exact Nat.le_refl _
  | @cons c c' l l' hc hl ih =>
    rw [List.countP_cons, List.countP_cons]
    by_cases hnamed : isNamedCall c = true
    · rw [if_pos hnamed, if_pos (hc.named hnamed)]
      omega
    · rw [if_neg hnamed]
      omega

theorem eq_of_drift {l l' : List ToolCall} (h : List.Forall₂ CallDrift l l')
    (hcount : l.countP isNamedCall = l'.countP isNamedCall) : l = l' := by
  induction h with
  | nil => rfl
  | @cons c c' l l' hc hl ih =>
    have hle := countP_le_of_drift hl
    rw [List.countP_cons, List.countP_cons] at hcount
    have hsame : c.tool = c'.tool := by
      rcases hc.tool with htool | htool
      · exact htool
      · cases htool' : c'.tool with
        | none => exact htool
        | some name =>
          have hnot : isNamedCall c = false := by rw [isNamedCall, htool]; rfl
          have hnamed : isNamedCall c' = true := by rw [isNamedCall, htool']; rfl
          rw [hnot, hnamed] at hcount
          simp only [Bool.false_eq_true, if_false, if_true] at hcount
          omega
    have hnamed : isNamedCall c = isNamedCall c' := by rw [isNamedCall, isNamedCall, hsame]
    rw [hnamed] at hcount
    rw [ih (by omega)]
    obtain ⟨ts, tool⟩ := c
    obtain ⟨ts', tool'⟩ := c'
    have hts := hc.ts
    simp only at hsame hts
    rw [hsame, hts]

/-- What is loaded with the hash of the saved state has no other calls. -/
theorem Reloaded.calls_eq {P : Platform} {e : PolicyEngine} (hP : PlatformLaws P) (h : Reloaded CallDrift s s')
    {hash : JsString} (hs : computeStateHash P e s = .ok hash) (hs' : computeStateHash P e s' = .ok hash) :
    Reloaded (· = ·) s s' := by
  obtain ⟨hok, hdigest⟩ := hashable_of_computeStateHash hs
  obtain ⟨hok', hdigest'⟩ := hashable_of_computeStateHash hs'
  have hforms := (stateDigest_eq_iff hP hok hok').mp (hdigest.symm.trans hdigest')
  refine { h with toolLimits := { h.toolLimits with calls := ⟨fun agent hne => ?_, h.toolLimits.calls.proto⟩ } }
  have hrel := h.toolLimits.calls.own agent hne
  generalize hown : s.toolLimits.calls.own? agent = o at hrel
  generalize hown' : s'.toolLimits.calls.own? agent = o' at hrel
  cases hrel with
  | none => exact .none
  | some hC =>
    have hpayload := callsPayload_of_normalForm hP.nfc (hok .toolAmplification).2 (hok' .toolAmplification).2
      (hforms .toolAmplification) hne hown hown'
    have hcount := countP_of_normalForm hpayload
    cases hC with
    | none => exact .some .none
    | some hC =>
      have hsame := eq_of_drift hC hcount
      exact .some (.some (forall₂_eq.mpr hsame))

/-- What is loaded is a state of the same hash that is judged alike. -/
def RoundTrips (P : Platform) (sourceText : JsValue → JsString) (v : JsValue) (s : State) : Prop :=
  ∃ y s', load (save sourceText v) = .ok y ∧ Reader.state y = some s' ∧
    (∀ e, (computeStateHash P e s').toOption = (computeStateHash P e s).toOption) ∧
    ∀ e intent t mode log,
      SameOutcome (evaluatePure P e intent s t mode log).1 (evaluatePure P e intent s' t mode log).1

theorem computeStateHash_toOption {P : Platform} (hn : NfcLaws P.nfc) (e : PolicyEngine) (h : SameState s s')
    (hties : CallsAgree s.toolLimits s'.toolLimits) :
    (computeStateHash P e s').toOption = (computeStateHash P e s).toOption := by
  by_cases hs : Hashable P s
  · rw [computeStateHash_congr hn h hs hties]
  · have hnone : ∀ state, ¬ Hashable P state → (computeStateHash P e state).toOption = none := by
      intro state hstate
      cases hhash : computeStateHash P e state with
      | error err => rfl
      | ok digest => exact absurd (hashable_of_computeStateHash hhash).1 hstate
    rw [hnone s hs, hnone s' fun hs' => hs (hashable_congr hn h.symm hs')]

theorem roundTrips_of_writable {P : Platform} (hP : PlatformLaws P) (hx : HexStable P.nfc) (hv : IsValue v)
    (hs : Reader.state v = some s) (hwritable : Writable v) (hkeys : OrdinaryKeys s) : RoundTrips P sourceText v s := by
  obtain ⟨s', hread, hreloaded⟩ := (reloads_state.kept_iff hv hs).mpr hwritable
  obtain ⟨y, hy, hstate⟩ := (load_save_iff hv hs).mpr hread
  have hsame := hreloaded.sameState hkeys
  refine ⟨y, s', hy, hstate, fun e => computeStateHash_toOption hP.nfc e hsame hreloaded.callsAgree, ?_⟩
  intro e intent t mode log
  exact (order_free_unless_ties hP hx hsame).mpr fun _ => hreloaded.callsAgree

theorem writable_of_roundTrips {P : Platform} (hP : PlatformLaws P) (e : PolicyEngine) (hv : IsValue v)
    (hs : Reader.state v = some s) (hok : Hashable P s) (h : RoundTrips P sourceText v s) : Writable v := by
  obtain ⟨y, s', hy, hstate, hhash, -⟩ := h
  have hread := (load_save_iff hv hs).mp ⟨y, hy, hstate⟩
  have hsaved := (computeStateHash_ok hP.nfc (e := e)).mpr ⟨hok, rfl⟩
  have hloaded : computeStateHash P e s' = .ok (stateDigest P e s) := by
    have heq := hhash e
    rw [hsaved] at heq
    cases hcompute : computeStateHash P e s' with
    | error err =>
      rw [hcompute] at heq
      cases heq
    | ok digest =>
      rw [hcompute] at heq
      exact congrArg Except.ok (Option.some.inj heq)
  have hexact := (reloads_state.related hv hs hread).calls_eq hP hsaved hloaded
  exact (reloads_state.kept_iff hv hs).mp ⟨s', hread, hexact⟩

/-- A saved state comes back where every number is finite and nothing is there with no value;
a state that has a hash comes back only there. -/
theorem state_file_round_trip {P : Platform} (hP : PlatformLaws P) (hx : HexStable P.nfc)
    (sourceText : JsValue → JsString) (v : JsValue) (s : State) (hv : IsValue v) (hs : Reader.state v = some s) :
    (Writable v → OrdinaryKeys s → RoundTrips P sourceText v s) ∧
      (Hashable P s → RoundTrips P sourceText v s → Writable v) := by
  constructor
  · intro hwritable hkeys
    exact roundTrips_of_writable hP hx hv hs hwritable hkeys
  · intro hok h
    exact writable_of_roundTrips hP sampleEngine hv hs hok h

end

/-- The state of `callsState`, with the call as it is there. -/
def savedState (call : List (JsString × JsValue)) : JsValue := .obj [
  (js "policy_version", .str (js "v1")), (js "period_id", .str (js "p1")),
  (js "kill_switch", .obj [(js "global", .bool false), (js "agents", .obj [])]),
  (js "allowlists", .obj []),
  (js "budget", .obj [(js "budget_limit", .obj [(js "a", .bigint 100)]), (js "spent_in_period", .obj [])]),
  (js "max_amount_per_action", .obj [(js "a", .bigint 50)]),
  (js "velocity", .obj [(js "config", .obj [(js "window_seconds", .num (.int 60)), (js "max_actions", .num (.int 10))]),
    (js "counters", .obj [])]),
  (js "replay", .obj [(js "window_seconds", .num (.int 60)), (js "max_nonces_per_agent", .num (.int 10)),
    (js "nonces", .obj [])]),
  (js "concurrency", .obj [(js "max_concurrent", .obj [(js "a", .num (.int 2))]), (js "active", .obj []),
    (js "active_auths", .obj [])]),
  (js "recursion", .obj [(js "max_depth", .obj [(js "a", .num (.int 3))])]),
  (js "tool_limits", .obj [(js "window_seconds", .num (.int 60)), (js "max_calls", .obj [(js "a", .num (.int 5))]),
    (js "calls", .obj [(js "b", .arr [.obj call])])])]

def plainCall : List (JsString × JsValue) := [(js "ts", .num (.int 1))]

/-- As `deserializeState` makes it. -/
def importedCall : List (JsString × JsValue) := [(js "ts", .num (.int 1)), (js "tool", .undefined)]

theorem state_plainCall : Reader.state (savedState plainCall) = some (callsState [⟨.int 1, none⟩]) := by decide +kernel

theorem state_importedCall : Reader.state (savedState importedCall) = some (callsState [⟨.int 1, none⟩]) := by
  decide +kernel

theorem isValue_obj_iff {es : List (JsString × JsValue)} :
    IsValue (.obj es) ↔ (es.map Prod.fst).Nodup ∧ ∀ e ∈ es, IsValue e.2 :=
  ⟨fun h => ⟨h.nodup, fun _ he => h.entry he⟩, fun h => .obj h.1 h.2⟩

theorem isValue_arr_iff {xs : List JsValue} : IsValue (.arr xs) ↔ ∀ x ∈ xs, IsValue x :=
  ⟨fun h => by cases h with | arr hxs => exact hxs, .arr⟩

theorem isValue_int {z : ℤ} (h : 0 ≤ z ∧ z ≤ 2 ^ 53) : IsValue (.num (.int z)) := by
  obtain ⟨n, rfl⟩ := Int.eq_ofNat_of_zero_le h.1
  exact .num (JsNumber.isDouble_of_le (by omega))

theorem isValue_savedState {call : List (JsString × JsValue)} (h : IsValue (.obj call)) : IsValue (savedState call) := by
  simp +decide [savedState, isValue_obj_iff, isValue_arr_iff, IsValue.str, IsValue.bool, IsValue.bigint, isValue_int]
  simpa [isValue_obj_iff] using h

theorem isValue_plainCall : IsValue (savedState plainCall) := by
  apply isValue_savedState
  simp +decide [plainCall, isValue_obj_iff, isValue_int]

theorem isValue_importedCall : IsValue (savedState importedCall) := by
  apply isValue_savedState
  simp +decide [importedCall, isValue_obj_iff, isValue_int, IsValue.undefined]

theorem writable_plainCall : Writable (savedState plainCall) := by
  constructor <;>
    simp +decide [Within, Each, Items, Defined, Given, FiniteNumber, savedState, JsValue.entries, ownEntry, plainCall]

theorem ordinaryKeys_callsState {calls : List ToolCall} : OrdinaryKeys (callsState calls) := by
  constructor <;> simp +decide [callsState, sampleState, protoKey]

/-- Without the member the state is read back. -/
theorem state_file_round_trip_plainCall :
    RoundTrips samplePlatform (fun _ => []) (savedState plainCall) (callsState [⟨.int 1, none⟩]) :=
  (state_file_round_trip samplePlatform_laws hexStable_sample _ _ _ isValue_plainCall state_plainCall).1
    writable_plainCall ordinaryKeys_callsState

/-- The call of the imported state names no tool, and says so. -/
theorem not_writable_importedCall : ¬ Writable (savedState importedCall) := by
  intro h
  have hlimits := h.toolLimits _ (by rfl)
  have hcalls := hlimits.2.2.2 _ (by rfl) (js "b") _ (by decide) (by rfl)
  have hcall := hcalls.2 _ (by rfl) _ List.mem_cons_self
  exact hcall.2 .undefined (by rfl) rfl

theorem imported_state_changes : ¬ ∀ (P : Platform) (sourceText : JsValue → JsString) (v : JsValue) (s : State),
    PlatformLaws P → HexStable P.nfc → IsValue v → Reader.state v = some s → isRuntimeState s = true →
      RoundTrips P sourceText v s := by
  intro h
  have hok : Hashable samplePlatform (callsState [⟨.int 1, none⟩]) := isHashable_iff.mp (by decide)
  have hround := h samplePlatform (fun _ => []) (savedState importedCall) _ samplePlatform_laws hexStable_sample
    isValue_importedCall state_importedCall (by decide)
  exact not_writable_importedCall
    (writable_of_roundTrips samplePlatform_laws sampleEngine isValue_importedCall state_importedCall hok hround)

end OxDeAI
