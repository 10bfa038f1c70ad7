import OxDeAI.Core.Types

/-! The checks a state passes before it is evaluated for an agent, and the
freshness gate on the intent's timestamp. -/

namespace OxDeAI

open Js

/-- The fixed numeric leaves are finite. The containers are there by type. -/
def isRuntimeState (state : State) : Bool :=
  state.velocity.config.windowSeconds.isFinite && state.velocity.config.maxActions.isFinite &&
  state.replay.windowSeconds.isFinite && state.replay.maxNoncesPerAgent.isFinite &&
  state.toolLimits.windowSeconds.isFinite

/-- The leaves of one agent. A read that lands on the prototype is neither a
bigint nor a finite number; only an absent `spent_in_period` passes. -/
def validateNumericLeaves (state : State) (agentId : JsString) : Except String Unit :=
  if (state.budget.budgetLimit.get agentId).value?.isNone then .error "budget.budget_limit"
  else if (state.budget.spentInPeriod.get agentId).isInherited then .error "budget.spent_in_period"
  else if (state.maxAmountPerAction.get agentId).value?.join.isNone then
    .error "max_amount_per_action"
  else if !(state.concurrency.maxConcurrent.get agentId).value?.any (·.isFinite) then
    .error "concurrency.max_concurrent"
  else if !(state.recursion.maxDepth.get agentId).value?.any (·.isFinite) then
    .error "recursion.max_depth"
  else if !(state.toolLimits.maxCalls.get agentId).value?.join.any (·.isFinite) then
    .error "tool_limits.max_calls"
  else .ok ()

/-- What the leaf checks establish. -/
structure NumericLeaves (state : State) (agentId : JsString) : Prop where
  budgetLimit : ∃ limit, state.budget.budgetLimit.own? agentId = some limit
  spentInPeriod : (state.budget.spentInPeriod.get agentId).isInherited = false
  maxAmountPerAction : ∃ cap, state.maxAmountPerAction.own? agentId = some (some cap)
  maxConcurrent : ∃ n, state.concurrency.maxConcurrent.own? agentId = some n ∧ n.isFinite = true
  maxDepth : ∃ n, state.recursion.maxDepth.own? agentId = some n ∧ n.isFinite = true
  maxCalls : ∃ n, state.toolLimits.maxCalls.own? agentId = some (some n) ∧ n.isFinite = true

theorem any_isFinite_iff {o : Option JsNumber} :
    o.any (·.isFinite) = true ↔ ∃ n, o = some n ∧ n.isFinite = true := by
  cases o <;> simp

theorem validateNumericLeaves_ok {state : State} {agentId : JsString} :
    validateNumericLeaves state agentId = .ok () ↔ NumericLeaves state agentId := by
  have hsplit : validateNumericLeaves state agentId = .ok () ↔
      (state.budget.budgetLimit.own? agentId).isSome = true ∧
      (state.budget.spentInPeriod.get agentId).isInherited = false ∧
      (state.maxAmountPerAction.own? agentId).join.isSome = true ∧
      (state.concurrency.maxConcurrent.own? agentId).any (·.isFinite) = true ∧
      (state.recursion.maxDepth.own? agentId).any (·.isFinite) = true ∧
      (state.toolLimits.maxCalls.own? agentId).join.any (·.isFinite) = true := by
    simp only [validateNumericLeaves, Record.value?_get]
    repeat' split
    all_goals simp_all [Option.isSome_iff_ne_none]
  rw [hsplit]
  constructor
  · rintro ⟨hb, hs, hc, hm, hd, ht⟩
    refine ⟨Option.isSome_iff_exists.mp hb, hs, ?_, any_isFinite_iff.mp hm, any_isFinite_iff.mp hd, ?_⟩
    · obtain ⟨cap, hcap⟩ := Option.isSome_iff_exists.mp hc
      exact ⟨cap, Option.join_eq_some_iff.mp hcap⟩
    · obtain ⟨n, hn, hf⟩ := any_isFinite_iff.mp ht
      exact ⟨n, Option.join_eq_some_iff.mp hn, hf⟩
  · rintro ⟨hb, hs, ⟨cap, hc⟩, hm, hd, ⟨n, hn, hf⟩⟩
    exact ⟨Option.isSome_iff_exists.mpr hb, hs, by simp [hc], any_isFinite_iff.mpr hm,
      any_isFinite_iff.mpr hd, by simp [hn, hf]⟩

def verifyTrustedTime (intentTimestamp evaluationTime maxClockSkewSeconds maxIntentAgeSeconds : JsNumber) :
    Except JsError PolicyResult :=
  if !isProtocolSeconds evaluationTime then
    .error (.error (js "verifyTrustedTime: evaluationTime must be a finite, non-negative safe integer (unix seconds)"))
  else if !isProtocolSeconds maxClockSkewSeconds then
    .error (.error (js "verifyTrustedTime: maxClockSkewSeconds must be a finite, non-negative safe integer"))
  else if !isProtocolSeconds maxIntentAgeSeconds then
    .error (.error (js "verifyTrustedTime: maxIntentAgeSeconds must be a finite, non-negative safe integer"))
  else if !isProtocolSeconds intentTimestamp then .ok (.deny [.stateInvalid])
  else
    let delta := intentTimestamp.sub evaluationTime
    if maxClockSkewSeconds.lt delta then .ok (.deny [.intentFreshnessFuture])
    else if maxIntentAgeSeconds.lt delta.neg then .ok (.deny [.intentStale])
    else .ok (.allow none)

section

variable {t skew age : ℕ}

theorem verifyTrustedTime_seconds (ht : t ≤ JsNumber.maxSafeInteger)
    (hs : skew ≤ JsNumber.maxSafeInteger) (ha : age ≤ JsNumber.maxSafeInteger) {ts : ℕ}
    (hts : ts ≤ JsNumber.maxSafeInteger) :
    verifyTrustedTime (.int ts) (.int t) (.int skew) (.int age) =
      .ok (if t + skew < ts then .deny [.intentFreshnessFuture]
        else if ts + age < t then .deny [.intentStale] else .allow none) := by
  have hp : ∀ n : ℕ, n ≤ JsNumber.maxSafeInteger → isProtocolSeconds (.int n) = true :=
    fun n hn => isProtocolSeconds_iff.mpr ⟨n, rfl, hn⟩
  have hd : (JsNumber.int ts).sub (.int t) = .int (ts - t) := by
    apply JsNumber.sub_int
    simp only [JsNumber.maxSafeInteger] at ht hts
    omega
  simp only [verifyTrustedTime, hp _ ht, hp _ hs, hp _ ha, hp _ hts, hd, JsNumber.neg, JsNumber.lt_int,
    Bool.not_true, Bool.false_eq_true, if_false, decide_eq_true_eq]
  have h1 : ((skew : ℤ) < ts - t) ↔ t + skew < ts := by omega
  have h2 : ((age : ℤ) < -(ts - t)) ↔ ts + age < t := by omega
  rw [if_congr h1 rfl rfl, if_congr h2 rfl rfl]
  split
  · rfl
  · split <;> rfl

theorem verifyTrustedTime_malformed (ht : t ≤ JsNumber.maxSafeInteger)
    (hs : skew ≤ JsNumber.maxSafeInteger) (ha : age ≤ JsNumber.maxSafeInteger) {n : JsNumber}
    (hn : isProtocolSeconds n = false) :
    verifyTrustedTime n (.int t) (.int skew) (.int age) = .ok (.deny [.stateInvalid]) := by
  have hp : ∀ m : ℕ, m ≤ JsNumber.maxSafeInteger → isProtocolSeconds (.int m) = true :=
    fun m hm => isProtocolSeconds_iff.mpr ⟨m, rfl, hm⟩
  simp [verifyTrustedTime, hp _ ht, hp _ hs, hp _ ha, hn]

/-- Both tolerances are inclusive. -/
theorem verifyTrustedTime_allow (ht : t ≤ JsNumber.maxSafeInteger)
    (hs : skew ≤ JsNumber.maxSafeInteger) (ha : age ≤ JsNumber.maxSafeInteger) {n : JsNumber}
    {delta : Option StateDelta} :
    verifyTrustedTime n (.int t) (.int skew) (.int age) = .ok (.allow delta) ↔
      delta = none ∧ ∃ ts : ℕ, n = .int ts ∧ ts ≤ JsNumber.maxSafeInteger ∧
        ts ≤ t + skew ∧ t ≤ ts + age := by
  by_cases hn : isProtocolSeconds n = true
  · obtain ⟨ts, rfl, hts⟩ := isProtocolSeconds_iff.mp hn
    rw [verifyTrustedTime_seconds ht hs ha hts]
    constructor
    · intro h
      split at h
      · cases h
      · split at h
        · cases h
        · cases h
          exact ⟨rfl, ts, rfl, hts, by omega, by omega⟩
    · rintro ⟨rfl, ts', hts', -, h1, h2⟩
      obtain rfl : ts = ts' := by simpa using hts'
      rw [if_neg (by omega), if_neg (by omega)]
  · rw [verifyTrustedTime_malformed ht hs ha (by simpa using hn)]
    constructor
    · intro h
      cases h
    · rintro ⟨-, ts, rfl, hts, -⟩
      exact absurd (isProtocolSeconds_iff.mpr ⟨ts, rfl, hts⟩) hn

end

end OxDeAI
