import OxDeAI.Engine.ImportState
import OxDeAI.Snapshot.OrderFree
import OxDeAI.Snapshot.Reread
import OxDeAI.Verification.SnapshotHash

/-! When the codecs read their own payloads again: amounts, switches, depths, counters, nonces
and allowlists. -/

namespace OxDeAI

open Js

def normalNonce (nfc : JsString → JsString) (entry : NonceEntry) : NonceEntry := ⟨nfc entry.nonce, entry.ts⟩

def normalCall (nfc : JsString → JsString) (call : ToolCall) : ToolCall := ⟨call.ts, call.tool.map nfc⟩

/-- What the export of a module asks of its part of the state. -/
def ReadsBack (nfc : JsString → JsString) (state : State) : ModuleId → Prop
  | .allowlist => ∀ names ∈ [state.allowlists.assets, state.allowlists.targets],
      ((uniqSorted (names.getD [])).map nfc).Pairwise (· < ·)
  | .budget =>
    (∀ k z, k ≠ protoKey → state.budget.budgetLimit.own? k = some z → 0 ≤ z) ∧
    (∀ k z, k ≠ protoKey → state.budget.spentInPeriod.own? k = some z → 0 ≤ z) ∧
    ∀ k z, k ≠ protoKey → state.maxAmountPerAction.own? k = some (some z) → 0 ≤ z
  | .replay => ∀ k list, k ≠ protoKey → state.replay.nonces.own? k = some list →
      ((sortNonces list).map (normalNonce nfc)).Nodup ∧
      ((sortNonces list).map (normalNonce nfc)).Pairwise (fun a b => nonceLe a b)
  | .toolAmplification => ∀ k calls, k ≠ protoKey → state.toolLimits.calls.own? k = some calls →
      ((sortCalls (calls.getD [])).map (normalCall nfc)).Pairwise (fun a b => toolCallLe a b)
  | _ => True

/-- A state that a codec makes of a payload, and that it writes as this payload. -/
structure Rereads (nfc : JsString → JsString) (value : JsValue) (id : ModuleId) (s : State) : Prop where
  read : deserializeState value id = .ok (s.part id)
  accepted : Serializable s id
  form : normalForm nfc (payload s id) = value

section

variable {nfc : JsString → JsString} {state s : State}

theorem isDecimalBigInt_natDecimal (n : ℕ) : isDecimalBigInt (natDecimal n) = true := by
  obtain ⟨hne, hdigits, -, hzero⟩ := natDecimal_spec n
  cases hd : natDecimal n with
  | nil => exact absurd hd hne
  | cons d ds =>
    rw [hd] at hdigits hzero
    rw [isDecimalBigInt, Bool.and_eq_true, Bool.or_eq_true, List.all_eq_true]
    refine ⟨hdigits, ?_⟩
    by_cases hds : ds = []
    · right
      rw [hds]
      rfl
    · left
      have hlen : 1 < (d :: ds).length := by
        have hpos := List.length_pos_iff.mpr hds
        rw [List.length_cons]
        omega
      apply decide_eq_true
      intro h48
      have hunit : d = unit 48 := Fin.ext h48
      exact hzero ⟨by rw [hunit]; rfl, hlen⟩

theorem assertDecimal_decimal {z y : ℤ} {field : JsString} :
    assertDecimalBigIntString (.str (decimal z)) field = .ok y ↔ 0 ≤ z ∧ y = z := by
  rw [assertDecimalBigIntString]
  by_cases hz : z < 0
  · have hminus : isDecimalBigInt (decimal z) = false := by
      rw [decimal, if_pos hz]
      rfl
    have hneg : ¬ 0 ≤ z := by omega
    simp [hminus, hneg]
  · obtain ⟨n, rfl⟩ := Int.eq_ofNat_of_zero_le (not_lt.mp hz)
    have htext : decimal n = natDecimal n := by
      rw [decimal, if_neg hz]
      rfl
    obtain ⟨-, -, hvalue, -⟩ := natDecimal_spec n
    rw [htext, isDecimalBigInt_natDecimal, if_pos rfl, hvalue, Except.ok.injEq]
    constructor
    · rintro rfl
      exact ⟨by omega, rfl⟩
    · rintro ⟨-, rfl⟩
      rfl

theorem normalForm_amount (hn : NfcLaws nfc) (z : ℤ) : normalForm nfc (amountText z) = .str (decimal z) := by
  rw [amountText, normalForm, hn.ascii _ (isAscii_decimal z)]

theorem distinct_members {es : List (JsString × JsValue)} (h : DistinctEncodings nfc (.obj es)) :
    ∀ e ∈ es, DistinctEncodings nfc e.2 := by
  cases h with
  | leaf _ hobj => exact absurd rfl (hobj es)
  | obj _ hv => exact hv

theorem normalForm_budget (hn : NfcLaws nfc) (state : State) : normalForm nfc (payload state .budget) =
    .obj [(js "budget_limit", .obj (recordForm nfc state.budget.budgetLimit (some ∘ amountText))),
      (js "max_amount_per_action", .obj (recordForm nfc state.maxAmountPerAction (Option.map amountText))),
      (js "spent_in_period", .obj (recordForm nfc state.budget.spentInPeriod (some ∘ amountText)))] := by
  have hswap : ∀ a b c : JsValue, [(js "budget_limit", a), (js "spent_in_period", b), (js "max_amount_per_action", c)].Perm
      [(js "budget_limit", a), (js "max_amount_per_action", c), (js "spent_in_period", b)] :=
    fun a b c => (List.Perm.swap _ _ []).cons _
  rw [payload, normalizeBudget, normalForm_plain hn _ (hswap _ _ _)]
  · rfl
  · simp only [List.map_cons, List.map_nil]
    decide
  · simp only [List.map_cons, List.map_nil]
    decide
  · simp only [List.forall_mem_cons]
    decide

theorem deserializeBudget_iff {A B C : List (JsString × JsValue)} (hA : NormalMembers nfc A) (hB : NormalMembers nfc B)
    (hC : NormalMembers nfc C) :
    deserializeState (.obj [(js "budget_limit", .obj A), (js "max_amount_per_action", .obj C),
      (js "spent_in_period", .obj B)]) .budget = .ok (s.part .budget) ↔
      decodeAmounts (.obj A) (js "budget_limit") = .ok s.budget.budgetLimit.entries ∧
      decodeAmounts (.obj B) (js "spent_in_period") = .ok s.budget.spentInPeriod.entries ∧
      decodeMembers (.obj C) (fun agent v => (assertDecimalBigIntString v (js "max_amount_per_action" ++ js "." ++ agent)).map
        some) = .ok s.maxAmountPerAction.entries := by
  rw [← assigned_iff hC, decodeMembers_map, decodeAmounts, decodeAmounts, ← assigned_iff hA, ← assigned_iff hB]
  have hobject : deserializeState (.obj [(js "budget_limit", .obj A), (js "max_amount_per_action", .obj C),
      (js "spent_in_period", .obj B)]) .budget = (do
        let budgetLimit ← decodeAmounts (.obj A) (js "budget_limit")
        let spentInPeriod ← decodeAmounts (.obj B) (js "spent_in_period")
        let maxAmountPerAction ← decodeAmounts (.obj C) (js "max_amount_per_action")
        return ⟨.ofPrimitives budgetLimit, .ofPrimitives spentInPeriod,
          .ofPrimitives (maxAmountPerAction.map (fun e => (e.1, some e.2)))⟩) := rfl
  rw [hobject]
  simp only [bind_eq_ok, map_eq_ok, decodeAmounts, State.part, pure, Except.pure, Except.ok.injEq, BudgetPart.mk.injEq]
  constructor
  · rintro ⟨a, ha, b, hb, c, hc, hlimit, hspent, hmax⟩
    exact ⟨⟨a, ha, hlimit⟩, ⟨b, hb, hspent⟩, _, ⟨c, hc, rfl⟩, hmax⟩
  · rintro ⟨⟨a, ha, hlimit⟩, ⟨b, hb, hspent⟩, _, ⟨c, hc, rfl⟩, hmax⟩
    exact ⟨a, ha, b, hb, c, hc, hlimit, hspent, hmax⟩

theorem written_some {α : Type} {r : Record α} {g : α → Option JsValue} {k : JsString} {v : JsValue} :
    written r g k = some v ↔ k ≠ protoKey ∧ ∃ x, r.own? k = some x ∧ g x = some v := by
  rw [written]
  split
  · simp [*]
  · rw [Option.bind_eq_some_iff]
    exact (and_iff_right ‹_›).symm

/-- An amount is read as it was written unless it is negative. -/
theorem rereads_amounts (hn : NfcLaws nfc) {α : Type} {f : α → Option ℤ} {ofAmount : ℤ → α}
    (hamount : ∀ z, f (ofAmount z) = some z) {r₀ : Record α} {field : JsString → JsString}
    {d : JsString → JsValue → Except JsError α}
    (hdecode : ∀ k v x, d k v = .ok x ↔ ∃ z, assertDecimalBigIntString v (field k) = .ok z ∧ ofAmount z = x)
    (hM : NormalMembers nfc (recordForm nfc r₀ (Option.map amountText ∘ f)))
    (hc : CanonicalRecord nfc r₀ (Option.map amountText ∘ f)) :
    (∃ r : Record α, decodeMembers (.obj (recordForm nfc r₀ (Option.map amountText ∘ f))) d = .ok r.entries ∧
      normalForm nfc (buildObject (recordMembers r (Option.map amountText ∘ f))) =
        .obj (recordForm nfc r₀ (Option.map amountText ∘ f))) ↔
    ∀ k x z, k ≠ protoKey → r₀.own? k = some x → f x = some z → 0 ≤ z := by
  rw [rereads_record hM hc]
  constructor
  · intro h k x z hk hx hz
    have hwritten : written r₀ (Option.map amountText ∘ f) k = some (amountText z) :=
      written_some.mpr ⟨hk, x, hx, by rw [Function.comp_apply, hz]; rfl⟩
    obtain ⟨y, hy, -⟩ := h k _ hwritten
    obtain ⟨z', hz', -⟩ := (hdecode _ _ _).mp hy
    rw [normalForm_amount hn, assertDecimal_decimal] at hz'
    exact hz'.1
  · intro h k v hw
    obtain ⟨hk, x, hx, hv⟩ := written_some.mp hw
    obtain ⟨z, hz, rfl⟩ := Option.map_eq_some_iff.mp hv
    refine ⟨ofAmount z, (hdecode _ _ _).mpr ⟨z, ?_, rfl⟩, ?_⟩
    · rw [normalForm_amount hn, assertDecimal_decimal]
      exact ⟨h k x z hk hx hz, rfl⟩
    · rw [Function.comp_apply, hamount]
      rfl

/-- The laws of the host, and a state that it can hash. -/
structure Exports (nfc : JsString → JsString) (state : State) : Prop where
  laws : NfcLaws nfc
  proto : ∀ k, nfc k = protoKey → k = protoKey
  accepted : ∀ id, Serializable state id
  canonical : ∀ id, Canonical nfc (payload state id)
  distinct : ∀ id, DistinctEncodings nfc (payload state id)

theorem Exports.members (h : Exports nfc state) {α : Type} {r : Record α} {g : α → Option JsValue}
    (hc : CanonicalRecord nfc r g) (hd : DistinctEncodings nfc (buildObject (recordMembers r g))) :
    NormalMembers nfc (recordForm nfc r g) := normalMembers_recordForm h.laws h.proto hc hd

theorem rereads_budget (h : Exports nfc state) :
    (∃ s, Rereads nfc (normalForm nfc (payload state .budget)) .budget s) ↔ ReadsBack nfc state .budget := by
  obtain ⟨hlimit, hspent, hmax⟩ := (canonical_budget h.laws).mp (h.canonical .budget)
  have hdistinct := distinct_members (h.distinct .budget)
  simp only [List.forall_mem_cons] at hdistinct
  obtain ⟨dlimit, dspent, dmax, -⟩ := hdistinct
  have hA := h.members hlimit dlimit
  have hB := h.members hspent dspent
  have hC := h.members hmax dmax
  have hread : ∀ (k : JsString) (v : JsValue) (x : Option ℤ),
      (assertDecimalBigIntString v (js "max_amount_per_action" ++ js "." ++ k)).map some = .ok x ↔
        ∃ z, assertDecimalBigIntString v (js "max_amount_per_action" ++ js "." ++ k) = .ok z ∧ some z = x :=
    fun k v x => map_eq_ok
  have hplain : ∀ (field k : JsString) (v : JsValue) (x : ℤ), assertDecimalBigIntString v (field ++ js "." ++ k) = .ok x ↔
      ∃ z, assertDecimalBigIntString v (field ++ js "." ++ k) = .ok z ∧ id z = x := by
    intro field k v x
    exact ⟨fun hx => ⟨x, hx, rfl⟩, fun ⟨z, hz, hzx⟩ => hzx ▸ hz⟩
  have hlimits := rereads_amounts (f := some) h.laws (fun _ => rfl) (hplain (js "budget_limit")) hA hlimit
  have hspents := rereads_amounts (f := some) h.laws (fun _ => rfl) (hplain (js "spent_in_period")) hB hspent
  have hmaxes := rereads_amounts (f := id) h.laws (fun _ => rfl) hread hC hmax
  rw [normalForm_budget h.laws]
  constructor
  · rintro ⟨s, hs⟩
    obtain ⟨hl, hsp, hm⟩ := (deserializeBudget_iff hA hB hC).mp hs.read
    have hform := hs.form
    rw [normalForm_budget h.laws] at hform
    simp only [JsValue.obj.injEq, List.cons.injEq, Prod.mk.injEq, true_and, and_true] at hform
    obtain ⟨fl, fm, fsp⟩ := hform
    have hfl := hlimits.mp ⟨_, hl, congrArg JsValue.obj fl⟩
    have hfs := hspents.mp ⟨_, hsp, congrArg JsValue.obj fsp⟩
    have hfm := hmaxes.mp ⟨_, hm, congrArg JsValue.obj fm⟩
    exact ⟨fun k z hk hz => hfl k z z hk hz rfl, fun k z hk hz => hfs k z z hk hz rfl,
      fun k z hk hz => hfm k (some z) z hk hz rfl⟩
  · rintro ⟨bl, bs, bm⟩
    obtain ⟨rl, hl, fl⟩ := hlimits.mpr fun k x z hk hx hz => bl k z hk (by rw [hx, hz])
    obtain ⟨rs, hsp, fs⟩ := hspents.mpr fun k x z hk hx hz => bs k z hk (by rw [hx, hz])
    obtain ⟨rm, hm, fm⟩ := hmaxes.mpr fun k x z hk hx hz => bm k z hk (by rw [hx]; exact congrArg some hz)
    refine ⟨{ state with budget := ⟨rl, rs⟩, maxAmountPerAction := rm }, ?_, trivial, ?_⟩
    · exact (deserializeBudget_iff hA hB hC).mpr ⟨hl, hsp, hm⟩
    · rw [normalForm_budget h.laws]
      simp only [JsValue.obj.injEq, List.cons.injEq, Prod.mk.injEq, true_and, and_true]
      exact ⟨JsValue.obj.inj fl, JsValue.obj.inj fm, JsValue.obj.inj fs⟩

/-- What is read of the members holds of all values of the record. -/
theorem forall_reread {α β : Type} {r₀ : Record β} {g₀ : β → Option JsValue} {r : Record α}
    {d : JsString → JsValue → Except JsError α} {Q : α → Prop}
    (hM : NormalMembers nfc (recordForm nfc r₀ g₀)) (hc : CanonicalRecord nfc r₀ g₀)
    (hr : decodeMembers (.obj (recordForm nfc r₀ g₀)) d = .ok r.entries)
    (hq : ∀ k v y, written r₀ g₀ k = some v → d (nfc k) (normalForm nfc v) = .ok y → Q y) :
    ∀ e ∈ r.entries, Q e.2 := by
  intro e he
  obtain ⟨v, hv, hx⟩ := (Decoded.of_entries hM hr).source e.1 e.2 ((Record.own?_eq_some r).mpr he)
  obtain ⟨k, w, hw, hkw⟩ := (mem_recordForm hc).mp hv
  obtain ⟨hkey, rfl⟩ := Prod.mk.inj hkw
  rw [← hkey] at hx
  exact hq k w e.2 hw hx

/-- Members that are each read as something that is written alike. -/
theorem exists_reread {α β : Type} {r₀ : Record β} {g₀ : β → Option JsValue} {g : α → Option JsValue}
    {d : JsString → JsValue → Except JsError α} {Q : α → Prop}
    (hM : NormalMembers nfc (recordForm nfc r₀ g₀)) (hc : CanonicalRecord nfc r₀ g₀)
    (hread : ∀ k x v, r₀.own? k = some x → g₀ x = some v → written r₀ g₀ k = some v →
      ∃ y, d (nfc k) (normalForm nfc v) = .ok y ∧ (g y).map (normalForm nfc) = some (normalForm nfc v) ∧ Q y) :
    ∃ r : Record α, decodeMembers (.obj (recordForm nfc r₀ g₀)) d = .ok r.entries ∧ (∀ e ∈ r.entries, Q e.2) ∧
      normalForm nfc (buildObject (recordMembers r g)) = .obj (recordForm nfc r₀ g₀) := by
  have hmembers : ∀ k v, written r₀ g₀ k = some v → ∃ y, d (nfc k) (normalForm nfc v) = .ok y ∧
      (g y).map (normalForm nfc) = some (normalForm nfc v) ∧ Q y := by
    intro k v hw
    obtain ⟨-, x, hx, hv⟩ := written_some.mp hw
    exact hread k x v hx hv hw
  obtain ⟨r, hr, hform⟩ := (rereads_record (d := d) (g := g) hM hc).mpr fun k v hw => by
    obtain ⟨y, hy, hform, -⟩ := hmembers k v hw
    exact ⟨y, hy, hform⟩
  refine ⟨r, hr, forall_reread hM hc hr fun k v y hw hy => ?_, hform⟩
  obtain ⟨y', hy', -, hq⟩ := hmembers k v hw
  rwa [Except.ok.inj (hy.symm.trans hy')]

theorem normalForm_killSwitch (hn : NfcLaws nfc) (state : State) : normalForm nfc (payload state .killSwitch) =
    .obj [(js "agents", .obj (recordForm nfc state.killSwitch.agents (some ∘ .bool))),
      (js "global", .bool state.killSwitch.globalSwitch)] := by
  have hswap : ∀ a b : JsValue, [(js "global", a), (js "agents", b)].Perm [(js "agents", b), (js "global", a)] :=
    fun a b => List.Perm.swap _ _ []
  rw [payload, normalizeKillSwitch, normalForm_plain hn _ (hswap _ _)]
  · rfl
  · simp only [List.map_cons, List.map_nil]
    decide
  · simp only [List.map_cons, List.map_nil]
    decide
  · simp only [List.forall_mem_cons]
    decide

def decodeSwitch (agent : JsString) (value : JsValue) : Except JsError Bool :=
  match value with
  | .bool b => .ok b
  | _ => .error (invalidField (js "kill_switch.agents." ++ agent))

theorem rereads_killSwitch (h : Exports nfc state) :
    ∃ s, Rereads nfc (normalForm nfc (payload state .killSwitch)) .killSwitch s := by
  have hcanonical := h.canonical .killSwitch
  have hdistinct := distinct_members (h.distinct .killSwitch)
  rw [payload, normalizeKillSwitch, canonical_plain h.laws (by simp only [List.map_cons, List.map_nil]; decide)
    (by simp only [List.map_cons, List.map_nil]; decide)] at hcanonical
  simp only [List.forall_mem_cons] at hcanonical hdistinct
  have hc := canonical_record.mp hcanonical.2.1
  have hM := h.members hc hdistinct.2.1
  obtain ⟨r, hr, -, hform⟩ := exists_reread (Q := fun _ => True) (g := some ∘ JsValue.bool) hM hc
    (d := decodeSwitch) (fun k b v _ hv _ => ⟨b, by cases hv; rfl, by cases hv; rfl, trivial⟩)
  rw [normalForm_killSwitch h.laws]
  refine ⟨{ state with killSwitch := ⟨state.killSwitch.globalSwitch, r⟩ }, ?_, trivial, ?_⟩
  · obtain ⟨es, hes, hfilled⟩ := (assigned_iff hM).mpr hr
    refine bind_eq_ok.mpr ⟨_, rfl, bind_eq_ok.mpr ⟨_, rfl, bind_eq_ok.mpr ⟨es, hes, ?_⟩⟩⟩
    rw [hfilled]
    rfl
  · rw [normalForm_killSwitch h.laws, ← normalForm_recordForm, hform]

theorem normalForm_recursion (hn : NfcLaws nfc) (state : State) : normalForm nfc (payload state .recursionDepth) =
    .obj [(js "max_depth", .obj (recordForm nfc state.recursion.maxDepth (some ∘ .num)))] := by
  rw [payload, normalForm_plain hn _ (.refl _)]
  · rfl
  · simp only [List.map_cons, List.map_nil]
    decide
  · simp only [List.map_cons, List.map_nil]
    decide
  · simp only [List.forall_mem_cons]
    decide

/-- A count is read as it was written. -/
theorem rereads_count {n : JsNumber} {field : JsString} (h : isNonNegInt n = true) :
    assertNonNegInt (normalForm nfc (.num n)) field = .ok n := assertNonNegInt_num.mpr ⟨h, rfl⟩

theorem rereads_recursion (h : Exports nfc state) :
    ∃ s, Rereads nfc (normalForm nfc (payload state .recursionDepth)) .recursionDepth s := by
  have hcanonical := h.canonical .recursionDepth
  have hdistinct := distinct_members (h.distinct .recursionDepth)
  rw [payload, canonical_plain h.laws (by simp only [List.map_cons, List.map_nil]; decide)
    (by simp only [List.map_cons, List.map_nil]; decide)] at hcanonical
  simp only [List.forall_mem_cons] at hcanonical hdistinct
  have hc := canonical_record.mp hcanonical.1
  have hM := h.members hc hdistinct.1
  obtain ⟨r, hr, hok, hform⟩ := exists_reread (Q := fun n => isNonNegInt n = true) (g := some ∘ JsValue.num) hM hc
    (d := fun key v => assertNonNegInt v (js "recursion.max_depth" ++ js "." ++ key))
    (fun k n v hn hv _ => by
      obtain rfl := Option.some.inj hv
      have hok := h.accepted .recursionDepth (k, n) ((Record.own?_eq_some _).mp hn)
      exact ⟨n, rereads_count hok, rfl, hok⟩)
  rw [normalForm_recursion h.laws]
  refine ⟨{ state with recursion := ⟨r⟩ }, ?_, hok, ?_⟩
  · obtain ⟨es, hes, hfilled⟩ := (assigned_iff hM).mpr hr
    refine bind_eq_ok.mpr ⟨_, rfl, bind_eq_ok.mpr ⟨_, rfl, bind_eq_ok.mpr ⟨es, hes, ?_⟩⟩⟩
    rw [hfilled]
    rfl
  · rw [normalForm_recursion h.laws, ← normalForm_recordForm, hform]

theorem normalForm_counter (hn : NfcLaws nfc) (c : VelocityCounter) : normalForm nfc (counterPayload c) =
    .obj [(js "count", .num c.count), (js "window_start", .num c.windowStart)] := by
  rw [counterPayload, normalForm_plain hn _ (List.Perm.swap _ _ [])]
  · rfl
  · simp only [List.map_cons, List.map_nil]
    decide
  · simp only [List.map_cons, List.map_nil]
    decide
  · simp only [List.forall_mem_cons]
    decide

theorem normalForm_velocity (hn : NfcLaws nfc) (state : State) : normalForm nfc (payload state .velocity) =
    .obj [(js "config", .obj [(js "max_actions", .num state.velocity.config.maxActions),
        (js "window_seconds", .num state.velocity.config.windowSeconds)]),
      (js "counters", .obj (recordForm nfc state.velocity.counters (Option.map counterPayload)))] := by
  have hconfig : ∀ a b : JsNumber, normalForm nfc (.obj [(js "window_seconds", .num a), (js "max_actions", .num b)]) =
      .obj [(js "max_actions", .num b), (js "window_seconds", .num a)] := by
    intro a b
    rw [normalForm_plain hn _ (List.Perm.swap _ _ [])]
    · rfl
    · simp only [List.map_cons, List.map_nil]
      decide
    · simp only [List.map_cons, List.map_nil]
      decide
    · simp only [List.forall_mem_cons]
      decide
  rw [payload, velocityPayload, normalForm_plain hn _ (.refl _)]
  · simp only [List.map_cons, List.map_nil, hconfig, normalForm_recordForm]
  · simp only [List.map_cons, List.map_nil]
    decide
  · simp only [List.map_cons, List.map_nil]
    decide
  · simp only [List.forall_mem_cons]
    decide

theorem decodeCounter_payload {k : JsString} {c : VelocityCounter} (h : CounterOk c) :
    decodeCounter k (.obj [(js "count", .num c.count), (js "window_start", .num c.windowStart)]) = .ok c := by
  refine bind_eq_ok.mpr ⟨_, rfl, bind_eq_ok.mpr ⟨c.windowStart, ?_, bind_eq_ok.mpr ⟨c.count, ?_, rfl⟩⟩⟩
  · exact assertInt_num.mpr ⟨h.1, rfl⟩
  · exact assertNonNegInt_num.mpr ⟨h.2, rfl⟩

theorem isInteger_of_read {v : JsValue} {field : JsString} {n : JsNumber} (h : assertInt v field = .ok n) :
    n.isInteger = true := by
  cases v with
  | num m =>
    obtain ⟨hm, rfl⟩ := assertInt_num.mp h
    exact hm
  | _ => cases h

theorem rereads_velocity (h : Exports nfc state) :
    ∃ s, Rereads nfc (normalForm nfc (payload state .velocity)) .velocity s := by
  obtain ⟨-, hc⟩ := (canonical_velocity h.laws).mp (h.canonical .velocity)
  obtain ⟨hwindow, hactions, hcounters⟩ := h.accepted .velocity
  have hdistinct := distinct_members (h.distinct .velocity)
  simp only [List.forall_mem_cons] at hdistinct
  have hM := h.members hc hdistinct.2.1
  obtain ⟨r, hr, hok, hform⟩ := exists_reread (Q := fun c => ∀ c', c = some c' → CounterOk c')
    (g := Option.map counterPayload) hM hc (d := fun agent v => (decodeCounter agent v).map some)
    (fun k c v hk hv _ => by
      obtain ⟨c', rfl, rfl⟩ := Option.map_eq_some_iff.mp hv
      have hok := hcounters (k, some c') ((Record.own?_eq_some _).mp hk) c' rfl
      refine ⟨some c', map_eq_ok.mpr ⟨c', ?_, rfl⟩, rfl, fun c hc => Option.some.inj hc ▸ hok⟩
      rw [normalForm_counter h.laws]
      exact decodeCounter_payload hok)
  rw [normalForm_velocity h.laws]
  refine ⟨{ state with velocity := ⟨state.velocity.config, r⟩ }, ?_, ⟨hwindow, hactions, hok⟩, ?_⟩
  · obtain ⟨es, hes, hfilled⟩ := (assignedObjects_iff hM).mpr hr
    rw [decodeMembers_map, map_eq_ok] at hes
    obtain ⟨es', hes', rfl⟩ := hes
    refine bind_eq_ok.mpr ⟨_, rfl, bind_eq_ok.mpr ⟨_, rfl, bind_eq_ok.mpr ⟨_, rfl, bind_eq_ok.mpr ⟨es', hes', ?_⟩⟩⟩⟩
    refine bind_eq_ok.mpr ⟨state.velocity.config.windowSeconds, assertPosInt_num.mpr ⟨hwindow, rfl⟩, ?_⟩
    refine bind_eq_ok.mpr ⟨state.velocity.config.maxActions, assertNonNegInt_num.mpr ⟨hactions, rfl⟩, ?_⟩
    rw [hfilled]
    rfl
  · rw [normalForm_velocity h.laws, ← normalForm_recordForm, hform]

theorem insertionSort_eq_self_iff {α : Type} {r : α → α → Prop} [DecidableRel r] {l : List α}
    (h : StableSort.OrdersOn r l) : l.insertionSort r = l ↔ l.Pairwise r := by
  constructor
  · intro heq
    rw [← heq]
    exact StableSort.pairwise_insertionSort h
  · exact List.Pairwise.insertionSort_eq

theorem ordersOn_nonces {list : List NonceEntry} (h : ∀ x ∈ list, x.ts.isInteger = true) :
    StableSort.OrdersOn (fun a b : NonceEntry => nonceLe a b = true) list :=
  ordersOn_stamps (fun x : NonceEntry => (x.ts, x.nonce)) h

theorem normalForm_nonce (hn : NfcLaws nfc) (x : NonceEntry) :
    normalForm nfc (noncePayload x) = noncePayload (normalNonce nfc x) := by
  rw [noncePayload, normalForm_plain hn _ (.refl _)]
  · rfl
  · simp only [List.map_cons, List.map_nil]
    decide
  · simp only [List.map_cons, List.map_nil]
    decide
  · simp only [List.forall_mem_cons]
    decide

theorem normalForm_nonces (hn : NfcLaws nfc) (list : List NonceEntry) : normalForm nfc (noncesPayload list) =
    .arr (((sortNonces list).map (normalNonce nfc)).map noncePayload) := by
  rw [noncesPayload, normalForm, normalElements_eq_map, List.map_map, List.map_map]
  congr 1
  apply List.map_congr_left
  intro x _
  exact normalForm_nonce hn x

theorem noncePayload_injective : Function.Injective noncePayload := by
  intro a b h
  simp only [noncePayload, JsValue.obj.injEq, List.cons.injEq, Prod.mk.injEq, JsValue.str.injEq, JsValue.num.injEq,
    true_and, and_true] at h
  cases a
  cases b
  simp only [NonceEntry.mk.injEq]
  exact h

theorem decodeNonce_payload {path : JsString} {x : NonceEntry} (h : x.ts.isInteger = true) :
    decodeNonce path (noncePayload x) = .ok x := by
  refine bind_eq_ok.mpr ⟨_, rfl, bind_eq_ok.mpr ⟨x.ts, ?_, rfl⟩⟩
  exact assertInt_num.mpr ⟨h, rfl⟩

theorem mapM_indexed {α : Type} {f : ℕ → JsValue → Except JsError α} {g : α → JsValue} {l : List α}
    (h : ∀ x ∈ l, ∀ i, f i (g x) = .ok x) (n : ℕ) : ((l.map g).zipIdx n).mapM (fun p => f p.2 p.1) = .ok l := by
  induction l generalizing n with
  | nil => rfl
  | cons x l ih =>
    rw [List.map_cons, List.zipIdx_cons, mapM_cons_ok]
    exact ⟨x, l, h x List.mem_cons_self n, ih (fun y hy => h y (List.mem_cons_of_mem _ hy)) (n + 1), rfl⟩

theorem decodeNonces_payload {agent : JsString} {l l' : List NonceEntry} (h : ∀ x ∈ l, x.ts.isInteger = true) :
    decodeNonces agent (.arr (l.map noncePayload)) = .ok l' ↔ l.Nodup ∧ l' = sortNonces l := by
  have hread := mapM_indexed (f := fun i => decodeNonce (indexed (js "replay.nonces." ++ agent) i))
    (fun x hx i => decodeNonce_payload (h x hx)) 0
  rw [decodeNonces]
  simp only [bind_eq_ok, hread, Except.ok.injEq, exists_eq_left']
  by_cases hnd : l.Nodup
  · rw [if_pos (nodup_sortNonces.mpr hnd)]
    simp [hnd, pure, Except.pure, eq_comm]
  · rw [if_neg (mt nodup_sortNonces.mp hnd)]
    simp [hnd]

theorem noncesOk_of_read {agent : JsString} {v : JsValue} {list : List NonceEntry}
    (h : decodeNonces agent v = .ok list) : NoncesOk list := by
  cases v with
  | arr xs =>
    obtain ⟨entries, hentries, hlist⟩ := bind_eq_ok.mp h
    split at hlist
    · rename_i hnd
      obtain rfl := Except.ok.inj hlist
      refine ⟨fun x hx => ?_, hnd⟩
      rw [sortNonces, List.mem_insertionSort] at hx
      obtain ⟨p, -, hp⟩ := exists_mem_of_forall₂ (mapM_eq_ok.mp hentries) hx
      obtain ⟨_, -, hp⟩ := bind_eq_ok.mp hp
      split at hp
      · obtain ⟨ts, hts, hp⟩ := bind_eq_ok.mp hp
        obtain rfl := Except.ok.inj hp
        exact isInteger_of_read hts
      · cases hp
    · cases hlist
  | _ => cases h

/-- A list of nonces is read as it was written when normalization leaves it apart and in order. -/
theorem reread_nonces_iff (hn : NfcLaws nfc) {agent : JsString} {list : List NonceEntry}
    (h : ∀ x ∈ list, x.ts.isInteger = true) :
    (∃ y, decodeNonces agent (normalForm nfc (noncesPayload list)) = .ok y ∧
      ((some ∘ noncesPayload) y).map (normalForm nfc) = some (normalForm nfc (noncesPayload list))) ↔
    ((sortNonces list).map (normalNonce nfc)).Nodup ∧
      ((sortNonces list).map (normalNonce nfc)).Pairwise (fun a b => nonceLe a b) := by
  have hints : ∀ x ∈ (sortNonces list).map (normalNonce nfc), x.ts.isInteger = true := by
    intro x hx
    obtain ⟨y, hy, rfl⟩ := List.mem_map.mp hx
    rw [sortNonces, List.mem_insertionSort] at hy
    exact h y hy
  have hfixed : ∀ x ∈ (sortNonces list).map (normalNonce nfc), normalNonce nfc x = x := by
    intro x hx
    obtain ⟨y, -, rfl⟩ := List.mem_map.mp hx
    rw [normalNonce, normalNonce, hn.idem]
  rw [normalForm_nonces hn]
  generalize (sortNonces list).map (normalNonce nfc) = l at hints hfixed
  have hsame : normalForm nfc (noncesPayload (sortNonces l)) = .arr ((sortNonces l).map noncePayload) := by
    have htwice : sortNonces (sortNonces l) = sortNonces l :=
      List.Pairwise.insertionSort_eq (StableSort.pairwise_insertionSort (ordersOn_nonces hints))
    have hmap : (sortNonces l).map (normalNonce nfc) = sortNonces l := by
      conv_rhs => rw [← List.map_id (sortNonces l)]
      apply List.map_congr_left
      intro x hx
      rw [sortNonces, List.mem_insertionSort] at hx
      exact hfixed x hx
    rw [normalForm_nonces hn, htwice, hmap]
  have hsorted : sortNonces l = l ↔ l.Pairwise (fun a b => nonceLe a b) :=
    insertionSort_eq_self_iff (ordersOn_nonces hints)
  rw [← hsorted]
  constructor
  · rintro ⟨y, hy, hform⟩
    obtain ⟨hnd, rfl⟩ := (decodeNonces_payload hints).mp hy
    refine ⟨hnd, ?_⟩
    rw [Function.comp_apply, Option.map_some, hsame, Option.some.injEq, JsValue.arr.injEq] at hform
    exact List.map_injective_iff.mpr noncePayload_injective hform
  · rintro ⟨hnd, hl⟩
    refine ⟨sortNonces l, (decodeNonces_payload hints).mpr ⟨hnd, rfl⟩, ?_⟩
    rw [Function.comp_apply, Option.map_some, hsame, hl]

theorem normalForm_replay (hn : NfcLaws nfc) (state : State) : normalForm nfc (payload state .replay) =
    .obj [(js "max_nonces_per_agent", .num state.replay.maxNoncesPerAgent),
      (js "nonces", .obj (recordForm nfc state.replay.nonces (some ∘ noncesPayload))),
      (js "window_seconds", .num state.replay.windowSeconds)] := by
  have hrotate : ∀ a b c : JsValue, [(js "window_seconds", a), (js "max_nonces_per_agent", b), (js "nonces", c)].Perm
      [(js "max_nonces_per_agent", b), (js "nonces", c), (js "window_seconds", a)] :=
    fun a b c => (List.Perm.swap _ _ _).trans ((List.Perm.swap _ _ []).cons _)
  rw [payload, replayPayload, normalForm_plain hn _ (hrotate _ _ _)]
  · rfl
  · simp only [List.map_cons, List.map_nil]
    decide
  · simp only [List.map_cons, List.map_nil]
    decide
  · simp only [List.forall_mem_cons]
    decide

theorem deserializeReplay_iff {M : List (JsString × JsValue)} (hM : NormalMembers nfc M) {window maxNonces : JsNumber} :
    deserializeState (.obj [(js "max_nonces_per_agent", .num maxNonces), (js "nonces", .obj M),
      (js "window_seconds", .num window)]) .replay = .ok (s.part .replay) ↔
      decodeMembers (.obj M) decodeNonces = .ok s.replay.nonces.entries ∧
      (isPosInt window = true ∧ s.replay.windowSeconds = window) ∧
      isNonNegInt maxNonces = true ∧ s.replay.maxNoncesPerAgent = maxNonces := by
  rw [← assignedObjects_iff hM]
  have hobject : deserializeState (.obj [(js "max_nonces_per_agent", .num maxNonces), (js "nonces", .obj M),
      (js "window_seconds", .num window)]) .replay = (do
        let nonces ← decodeMembers (.obj M) decodeNonces
        let windowSeconds ← assertPosInt (.num window) (js "replay.window_seconds")
        let maxNonces ← assertNonNegInt (.num maxNonces) (js "replay.max_nonces_per_agent")
        return ⟨windowSeconds, maxNonces, .ofObjects nonces⟩) := rfl
  rw [hobject]
  simp only [bind_eq_ok, assertPosInt_num, assertNonNegInt_num, State.part, pure, Except.pure, Except.ok.injEq,
    ReplayPart.mk.injEq]
  constructor
  · rintro ⟨es, hes, _, ⟨hw, rfl⟩, _, ⟨hm, rfl⟩, hwindow, hmax, hfilled⟩
    exact ⟨⟨es, hes, hfilled⟩, ⟨hw, hwindow.symm⟩, hm, hmax.symm⟩
  · rintro ⟨⟨es, hes, hfilled⟩, ⟨hw, hwindow⟩, hm, hmax⟩
    exact ⟨es, hes, _, ⟨hw, rfl⟩, _, ⟨hm, rfl⟩, hwindow.symm, hmax.symm, hfilled⟩

theorem rereads_replay (h : Exports nfc state) :
    (∃ s, Rereads nfc (normalForm nfc (payload state .replay)) .replay s) ↔ ReadsBack nfc state .replay := by
  obtain ⟨-, -, hc⟩ := (canonical_replay h.laws).mp (h.canonical .replay)
  obtain ⟨hnonces, hwindow, hmax⟩ := h.accepted .replay
  have hdistinct := distinct_members (h.distinct .replay)
  simp only [List.forall_mem_cons] at hdistinct
  have hM := h.members hc hdistinct.2.2.1
  have hlists : (∃ r : Record (List NonceEntry),
      decodeMembers (.obj (recordForm nfc state.replay.nonces (some ∘ noncesPayload))) decodeNonces = .ok r.entries ∧
      normalForm nfc (buildObject (recordMembers r (some ∘ noncesPayload))) =
        .obj (recordForm nfc state.replay.nonces (some ∘ noncesPayload))) ↔ ReadsBack nfc state .replay := by
    rw [rereads_record hM hc]
    constructor
    · intro hall k list hk hlist
      have hints := (hnonces (k, list) ((Record.own?_eq_some _).mp hlist)).1
      exact (reread_nonces_iff h.laws hints).mp (hall k _ (written_some.mpr ⟨hk, list, hlist, rfl⟩))
    · intro hback k v hw
      obtain ⟨hk, list, hlist, hv⟩ := written_some.mp hw
      obtain rfl := Option.some.inj hv
      have hints := (hnonces (k, list) ((Record.own?_eq_some _).mp hlist)).1
      exact (reread_nonces_iff h.laws hints).mpr (hback k list hk hlist)
  rw [← hlists, normalForm_replay h.laws]
  constructor
  · rintro ⟨s, hs⟩
    obtain ⟨hread, -, -⟩ := (deserializeReplay_iff hM).mp hs.read
    have hform := hs.form
    rw [normalForm_replay h.laws] at hform
    simp only [JsValue.obj.injEq, List.cons.injEq, Prod.mk.injEq, true_and, and_true] at hform
    exact ⟨_, hread, congrArg JsValue.obj hform.2.1⟩
  · rintro ⟨r, hr, hform⟩
    have hok := forall_reread (Q := NoncesOk) hM hc hr fun _ _ _ _ hread => noncesOk_of_read hread
    refine ⟨{ state with replay := { state.replay with nonces := r } }, ?_, ⟨hok, hwindow, hmax⟩, ?_⟩
    · exact (deserializeReplay_iff hM).mpr ⟨hr, ⟨hwindow, rfl⟩, hmax, rfl⟩
    · rw [normalForm_replay h.laws, ← normalForm_recordForm, hform]

theorem normalForm_strings (names : List JsString) : normalForm nfc (stringArray names) = stringArray (names.map nfc) := by
  rw [stringArray, stringArray, normalForm, normalElements_eq_map, List.map_map, List.map_map]
  rfl

theorem asStringArray_strings (names : List JsString) (field : JsString) :
    asStringArray (stringArray names) field = .ok names := by
  rw [stringArray, asStringArray, mapM_eq_ok, List.forall₂_map_left_iff, List.forall₂_same]
  exact fun _ _ => rfl

theorem pairwise_sortKeys (keys : List JsString) : (sortKeys keys).Pairwise (· ≤ ·) :=
  List.pairwise_insertionSort (· ≤ ·) keys

theorem uniqSorted_eq_self_iff {names : List JsString} : uniqSorted names = names ↔ names.Pairwise (· < ·) := by
  constructor
  · intro h
    have hle := pairwise_sortKeys names.dedup
    have hnd : (sortKeys names.dedup).Nodup := (List.perm_insertionSort _ _).nodup_iff.mpr (List.nodup_dedup _)
    rw [← uniqSorted, h] at hle hnd
    exact (hle.and hnd).imp fun hab => lt_of_le_of_ne hab.1 hab.2
  · intro h
    have hnd : names.Nodup := h.imp fun hab => hab.ne
    rw [uniqSorted, hnd.dedup]
    exact List.Pairwise.insertionSort_eq (h.imp fun hab => hab.le)

theorem uniqSorted_idem (names : List JsString) : uniqSorted (uniqSorted names) = uniqSorted names := by
  have hle := pairwise_sortKeys names.dedup
  have hnd : (sortKeys names.dedup).Nodup := (List.perm_insertionSort _ _).nodup_iff.mpr (List.nodup_dedup _)
  exact uniqSorted_eq_self_iff.mpr ((hle.and hnd).imp fun hab => lt_of_le_of_ne hab.1 hab.2)

theorem mem_uniqSorted {names : List JsString} {name : JsString} : name ∈ uniqSorted names ↔ name ∈ names := by
  rw [uniqSorted, sortKeys, List.mem_insertionSort, List.mem_dedup]

theorem map_nfc_uniqSorted {names : List JsString} (h : ∀ name ∈ names, nfc name = name) :
    (uniqSorted names).map nfc = uniqSorted names := by
  conv_rhs => rw [← List.map_id (uniqSorted names)]
  exact List.map_congr_left fun name hname => h name (mem_uniqSorted.mp hname)

theorem isAscii_actionType (a : ActionType) : isAscii a.text = true := by
  cases a <;> decide

theorem normalForm_allowlists (hn : NfcLaws nfc) (state : State) : normalForm nfc (payload state .allowlist) =
    .obj [(js "action_types", stringArray (uniqSorted ((state.allowlists.actionTypes.getD []).map ActionType.text))),
      (js "assets", stringArray ((uniqSorted (state.allowlists.assets.getD [])).map nfc)),
      (js "targets", stringArray ((uniqSorted (state.allowlists.targets.getD [])).map nfc))] := by
  have hactions : ∀ name ∈ (state.allowlists.actionTypes.getD []).map ActionType.text, nfc name = name := by
    intro name hname
    obtain ⟨a, -, rfl⟩ := List.mem_map.mp hname
    exact hn.ascii _ (isAscii_actionType a)
  rw [payload, normalizeAllowlists, normalForm_plain hn _ (.refl _)]
  · simp only [List.map_cons, List.map_nil, normalForm_strings, map_nfc_uniqSorted hactions]
  · simp only [List.map_cons, List.map_nil]
    decide
  · simp only [List.map_cons, List.map_nil]
    decide
  · simp only [List.forall_mem_cons]
    decide

theorem deserializeAllowlists_eq {actions assets targets : List JsString} :
    deserializeState (.obj [(js "action_types", stringArray actions), (js "assets", stringArray assets),
      (js "targets", stringArray targets)]) .allowlist =
      .ok ⟨some (uniqSorted actions), some (uniqSorted assets), some (uniqSorted targets)⟩ := by
  refine bind_eq_ok.mpr ⟨_, rfl, bind_eq_ok.mpr ⟨actions, ?_, bind_eq_ok.mpr ⟨assets, ?_, bind_eq_ok.mpr ⟨targets, ?_, rfl⟩⟩⟩⟩
  · exact asStringArray_strings actions _
  · exact asStringArray_strings assets _
  · exact asStringArray_strings targets _

theorem exists_actionTypes (actions : List ActionType) :
    ∃ list : List ActionType, list.map ActionType.text = uniqSorted (actions.map ActionType.text) := by
  have hrange : uniqSorted (actions.map ActionType.text) ∈ Set.range (List.map ActionType.text) := by
    rw [Set.range_list_map]
    intro name hname
    obtain ⟨a, -, ha⟩ := List.mem_map.mp (mem_uniqSorted.mp hname)
    exact ⟨a, ha⟩
  exact hrange

theorem rereads_allowlists (hn : NfcLaws nfc) :
    (∃ s, Rereads nfc (normalForm nfc (payload state .allowlist)) .allowlist s) ↔ ReadsBack nfc state .allowlist := by
  have hfixed : ∀ names : List JsString, (uniqSorted (uniqSorted ((uniqSorted names).map nfc))).map nfc =
      uniqSorted ((uniqSorted names).map nfc) := by
    intro names
    rw [uniqSorted_idem]
    refine map_nfc_uniqSorted fun name hname => ?_
    obtain ⟨x, -, rfl⟩ := List.mem_map.mp hname
    exact hn.idem x
  have hstrings : Function.Injective stringArray := by
    intro a b hab
    exact List.map_injective_iff.mpr (fun _ _ h => JsValue.str.inj h) (JsValue.arr.inj hab)
  rw [normalForm_allowlists hn]
  constructor
  · rintro ⟨s, hs⟩
    have hread := hs.read
    have hform := hs.form
    rw [deserializeAllowlists_eq] at hread
    rw [normalForm_allowlists hn] at hform
    simp only [JsValue.obj.injEq, List.cons.injEq, Prod.mk.injEq, true_and, and_true] at hform
    have hpart := Except.ok.inj hread
    have hassets : some (uniqSorted _) = s.allowlists.assets := congrArg AllowListsPart.assets hpart
    have htargets : some (uniqSorted _) = s.allowlists.targets := congrArg AllowListsPart.targets hpart
    rw [← hassets, ← htargets, Option.getD_some, Option.getD_some, hfixed, hfixed] at hform
    have fassets := hstrings hform.2.1
    have ftargets := hstrings hform.2.2
    intro names hnames
    simp only [List.mem_cons, List.not_mem_nil, or_false] at hnames
    rcases hnames with rfl | rfl
    · exact uniqSorted_eq_self_iff.mp fassets
    · exact uniqSorted_eq_self_iff.mp ftargets
  · intro hback
    have hassets := uniqSorted_eq_self_iff.mpr (hback state.allowlists.assets (by simp))
    have htargets := uniqSorted_eq_self_iff.mpr (hback state.allowlists.targets (by simp))
    obtain ⟨actions, hactions⟩ := exists_actionTypes (state.allowlists.actionTypes.getD [])
    refine ⟨{ state with allowlists := ⟨some actions,
      some (uniqSorted ((uniqSorted (state.allowlists.assets.getD [])).map nfc)),
      some (uniqSorted ((uniqSorted (state.allowlists.targets.getD [])).map nfc))⟩ }, ?_, trivial, ?_⟩
    · rw [deserializeAllowlists_eq, uniqSorted_idem, ← hactions]
      rfl
    · rw [normalForm_allowlists hn]
      simp only [Option.getD_some, hactions, hfixed]
      rw [uniqSorted_idem, hassets, htargets]

end

end OxDeAI
