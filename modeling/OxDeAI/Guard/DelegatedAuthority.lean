import OxDeAI.Guard.CompleteMediation

/-! Delegated authority never widens: an accepted delegation is at most its parent
scope, and a delegated call executes within what is in effect. -/

namespace OxDeAI

open Js Async

section

variable {H : Host} {clock : JsNumber} {delegation child parent v : JsValue} {opts : VerifyDelegationOptions}
  {type : JsValue → Bool} {field : JsString}

theorem checkDelegationScope_passes (hdef : parent.isUndefined = false) :
    checkDelegationScope delegation parent = .ok [] ↔ ScopeTyped (delegation.field (js "scope")) ∧
      ScopeTyped parent ∧ checkScopeNarrowing (delegation.field (js "scope")) parent = .ok [] := by
  have hcond : (!parent.isUndefined && (scopeTypeViolations (delegation.field (js "scope")) (js "scope")).isEmpty &&
      (scopeTypeViolations parent (js "parentScope")).isEmpty) = true ↔
        ScopeTyped (delegation.field (js "scope")) ∧ ScopeTyped parent := by
    simp [hdef, scopeTypeViolations_eq_nil]
  have hissues : (if parent.isUndefined = true then [] else scopeTypeViolations parent (js "parentScope")) =
      scopeTypeViolations parent (js "parentScope") := if_neg (by simp [hdef])
  unfold checkDelegationScope
  dsimp only
  rw [hissues]
  by_cases htyped : ScopeTyped (delegation.field (js "scope")) ∧ ScopeTyped parent
  · rw [if_pos (hcond.mpr htyped), scopeTypeViolations_eq_nil.mpr htyped.1,
      scopeTypeViolations_eq_nil.mpr htyped.2, map_eq_ok]
    constructor
    · rintro ⟨narrowing, hnarrow, rfl⟩
      exact ⟨htyped.1, htyped.2, hnarrow⟩
    · rintro ⟨-, -, hnarrow⟩
      exact ⟨[], hnarrow, rfl⟩
  · rw [if_neg fun h => htyped (hcond.mp h)]
    constructor
    · intro h
      have hnil := Except.ok.inj h
      rw [List.append_eq_nil_iff, scopeTypeViolations_eq_nil, scopeTypeViolations_eq_nil] at hnil
      exact absurd hnil htyped
    · rintro ⟨hchild, hparent, -⟩
      exact absurd ⟨hchild, hparent⟩ htyped

/-- An accepted delegation resolves to an effective scope of the right types, no wider
than its parent. -/
theorem effective_of_accepted {r : VerificationResult} (h : verifyDelegation H clock delegation opts = .ok r)
    (hok : r.ok = true) (hdef : opts.parentScope.isUndefined = false) :
    ScopeTyped (delegation.field (js "scope")) ∧ ScopeTyped opts.parentScope ∧ ∃ effective,
      resolveEffectiveChildScope (delegation.field (js "scope")) opts.parentScope = .ok effective ∧
        NarrowerThan effective opts.parentScope := by
  obtain ⟨skew, hskew⟩ := exists_skew_of_verifyDelegationBy h
  have hholds := (verifyDelegationBy_accepts hskew).mp ⟨r, h, hok⟩
  obtain ⟨hchild, hparent, hnarrow⟩ := (checkDelegationScope_passes hdef).mp hholds.scope
  obtain ⟨effective, heff⟩ := exists_effective hchild.isRecord hparent.isRecord
  exact ⟨hchild, hparent, effective, heff, narrowerThan_of_checkScopeNarrowing hchild hparent hnarrow heff⟩

/-- What is in effect is of the field's type. -/
theorem inherited_of_defined (hc : optionally type (child.field field) = true)
    (hp : optionally type (parent.field field) = true) (hv : inheritField child parent field = .ok v)
    (hdef : v.isUndefined = false) : type v = true := by
  unfold inheritField at hv
  split at hv
  · cases hv
  · split at hv
    · cases hv
      exact optionally_of_defined hc hdef
    · split at hv
      · cases hv
      · cases hv
        exact optionally_of_defined hp hdef

/-- The action is one of the tools in effect, and its amount is within the limit in
effect. -/
structure Granted (effective : DelegationScope) (action intent : JsValue) : Prop where
  tools : effective.tools.isUndefined = false → ∃ (names : List JsString) (name : JsString),
    effective.tools = .arr (names.map .str) ∧ action.field (js "name") = .str name ∧ name ∈ names
  amount : ∃ amount : ℤ, intent.field (js "amount") = .bigint amount ∧ 0 ≤ amount ∧
    (effective.maxAmount.isUndefined = false → ∃ limit : ℤ, effective.maxAmount = .bigint limit ∧ amount ≤ limit)

theorem mem_of_includesName {names : List JsString} {name : JsValue}
    (h : includesName (.arr (names.map .str)) name = .ok true) : ∃ s, name = .str s ∧ s ∈ names := by
  have hany := Except.ok.inj h
  rw [List.any_map, List.any_eq_true] at hany
  obtain ⟨s, hmem, hsame⟩ := hany
  exact ⟨s, JsValue.strictEquals_str.mp hsame, hmem⟩

theorem granted_of_withinScope {action intent : JsValue} {amount : ℤ} {effective : DelegationScope}
    (hchild : ScopeTyped child) (hparent : ScopeTyped parent)
    (heff : resolveEffectiveChildScope child parent = .ok effective)
    (hamount : intent.field (js "amount") = .bigint amount) (h0 : 0 ≤ amount)
    (hwithin : WithinScope action effective amount) : Granted effective action intent := by
  obtain ⟨htools, hlimit, -, -⟩ := resolveEffectiveChildScope_ok.mp heff
  constructor
  · intro hdef
    have htype := inherited_of_defined hchild.tools hparent.tools htools hdef
    obtain ⟨names, hnames⟩ := isToolList_iff.mp htype
    have hincludes := hwithin.tools hdef
    rw [hnames] at hincludes
    obtain ⟨name, hname, hmem⟩ := mem_of_includesName hincludes
    exact ⟨names, name, hnames, hname, hmem⟩
  · refine ⟨amount, hamount, h0, fun hdef => ?_⟩
    have htype := inherited_of_defined hchild.maxAmount hparent.maxAmount hlimit hdef
    obtain ⟨limit, hlim, -⟩ := isAmount_iff.mp htype
    have hexceeds := hwithin.amount hdef
    rw [hlim] at hexceeds
    exact ⟨limit, hlim, by simpa [exceeds] using hexceeds⟩

end

theorem DelegatedCall.loaded_prefix {S V : Type} {cfg : GuardConfig} {action : JsValue} (d : DelegatedCall S V) :
    loadedHistory action d.state d.version d.intent <+: d.consumed cfg action := by
  simp only [DelegatedCall.consumed, DelegatedCall.delegationConsumed, DelegatedCall.cleared,
    DelegatedCall.presented, List.append_assoc]
  exact List.prefix_append _ _

/-- A cleared call is granted by the scope in effect, which is no wider than the parent's. -/
theorem DelegatedCall.Cleared.granted {S V : Type} {H : Host} {cfg : GuardConfig}
    {action delegationInput : JsValue} {d : DelegatedCall S V} (h : d.Cleared H cfg action delegationInput) :
    ∃ effective, resolveEffectiveChildScope ((delegationInput.field (js "delegation")).field (js "scope"))
      (delegationInput.field (js "parentScope")) = .ok effective ∧
        NarrowerThan effective (delegationInput.field (js "parentScope")) ∧ Granted effective action d.intent := by
  obtain ⟨snapshot, hsnapshot, hinput⟩ := h.snapshot
  obtain rfl := snapshotValue_eq hsnapshot
  obtain ⟨r, hr, hok⟩ := h.chain
  obtain ⟨-, effective, heff, hwithin⟩ := h.scope
  have hvalid := h.parentScope
  rw [hinput] at hr heff hvalid
  have hdef : (snapshot.field (js "parentScope")).isUndefined = false := by
    cases hscope : snapshot.field (js "parentScope") with
    | undefined => rw [hscope] at hvalid; cases hvalid
    | _ => rfl
  obtain ⟨-, haccepted⟩ := verifyDelegationChain_accepts hr hok
  obtain ⟨hchild, hparent, effective', heff', hnarrow⟩ := effective_of_accepted haccepted hok hdef
  obtain rfl := Except.ok.inj (heff.symm.trans heff')
  exact ⟨effective, heff, hnarrow, granted_of_withinScope hchild hparent heff h.amount.1 h.amount.2 hwithin⟩

/-- Accepted delegations only narrow, and delegated calls execute only what they grant. -/
theorem delegated_authority_never_widens (H : Host) :
    (∀ (clock : JsNumber) (delegation : JsValue) (opts : VerifyDelegationOptions) (r : VerificationResult),
      verifyDelegation H clock delegation opts = .ok r → r.ok = true → opts.parentScope.isUndefined = false →
        ∃ effective, resolveEffectiveChildScope (delegation.field (js "scope")) opts.parentScope = .ok effective ∧
          NarrowerThan effective opts.parentScope) ∧
    (∀ (σ S V : Type) (cfg : GuardConfig) (action delegationInput : JsValue) (evs : GuardHistory S V),
      delegationInput.isTruthy = true →
        Asks (guardCall H cfg action delegationInput : Prog σ (GuardRequest S V) GuardAnswer
          (Except Thrown JsValue)) evs .execute →
        ∃ (state : S) (version : V) (intent : JsValue) (effective : DelegationScope),
          loadedHistory action state version intent <+: evs ∧
          resolveEffectiveChildScope ((delegationInput.field (js "delegation")).field (js "scope"))
            (delegationInput.field (js "parentScope")) = .ok effective ∧
          NarrowerThan effective (delegationInput.field (js "parentScope")) ∧
          Granted effective action intent) := by
  constructor
  · intro clock delegation opts r h hok hdef
    exact (effective_of_accepted h hok hdef).2.2
  · intro σ S V cfg action delegationInput evs hdelegated hasks
    have hmediated := guardCall_follows.asks hasks
    rw [List.nil_append] at hmediated
    rcases hmediated with ⟨hstandard, -⟩ | ⟨-, d, hcleared, rfl⟩
    · rw [hstandard] at hdelegated
      cases hdelegated
    · obtain ⟨effective, heff, hnarrow, hgranted⟩ := hcleared.granted
      exact ⟨d.state, d.version, d.intent, effective, d.loaded_prefix.trans (List.prefix_append _ _), heff, hnarrow,
        hgranted⟩

def delegatedGuardConfig : GuardConfig where
  expectedAudience := js "agent-1"
  trustedDelegationAuthorities := some [⟨js "issuer-1", js "p1"⟩]
  audience := by decide

def samplePayment : JsValue := .obj [(js "name", .str (js "pay"))]

/-- The tools are inherited, and the amount is narrowed. -/
def sampleChildScope : JsValue := .obj [(js "max_amount", .bigint 5)]

def sampleParentScope : JsValue :=
  .obj [(js "tools", .arr [.str (js "pay")]), (js "max_amount", .bigint 10)]

def sampleDelegationInput (hash : JsString) : JsValue :=
  .obj [(js "delegation", sampleDelegation hash sampleChildScope), (js "parentAuth", sampleParent (js "agent-1")),
    (js "parentScope", sampleParentScope)]

def sampleDelegatedCall (hash : JsString) : DelegatedCall ℕ ℕ where
  state := 1
  version := 7
  intent := samplePaymentIntent
  amount := 5
  input := ⟨sampleDelegation hash sampleChildScope, sampleParent (js "agent-1"), sampleParentScope⟩
  authorities := [⟨js "issuer-1", js "p1"⟩]
  now := .int 1000
  keySets := [sampleKeySet]
  chainKeySets := some (.one sampleKeySet)
  status := .null
  confirmKeySets := []
  evidence := (.tampered, fun _ _ _ => .threw)

theorem chain_accepted_payment : ∃ hash r, verifyDelegationChain sampleHost (.int 1000)
    (sampleDelegation hash sampleChildScope) (sampleParent (js "agent-1"))
      (chainOptions delegatedGuardConfig (.int 1000) (some (.one sampleKeySet)) samplePaymentIntent
        sampleParentScope) = .ok r ∧ r.ok = true := by
  have hparent : Canonical sampleHost.nfc (toPublicAuthorizationV1 (sampleParent (js "agent-1"))) :=
    (isCanonical_iff _).mp (by decide)
  refine chain_accepted_sample rfl rfl rfl (fun hash => ?_) hparent (fun hash => ?_) (fun hash => ?_) rfl
  · have hid : isNfcText sampleHost.nfc (.str (js "d1")) = true := by decide
    have hfield : (sampleDelegation hash sampleChildScope).field (js "delegation_id") = .str (js "d1") := rfl
    have hdelegatee : (sampleDelegation hash sampleChildScope).field (js "delegatee") = .str (js "agent-2") := rfl
    rw [checkDelegationIdentity, hfield, hid, hdelegatee]
    rfl
  · rfl
  · exact (isCanonical_iff _).mp rfl

theorem sampleDelegatedCall_cleared : ∃ hash,
    (sampleDelegatedCall hash).Cleared sampleHost delegatedGuardConfig samplePayment
      (sampleDelegationInput hash) := by
  obtain ⟨hash, hchain⟩ := chain_accepted_payment
  have hverified : StrictlyVerified sampleHost delegatedGuardConfig (.int 1000) [sampleKeySet]
      (some [⟨js "issuer-1", js "p1"⟩]) (issuedAuthorization (js "agent-1") (js "11")) := by
    refine issuedAuthorization_verified (by decide) fun trusted h => ?_
    rw [← Option.some.inj h]
    exact List.mem_singleton.mpr rfl
  refine ⟨hash, {
    agent := rfl
    snapshot := ⟨_, rfl, rfl⟩
    complete := ⟨rfl, rfl⟩
    amount := ⟨rfl, show (0 : ℤ) ≤ 5 by decide⟩
    authorities := rfl
    parentScope := rfl
    trust := nofun
    parent := hverified
    chain := hchain
    scope := ⟨rfl, ⟨.arr [.str (js "pay")], .bigint 5, .undefined, .undefined⟩, rfl, ?_, ?_⟩
    unrevoked := ⟨nofun, nofun, nofun⟩ }⟩
  · exact fun _ => rfl
  · exact fun _ => rfl

theorem delegated_authority_never_widens_sample : ∃ (hash : JsString) (effective : DelegationScope)
    (intent : JsValue), resolveEffectiveChildScope sampleChildScope sampleParentScope = .ok effective ∧
      NarrowerThan effective sampleParentScope ∧ Granted effective samplePayment intent ∧
      ∃ r, verifyDelegation sampleHost (.int 1000) (sampleDelegation hash sampleChildScope)
        (chainOptions delegatedGuardConfig (.int 1000) (some (.one sampleKeySet)) samplePaymentIntent
          sampleParentScope) = .ok r := by
  obtain ⟨hash, hcleared⟩ := sampleDelegatedCall_cleared
  have hasks : Asks (guardCall sampleHost delegatedGuardConfig samplePayment (sampleDelegationInput hash) :
      Prog Unit (GuardRequest ℕ ℕ) GuardAnswer (Except Thrown JsValue))
        ((sampleDelegatedCall hash).consumed delegatedGuardConfig samplePayment ++
          gateHistory delegatedGuardConfig samplePayment (sampleDelegatedCall hash).input.parentAuth) .execute :=
    guardCall_asks_delegated rfl hcleared
  obtain ⟨r, hr, hok⟩ := hcleared.chain
  obtain ⟨-, haccepted⟩ := verifyDelegationChain_accepts hr hok
  obtain ⟨effective, heff, hnarrow⟩ :=
    (delegated_authority_never_widens sampleHost).1 _ _ _ r haccepted hok rfl
  obtain ⟨_, _, intent, effective', -, heff', -, hgranted⟩ :=
    (delegated_authority_never_widens sampleHost).2 Unit ℕ ℕ _ _ _ _ rfl hasks
  obtain rfl := Except.ok.inj (heff.symm.trans heff')
  exact ⟨hash, effective, intent, heff, hnarrow, hgranted, r, haccepted⟩

end OxDeAI
