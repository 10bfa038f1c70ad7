import OxDeAI.Engine.IntentHash
import OxDeAI.Snapshot.Alike

/-! States whose names normalization keeps: equal normal forms mean that they say the same. -/

namespace OxDeAI

open Js

/-- Normalization keeps the keys, none of which sets a prototype. -/
def PlainRecord {α : Type} (nfc : JsString → JsString) (p : α → Prop) (r : Record α) : Prop :=
  ∀ k x, r.own? k = some x → (k ≠ protoKey ∧ nfc k = k) ∧ p x

def PlainNonces (nfc : JsString → JsString) (list : List NonceEntry) : Prop := ∀ x ∈ list, nfc x.nonce = x.nonce

def PlainTools (nfc : JsString → JsString) (tools : Option (Record (Option JsNumber))) : Prop :=
  ∃ caps, tools = some caps ∧ PlainRecord nfc (fun cap => ∃ n, cap = some n) caps

def PlainCalls (nfc : JsString → JsString) (calls : Option (List ToolCall)) : Prop :=
  ∃ list, calls = some list ∧ ∀ x ∈ list, x.tool.map nfc = x.tool

/-- A state as an import makes it: no entry is undefined, and normalization keeps every name. -/
structure Plain (nfc : JsString → JsString) (s : State) : Prop where
  switches : PlainRecord nfc (fun _ => True) s.killSwitch.agents
  assets : ∀ name ∈ s.allowlists.assets.getD [], nfc name = name
  targets : ∀ name ∈ s.allowlists.targets.getD [], nfc name = name
  budgetLimit : PlainRecord nfc (fun _ => True) s.budget.budgetLimit
  spentInPeriod : PlainRecord nfc (fun _ => True) s.budget.spentInPeriod
  maxAmountPerAction : PlainRecord nfc (fun cap => ∃ z, cap = some z) s.maxAmountPerAction
  counters : PlainRecord nfc (fun counter => ∃ c, counter = some c) s.velocity.counters
  nonces : PlainRecord nfc (PlainNonces nfc) s.replay.nonces
  maxConcurrent : PlainRecord nfc (fun _ => True) s.concurrency.maxConcurrent
  active : PlainRecord nfc (fun _ => True) s.concurrency.active
  activeAuths : PlainRecord nfc (PlainRecord nfc fun _ => True) s.concurrency.activeAuths
  maxDepth : PlainRecord nfc (fun _ => True) s.recursion.maxDepth
  maxCalls : PlainRecord nfc (fun cap => ∃ n, cap = some n) s.toolLimits.maxCalls
  maxCallsByTool : PlainRecord nfc (PlainTools nfc) (s.toolLimits.maxCallsByTool.getD Record.empty)
  calls : PlainRecord nfc (PlainCalls nfc) s.toolLimits.calls

section

variable {nfc : JsString → JsString} {s s' : State}

section

variable {α : Type} {r r' : Record α} {g : α → Option JsValue} {p : α → Prop}

theorem own?_of_form (hc : CanonicalRecord nfc r g) (hc' : CanonicalRecord nfc r' g) (hr : PlainRecord nfc p r)
    (hr' : PlainRecord nfc p r') (hg : ∀ x, p x → ∃ v, g x = some v) (h : recordForm nfc r g = recordForm nfc r' g)
    {k : JsString} {x : α} (hx : r.own? k = some x) : ∃ x' v v', r'.own? k = some x' ∧ g x = some v ∧ g x' = some v' ∧
      Canonical nfc v ∧ Canonical nfc v' ∧ normalForm nfc v = normalForm nfc v' := by
  obtain ⟨⟨hne, hkey⟩, hp⟩ := hr k x hx
  obtain ⟨v, hv⟩ := hg x hp
  have hw : written r g k = some v := written_some.mpr ⟨hne, x, hx, hv⟩
  have hmem : (nfc k, normalForm nfc v) ∈ recordForm nfc r' g := h ▸ (mem_recordForm hc).mpr ⟨k, v, hw, rfl⟩
  obtain ⟨k', v', hw', hpair⟩ := (mem_recordForm hc').mp hmem
  obtain ⟨-, x', hx', hv'⟩ := written_some.mp hw'
  obtain ⟨hkey', hform⟩ := Prod.mk.inj hpair
  have hk : k' = k := by rw [← (hr' k' x' hx').1.2, hkey', hkey]
  rw [hk] at hx' hw'
  exact ⟨x', v, v', hx', hv, hv', hc.value k v hw, hc'.value k v' hw', hform.symm⟩

/-- Plain records of one normal form are the same, up to what the normal form of a value tells. -/
theorem sameRecord_of_form (hc : CanonicalRecord nfc r g) (hc' : CanonicalRecord nfc r' g) (hr : PlainRecord nfc p r)
    (hr' : PlainRecord nfc p r') (hg : ∀ x, p x → ∃ v, g x = some v) {R : α → α → Prop}
    (hR : ∀ x x' v v', p x → p x' → g x = some v → g x' = some v' → Canonical nfc v → Canonical nfc v' →
      normalForm nfc v = normalForm nfc v' → R x x')
    (h : recordForm nfc r g = recordForm nfc r' g) : SameRecord R r r' := by
  intro k
  cases hx : r.own? k with
  | none =>
    cases hx' : r'.own? k with
    | none => exact .none
    | some x' =>
      obtain ⟨x, _, _, hown, -⟩ := own?_of_form hc' hc hr' hr hg h.symm hx'
      rw [hx] at hown
      cases hown
  | some x =>
    obtain ⟨x', v, v', hx', hv, hv', hcan, hcan', hform⟩ := own?_of_form hc hc' hr hr' hg h hx
    rw [hx']
    exact .some (hR x x' v v' (hr k x hx).2 (hr' k x' hx').2 hv hv' hcan hcan' hform)

/-- Records of values that their normal forms determine. -/
theorem sameRecord_of_values {f : α → JsValue} (hf : ∀ x x', normalForm nfc (f x) = normalForm nfc (f x') → x = x')
    (hc : CanonicalRecord nfc r (some ∘ f)) (hc' : CanonicalRecord nfc r' (some ∘ f)) (hr : PlainRecord nfc p r)
    (hr' : PlainRecord nfc p r') (h : recordForm nfc r (some ∘ f) = recordForm nfc r' (some ∘ f)) :
    SameRecord (· = ·) r r' := by
  refine sameRecord_of_form hc hc' hr hr' (fun x _ => ⟨f x, rfl⟩) ?_ h
  intro x x' v v' _ _ hv hv' _ _ hform
  obtain rfl := Option.some.inj hv
  obtain rfl := Option.some.inj hv'
  exact hf x x' hform

theorem sameRecord_of_options {β : Type} {r r' : Record (Option β)} {f : β → JsValue}
    (hf : ∀ x x', normalForm nfc (f x) = normalForm nfc (f x') → x = x')
    (hc : CanonicalRecord nfc r (Option.map f)) (hc' : CanonicalRecord nfc r' (Option.map f))
    (hr : PlainRecord nfc (fun o => ∃ x, o = some x) r) (hr' : PlainRecord nfc (fun o => ∃ x, o = some x) r')
    (h : recordForm nfc r (Option.map f) = recordForm nfc r' (Option.map f)) : SameRecord (· = ·) r r' := by
  refine sameRecord_of_form hc hc' hr hr' (fun o ⟨x, hx⟩ => ⟨f x, by rw [hx]; rfl⟩) ?_ h
  rintro o o' v v' ⟨x, rfl⟩ ⟨x', rfl⟩ hv hv' - - hform
  obtain rfl := Option.some.inj hv
  obtain rfl := Option.some.inj hv'
  rw [hf x x' hform]

end

theorem canonical_member {es : List (JsString × JsValue)} (h : Canonical nfc (.obj es)) {e : JsString × JsValue}
    (he : e ∈ es) : Canonical nfc e.2 := by
  cases h with
  | obj _ hmembers => exact hmembers e he

theorem amount_of_form (hn : NfcLaws nfc) (z z' : ℤ) (h : normalForm nfc (amountText z) = normalForm nfc (amountText z')) :
    z = z' := by
  rw [normalForm_amount hn, normalForm_amount hn] at h
  exact decimal_inj (JsValue.str.inj h)

theorem bool_of_form (b b' : Bool) (h : normalForm nfc (.bool b) = normalForm nfc (.bool b')) : b = b' := JsValue.bool.inj h

theorem num_of_form (n n' : JsNumber) (h : normalForm nfc (.num n) = normalForm nfc (.num n')) : n = n' := JsValue.num.inj h

theorem counter_of_form (hn : NfcLaws nfc) (c c' : VelocityCounter)
    (h : normalForm nfc (counterPayload c) = normalForm nfc (counterPayload c')) : c = c' := by
  rw [normalForm_counter hn, normalForm_counter hn] at h
  simp only [JsValue.obj.injEq, List.cons.injEq, Prod.mk.injEq, JsValue.num.injEq, true_and, and_true] at h
  cases c
  cases c'
  simp only [VelocityCounter.mk.injEq]
  exact ⟨h.2, h.1⟩

theorem lease_of_form (hn : NfcLaws nfc) (l l' : Lease) (h : normalForm nfc (leasePayload l) = normalForm nfc (leasePayload l')) :
    l = l' := by
  rw [normalForm_lease hn, normalForm_lease hn] at h
  simp only [leasePayload, JsValue.obj.injEq, List.cons.injEq, Prod.mk.injEq, JsValue.num.injEq, true_and, and_true] at h
  cases l
  cases l'
  exact congrArg Lease.mk h

theorem map_eq_self {α : Type} {f : α → α} {l : List α} (h : ∀ x ∈ l, f x = x) : l.map f = l :=
  (List.map_congr_left h).trans l.map_id

theorem map_sortNonces {list : List NonceEntry} (h : PlainNonces nfc list) :
    (sortNonces list).map (normalNonce nfc) = sortNonces list := by
  apply map_eq_self
  intro x hx
  have hname := h x ((List.mem_insertionSort _).mp hx)
  rw [normalNonce, hname]

theorem map_sortCalls {list : List ToolCall} (h : ∀ x ∈ list, x.tool.map nfc = x.tool) :
    (sortCalls list).map (normalCall nfc) = sortCalls list := by
  apply map_eq_self
  intro x hx
  have hname := h x ((List.mem_insertionSort _).mp hx)
  rw [normalCall, hname]

theorem nonces_of_form (hn : NfcLaws nfc) {list list' : List NonceEntry} (hl : PlainNonces nfc list)
    (hl' : PlainNonces nfc list') (h : normalForm nfc (noncesPayload list) = normalForm nfc (noncesPayload list')) :
    list.Perm list' := by
  rw [normalForm_nonces hn, normalForm_nonces hn, map_sortNonces hl, map_sortNonces hl'] at h
  have hsort : sortNonces list = sortNonces list' := List.map_injective_iff.mpr noncePayload_injective (JsValue.arr.inj h)
  have hperm := List.perm_insertionSort (fun a b : NonceEntry => nonceLe a b = true) list
  rw [← sortNonces, hsort] at hperm
  exact hperm.symm.trans (List.perm_insertionSort _ list')

theorem calls_of_form (hn : NfcLaws nfc) {list list' : List ToolCall} (hl : ∀ x ∈ list, x.tool.map nfc = x.tool)
    (hl' : ∀ x ∈ list', x.tool.map nfc = x.tool)
    (h : normalForm nfc (callsPayload (some list)) = normalForm nfc (callsPayload (some list'))) : list.Perm list' := by
  rw [normalForm_calls hn, normalForm_calls hn, Option.getD_some, Option.getD_some, map_sortCalls hl, map_sortCalls hl'] at h
  have hsort : sortCalls list = sortCalls list' := List.map_injective_iff.mpr toolCallForm_injective (JsValue.arr.inj h)
  have hperm := List.perm_insertionSort (fun a b : ToolCall => toolCallLe a b = true) list
  rw [← sortCalls, hsort] at hperm
  exact hperm.symm.trans (List.perm_insertionSort _ list')

theorem strings_injective {names names' : List JsString} (h : stringArray names = stringArray names') : names = names' :=
  List.map_injective_iff.mpr (fun _ _ => JsValue.str.inj) (JsValue.arr.inj h)

theorem mem_of_uniqSorted {names names' : List JsString} (h : uniqSorted names = uniqSorted names') (v : JsString) :
    v ∈ names ↔ v ∈ names' := by
  rw [← mem_uniqSorted, h, mem_uniqSorted]

theorem plain_agent (h : Plain nfc s) {agent : JsString} (hagent : agent ∈ concurrencyAgents s.concurrency) :
    agent ≠ protoKey ∧ nfc agent = agent := by
  rcases mem_concurrencyAgents_iff.mp hagent with hown | hown | hown
  · obtain ⟨x, hx⟩ := Option.ne_none_iff_exists'.mp hown
    exact (h.maxConcurrent agent x hx).1
  · obtain ⟨x, hx⟩ := Option.ne_none_iff_exists'.mp hown
    exact (h.active agent x hx).1
  · obtain ⟨x, hx⟩ := Option.ne_none_iff_exists'.mp hown
    exact (h.activeAuths agent x hx).1

theorem plain_table (h : Plain nfc s) {α : Type} {p : α → Prop} {f : JsString → α} (hf : ∀ agent, p (f agent)) :
    PlainRecord nfc p (table (concurrencyAgents s.concurrency) (nodup_concurrencyAgents _) f) := by
  intro k x hx
  obtain ⟨hmem, rfl⟩ := own?_table.mp hx
  exact ⟨plain_agent h hmem, hf k⟩

theorem plain_counts (h : Plain nfc s) (f : JsString → JsNumber) :
    PlainRecord nfc (fun _ => True) (table (concurrencyAgents s.concurrency) (nodup_concurrencyAgents _) f) :=
  plain_table h fun _ => trivial

theorem plain_leases (h : Plain nfc s) (agent : JsString) :
    PlainRecord nfc (fun _ => True) (listedLeases s.concurrency agent) := by
  rw [listedLeases_eq]
  cases hown : s.concurrency.activeAuths.own? agent with
  | none =>
    intro k x hx
    cases hx
  | some auths => exact (h.activeAuths agent auths hown).2

theorem sameLeases_of_form (hn : NfcLaws nfc) {auths auths' : Record Lease} (hp : PlainRecord nfc (fun _ => True) auths)
    (hp' : PlainRecord nfc (fun _ => True) auths') (hc : Canonical nfc (leasesPayload auths))
    (hc' : Canonical nfc (leasesPayload auths')) (h : normalForm nfc (leasesPayload auths) = normalForm nfc (leasesPayload auths')) :
    SameRecord (· = ·) auths auths' :=
  sameRecord_of_values (lease_of_form hn) (canonical_record.mp hc) (canonical_record.mp hc') hp hp' (JsValue.obj.inj h)

theorem sameTools_of_form {caps caps' : Record (Option JsNumber)} (hp : PlainRecord nfc (fun cap => ∃ n, cap = some n) caps)
    (hp' : PlainRecord nfc (fun cap => ∃ n, cap = some n) caps') (hc : Canonical nfc (toolsPayload (some caps)))
    (hc' : Canonical nfc (toolsPayload (some caps')))
    (h : normalForm nfc (toolsPayload (some caps)) = normalForm nfc (toolsPayload (some caps'))) :
    SameRecord (· = ·) caps caps' :=
  sameRecord_of_options num_of_form (canonical_record.mp hc) (canonical_record.mp hc') hp hp' (JsValue.obj.inj h)

section

variable (hn : NfcLaws nfc) (hp : Plain nfc s) (hp' : Plain nfc s')

include hn hp hp'

theorem sameConcurrency_of_form (hc : Canonical nfc (payload s .concurrency)) (hc' : Canonical nfc (payload s' .concurrency))
    (h : normalForm nfc (payload s .concurrency) = normalForm nfc (payload s' .concurrency)) :
    SameConcurrency s.concurrency.listed s'.concurrency.listed := by
  rw [normalForm_concurrency hn, normalForm_concurrency hn] at h
  simp only [JsValue.obj.injEq, List.cons.injEq, Prod.mk.injEq, true_and, and_true] at h
  obtain ⟨hactive, hauths, hmax⟩ := h
  rw [payload_concurrency] at hc hc'
  have cmax := canonical_record.mp (canonical_member hc List.mem_cons_self)
  have cmax' := canonical_record.mp (canonical_member hc' List.mem_cons_self)
  have cactive := canonical_record.mp (canonical_member hc (List.mem_cons_of_mem _ List.mem_cons_self))
  have cactive' := canonical_record.mp (canonical_member hc' (List.mem_cons_of_mem _ List.mem_cons_self))
  have cauths := canonical_record.mp
    (canonical_member hc (List.mem_cons_of_mem _ (List.mem_cons_of_mem _ List.mem_cons_self)))
  have cauths' := canonical_record.mp
    (canonical_member hc' (List.mem_cons_of_mem _ (List.mem_cons_of_mem _ List.mem_cons_self)))
  refine ⟨sameRecord_of_values num_of_form cmax cmax' (plain_counts hp _) (plain_counts hp' _) hmax,
    sameRecord_of_values num_of_form cactive cactive' (plain_counts hp _) (plain_counts hp' _) hactive, ?_⟩
  refine sameRecord_of_form cauths cauths' (plain_table hp (plain_leases hp)) (plain_table hp' (plain_leases hp'))
    (fun auths _ => ⟨leasesPayload auths, rfl⟩) ?_ hauths
  intro auths auths' v v' hplain hplain' hv hv' hcan hcan' hform
  obtain rfl := Option.some.inj hv
  obtain rfl := Option.some.inj hv'
  exact sameLeases_of_form hn hplain hplain' hcan hcan' hform

theorem sameToolState_of_form (hc : Canonical nfc (payload s .toolAmplification))
    (hc' : Canonical nfc (payload s' .toolAmplification))
    (h : normalForm nfc (payload s .toolAmplification) = normalForm nfc (payload s' .toolAmplification)) :
    SameToolState s.toolLimits.listed s'.toolLimits.listed := by
  obtain ⟨-, cmax, cby, ccalls⟩ := (canonical_toolLimits hn).mp hc
  obtain ⟨-, cmax', cby', ccalls'⟩ := (canonical_toolLimits hn).mp hc'
  rw [normalForm_toolLimits hn, normalForm_toolLimits hn] at h
  simp only [JsValue.obj.injEq, List.cons.injEq, Prod.mk.injEq, JsValue.num.injEq, true_and, and_true] at h
  obtain ⟨hcalls, hmax, hby, hwindow⟩ := h
  refine ⟨hwindow, sameRecord_of_options num_of_form cmax cmax' hp.maxCalls hp'.maxCalls hmax, .some ?_, ?_⟩
  · refine sameRecord_of_form cby cby' hp.maxCallsByTool hp'.maxCallsByTool (fun tools _ => ⟨toolsPayload tools, rfl⟩) ?_ hby
    rintro tools tools' v v' ⟨caps, rfl, hcaps⟩ ⟨caps', rfl, hcaps'⟩ hv hv' hcan hcan' hform
    obtain rfl := Option.some.inj hv
    obtain rfl := Option.some.inj hv'
    exact .some (sameTools_of_form hcaps hcaps' hcan hcan' hform)
  · refine sameRecord_of_form ccalls ccalls' hp.calls hp'.calls (fun calls _ => ⟨callsPayload calls, rfl⟩) ?_ hcalls
    rintro calls calls' v v' ⟨list, rfl, hlist⟩ ⟨list', rfl, hlist'⟩ hv hv' - - hform
    obtain rfl := Option.some.inj hv
    obtain rfl := Option.some.inj hv'
    exact .some (calls_of_form hn hlist hlist' hform)

theorem alikeAllowLists_of_form (h : normalForm nfc (payload s .allowlist) = normalForm nfc (payload s' .allowlist)) :
    AlikeAllowLists s.allowlists s'.allowlists := by
  rw [normalForm_allowlists hn, normalForm_allowlists hn] at h
  simp only [JsValue.obj.injEq, List.cons.injEq, Prod.mk.injEq, true_and, and_true] at h
  obtain ⟨hactions, hassets, htargets⟩ := h
  rw [map_nfc_uniqSorted hp.assets, map_nfc_uniqSorted hp'.assets] at hassets
  rw [map_nfc_uniqSorted hp.targets, map_nfc_uniqSorted hp'.targets] at htargets
  refine ⟨fun a => ?_, mem_of_uniqSorted (strings_injective hassets), mem_of_uniqSorted (strings_injective htargets)⟩
  have hmem := mem_of_uniqSorted (strings_injective hactions) a.text
  have htext : ∀ names : List ActionType, a.text ∈ names.map ActionType.text ↔ a ∈ names := by
    intro names
    rw [List.mem_map]
    constructor
    · rintro ⟨b, hb, heq⟩
      rwa [← ActionType.text_inj heq]
    · exact fun ha => ⟨a, ha, rfl⟩
  rwa [htext, htext] at hmem

/-- Plain states of one version and one normal form say the same. -/
theorem alike_of_forms (hversion : s.policyVersion = s'.policyVersion) (hc : ∀ id, Canonical nfc (payload s id))
    (hc' : ∀ id, Canonical nfc (payload s' id)) (h : ∀ id, normalForm nfc (payload s id) = normalForm nfc (payload s' id)) :
    Alike s s' := by
  obtain ⟨climit, cspent, ccap⟩ := (canonical_budget hn).mp (hc .budget)
  obtain ⟨climit', cspent', ccap'⟩ := (canonical_budget hn).mp (hc' .budget)
  obtain ⟨-, ccounters⟩ := (canonical_velocity hn).mp (hc .velocity)
  obtain ⟨-, ccounters'⟩ := (canonical_velocity hn).mp (hc' .velocity)
  have cswitches := canonical_record.mp (canonical_member (hc .killSwitch) (List.mem_cons_of_mem _ List.mem_cons_self))
  have cswitches' := canonical_record.mp (canonical_member (hc' .killSwitch) (List.mem_cons_of_mem _ List.mem_cons_self))
  have cdepths := canonical_record.mp (canonical_member (hc .recursionDepth) List.mem_cons_self)
  have cdepths' := canonical_record.mp (canonical_member (hc' .recursionDepth) List.mem_cons_self)
  have cnonces := canonical_record.mp
    (canonical_member (hc .replay) (List.mem_cons_of_mem _ (List.mem_cons_of_mem _ List.mem_cons_self)))
  have cnonces' := canonical_record.mp
    (canonical_member (hc' .replay) (List.mem_cons_of_mem _ (List.mem_cons_of_mem _ List.mem_cons_self)))
  have hkill := h .killSwitch
  have hbudget := h .budget
  have hvelocity := h .velocity
  have hreplay := h .replay
  have hdepths := h .recursionDepth
  rw [normalForm_killSwitch hn, normalForm_killSwitch hn] at hkill
  rw [normalForm_budget hn, normalForm_budget hn] at hbudget
  rw [normalForm_velocity hn, normalForm_velocity hn] at hvelocity
  rw [normalForm_replay hn, normalForm_replay hn] at hreplay
  rw [normalForm_recursion hn, normalForm_recursion hn] at hdepths
  simp only [JsValue.obj.injEq, List.cons.injEq, Prod.mk.injEq, JsValue.num.injEq, JsValue.bool.injEq, true_and, and_true]
    at hkill hbudget hvelocity hreplay hdepths
  obtain ⟨hswitches, hglobal⟩ := hkill
  obtain ⟨hlimit, hcap, hspent⟩ := hbudget
  obtain ⟨⟨hactions, hwindow⟩, hcounters⟩ := hvelocity
  obtain ⟨hmaxNonces, hnonces, hreplayWindow⟩ := hreplay
  refine {
    policyVersion := hversion
    killSwitch := ⟨hglobal, sameRecord_of_values bool_of_form cswitches cswitches' hp.switches hp'.switches hswitches⟩
    allowlists := alikeAllowLists_of_form hn hp hp' (h .allowlist)
    budget := ⟨sameRecord_of_values (amount_of_form hn) climit climit' hp.budgetLimit hp'.budgetLimit hlimit,
      sameRecord_of_values (amount_of_form hn) cspent cspent' hp.spentInPeriod hp'.spentInPeriod hspent⟩
    maxAmountPerAction :=
      sameRecord_of_options (amount_of_form hn) ccap ccap' hp.maxAmountPerAction hp'.maxAmountPerAction hcap
    velocity := ⟨?_, sameRecord_of_options (counter_of_form hn) ccounters ccounters' hp.counters hp'.counters hcounters⟩
    replay := ⟨hreplayWindow, hmaxNonces, ?_⟩
    concurrency := ?_
    recursion := sameRecord_of_values num_of_form cdepths cdepths' hp.maxDepth hp'.maxDepth hdepths
    toolLimits := sameToolState_of_form hn hp hp' (hc _) (hc' _) (h _) }
  · cases hconfig : s.velocity.config
    cases hconfig' : s'.velocity.config
    simp only [hconfig, hconfig'] at hactions hwindow
    rw [hactions, hwindow]
  · refine sameRecord_of_form cnonces cnonces' hp.nonces hp'.nonces (fun list _ => ⟨noncesPayload list, rfl⟩) ?_ hnonces
    intro list list' v v' hlist hlist' hv hv' _ _ hform
    obtain rfl := Option.some.inj hv
    obtain rfl := Option.some.inj hv'
    exact nonces_of_form hn hlist hlist' hform
  · have hlisted := (sameConcurrency_of_form hn hp hp' (hc _) (hc' _) (h _)).alike
    exact ((alikeConcurrency_listed _).trans hlisted).trans (alikeConcurrency_listed _).symm

end

end

end OxDeAI
