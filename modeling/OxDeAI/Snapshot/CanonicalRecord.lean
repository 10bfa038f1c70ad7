import OxDeAI.Core.CanonicalFields
import OxDeAI.Snapshot.Payload

/-! When canonical JSON accepts the object a codec writes for a record, and when it
still does after an entry is set. -/

namespace OxDeAI

open Js

section

variable {α : Type} {nfc : JsString → JsString} {r : Record α} {g : α → Option JsValue}

/-- The member a codec writes under a key. -/
def written (r : Record α) (g : α → Option JsValue) (key : JsString) : Option JsValue :=
  if key = protoKey then none else (r.own? key).bind g

/-- The members keep apart under normalization, and one called `ts` is a timestamp. -/
structure CanonicalRecord (nfc : JsString → JsString) (r : Record α) (g : α → Option JsValue) : Prop where
  value : ∀ k v, written r g k = some v → Canonical nfc v
  timestamp : ∀ k v, written r g k = some v → nfc k = tsKey → isTimestamp v = true
  apart : ∀ k k' v v', written r g k = some v → written r g k' = some v' → nfc k = nfc k' → k = k'

/-- No member under another key normalizes to this one. -/
def Apart (nfc : JsString → JsString) (r : Record α) (g : α → Option JsValue) (key : JsString) : Prop :=
  key = protoKey ∨ ∀ k, (written r g k).isSome = true → nfc k = nfc key → k = key

theorem written_of_ne {key : JsString} (h : key ≠ protoKey) : written r g key = (r.own? key).bind g := if_neg h

theorem mem_writtenMembers {e : JsString × JsValue} :
    e ∈ (recordMembers r g).filter (fun e => e.1 ≠ protoKey) ↔ written r g e.1 = some e.2 := by
  obtain ⟨k, v⟩ := e
  rw [List.mem_filter, recordMembers, List.mem_filterMap]
  constructor
  · rintro ⟨⟨⟨k', x⟩, hx, hmember⟩, hne⟩
    obtain ⟨v', hv, heq⟩ := Option.map_eq_some_iff.mp hmember
    cases heq
    rw [written_of_ne (by simpa using hne), r.own?_eq_some.mpr (mem_sortEntries.mp hx)]
    exact hv
  · intro h
    have hne : k ≠ protoKey := by
      rintro rfl
      rw [written, if_pos rfl] at h
      cases h
    rw [written_of_ne hne] at h
    obtain ⟨x, hx, hv⟩ := Option.bind_eq_some_iff.mp h
    exact ⟨⟨(k, x), mem_sortEntries.mpr (r.own?_eq_some.mp hx), by rw [hv]; rfl⟩, by simpa using hne⟩

theorem nodup_recordMembers : ((recordMembers r g).map Prod.fst).Nodup := by
  have hkeys : ((sortEntries r.entries).map Prod.fst).Nodup :=
    ((List.perm_insertionSort _ r.entries).map Prod.fst).nodup_iff.mpr r.nodup
  have hsub : ((recordMembers r g).map Prod.fst).Sublist ((sortEntries r.entries).map Prod.fst) := by
    rw [recordMembers]
    generalize sortEntries r.entries = es
    induction es with
    | nil => exact .slnil
    | cons e es ih =>
      rw [List.filterMap_cons]
      cases g e.2 with
      | none => exact ih.cons _
      | some v => exact ih.cons_cons _
  exact hkeys.sublist hsub

/-- Canonical JSON accepts the object of a record exactly when its members keep apart. -/
theorem canonical_record : Canonical nfc (buildObject (recordMembers r g)) ↔ CanonicalRecord nfc r g := by
  have hnd : (((recordMembers r g).filter (fun e => e.1 ≠ protoKey)).map Prod.fst).Nodup :=
    nodup_recordMembers.sublist (List.filter_sublist.map Prod.fst)
  have hmem := @mem_writtenMembers _ r g
  rw [buildObject]
  generalize (recordMembers r g).filter (fun e => e.1 ≠ protoKey) = es at hnd hmem
  constructor
  · intro h
    cases h with
    | obj hm hv =>
      refine ⟨fun k v hw => hv (k, v) (hmem.mpr hw), fun k v hw => hm.timestamp (k, v) (hmem.mpr hw), ?_⟩
      intro k k' v v' hw hw' heq
      have hin : (k, v) ∈ es := hmem.mpr hw
      have hin' : (k', v') ∈ es := hmem.mpr hw'
      exact congrArg Prod.fst (List.inj_on_of_nodup_map hm.nodup hin hin' heq)
  · intro h
    refine .obj ⟨?_, fun e he => h.timestamp e.1 e.2 (hmem.mp he)⟩ fun e he => h.value e.1 e.2 (hmem.mp he)
    refine (List.nodup_map_iff_inj_on (List.Nodup.of_map _ hnd)).mpr ?_
    intro e he e' he' heq
    have hkeys := h.apart e.1 e'.1 e.2 e'.2 (hmem.mp he) (hmem.mp he') heq
    have hvalues := hmem.mp he'
    rw [← hkeys, hmem.mp he] at hvalues
    exact Prod.ext hkeys (Option.some.inj hvalues)

theorem written_set {key : JsString} {x : α} (hne : key ≠ protoKey) (k : JsString) :
    written (r.set key x) g k = if k = key then g x else written r g k := by
  by_cases hk : k = key
  · subst hk
    rw [written_of_ne hne, Record.own?_set_self, if_pos rfl]
    rfl
  · rw [if_neg hk, written, written, Record.own?_set_of_ne _ hk]

theorem written_set_proto {x : α} (k : JsString) : written (r.set protoKey x) g k = written r g k := by
  by_cases hk : k = protoKey
  · rw [written, written, if_pos hk, if_pos hk]
  · rw [written_of_ne hk, written_of_ne hk, Record.own?_set_of_ne _ hk]

/-- Setting an entry to a canonical member keeps the object accepted exactly when no
other key normalizes to its key. -/
theorem canonicalRecord_set (h : CanonicalRecord nfc r g) {key : JsString} {x : α} {v : JsValue} (hv : g x = some v)
    (hcan : key ≠ protoKey → Canonical nfc v) (hts : key ≠ protoKey → nfc key ≠ tsKey) :
    CanonicalRecord nfc (r.set key x) g ↔ Apart nfc r g key := by
  by_cases hne : key = protoKey
  · subst hne
    have hsame := @written_set_proto _ r g x
    constructor
    · intro _
      exact .inl rfl
    · intro _
      constructor
      · intro k v hw
        rw [hsame] at hw
        exact h.value k v hw
      · intro k v hw
        rw [hsame] at hw
        exact h.timestamp k v hw
      · intro k k' v v' hw hw'
        rw [hsame] at hw hw'
        exact h.apart k k' v v' hw hw'
  · have hset := written_set (r := r) (g := g) (x := x) hne
    constructor
    · intro hnew
      refine .inr fun k hk heq => ?_
      by_contra hkk
      obtain ⟨w, hw⟩ := Option.isSome_iff_exists.mp hk
      refine hkk (hnew.apart k key w v ?_ ?_ heq)
      · rw [hset, if_neg hkk]
        exact hw
      · rw [hset, if_pos rfl]
        exact hv
    · intro hapart
      have hfresh := hapart.resolve_left hne
      constructor
      · intro k w hw
        rw [hset] at hw
        split at hw
        · rw [← Option.some.inj (hv.symm.trans hw)]
          exact hcan hne
        · exact h.value k w hw
      · intro k w hw hk
        rw [hset] at hw
        split at hw
        · rename_i heq
          exact absurd (heq ▸ hk) (hts hne)
        · exact h.timestamp k w hw hk
      · intro k k' w w' hw hw' heq
        rw [hset] at hw hw'
        by_cases hk : k = key
        · by_cases hk' : k' = key
          · rw [hk, hk']
          · rw [if_neg hk'] at hw'
            rw [hk] at heq ⊢
            exact (hfresh k' (by rw [hw']; rfl) heq.symm).symm
        · rw [if_neg hk] at hw
          by_cases hk' : k' = key
          · rw [hk'] at heq ⊢
            exact hfresh k (by rw [hw]; rfl) heq
          · rw [if_neg hk'] at hw'
            exact h.apart k k' w w' hw hw' heq

end

section

variable {nfc : JsString → JsString}

theorem canonical_num_iff {n : JsNumber} : Canonical nfc (.num n) ↔ n.isSafeInteger = true := by
  constructor
  · intro h
    cases h with
    | int hz => exact JsNumber.isSafeInteger_int.mpr hz
  · intro h
    obtain ⟨z, rfl, hz⟩ := JsNumber.exists_int_of_isSafeInteger h
    exact .int hz

/-- An object with a number under `ts` and fixed keys beside it. -/
theorem canonical_stamped (hn : NfcLaws nfc) (pre post : List (JsString × JsValue)) {n : JsNumber}
    (hk : ((pre ++ post).map Prod.fst).all isPlainKey = true) (hnd : ((pre ++ post).map Prod.fst).Nodup)
    (hv : ∀ e ∈ pre ++ post, Canonical nfc e.2) :
    Canonical nfc (.obj (pre ++ (tsKey, .num n) :: post)) ↔ n.isSafeInteger = true := by
  have hplain := canonicalMembers_plain hn hk hnd
  have hts : nfc tsKey = tsKey := hn.ascii _ (by decide)
  have hmem : ∀ e ∈ pre ++ (tsKey, JsValue.num n) :: post, e = (tsKey, .num n) ∨ e ∈ pre ++ post := by
    intro e he
    rcases List.mem_append.mp he with he | he
    · exact .inr (List.mem_append_left _ he)
    · exact (List.mem_cons.mp he).imp_right (List.mem_append_right _)
  constructor
  · intro h
    cases h with
    | obj hm hvals => exact canonical_num_iff.mp (hvals (tsKey, .num n) (by simp))
  · intro h
    refine .obj ⟨?_, ?_⟩ ?_
    · have hperm : (pre ++ (tsKey, JsValue.num n) :: post).Perm ((tsKey, .num n) :: (pre ++ post)) := List.perm_middle
      rw [(hperm.map _).nodup_iff, List.map_cons, List.nodup_cons]
      refine ⟨?_, hplain.nodup⟩
      intro hin
      obtain ⟨e, he, heq⟩ := List.mem_map.mp hin
      have hkey := List.all_eq_true.mp hk e.1 (List.mem_map.mpr ⟨e, he, rfl⟩)
      rw [isPlainKey, Bool.and_eq_true, decide_eq_true_eq] at hkey
      rw [hts, hn.ascii _ hkey.1] at heq
      exact hkey.2 heq
    · intro e he hkey
      rcases hmem e he with rfl | he
      · exact h
      · exact hplain.timestamp e he hkey
    · intro e he
      rcases hmem e he with rfl | he
      · exact canonical_num_iff.mpr h
      · exact hv e he

theorem canonical_noncePayload (hn : NfcLaws nfc) {x : NonceEntry} :
    Canonical nfc (noncePayload x) ↔ x.ts.isSafeInteger = true := by
  refine canonical_stamped hn [(js "nonce", .str x.nonce)] [] ?_ ?_ ?_
  · simp only [List.append_nil, List.map_cons, List.map_nil]
    decide
  · simp only [List.append_nil, List.map_cons, List.map_nil]
    decide
  · intro e he
    obtain rfl := List.mem_singleton.mp he
    exact .str _

theorem canonical_toolCallPayload (hn : NfcLaws nfc) {x : ToolCall} :
    Canonical nfc (toolCallPayload x) ↔ x.ts.isSafeInteger = true := by
  obtain ⟨ts, tool⟩ := x
  cases tool with
  | none => exact canonical_stamped hn [] [] rfl List.nodup_nil nofun
  | some tool =>
    refine canonical_stamped hn [] [(js "tool", .str tool)] ?_ ?_ ?_
    · simp only [List.nil_append, List.map_cons, List.map_nil]
      decide
    · simp only [List.nil_append, List.map_cons, List.map_nil]
      decide
    · intro e he
      obtain rfl := List.mem_singleton.mp he
      exact .str _

theorem canonical_arr {xs : List JsValue} : Canonical nfc (.arr xs) ↔ ∀ x ∈ xs, Canonical nfc x := by
  constructor
  · intro h
    cases h with
    | arr hx => exact hx
  · exact .arr

theorem canonical_noncesPayload (hn : NfcLaws nfc) {list : List NonceEntry} :
    Canonical nfc (noncesPayload list) ↔ ∀ x ∈ list, x.ts.isSafeInteger = true := by
  rw [noncesPayload, canonical_arr, List.forall_mem_map]
  exact forall_congr' fun x => by rw [sortNonces, List.mem_insertionSort, canonical_noncePayload hn]

theorem canonical_callsPayload (hn : NfcLaws nfc) {calls : Option (List ToolCall)} :
    Canonical nfc (callsPayload calls) ↔ ∀ x ∈ calls.getD [], x.ts.isSafeInteger = true := by
  rw [callsPayload, canonical_arr, List.forall_mem_map]
  exact forall_congr' fun x => by rw [sortCalls, List.mem_insertionSort, canonical_toolCallPayload hn]

theorem canonical_counterPayload (hn : NfcLaws nfc) {c : VelocityCounter} : Canonical nfc (counterPayload c) ↔
    c.windowStart.isSafeInteger = true ∧ c.count.isSafeInteger = true := by
  have hk : ∀ a b : JsValue, (([(js "window_start", a), (js "count", b)] : List (JsString × JsValue)).map
      Prod.fst).all isPlainKey = true ∧ (([(js "window_start", a), (js "count", b)] :
        List (JsString × JsValue)).map Prod.fst).Nodup := by
    intro a b
    simp only [List.map_cons, List.map_nil]
    decide
  rw [counterPayload, canonical_plain hn (hk _ _).1 (hk _ _).2]
  simp only [List.forall_mem_cons, List.not_mem_nil, false_implies, implies_true, and_true, canonical_num_iff]

variable {state : State}

theorem canonical_budget (hn : NfcLaws nfc) : Canonical nfc (payload state .budget) ↔
    CanonicalRecord nfc state.budget.budgetLimit (some ∘ amountText) ∧
    CanonicalRecord nfc state.budget.spentInPeriod (some ∘ amountText) ∧
    CanonicalRecord nfc state.maxAmountPerAction (Option.map amountText) := by
  rw [payload, normalizeBudget, canonical_plain hn]
  · simp only [List.forall_mem_cons, List.not_mem_nil, false_implies, implies_true, and_true, canonical_record]
  · simp only [List.map_cons, List.map_nil]
    decide
  · simp only [List.map_cons, List.map_nil]
    decide

theorem canonical_replay (hn : NfcLaws nfc) : Canonical nfc (payload state .replay) ↔
    state.replay.windowSeconds.isSafeInteger = true ∧ state.replay.maxNoncesPerAgent.isSafeInteger = true ∧
    CanonicalRecord nfc state.replay.nonces (some ∘ noncesPayload) := by
  rw [payload, replayPayload, canonical_plain hn]
  · simp only [List.forall_mem_cons, List.not_mem_nil, false_implies, implies_true, and_true, canonical_record,
      canonical_num_iff]
  · simp only [List.map_cons, List.map_nil]
    decide
  · simp only [List.map_cons, List.map_nil]
    decide

theorem canonical_velocity (hn : NfcLaws nfc) : Canonical nfc (payload state .velocity) ↔
    (state.velocity.config.windowSeconds.isSafeInteger = true ∧
      state.velocity.config.maxActions.isSafeInteger = true) ∧
    CanonicalRecord nfc state.velocity.counters (Option.map counterPayload) := by
  rw [payload, velocityPayload, canonical_plain hn]
  · simp only [List.forall_mem_cons, List.not_mem_nil, false_implies, implies_true, and_true, canonical_record]
    rw [canonical_plain hn]
    · simp only [List.forall_mem_cons, List.not_mem_nil, false_implies, implies_true, and_true, canonical_num_iff]
    · simp only [List.map_cons, List.map_nil]
      decide
    · simp only [List.map_cons, List.map_nil]
      decide
  · simp only [List.map_cons, List.map_nil]
    decide
  · simp only [List.map_cons, List.map_nil]
    decide

theorem canonical_toolLimits (hn : NfcLaws nfc) : Canonical nfc (payload state .toolAmplification) ↔
    state.toolLimits.windowSeconds.isSafeInteger = true ∧
    CanonicalRecord nfc state.toolLimits.maxCalls (Option.map .num) ∧
    CanonicalRecord nfc (state.toolLimits.maxCallsByTool.getD Record.empty) (some ∘ toolsPayload) ∧
    CanonicalRecord nfc state.toolLimits.calls (some ∘ callsPayload) := by
  rw [payload, toolLimitsPayload, canonical_plain hn]
  · simp only [List.forall_mem_cons, List.not_mem_nil, false_implies, implies_true, and_true, canonical_record,
      canonical_num_iff]
  · simp only [List.map_cons, List.map_nil]
    decide
  · simp only [List.map_cons, List.map_nil]
    decide

theorem canonical_concurrency (hn : NfcLaws nfc) {agents : List (JsString × AgentConcurrency)} :
    Canonical nfc (concurrencyPayload agents) ↔
      Canonical nfc (buildObject (agents.map (fun e => (e.1, .num e.2.max)))) ∧
      Canonical nfc (buildObject (agents.map (fun e => (e.1, .num e.2.active)))) ∧
      Canonical nfc (buildObject (agents.map (fun e => (e.1, e.2.auths)))) := by
  rw [concurrencyPayload, canonical_plain hn]
  · simp only [List.forall_mem_cons, List.not_mem_nil, false_implies, implies_true, and_true]
  · simp only [List.map_cons, List.map_nil]
    decide
  · simp only [List.map_cons, List.map_nil]
    decide

end

end OxDeAI
