import OxDeAI.Snapshot.RereadLimits

/-! A state through its snapshot: what an export writes, an import reads again, with the
same hash, exactly when no amount is negative and normalization keeps every list in order. -/

namespace OxDeAI

open Js

section

variable {nfc : JsString → JsString} {state s : State}

theorem rereads_iff (h : Exports nfc state) (id : ModuleId) :
    (∃ s, Rereads nfc (normalForm nfc (payload state id)) id s) ↔ ReadsBack nfc state id := by
  cases id with
  | allowlist => exact rereads_allowlists h.laws
  | budget => exact rereads_budget h
  | concurrency => exact iff_of_true (rereads_concurrency h) trivial
  | killSwitch => exact iff_of_true (rereads_killSwitch h) trivial
  | recursionDepth => exact iff_of_true (rereads_recursion h) trivial
  | replay => exact rereads_replay h
  | toolAmplification => exact rereads_toolLimits h
  | velocity => exact iff_of_true (rereads_velocity h) trivial

/-- One state with the parts of several. -/
def gather (policyVersion periodId : JsString) (states : ModuleId → State) : State where
  policyVersion := policyVersion
  periodId := periodId
  killSwitch := (states .killSwitch).killSwitch
  allowlists := (states .allowlist).allowlists
  budget := (states .budget).budget
  maxAmountPerAction := (states .budget).maxAmountPerAction
  velocity := (states .velocity).velocity
  replay := (states .replay).replay
  concurrency := (states .concurrency).concurrency
  recursion := (states .recursionDepth).recursion
  toolLimits := (states .toolAmplification).toolLimits

theorem Rereads.gather {value : JsValue} {id : ModuleId} {states : ModuleId → State} {policyVersion periodId : JsString}
    (h : Rereads nfc value id (states id)) : Rereads nfc value id (gather policyVersion periodId states) := by
  cases id <;> exact ⟨h.read, h.accepted, h.form⟩

/-- A decoded snapshot as the import takes it. -/
def CanonicalState.snapshot (s : CanonicalState) : SnapshotValue := ⟨.num (.int 1), s.policyId, s.modules, s.isRecord⟩

variable {P : Platform} {e : PolicyEngine}

theorem moduleOf_exported (hn : NfcLaws P.nfc) (state : State) (id : ModuleId) :
    moduleOf ((exported P e state).normalized P.nfc).snapshot id =
      deserializeState (normalForm P.nfc (payload state id)) id := by
  have hmodules : ((exported P e state).normalized P.nfc).snapshot.modules =
      .obj (ModuleId.sorted.map (fun id => (id.text, normalForm P.nfc (payload state id)))) := normalForm_payloads hn state
  rw [moduleOf, hmodules]
  cases id <;> rfl

theorem exports_of_hashable (hn : NfcLaws P.nfc) (hproto : ∀ k, P.nfc k = protoKey → k = protoKey)
    (h : Hashable P state) (hdistinct : ∀ id, DistinctEncodings P.nfc (payload state id)) : Exports P.nfc state where
  laws := hn
  proto := hproto
  accepted id := (h id).1
  canonical id := (h id).2
  distinct := hdistinct

theorem checkHeader_exported (state : State) (text : JsValue → Except JsError JsString) :
    checkHeader P e text ((exported P e state).normalized P.nfc).snapshot = .ok () ↔
      P.nfc (computePolicyId P e) = computePolicyId P e := by
  have hone : isOne ((exported P e state).normalized P.nfc).snapshot.formatVersion = true := rfl
  have hid : ((exported P e state).normalized P.nfc).snapshot.policyId = P.nfc (computePolicyId P e) := rfl
  rw [checkHeader, hone, hid]
  by_cases h : P.nfc (computePolicyId P e) = computePolicyId P e
  · simp [h]
  · simp [h]

/-- Every module reads the payload as it was written, so the hash stays. -/
theorem computeStateHash_rereads (hP : PlatformLaws P) (h : Hashable P state)
    (hs : ∀ id, Rereads P.nfc (normalForm P.nfc (payload state id)) id s) :
    computeStateHash P e s = .ok (stateDigest P e state) := by
  have hhashable : Hashable P s := by
    intro id
    refine ⟨(hs id).accepted, canonical_of_normalForm hP.nfc ?_⟩
    rw [(hs id).form]
    exact (normalForm_fixed hP.nfc (h id).2).1
  rw [computeStateHash_ok hP.nfc]
  exact ⟨hhashable, (stateDigest_eq_iff hP h hhashable).mpr fun id => ((hs id).form).symm⟩

theorem rereads_of_import (hP : PlatformLaws P) (h : Hashable P state)
    (hcarries : Carries ((exported P e state).normalized P.nfc).snapshot s.parts)
    (hhash : computeStateHash P e s = .ok (stateDigest P e state)) (id : ModuleId) :
    Rereads P.nfc (normalForm P.nfc (payload state id)) id s := by
  obtain ⟨hhashable, hdigest⟩ := (computeStateHash_ok hP.nfc).mp hhash
  have hread := hcarries id
  rw [moduleOf_exported hP.nfc] at hread
  exact ⟨hread, (hhashable id).1, ((stateDigest_eq_iff hP h hhashable).mp hdigest id).symm⟩

theorem writeModules_gather (hn : NfcLaws P.nfc) {target : StateParts} {states : ModuleId → State}
    (hs : ∀ id, Rereads P.nfc (normalForm P.nfc (payload state id)) id (states id)) :
    writeModules ((exported P e state).normalized P.nfc).snapshot target =
      (.ok (), (gather target.policyVersion target.periodId states).parts) := by
  have hmodule : ∀ id, moduleOf ((exported P e state).normalized P.nfc).snapshot id =
      .ok ((gather target.policyVersion target.periodId states).part id) := by
    intro id
    rw [moduleOf_exported hn]
    exact ((hs id).gather).read
  have hok : (writeModules ((exported P e state).normalized P.nfc).snapshot target).1 = .ok () :=
    writeModules_ok.mpr fun id => ⟨_, hmodule id⟩
  have hparts : (writeModules ((exported P e state).normalized P.nfc).snapshot target).2.part =
      (gather target.policyVersion target.periodId states).part := by
    funext id
    exact Except.ok.inj ((carries_of_ok hok id).symm.trans (hmodule id))
  refine Prod.ext hok ?_
  exact congrArg (StateParts.mk target.policyVersion target.periodId) hparts

theorem exists_exportBytes (hn : NfcLaws P.nfc) (h : Hashable P state) (syntaxError : JsString → JsString) :
    ∃ bytes, (exportState P e state).bind (encodeCanonicalState P.nfc) = .ok bytes ∧
      decodeCanonicalState syntaxError bytes = .ok ((exported P e state).normalized P.nfc) := by
  have hexport : exportState P e state = .ok (exported P e state) := exportState_ok.mpr ⟨fun id => (h id).1, rfl⟩
  obtain ⟨bytes, hencode⟩ : ∃ bytes, encodeCanonicalState P.nfc (exported P e state) = .ok bytes :=
    ⟨_, encodeCanonicalState_ok.mpr ⟨canonical_exported hn h, rfl⟩⟩
  refine ⟨bytes, ?_, decodeCanonicalState_encode hn syntaxError hencode⟩
  rw [hexport]
  exact hencode

/-- Modules that are each read back are imported together. -/
theorem exists_imported (hn : NfcLaws P.nfc) {text : JsValue → Except JsError JsString}
    (hheader : checkHeader P e text ((exported P e state).normalized P.nfc).snapshot = .ok ())
    (hread : ∀ id, ∃ s, Rereads P.nfc (normalForm P.nfc (payload state id)) id s) (current : Option StateParts)
    (target : StateParts) :
    ∃ s : State, (∀ id, Rereads P.nfc (normalForm P.nfc (payload state id)) id s) ∧ s.policyVersion = target.policyVersion ∧
      importState P e text current (some target) ((exported P e state).normalized P.nfc).snapshot =
        ⟨.ok (), some s.parts, some s.parts.clone⟩ := by
  choose states hstates using hread
  refine ⟨gather target.policyVersion target.periodId states, fun id => (hstates id).gather, rfl, ?_⟩
  rw [importState_target hheader, writeModules_gather hn hstates]

/-- A state that has a hash is exported, encoded and decoded, and its import into any
target gives a state with the same hash exactly when normalization keeps the id of the
policy and every module reads back: no amount is negative, and the lists stay apart and
in order. -/
theorem snapshot_round_trip (P : Platform) (hP : PlatformLaws P) (hproto : ∀ k, P.nfc k = protoKey → k = protoKey)
    (e : PolicyEngine) (state : State) {hash : JsString} (hhash : computeStateHash P e state = .ok hash)
    (hdistinct : ∀ id, DistinctEncodings P.nfc (payload state id)) (text : JsValue → Except JsError JsString)
    (syntaxError : JsString → JsString) (current : Option StateParts) (target : StateParts) :
    ∃ bytes s, (exportState P e state).bind (encodeCanonicalState P.nfc) = .ok bytes ∧
      decodeCanonicalState syntaxError bytes = .ok s ∧
      ((∃ state' : State, computeStateHash P e state' = .ok hash ∧ importState P e text current (some target) s.snapshot =
          ⟨.ok (), some state'.parts, some state'.parts.clone⟩) ↔
        P.nfc (computePolicyId P e) = computePolicyId P e ∧ ∀ id, ReadsBack P.nfc state id) := by
  obtain ⟨hhashable, rfl⟩ := hashable_of_computeStateHash hhash
  have hexports := exports_of_hashable hP.nfc hproto hhashable hdistinct
  obtain ⟨bytes, hexport, hdecode⟩ := exists_exportBytes (e := e) hP.nfc hhashable syntaxError
  refine ⟨bytes, (exported P e state).normalized P.nfc, hexport, hdecode, ?_⟩
  rw [← checkHeader_exported state text]
  simp only [← rereads_iff hexports]
  constructor
  · rintro ⟨s, hs, himport⟩
    cases hheader : checkHeader P e text ((exported P e state).normalized P.nfc).snapshot with
    | error err =>
      rw [importState_rejected hheader] at himport
      cases congrArg ImportOutcome.result himport
    | ok u =>
      refine ⟨rfl, fun id => ⟨s, rereads_of_import hP hhashable ?_ hs id⟩⟩
      rw [importState_target hheader] at himport
      cases hout : (writeModules ((exported P e state).normalized P.nfc).snapshot target).1 with
      | error err =>
        rw [hout] at himport
        cases congrArg ImportOutcome.result himport
      | ok u =>
        rw [hout] at himport
        have htarget := Option.some.inj (congrArg ImportOutcome.target himport)
        have hcarries := carries_of_ok hout
        rwa [htarget] at hcarries
  · rintro ⟨hheader, hread⟩
    obtain ⟨s, hs, -, himport⟩ := exists_imported hP.nfc hheader hread current target
    exact ⟨s, computeStateHash_rereads hP hhashable hs, himport⟩

end

mutual

def distinctEncodings (nfc : JsString → JsString) : JsValue → Bool
  | .arr xs => distinctElements nfc xs
  | .obj es => decide (es.map fun e => utf8Encode (nfc e.1)).Nodup && distinctValues nfc es
  | _ => true

def distinctElements (nfc : JsString → JsString) : List JsValue → Bool
  | [] => true
  | x :: xs => distinctEncodings nfc x && distinctElements nfc xs

def distinctValues (nfc : JsString → JsString) : List (JsString × JsValue) → Bool
  | [] => true
  | (_, v) :: es => distinctEncodings nfc v && distinctValues nfc es

end

theorem distinctElements_eq (nfc : JsString → JsString) (xs : List JsValue) :
    distinctElements nfc xs = xs.all (distinctEncodings nfc) := by
  induction xs with
  | nil => rw [distinctElements, List.all_nil]
  | cons x xs ih => rw [distinctElements, ih, List.all_cons]

theorem distinctValues_eq (nfc : JsString → JsString) (es : List (JsString × JsValue)) :
    distinctValues nfc es = es.all fun e => distinctEncodings nfc e.2 := by
  induction es with
  | nil => rw [distinctValues, List.all_nil]
  | cons e es ih => rw [distinctValues, ih, List.all_cons]

theorem distinctEncodings_of_check {nfc : JsString → JsString} {v : JsValue} (h : distinctEncodings nfc v = true) :
    DistinctEncodings nfc v := by
  induction v using jsValue_induction with
  | arr xs ih =>
    rw [distinctEncodings, distinctElements_eq, List.all_eq_true] at h
    exact .arr fun x hx => ih x hx (h x hx)
  | obj es ih =>
    rw [distinctEncodings, Bool.and_eq_true, distinctValues_eq, List.all_eq_true] at h
    exact .obj (of_decide_eq_true h.1) fun e he => ih e he (h.2 e he)
  | _ =>
    refine .leaf ?_ ?_
    · intro xs hv
      cases hv
    · intro es hv
      cases hv

theorem sampleNfc_proto {k : JsString} (h : sampleNfc k = protoKey) : k = protoKey := by
  have hfixed : ∀ u ∈ k, (if u.val = 8490 then unit 75 else u) = u := by
    intro u hu
    have hmem : (if u.val = 8490 then unit 75 else u) ∈ protoKey := h ▸ List.mem_map_of_mem hu
    split at hmem
    · have hnot : unit 75 ∉ protoKey := by decide
      exact absurd hmem hnot
    · exact if_neg ‹_›
  have hmap : sampleNfc k = k := (List.map_congr_left hfixed).trans k.map_id
  exact hmap.symm.trans h

theorem own?_set_empty {α : Type} {k k' : JsString} {x y : α} (h : (Record.empty.set k x).own? k' = some y) : y = x := by
  have hmem := (Record.own?_eq_some (Record.empty.set k x)).mp h
  exact (Prod.mk.inj (List.mem_singleton.mp hmem)).2

theorem readsBack_sample (id : ModuleId) : ReadsBack samplePlatform.nfc (sampleState (js "a")) id := by
  cases id with
  | allowlist =>
    intro names hnames
    have hnone : names = none := by simpa [sampleState] using hnames
    rw [hnone]
    exact .nil
  | budget =>
    refine ⟨fun k z _ hz => ?_, fun k z _ hz => ?_, fun k z _ hz => ?_⟩
    · rw [own?_set_empty hz]
      omega
    · cases hz
    · rw [Option.some.inj (own?_set_empty hz)]
      omega
  | replay =>
    intro k list _ hlist
    cases hlist
  | toolAmplification =>
    intro k calls _ hcalls
    cases hcalls
  | _ => trivial

theorem snapshot_round_trip_sample : ∃ bytes s state',
    (exportState samplePlatform sampleEngine (sampleState (js "a"))).bind (encodeCanonicalState samplePlatform.nfc) =
      .ok bytes ∧ decodeCanonicalState id bytes = .ok s ∧
    importState samplePlatform sampleEngine (fun _ => .ok []) none (some (sampleState (js "b")).parts) s.snapshot =
      ⟨.ok (), some (State.parts state'), some state'.parts.clone⟩ ∧
    computeStateHash samplePlatform sampleEngine state' =
      computeStateHash samplePlatform sampleEngine (sampleState (js "a")) := by
  have hhashable : Hashable samplePlatform (sampleState (js "a")) := isHashable_iff.mp (by decide)
  have hhash : computeStateHash samplePlatform sampleEngine (sampleState (js "a")) = .ok _ :=
    (computeStateHash_ok samplePlatform_laws.nfc).mpr ⟨hhashable, rfl⟩
  obtain ⟨bytes, s, hexport, hdecode, hiff⟩ := snapshot_round_trip samplePlatform samplePlatform_laws
    (fun k => sampleNfc_proto) sampleEngine (sampleState (js "a")) hhash
    (fun id => distinctEncodings_of_check (by cases id <;> decide)) (fun _ => .ok []) id none (sampleState (js "b")).parts
  have hid : samplePlatform.nfc (computePolicyId samplePlatform sampleEngine) = computePolicyId samplePlatform sampleEngine :=
    samplePlatform_laws.nfc.ascii _ (isAscii_of_hex (samplePlatform_laws.hex _).1)
  obtain ⟨state', hstate, himport⟩ := hiff.mpr ⟨hid, readsBack_sample⟩
  exact ⟨bytes, s, state', hexport, hdecode, himport, hstate.trans hhash.symm⟩

end OxDeAI
