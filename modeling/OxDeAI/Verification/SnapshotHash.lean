import OxDeAI.Engine.Issue
import OxDeAI.Snapshot.Export
import OxDeAI.Verification.Snapshot

/-! The verifier of snapshots computes the engine's own state hash. -/

namespace OxDeAI

open Js

section

variable {P : Platform} {e : PolicyEngine} {state : State}

theorem ModuleId.isAscii_text (id : ModuleId) : isAscii id.text = true := by
  cases id <;> decide

theorem ModuleId.text_ne_proto (id : ModuleId) : id.text ≠ protoKey := by
  cases id <;> decide

theorem ModuleId.pairwise_text : ModuleId.sorted.Pairwise (fun a b => a.text ≤ b.text) := by decide

/-- The ids of the modules are plain and sorted, so their payloads stay in place. -/
theorem normalForm_payloads (hn : NfcLaws P.nfc) (state : State) : normalForm P.nfc (.obj (payloads state)) =
    .obj (ModuleId.sorted.map (fun id => (id.text, normalForm P.nfc (payload state id)))) := by
  have hkeys : (payloads state).map Prod.fst = ModuleId.sorted.map ModuleId.text := by
    rw [payloads, List.map_map]
    rfl
  have hascii : ∀ m ∈ payloads state, isAscii m.1 = true := by
    intro m hm
    obtain ⟨id, -, rfl⟩ := List.mem_map.mp hm
    exact id.isAscii_text
  rw [normalForm_plain hn hascii (.refl _) (by rw [hkeys]; decide) (by rw [hkeys]; decide), payloads, List.map_map]
  rfl

/-- The hashes of the parsed payloads are those of the live ones. -/
theorem snapshotModuleHashes_normalForm (hn : NfcLaws P.nfc) (h : Hashable P state) :
    snapshotModuleHashes P (normalForm P.nfc (.obj (payloads state))) =
      .ok (.obj ((moduleDigests P state).map (fun m => (m.1, JsValue.str m.2)))) := by
  have hsorted : sortEntries (ModuleId.sorted.map (fun id => (id.text, normalForm P.nfc (payload state id)))) =
      ModuleId.sorted.map (fun id => (id.text, normalForm P.nfc (payload state id))) := by
    exact List.Pairwise.insertionSort_eq (List.pairwise_map.mpr ModuleId.pairwise_text)
  have hhash : ∀ m ∈ ModuleId.sorted.map (fun id => (id.text, normalForm P.nfc (payload state id))),
      ∀ y : JsString × JsValue,
        (sha256HexFromJson P m.2).map (fun hash => (m.1, JsValue.str hash)) = .ok y ↔
          True ∧ y = (m.1, JsValue.str (digest P m.2)) := by
    intro m hm y
    obtain ⟨id, -, rfl⟩ := List.mem_map.mp hm
    have hfixed := normalForm_fixed hn (h id).2
    rw [map_eq_ok, true_and]
    simp only [sha256HexFromJson_ok]
    constructor
    · rintro ⟨_, ⟨-, rfl⟩, rfl⟩
      rfl
    · rintro rfl
      exact ⟨_, ⟨hfixed.1, rfl⟩, rfl⟩
  rw [normalForm_payloads hn, snapshotModuleHashes, JsValue.entries, hsorted, map_eq_ok]
  refine ⟨_, (mapM_ok_iff hhash).mpr ⟨fun _ _ => trivial, rfl⟩, ?_⟩
  have hdigest : ∀ id, digest P (normalForm P.nfc (payload state id)) = digest P (payload state id) := by
    intro id
    rw [digest, (normalForm_fixed hn (h id).2).2, digest]
  simp only [List.map_map, moduleDigests, Function.comp_def, hdigest]
  rw [buildObject, List.filter_eq_self.mpr]
  intro m hm
  obtain ⟨id, -, rfl⟩ := List.mem_map.mp hm
  exact decide_eq_true id.text_ne_proto

/-- What has a hash can be encoded. -/
theorem canonical_exported (hn : NfcLaws P.nfc) (h : Hashable P state) :
    Canonical P.nfc (exported P e state).toValue := by
  have hkeys : (payloads state).map Prod.fst = ModuleId.sorted.map ModuleId.text := by
    rw [payloads, List.map_map]
    rfl
  have hmodules : Canonical P.nfc (.obj (payloads state)) := by
    refine (canonical_plain hn (by rw [hkeys]; decide) (by rw [hkeys]; decide)).mpr fun m hm => ?_
    obtain ⟨id, -, rfl⟩ := List.mem_map.mp hm
    exact (h id).2
  refine .obj (canonicalMembers_stateHashPayload hn _ _ _ _) fun m hm => ?_
  simp only [List.mem_cons, List.not_mem_nil, or_false] at hm
  rcases hm with rfl | rfl | rfl | rfl
  · exact .int (by decide)
  · exact .str _
  · exact .str _
  · exact hmodules

/-- The outer hash takes the id of the policy as it is or in normal form. -/
theorem digest_stateHashPayload (hn : NfcLaws P.nfc) (policyId : JsString) (state : State) :
    digest P (stateHashPayload (P.nfc policyId) (moduleDigests P state)) =
      digest P (stateHashPayload policyId (moduleDigests P state)) := by
  rw [digest, digest]
  congr 3
  simp only [stateHashPayload, normalForm, normalMembers, hn.idem]

theorem snapshotStateHash_exported (hn : NfcLaws P.nfc) (h : Hashable P state) :
    snapshotStateHash P ((exported P e state).normalized P.nfc) = .ok (stateDigest P e state) := by
  have hversion : P.nfc engineVersion = engineVersion := hn.ascii _ (by decide)
  have hmodules := snapshotModuleHashes_normalForm hn h
  have hpayload : JsValue.obj [(js "formatVersion", .num (.int 1)), (js "engineVersion", .str (P.nfc engineVersion)),
      (js "policyId", .str (P.nfc (computePolicyId P e))),
      (js "modules", .obj ((moduleDigests P state).map (fun m => (m.1, JsValue.str m.2))))] =
      stateHashPayload (P.nfc (computePolicyId P e)) (moduleDigests P state) := by
    rw [hversion, stateHashPayload]
  rw [snapshotStateHash]
  refine bind_eq_ok.mpr ⟨_, hmodules, sha256HexFromJson_ok.mpr ?_⟩
  simp only [CanonicalState.normalized, exported]
  rw [hpayload, digest_stateHashPayload hn]
  exact ⟨canonical_stateHashPayload hn _ _, rfl⟩

/-- A canonical state with a policy id has no schema issues. -/
theorem validateCanonicalStateJson_toValue {s : CanonicalState} (h : s.policyId ≠ []) :
    validateCanonicalStateJson s.toValue = [] := by
  obtain ⟨u, us, hpolicy⟩ := List.exists_cons_of_ne_nil h
  have htext : (s.toValue.field (js "policyId")).hasText = true := by
    have hfield : s.toValue.field (js "policyId") = .str s.policyId := rfl
    rw [hfield, hpolicy]
    rfl
  have hrecord : (s.toValue.field (js "modules")).isRecord = true := s.isRecord
  have hkeys : pushAdditional s.toValue canonicalStateKeys = [] := rfl
  have hmissing : missingKeys s.toValue canonicalStateKeys = [] := rfl
  have hversion : (s.toValue.field (js "engineVersion")).isString = true := rfl
  have hformat : isOne (s.toValue.field (js "formatVersion")) = true := rfl
  have hvalue : s.toValue.isRecord = true := rfl
  simp only [validateCanonicalStateJson, hvalue, hkeys, hmissing, whenPresent, htext, hrecord, hversion, hformat,
    Bool.or_true, issueUnless, Bool.not_true, Bool.false_eq_true, if_true, if_false, List.append_nil]
  rfl

/-- The verifier accepts what the engine exports, and recomputes its state hash. -/
theorem verifySnapshot_recomputes (P : Platform) (hn : NfcLaws P.nfc) (hnfc : ∀ s, s ≠ [] → P.nfc s ≠ [])
    (hhex : ∀ bytes, P.sha256Hex bytes ≠ []) (syntaxError : JsString → JsString) (e : PolicyEngine) (state : State)
    {hash : JsString} {snapshot : CanonicalState} {bytes : List Byte} (hhash : computeStateHash P e state = .ok hash)
    (hexport : exportState P e state = .ok snapshot) (hencode : encodeCanonicalState P.nfc snapshot = .ok bytes) :
    verifySnapshot P syntaxError bytes none =
      { ok := true, status := .ok, violations := [], stateHash := some hash,
        policyId := some (P.nfc (computePolicyId P e)) } := by
  obtain ⟨hhashable, rfl⟩ := hashable_of_computeStateHash hhash
  obtain ⟨-, rfl⟩ := exportState_ok.mp hexport
  have hpolicy : ((exported P e state).normalized P.nfc).policyId ≠ [] := hnfc _ (computePolicyId_ne_nil hhex)
  rw [verifySnapshot, decodeCanonicalState_encode hn syntaxError hencode]
  simp only [verifyDecodedSnapshot, validateCanonicalStateJson_toValue hpolicy, ne_eq, not_true, if_false, hpolicy,
    snapshotStateHash_exported hn hhashable]
  rfl

end

theorem verifySnapshot_recomputes_sample : ∃ hash bytes,
    computeStateHash samplePlatform sampleEngine (sampleState (js "a")) = .ok hash ∧
      verifySnapshot samplePlatform id bytes none =
        { ok := true, status := .ok, violations := [], stateHash := some hash,
          policyId := some (samplePlatform.nfc (computePolicyId samplePlatform sampleEngine)) } := by
  have hn := samplePlatform_laws.nfc
  have hhashable : Hashable samplePlatform (sampleState (js "a")) := isHashable_iff.mp (by decide)
  have hnfc : ∀ s, s ≠ [] → samplePlatform.nfc s ≠ [] := fun s hs hnil => hs (List.map_eq_nil_iff.mp hnil)
  have hhash : computeStateHash samplePlatform sampleEngine (sampleState (js "a")) = .ok _ :=
    (computeStateHash_ok hn).mpr ⟨hhashable, rfl⟩
  exact ⟨_, _, hhash, verifySnapshot_recomputes samplePlatform hn hnfc (fun bytes => (samplePlatform_laws.hex bytes).2)
    id sampleEngine _ hhash (exportState_ok.mpr ⟨fun id => (hhashable id).1, rfl⟩)
    (encodeCanonicalState_ok.mpr ⟨canonical_exported hn hhashable, rfl⟩)⟩

end OxDeAI
