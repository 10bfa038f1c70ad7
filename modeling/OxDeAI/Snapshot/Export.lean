import OxDeAI.Core.CanonicalInjective
import OxDeAI.Engine.Hashable
import OxDeAI.Snapshot.CanonicalCodec

/-! Exporting a state, and the bytes of an exported state: decoding them gives the
normal form of what was encoded. -/

namespace OxDeAI

open Js

section

variable (P : Platform) (e : PolicyEngine)

/-- Each module's payload under its id. -/
def exportModules (state : State) : Except JsError (List (JsString × JsValue)) :=
  ModuleId.sorted.mapM (fun id => (serializeState id state).map (fun payload => (id.text, payload)))

def exportState (state : State) : Except JsError CanonicalState :=
  (exportModules state).map (fun modules =>
    { engineVersion := engineVersion, policyId := computePolicyId P e, modules := .obj modules, isRecord := rfl })

end

def encodeCanonicalState (nfc : JsString → JsString) (state : CanonicalState) : Except JsError (List Byte) :=
  (assertCanonicalState state.toValue).bind (fun normalized =>
    (canonicalJson nfc normalized.toValue).map utf8Encode)

section

variable {P : Platform} {e : PolicyEngine} {state : State} {nfc : JsString → JsString}

def payloads (state : State) : List (JsString × JsValue) :=
  ModuleId.sorted.map (fun id => (id.text, payload state id))

theorem exportModules_ok {modules : List (JsString × JsValue)} :
    exportModules state = .ok modules ↔ (∀ id, Serializable state id) ∧ modules = payloads state := by
  have hstep : ∀ id ∈ ModuleId.sorted, ∀ y : JsString × JsValue,
      (serializeState id state).map (fun payload => (id.text, payload)) = .ok y ↔
        Serializable state id ∧ y = (id.text, payload state id) := by
    intro id _ y
    rw [map_eq_ok]
    simp only [serializeState_ok]
    constructor
    · rintro ⟨_, ⟨hs, rfl⟩, rfl⟩
      exact ⟨hs, rfl⟩
    · rintro ⟨hs, rfl⟩
      exact ⟨_, ⟨hs, rfl⟩, rfl⟩
  rw [exportModules, mapM_ok_iff hstep]
  constructor
  · rintro ⟨hall, rfl⟩
    exact ⟨fun id => hall id id.mem_sorted, rfl⟩
  · rintro ⟨hall, rfl⟩
    exact ⟨fun id _ => hall id, rfl⟩

/-- The state that is exported when every codec accepts its part. -/
def exported (P : Platform) (e : PolicyEngine) (state : State) : CanonicalState where
  engineVersion := engineVersion
  policyId := computePolicyId P e
  modules := .obj (payloads state)
  isRecord := rfl

theorem exportState_ok {s : CanonicalState} :
    exportState P e state = .ok s ↔ (∀ id, Serializable state id) ∧ s = exported P e state := by
  rw [exportState, map_eq_ok]
  simp only [exportModules_ok]
  constructor
  · rintro ⟨_, ⟨hs, rfl⟩, rfl⟩
    exact ⟨hs, rfl⟩
  · rintro ⟨hs, rfl⟩
    exact ⟨_, ⟨hs, rfl⟩, rfl⟩

/-- A canonical state passes its own check. -/
theorem assertCanonicalState_toValue (s : CanonicalState) : assertCanonicalState s.toValue = .ok s :=
  dif_pos s.isRecord

theorem encodeCanonicalState_ok {s : CanonicalState} {bytes : List Byte} :
    encodeCanonicalState nfc s = .ok bytes ↔
      Canonical nfc s.toValue ∧ bytes = utf8Encode (jsonText (normalForm nfc s.toValue)) := by
  rw [encodeCanonicalState, assertCanonicalState_toValue]
  simp only [Except.bind, canonicalJson, map_eq_ok, canonicalizeToJson_ok]
  constructor
  · rintro ⟨_, ⟨hc, rfl⟩, rfl⟩
    exact ⟨hc, rfl⟩
  · rintro ⟨hc, rfl⟩
    exact ⟨_, ⟨hc, rfl⟩, rfl⟩

/-- Plain keys stay where they are in the normal form, sorted. -/
theorem normalForm_plain (hn : NfcLaws nfc) {es fs : List (JsString × JsValue)}
    (hascii : ∀ e ∈ es, isAscii e.1 = true) (hperm : es.Perm fs) (hnd : ((es.map Prod.fst).map utf8Encode).Nodup)
    (hsorted : (fs.map Prod.fst).Pairwise Utf8Le) :
    normalForm nfc (.obj es) = .obj (fs.map (fun e => (e.1, normalForm nfc e.2))) := by
  have hmembers : normalMembers nfc es = es.map (fun e => (e.1, normalForm nfc e.2)) := by
    rw [normalMembers_eq_map]
    refine List.map_congr_left fun e he => ?_
    rw [hn.ascii _ (hascii e he)]
  have hkeys : ∀ l : List (JsString × JsValue),
      (l.map (fun e => (e.1, normalForm nfc e.2))).map Prod.fst = l.map Prod.fst := by
    intro l
    rw [List.map_map]
    rfl
  rw [normalForm, hmembers, sortMembers_perm (hperm.map _) (by rw [hkeys]; exact hnd)]
  rw [sortMembers_eq_self]
  · rw [hkeys]
    exact (hperm.map Prod.fst).nodup_iff.mp hnd.of_map
  · rw [hkeys]
    exact hsorted

theorem isRecord_normalForm {v : JsValue} (h : v.isRecord = true) : (normalForm nfc v).isRecord = true := by
  cases v with
  | obj es => rfl
  | «instance» es => rfl
  | _ => cases h

/-- The state that the bytes of a state stand for. -/
def CanonicalState.normalized (nfc : JsString → JsString) (s : CanonicalState) : CanonicalState where
  engineVersion := nfc s.engineVersion
  policyId := nfc s.policyId
  modules := normalForm nfc s.modules
  isRecord := isRecord_normalForm s.isRecord

/-- The fields in the order of the bytes. -/
def CanonicalState.sortedFields (s : CanonicalState) : List (JsString × JsValue) :=
  [(js "engineVersion", .str s.engineVersion), (js "formatVersion", .num (.int 1)), (js "modules", s.modules),
    (js "policyId", .str s.policyId)]

theorem normalForm_toValue (hn : NfcLaws nfc) (s : CanonicalState) :
    normalForm nfc s.toValue = .obj (s.normalized nfc).sortedFields := by
  have hperm : [(js "formatVersion", .num (.int 1)), (js "engineVersion", .str s.engineVersion),
      (js "policyId", .str s.policyId), (js "modules", s.modules)].Perm s.sortedFields :=
    (List.Perm.swap _ _ _).trans (((List.Perm.swap _ _ []).cons _).cons _)
  rw [CanonicalState.toValue, normalForm_plain hn (by simp; decide) hperm (by simp; decide) (by simp [CanonicalState.sortedFields]; decide)]
  rfl

theorem decodeCanonicalState_encode (hn : NfcLaws nfc) {s : CanonicalState} {bytes : List Byte}
    (syntaxError : JsString → JsString) (h : encodeCanonicalState nfc s = .ok bytes) :
    decodeCanonicalState syntaxError bytes = .ok (s.normalized nfc) := by
  obtain ⟨hc, rfl⟩ := encodeCanonicalState_ok.mp h
  have hjson := isJson_normalForm hc
  rw [decodeCanonicalState, parseBytes, textDecode_jsonText hjson, parseJson_jsonText hjson, normalForm_toValue hn]
  exact dif_pos (s.normalized nfc).isRecord

end

end OxDeAI
