import OxDeAI.Core.CanonicalFields
import OxDeAI.Engine.Options

/-! When a state has a hash, and what equal hashes say. -/

namespace OxDeAI

open Js

def isHexUnit (u : CodeUnit) : Bool :=
  (48 ≤ u.val && u.val ≤ 57) || (97 ≤ u.val && u.val ≤ 102)

/-- What the results rely on: normal forms as above, and a digest in lowercase
hexadecimal that never collides. -/
structure PlatformLaws (P : Platform) : Prop where
  nfc : NfcLaws P.nfc
  hex : ∀ bytes, (P.sha256Hex bytes).all isHexUnit = true ∧ P.sha256Hex bytes ≠ []
  injective : Function.Injective P.sha256Hex

theorem isAscii_of_hex {s : JsString} (h : s.all isHexUnit = true) : isAscii s = true := by
  rw [isAscii, List.all_eq_true]
  intro u hu
  have := List.all_eq_true.mp h u hu
  simp only [isHexUnit, Bool.or_eq_true, Bool.and_eq_true, decide_eq_true_eq] at this ⊢
  omega

section

variable {P : Platform} {v w : JsValue}

def digest (P : Platform) (v : JsValue) : JsString :=
  P.sha256Hex (utf8Encode (jsonText (normalForm P.nfc v)))

theorem sha256HexFromJson_ok {h : JsString} :
    sha256HexFromJson P v = .ok h ↔ Canonical P.nfc v ∧ h = digest P v := by
  simp only [sha256HexFromJson, canonicalJson, map_eq_ok, canonicalizeToJson_ok]
  constructor
  · rintro ⟨_, ⟨hc, rfl⟩, rfl⟩
    exact ⟨hc, rfl⟩
  · rintro ⟨hc, rfl⟩
    exact ⟨_, ⟨hc, rfl⟩, rfl⟩

theorem computePolicyId_ne_nil {e : PolicyEngine} (hhex : ∀ bytes, P.sha256Hex bytes ≠ []) : computePolicyId P e ≠ [] := by
  unfold computePolicyId
  split
  · exact List.cons_ne_nil _ _
  · exact hhex _

theorem digest_hex (hP : PlatformLaws P) (v : JsValue) : (digest P v).all isHexUnit = true :=
  (hP.hex _).1

theorem digest_eq_iff (hi : Function.Injective P.sha256Hex) (hv : Canonical P.nfc v)
    (hw : Canonical P.nfc w) : digest P v = digest P w ↔ normalForm P.nfc v = normalForm P.nfc w := by
  constructor
  · intro h
    have hbytes := hi h
    have htext := utf8Encode_inj (wellFormed_jsonText (isJson_normalForm hv))
      (wellFormed_jsonText (isJson_normalForm hw)) hbytes
    exact jsonText_inj (isJson_normalForm hv) (isJson_normalForm hw) htext
  · intro h
    rw [digest, digest, h]

end

section

variable {P : Platform} {e : PolicyEngine} {state state' : State}

/-- Every part of the state is accepted by its codec and by canonical JSON. -/
def Hashable (P : Platform) (state : State) : Prop :=
  ∀ id, Serializable state id ∧ Canonical P.nfc (payload state id)

def moduleDigests (P : Platform) (state : State) : List (JsString × JsString) :=
  ModuleId.sorted.map (fun id => (id.text, digest P (payload state id)))

def stateDigest (P : Platform) (e : PolicyEngine) (state : State) : JsString :=
  digest P (stateHashPayload (computePolicyId P e) (moduleDigests P state))

theorem ModuleId.mem_sorted (id : ModuleId) : id ∈ ModuleId.sorted := by
  cases id <;> simp [sorted]

theorem canonicalMembers_modules (hn : NfcLaws P.nfc) (state : State) :
    CanonicalMembers P.nfc ((moduleDigests P state).map (fun e => (e.1, JsValue.str e.2))) := by
  have hkeys : ((moduleDigests P state).map (fun e => (e.1, JsValue.str e.2))).map Prod.fst =
      ModuleId.sorted.map ModuleId.text := by
    simp [moduleDigests, Function.comp_def]
  apply canonicalMembers_plain hn
  · rw [hkeys]
    decide
  · rw [hkeys]
    decide

theorem canonicalMembers_stateHashPayload (hn : NfcLaws P.nfc) (a b c d : JsValue) :
    CanonicalMembers P.nfc [(js "formatVersion", a), (js "engineVersion", b), (js "policyId", c),
      (js "modules", d)] := by
  apply canonicalMembers_plain hn
  · simp only [List.map_cons, List.map_nil]
    decide
  · simp only [List.map_cons, List.map_nil]
    decide

theorem canonical_stateHashPayload (hn : NfcLaws P.nfc) (policyId : JsString) (state : State) :
    Canonical P.nfc (stateHashPayload policyId (moduleDigests P state)) := by
  refine .obj (canonicalMembers_stateHashPayload hn _ _ _ _) ?_
  simp only [List.forall_mem_cons, List.not_mem_nil, false_implies, implies_true, and_true]
  refine ⟨.int (by decide), .str _, .str _, .obj (canonicalMembers_modules hn state) ?_⟩
  intro x hx
  obtain ⟨y, -, rfl⟩ := List.mem_map.mp hx
  exact .str _

theorem stateHash_ok {id : ModuleId} {y : JsString × JsString} :
    (stateHash P id state).map (fun h => (id.text, h)) = .ok y ↔
      (Serializable state id ∧ Canonical P.nfc (payload state id)) ∧
        y = (id.text, digest P (payload state id)) := by
  simp only [stateHash, map_eq_ok]
  constructor
  · rintro ⟨h, hh, rfl⟩
    obtain ⟨v, hv, hh⟩ := bind_eq_ok.mp hh
    obtain ⟨hs, rfl⟩ := (serializeState_ok id state v).mp hv
    obtain ⟨hc, rfl⟩ := sha256HexFromJson_ok.mp hh
    exact ⟨⟨hs, hc⟩, rfl⟩
  · rintro ⟨⟨hs, hc⟩, rfl⟩
    exact ⟨_, bind_eq_ok.mpr ⟨_, (serializeState_ok id state _).mpr ⟨hs, rfl⟩,
      sha256HexFromJson_ok.mpr ⟨hc, rfl⟩⟩, rfl⟩

/-- A hash is the digest of parts that are all accepted. -/
theorem hashable_of_computeStateHash {h : JsString} (hs : computeStateHash P e state = .ok h) :
    Hashable P state ∧ h = stateDigest P e state := by
  simp only [computeStateHash, bind_eq_ok, mapM_ok_iff (fun _ _ _ => stateHash_ok),
    sha256HexFromJson_ok] at hs
  obtain ⟨_, ⟨hall, rfl⟩, -, rfl⟩ := hs
  exact ⟨fun id => hall id id.mem_sorted, rfl⟩

/-- A state has a hash exactly when all its parts are accepted. -/
theorem computeStateHash_ok (hn : NfcLaws P.nfc) {h : JsString} :
    computeStateHash P e state = .ok h ↔ Hashable P state ∧ h = stateDigest P e state := by
  constructor
  · exact hashable_of_computeStateHash
  · rintro ⟨hall, rfl⟩
    simp only [computeStateHash, bind_eq_ok, mapM_ok_iff (fun _ _ _ => stateHash_ok),
      sha256HexFromJson_ok]
    exact ⟨_, ⟨fun id _ => hall id, rfl⟩, canonical_stateHashPayload hn _ _, rfl⟩

/-- Equal hashes of one engine are equal normal forms of every part. -/
theorem stateDigest_eq_iff (hP : PlatformLaws P) (h : Hashable P state) (h' : Hashable P state') :
    stateDigest P e state = stateDigest P e state' ↔
      ∀ id, normalForm P.nfc (payload state id) = normalForm P.nfc (payload state' id) := by
  have hn := hP.nfc
  rw [stateDigest, stateDigest, digest_eq_iff hP.injective (canonical_stateHashPayload hn _ _)
    (canonical_stateHashPayload hn _ _)]
  constructor
  · intro heq id
    have hin : ∀ a b c d : JsValue, (js "modules", d) ∈ [(js "formatVersion", a),
        (js "engineVersion", b), (js "policyId", c), (js "modules", d)] := by simp
    have hmods := normalForm_member (canonicalMembers_stateHashPayload hn _ _ _ _)
      (canonicalMembers_stateHashPayload hn _ _ _ _) heq (hin _ _ _ _) (hin _ _ _ _) rfl
    have hid : ∀ s : State, (id.text, JsValue.str (digest P (payload s id))) ∈
        (moduleDigests P s).map (fun e => (e.1, JsValue.str e.2)) := by
      intro s
      exact List.mem_map.mpr ⟨_, List.mem_map.mpr ⟨id, id.mem_sorted, rfl⟩, rfl⟩
    have hstr := normalForm_member (canonicalMembers_modules hn _) (canonicalMembers_modules hn _)
      hmods (hid state) (hid state') rfl
    simp only [normalForm, JsValue.str.injEq] at hstr
    have hascii : ∀ v, P.nfc (digest P v) = digest P v :=
      fun v => hn.ascii _ (isAscii_of_hex (hP.hex _).1)
    rw [hascii, hascii] at hstr
    exact (digest_eq_iff hP.injective (h id).2 (h' id).2).mp hstr
  · intro hall
    have hd : moduleDigests P state = moduleDigests P state' :=
      List.map_congr_left (fun id _ => by rw [digest, digest, hall id])
    rw [hd]

end

end OxDeAI
