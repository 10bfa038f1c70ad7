import OxDeAI.Engine.Outcome

/-! Issuing never fails on states with a hash, so that an admitted intent is
permitted; and a decision procedure for canonical values. -/

namespace OxDeAI

open Js

section

variable (nfc : JsString → JsString)

mutual

def isCanonical : JsValue → Bool
  | .null => true
  | .bool _ => true
  | .str _ => true
  | .num n => n.isSafeInteger
  | .bigint _ => true
  | .undefined | .function | .symbol => false
  | .arr xs => areCanonical xs
  | .obj es => canonicalKeys es && membersCanonical es
  | .instance es => canonicalKeys es && membersCanonical es

def areCanonical : List JsValue → Bool
  | [] => true
  | x :: xs => isCanonical x && areCanonical xs

def membersCanonical : List (JsString × JsValue) → Bool
  | [] => true
  | (_, v) :: es => isCanonical v && membersCanonical es

def canonicalKeys : List (JsString × JsValue) → Bool
  | [] => true
  | (k, v) :: es =>
    !(keysOf es).contains (nfc k) && (nfc k ≠ tsKey || isTimestamp v) && canonicalKeys es

def keysOf : List (JsString × JsValue) → List JsString
  | [] => []
  | (k, _) :: es => nfc k :: keysOf es

end

variable {nfc}

theorem areCanonical_iff {xs : List JsValue} : areCanonical nfc xs = true ↔
    ∀ x ∈ xs, isCanonical nfc x = true := by
  induction xs with
  | nil => simp [areCanonical]
  | cons x xs ih => simp [areCanonical, ih]

theorem membersCanonical_iff {es : List (JsString × JsValue)} : membersCanonical nfc es = true ↔
    ∀ e ∈ es, isCanonical nfc e.2 = true := by
  induction es with
  | nil => simp [membersCanonical]
  | cons e es ih =>
    obtain ⟨k, v⟩ := e
    simp only [membersCanonical, Bool.and_eq_true, ih, List.forall_mem_cons]

theorem keysOf_eq_map (es : List (JsString × JsValue)) : keysOf nfc es = es.map (fun e => nfc e.1) := by
  induction es with
  | nil => simp [keysOf]
  | cons e es ih =>
    obtain ⟨k, v⟩ := e
    rw [keysOf, ih, List.map_cons]

theorem canonicalKeys_iff {es : List (JsString × JsValue)} : canonicalKeys nfc es = true ↔
    CanonicalMembers nfc es := by
  induction es with
  | nil => exact ⟨fun _ => ⟨by simp, by simp⟩, fun _ => by simp [canonicalKeys]⟩
  | cons e es ih =>
    obtain ⟨k, v⟩ := e
    simp only [canonicalKeys, Bool.and_eq_true, Bool.not_eq_true', Bool.or_eq_true, ih, keysOf_eq_map,
      decide_eq_true_eq]
    constructor
    · rintro ⟨⟨hk, hts⟩, hm⟩
      refine ⟨?_, ?_⟩
      · rw [List.map_cons, List.nodup_cons]
        exact ⟨by simpa using hk, hm.nodup⟩
      · rw [List.forall_mem_cons]
        exact ⟨fun h => hts.resolve_left (not_not.mpr h), hm.timestamp⟩
    · rintro ⟨hnd, hts⟩
      rw [List.map_cons, List.nodup_cons] at hnd
      rw [List.forall_mem_cons] at hts
      refine ⟨⟨by simpa using hnd.1, ?_⟩, hnd.2, hts.2⟩
      by_cases h : nfc k = tsKey
      · exact .inr (hts.1 h)
      · exact .inl h

theorem isCanonical_iff (v : JsValue) : isCanonical nfc v = true ↔ Canonical nfc v := by
  induction v using jsValue_induction with
  | null => exact ⟨fun _ => .null, fun _ => rfl⟩
  | bool b => exact ⟨fun _ => .bool b, fun _ => rfl⟩
  | str s => exact ⟨fun _ => .str s, fun _ => rfl⟩
  | num n =>
    constructor
    · intro h
      obtain ⟨z, rfl, hz⟩ := JsNumber.exists_int_of_isSafeInteger h
      exact .int hz
    · intro h
      cases h with
      | int hz => exact JsNumber.isSafeInteger_int.mpr hz
  | bigint z => exact ⟨fun _ => .bigint z, fun _ => rfl⟩
  | undefined => exact ⟨nofun, nofun⟩
  | function => exact ⟨nofun, nofun⟩
  | symbol => exact ⟨nofun, nofun⟩
  | arr xs ih =>
    rw [isCanonical, areCanonical_iff]
    constructor
    · exact fun h => .arr (fun x hx => (ih x hx).mp (h x hx))
    · intro h
      cases h with
      | arr h => exact fun x hx => (ih x hx).mpr (h x hx)
  | obj es ih =>
    rw [isCanonical, Bool.and_eq_true, canonicalKeys_iff, membersCanonical_iff]
    constructor
    · exact fun h => .obj h.1 (fun x hx => (ih x hx).mp (h.2 x hx))
    · intro h
      cases h with
      | obj hm h => exact ⟨hm, fun x hx => (ih x hx).mpr (h x hx)⟩
  | inst es ih =>
    rw [isCanonical, Bool.and_eq_true, canonicalKeys_iff, membersCanonical_iff]
    constructor
    · exact fun h => .inst h.1 (fun x hx => (ih x hx).mp (h.2 x hx))
    · intro h
      cases h with
      | inst hm h => exact ⟨hm, fun x hx => (ih x hx).mpr (h x hx)⟩

end

/-- Whether every part of a state is written and accepted. -/
def isHashable (P : Platform) (state : State) : Bool :=
  ModuleId.sorted.all (fun id =>
    match serializeState id state with
    | .ok v => isCanonical P.nfc v
    | .error _ => false)

theorem isHashable_iff {P : Platform} {state : State} : isHashable P state = true ↔ Hashable P state := by
  rw [isHashable, List.all_eq_true]
  have hid : ∀ id, (match serializeState id state with
      | .ok v => isCanonical P.nfc v
      | .error _ => false) = true ↔ Serializable state id ∧ Canonical P.nfc (payload state id) := by
    intro id
    cases hs : serializeState id state with
    | error err =>
      constructor
      · exact nofun
      · intro h
        rw [(serializeState_ok id state _).mpr ⟨h.1, rfl⟩] at hs
        cases hs
    | ok v =>
      obtain ⟨hser, rfl⟩ := (serializeState_ok id state v).mp hs
      exact (isCanonical_iff _).trans ⟨fun h => ⟨hser, h⟩, fun h => h.2⟩
  exact ⟨fun h id => (hid id).mp (h id id.mem_sorted), fun h id _ => (hid id).mpr (h id)⟩

section

variable {P : Platform} {e : PolicyEngine} {intent : Intent} {state working : State} {t : JsNumber}

/-- The engine can sign: with its secret, or with a key that loads. -/
def CanSign (P : Platform) (e : PolicyEngine) : Prop :=
  match e.signingAlg with
  | .hmacSha256 => True
  | .ed25519 => e.opts.authorizationPrivateKeyPem.getD [] ≠ [] ∧
      P.ed25519Signer (e.opts.authorizationPrivateKeyPem.getD []) ≠ none

theorem canonicalJson_ok {v : JsValue} (h : Canonical P.nfc v) :
    canonicalJson P.nfc v = .ok (jsonText (normalForm P.nfc v)) :=
  (canonicalizeToJson_ok _ _).mpr ⟨h, rfl⟩

theorem signAuthorization_ok (hs : CanSign P e) {core : JsValue} (h : Canonical P.nfc core) :
    ∃ signature, signAuthorization P e core = .ok signature := by
  unfold signAuthorization
  unfold CanSign at hs
  cases halg : e.signingAlg with
  | hmacSha256 =>
    simp only [signHmacDomain, signatureInput, canonicalJson_ok h]
    exact ⟨_, rfl⟩
  | ed25519 =>
    rw [halg] at hs
    obtain ⟨sign, hsign⟩ := Option.ne_none_iff_exists'.mp hs.2
    simp only [if_neg hs.1, signEd25519, hsign, signatureInput, canonicalJson_ok h]
    exact ⟨_, rfl⟩

theorem canonical_authorizationCore (hn : NfcLaws P.nfc) (ht : ValidClock e t)
    (intent : Intent) (intentHash stateHash authId : JsString) {rest : List (JsString × JsValue)}
    (hrest : rest = [] ∨ ∃ s, rest = [(js "engine_signature", .str s)]) :
    Canonical P.nfc (.obj (authorizationCore P e intent intentHash stateHash authId t
      (t.add e.authorizationTtl) ++ rest)) := by
  obtain ⟨n, ttl, hn', -, -, hle, hadd⟩ := ht.exists_seconds
  have hexp : Canonical P.nfc (.num (t.add e.authorizationTtl)) := by
    rw [hadd]
    exact canonical_num hle
  have hiss : Canonical P.nfc (.num t) := canonical_seconds ht.seconds
  rcases hrest with rfl | ⟨s, rfl⟩
  · refine (canonical_plain hn ?_ ?_).mpr ?_
    · simp only [authorizationCore, List.append_nil, List.map_cons, List.map_nil]; decide
    · simp only [authorizationCore, List.append_nil, List.map_cons, List.map_nil]; decide
    · simp only [authorizationCore, List.append_nil, List.forall_mem_cons, List.not_mem_nil,
        false_implies, implies_true, and_true]
      exact ⟨.str _, .str _, .str _, .str _, .str _, .str _, .str _, hiss, hexp, .str _, .str _,
        .str _, .str _⟩
  · refine (canonical_plain hn ?_ ?_).mpr ?_
    · simp only [authorizationCore, List.cons_append, List.nil_append, List.map_cons, List.map_nil]; decide
    · simp only [authorizationCore, List.cons_append, List.nil_append, List.map_cons, List.map_nil]; decide
    · simp only [authorizationCore, List.cons_append, List.nil_append, List.forall_mem_cons,
        List.not_mem_nil, false_implies, implies_true, and_true]
      exact ⟨.str _, .str _, .str _, .str _, .str _, .str _, .str _, hiss, hexp, .str _, .str _,
        .str _, .str _, .str _⟩

theorem canonical_engineAuthPayload (hn : NfcLaws P.nfc) (ht : ValidClock e t)
    (intentHash version snapshot : JsString) :
    Canonical P.nfc (engineAuthPayload intentHash version snapshot (t.add e.authorizationTtl)) := by
  obtain ⟨n, ttl, -, -, -, hle, hadd⟩ := ht.exists_seconds
  refine (canonical_plain hn ?_ ?_).mpr ?_
  · simp only [List.map_cons, List.map_nil]; decide
  · simp only [List.map_cons, List.map_nil]; decide
  · simp only [List.forall_mem_cons, List.not_mem_nil, false_implies, implies_true, and_true]
    exact ⟨.str _, .str _, .str _, .str _, hadd ▸ canonical_num hle⟩

/-- Two states with a hash are all it takes to issue. -/
theorem exists_issued (hn : NfcLaws P.nfc) (hs : CanSign P e) (ht : ValidClock e t)
    (hstate : Hashable P state) (hworking : Hashable P working) (hash : JsString) :
    ∃ parts, Issued P e intent state working t parts ∧ parts.intentHash = hash := by
  have hsnap := (computeStateHash_ok (e := e) hn).mpr ⟨hworking, rfl⟩
  have hin := (computeStateHash_ok (e := e) hn).mpr ⟨hstate, rfl⟩
  have hpay := canonical_engineAuthPayload (P := P) hn ht hash state.policyVersion
    (stateDigest P e working)
  have heng : ∃ sig, engineSignHmac P (engineAuthPayload hash state.policyVersion
      (stateDigest P e working) (t.add e.authorizationTtl)) e.opts.engineSecret = .ok sig := by
    simp only [engineSignHmac, canonicalJson_ok hpay]
    exact ⟨_, rfl⟩
  obtain ⟨eng, heng⟩ := heng
  have hcore := canonical_authorizationCore hn ht intent hash (stateDigest P e state) []
    (.inr ⟨eng, rfl⟩)
  obtain ⟨id, hid⟩ : ∃ id, sha256HexFromJson P _ = .ok id := ⟨_, sha256HexFromJson_ok.mpr ⟨hcore, rfl⟩⟩
  have hcore' := canonical_authorizationCore hn ht intent hash (stateDigest P e state)
    id (.inl rfl)
  rw [List.append_nil] at hcore'
  obtain ⟨sig, hsig⟩ := signAuthorization_ok hs hcore'
  exact ⟨⟨hash, _, eng, _, id, sig⟩, ⟨hsnap, heng, hin, hid, hsig⟩, rfl⟩

/-- An admitted intent is permitted when the states it hashes can be hashed. -/
theorem exists_permitted (hn : NfcLaws P.nfc) (hs : CanSign P e) (hpre : Prechecked e intent state t)
    {hash : JsString} (hh : intentHash P intent = .ok hash)
    (hfresh : verifyTrustedTime intent.timestamp t e.opts.maxClockSkewSeconds
      e.opts.maxIntentAgeSeconds = .ok (.allow none)) {c : Charge}
    (hadm : Admitted intent state (moduleContext e t) c) (hstate : Hashable P state)
    (hsettle : Hashable P (settle intent state (moduleContext e t) c)) :
    ∃ parts, Permitted P e intent state t c parts := by
  obtain ⟨parts, hi, rfl⟩ := exists_issued hn hs hpre.clock hstate hsettle hash
  exact ⟨parts, ⟨hpre, hh, hfresh, hadm, hi⟩⟩

end

/-- The Kelvin sign normalizes to the letter K. -/
def sampleNfc (s : JsString) : JsString := s.map (fun u => if u.val = 8490 then unit 75 else u)

/-- The bytes themselves in hexadecimal. -/
def sampleHex (bytes : List Byte) : JsString :=
  unit 48 :: bytes.flatMap (fun b => [hexDigit (b.val / 16), hexDigit (b.val % 16)])

def samplePlatform : Platform where
  nfc := sampleNfc
  sha256Hex := sampleHex
  hmacSha256Hex _ bytes := sampleHex bytes
  ed25519Signer _ := none

theorem hexDigit_inj {m n : ℕ} (hm : m < 16) (hn : n < 16) (h : hexDigit m = hexDigit n) : m = n := by
  have := hexValue?_hexDigit hm
  rw [h, hexValue?_hexDigit hn] at this
  exact (Option.some.inj this).symm

theorem isHexUnit_hexDigit {n : ℕ} (h : n < 16) : isHexUnit (hexDigit n) = true := by
  unfold hexDigit
  split
  · simp [isHexUnit, unit_val (show 48 + n < 65536 by omega)]
    omega
  · simp [isHexUnit, unit_val (show 87 + n < 65536 by omega)]
    omega

theorem sampleHex_injective : Function.Injective sampleHex := by
  intro xs ys h
  have h := (List.cons.inj h).2
  induction xs generalizing ys with
  | nil => cases ys with
    | nil => rfl
    | cons y ys => simp at h
  | cons x xs ih => cases ys with
    | nil => simp at h
    | cons y ys =>
      simp only [List.flatMap_cons, List.cons_append, List.nil_append, List.cons.injEq] at h
      have hx : x.val = y.val := by
        have h1 := hexDigit_inj (by omega) (by omega) h.1
        have h2 := hexDigit_inj (by omega) (by omega) h.2.1
        omega
      rw [Fin.ext hx, ih (congrArg (List.cons (unit 48)) h.2.2) h.2.2]

theorem samplePlatform_laws : PlatformLaws samplePlatform where
  nfc := {
    ascii := by
      intro s hs
      rw [isAscii, List.all_eq_true] at hs
      refine (List.map_congr_left fun u hu => ?_).trans s.map_id
      have hlt : u.val < 128 := by simpa using hs u hu
      rw [if_neg (by omega)]
      rfl
    idem := by
      intro s
      simp only [samplePlatform, sampleNfc, List.map_map]
      refine List.map_congr_left fun u _ => ?_
      by_cases h : u.val = 8490
      · simp [h]
      · simp [h] }
  hex bytes := by
    refine ⟨?_, by simp [samplePlatform, sampleHex]⟩
    rw [List.all_eq_true]
    intro u hu
    rcases List.mem_cons.mp hu with rfl | hu
    · exact isHexUnit_hexDigit (n := 0) (by decide)
    · obtain ⟨b, -, hb⟩ := List.mem_flatMap.mp hu
      rcases List.mem_cons.mp hb with rfl | hb
      · exact isHexUnit_hexDigit (by omega)
      · obtain rfl := List.mem_singleton.mp hb
        exact isHexUnit_hexDigit (by omega)
  injective := sampleHex_injective

theorem isValidTtl_sixty : isValidTtl (.int 60) = true := by decide

def sampleEngine : PolicyEngine where
  opts := {
    policyVersion := js "v1"
    engineSecret := js "0123456789abcdef0123456789abcdef"
    maxClockSkewSeconds := .int 30
    maxIntentAgeSeconds := .int 60 }
  authorizationTtl := .int 60
  secretLength := by decide
  clockSkew := by decide
  intentAge := by decide
  ttl := isValidTtl_sixty

/-- One configured agent, with nothing spent, used or in flight. -/
def sampleState (agent : JsString) : State where
  policyVersion := js "v1"
  periodId := js "p1"
  killSwitch := ⟨false, Record.empty⟩
  allowlists := ⟨none, none, none⟩
  budget := ⟨Record.empty.set agent 100, Record.empty⟩
  maxAmountPerAction := Record.empty.set agent (some 50)
  velocity := ⟨⟨.int 60, .int 10⟩, Record.empty⟩
  replay := ⟨.int 60, .int 10, Record.empty⟩
  concurrency := ⟨Record.empty.set agent (.int 2), Record.empty, Record.empty⟩
  recursion := ⟨Record.empty.set agent (.int 3)⟩
  toolLimits := ⟨.int 60, Record.empty.set agent (some (.int 5)), none, Record.empty⟩

def sampleIntent (agent : JsString) : Intent where
  intentId := js "i1"
  agentId := agent
  actionType := .payment
  depth := none
  amount := 10
  asset := none
  target := js "t1"
  timestamp := .int 1000
  metadataHash := js "00"
  nonce := 1
  signature := []
  type := none
  authorizationId := none
  tool := none
  toolCall := none

theorem canSign_sampleEngine (P : Platform) : CanSign P sampleEngine := trivial

theorem prechecked_sample : Prechecked sampleEngine (sampleIntent (js "a")) (sampleState (js "a"))
    (.int 1000) := by
  apply precheck_ok.mp
  rfl

def sampleCharge : Charge where
  pruned := []
  auths := Record.empty
  removed := 0
  events := none
  counter := some ⟨.int 1000, .int 1⟩

theorem admitted_sample : Admitted (sampleIntent (js "a")) (sampleState (js "a"))
    (moduleContext sampleEngine (.int 1000)) sampleCharge where
  killSwitch := rfl
  replay := ⟨⟨[], rfl, rfl⟩, by decide, by simp [sampleCharge], by decide⟩
  leases := ⟨by decide, rfl, .inl ⟨rfl, rfl, rfl⟩⟩
  execute _ := {
    allowlist := rfl
    depth := rfl
    capacity := by
      intro max hmax
      cases hmax
      decide
    tool := rfl
    nonneg := by decide
    cap := by
      intro cap hcap
      cases hcap
      decide
    limit := by
      intro limit hlimit
      cases hlimit
      decide
    velocityConfig := by decide
    velocity := ⟨none, ⟨.int 1000, .int 1⟩, rfl, rfl, rfl⟩ }
  release h := by cases h

theorem permitted_sample : ∃ parts, Permitted samplePlatform sampleEngine (sampleIntent (js "a"))
    (sampleState (js "a")) (.int 1000) sampleCharge parts := by
  have hh : ∃ hash, intentHash samplePlatform (sampleIntent (js "a")) = .ok hash :=
    ⟨_, sha256HexFromJson_ok.mpr ⟨(isCanonical_iff _).mp (by decide), rfl⟩⟩
  obtain ⟨hash, hh⟩ := hh
  exact exists_permitted samplePlatform_laws.nfc (canSign_sampleEngine _) prechecked_sample hh rfl
    admitted_sample (isHashable_iff.mp (by decide)) (isHashable_iff.mp (by decide))

end OxDeAI
