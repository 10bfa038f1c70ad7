import OxDeAI.Guard.SecureCapture
import OxDeAI.Guard.SharedReplay

/-! The replay store of a secure guard: which one it is built with, and what it refuses. -/

namespace OxDeAI.SecureConfig

open Js Async

inductive ReplayResolutionSource
  | explicitShared
  | explicitProcessLocal
  | legacyReplayStore
  | implicitDefault
  deriving DecidableEq

inductive ResolvedStore
  | inMemory (store : InMemoryReplayStore)
  | provided (store : Captured)

/-- A store, how it was found, and the text that `warn` is handed. -/
structure ReplayResolution where
  store : ResolvedStore
  source : ReplayResolutionSource
  warning : Option JsString

def replayMigrationWarning : JsString :=
  js "[oxdeai] No replayProtection configured; using a process-local in-memory replay store. " ++
    js "This is unsafe for multi-instance or restart-durable deployments (a consumed authorization " ++
    js "can be accepted again on another instance or after a restart). Declare an explicit posture: " ++
    js "replayProtection:\x7bmode:'process-local'\x7d to acknowledge the local default, or " ++
    js "replayProtection:\x7bmode:'shared',store\x7d with a durable backend. A future release will require this."

def typeOf : Captured → JsString
  | .live .undefined => js "undefined"
  | .live (.bool _) => js "boolean"
  | .live (.num _) => js "number"
  | .live (.bigint _) => js "bigint"
  | .live (.str _) => js "string"
  | .live (.symbol _) => js "symbol"
  | .live (.function _) | .live (.revoked true _) | .bound _ _ => js "function"
  | _ => js "object"

/-- What `Array.isArray` tells of a value read earlier, unless its proxy has been revoked since. -/
def unlessRevoked (place : Place) (answer : Bool) : Capture Bool := do
  let revoked ← Call.request (.revoked place)
  if revoked then Call.throw .typeError else pure answer

def isArray (place : Place) (value : Captured) : Capture Bool :=
  match value with
  | .live (.array _) => unlessRevoked place true
  | .live (.object _) | .live (.function _) => unlessRevoked place false
  | .live (.revoked _ _) => Call.throw .typeError
  | .list _ => pure true
  | _ => pure false

def describe (place : Place) (value : Captured) : Capture JsString :=
  match value with
  | .live .undefined => pure (js "missing")
  | .live .null => pure (js "null")
  | .live (.str s) => pure (js "string " ++ quote s)
  | value => do
    let array ← isArray place value
    pure (if array then js "array" else typeOf value)

def strictPlace : Place := [.member (js "requireExplicitReplayProtection")]

def strictFromConfig (value : Captured) : Capture Bool :=
  match value with
  | .live .undefined => pure false
  | .live (.bool b) => pure b
  | value => do
    let got ← describe strictPlace value
    fail (js "requireExplicitReplayProtection must be a boolean when provided (got " ++ got ++ js ").")

/-- A member of a captured record; none is inherited. -/
def member (members : List (JsString × Captured)) (name : JsString) : Captured :=
  (members.lookup name).getD (.live .undefined)

def isCallable : Captured → Bool
  | .live (.function _) | .bound _ _ => true
  | _ => false

def isUndefined : Captured → Bool
  | .live .undefined => true
  | _ => false

def ephemeralMessage : JsString :=
  js "replayProtection mode 'shared' requires a durable backend, but the OxDeAI built-in in-memory " ++
    js "store is process-local. Provide an external shared store (e.g. Redis/DynamoDB) or use " ++
    js "replayProtection:\x7bmode:'process-local'\x7d if a single-process store is intended."

def resolveShared (store : Captured) : Capture ReplayResolution :=
  match store with
  | .live .undefined | .live .null =>
    fail (js "replayProtection mode 'shared' requires a store (a durable, cross-instance replay backend).")
  | .store members ephemeral =>
    if !isCallable (member members (js "consumeAuthId")) then
      fail (js "replayProtection mode 'shared' requires a store implementing an async consumeAuthId(id, \x7bexpiry\x7d) method.")
    else
      let delFn := member members (js "consumeDelegationId")
      if !isUndefined delFn && !isCallable delFn then
        fail (js "replayProtection store exposes a consumeDelegationId that is not callable.")
      -- the copy is no built-in store, so the mark on those is looked up by the caller
      else pure ⟨.provided (.store members ephemeral), .explicitShared, none⟩
  | _ =>
    fail (js "replayProtection mode 'shared' requires a store implementing an async consumeAuthId(id, \x7bexpiry\x7d) method.")

def modePlace : Place := [.member (js "replayProtection"), .member (js "mode")]

def refuseMode (mode : Captured) : Capture ReplayResolution := do
  let got ← describe modePlace mode
  fail (js "replayProtection.mode must be exactly 'process-local' or 'shared' (got " ++ got ++ js ").")

def refuseProtection : Capture ReplayResolution :=
  fail (js "replayProtection must be an object: \x7bmode:'process-local'\x7d or \x7bmode:'shared', store\x7d.")

def resolveDeclared (replayProtection : Captured) : Capture ReplayResolution :=
  match replayProtection with
  | .record members =>
    match member members (js "mode") with
    | .live (.str mode) =>
      if mode = js "process-local" then
        if (members.lookup (js "store")).isSome then
          fail (js "replayProtection mode 'process-local' must not carry a store; use \x7bmode:'shared', store\x7d " ++
            js "to supply a backend, or drop the store property.")
        else pure ⟨.inMemory createInMemoryReplayStore, .explicitProcessLocal, none⟩
      else if mode = js "shared" then resolveShared (member members (js "store"))
      else refuseMode (.live (.str mode))
    | mode => refuseMode mode
  -- of the values that are no record only an array gets as far as `Array.isArray` once more
  | .live (.array a) => do
    let _ ← isArray protectionPlace (.live (.array a))
    refuseProtection
  | _ => refuseProtection

def resolveReplayProtection (replayProtection replayStore : Captured) (strict : Bool) : Capture ReplayResolution :=
  let hasNew := !isUndefined replayProtection
  let hasLegacy := !isUndefined replayStore
  if hasNew && hasLegacy then
    fail (js "Ambiguous replay configuration: set either replayProtection or the deprecated replayStore, not both.")
  else if hasNew then resolveDeclared replayProtection
  else if hasLegacy then pure ⟨.provided replayStore, .legacyReplayStore, none⟩
  else if strict then
    fail (js "replay protection posture is required: set replayProtection to \x7bmode:'process-local'\x7d " ++
      js "(single-process in-memory) or \x7bmode:'shared', store\x7d (durable cross-instance backend). " ++
      js "There is no implicit default in strict mode.")
  else pure ⟨.inMemory createInMemoryReplayStore, .implicitDefault, some replayMigrationWarning⟩

def isCapturedEphemeralReplayStore : ResolvedStore → Bool
  | .provided (.store _ ephemeral) => ephemeral
  | _ => false

/-- The store for what was captured. -/
def resolveCaptured (raw : List (JsString × Captured)) : Capture ReplayResolution := do
  let strict ← strictFromConfig (member raw (js "requireExplicitReplayProtection"))
  let resolved ← resolveReplayProtection (member raw (js "replayProtection")) (member raw (js "replayStore")) strict
  if resolved.source = .explicitShared ∧ isCapturedEphemeralReplayStore resolved.store = true then fail ephemeralMessage
  else pure resolved

/-- The first steps of `createSecureGuard`: the capture, and the store that it resolves to. -/
def secureReplay (config : Live) : Capture ReplayResolution := captureSecureGuardConfig config >>= resolveCaptured

section

variable (reply : (i : Request) → Answer i)

def Declares (key : JsString) (value : Live) : Prop := reply (.get [.member key]) = some value

/-- The flag is a boolean, or it is left out. -/
def StrictFlag (strict : Bool) : Prop :=
  Declares reply (js "requireExplicitReplayProtection") (.bool strict) ∨
    (strict = false ∧ Declares reply (js "requireExplicitReplayProtection") .undefined)

/-- A store as these answers show it; a revoked one shows nothing. -/
def StoreRead (place : Place) (store : Live) (captured : Captured) : Prop :=
  match store with
  | .object s | .array s | .function s => ∃ auth delegation,
      reply (.get (place ++ [Step.member (js "consumeAuthId")])) = some auth ∧
        reply (.get (place ++ [Step.member (js "consumeDelegationId")])) = some delegation ∧
          captured = .store [(js "consumeAuthId", withReceiver s auth), (js "consumeDelegationId", withReceiver s delegation)]
            (reply (.ephemeral place))
  | .revoked _ _ => False
  | v => captured = .live v

def ProtectionRead (value : Live) (captured : Captured) : Prop :=
  match value with
  | .object _ => ∃ mode, reply (.get (protectionPlace ++ [Step.member (js "mode")])) = some mode ∧
      ((reply (.has (protectionPlace ++ [Step.member (js "store")])) = some false ∧ captured = .record [(js "mode", .live mode)]) ∨
        (reply (.has (protectionPlace ++ [Step.member (js "store")])) = some true ∧ ∃ store inner,
          reply (.get (protectionPlace ++ [Step.member (js "store")])) = some store ∧
            StoreRead reply (protectionPlace ++ [Step.member (js "store")]) store inner ∧
              captured = .record [(js "mode", .live mode), (js "store", inner)]))
  | .revoked false _ => False
  | v => captured = .live v

/-- What a deployer can declare, and what is made of it. -/
inductive Posture : ReplayResolution → Prop
  | shared {protection f s : ℕ} {store : Live} {delegation : Captured} {strict : Bool}
      (hprotection : Declares reply (js "replayProtection") (.object protection))
      (hlegacy : Declares reply (js "replayStore") .undefined)
      (hstrict : StrictFlag reply strict)
      (hmode : reply (.get (protectionPlace ++ [Step.member (js "mode")])) = some (.str (js "shared")))
      (hcarries : reply (.has (protectionPlace ++ [Step.member (js "store")])) = some true)
      (hstore : reply (.get (protectionPlace ++ [Step.member (js "store")])) = some store)
      (hread : StoreRead reply (protectionPlace ++ [Step.member (js "store")]) store
        (.store [(js "consumeAuthId", .bound f s), (js "consumeDelegationId", delegation)] false))
      (hdelegation : delegation = .live .undefined ∨ ∃ g, delegation = .bound g s) :
      Posture ⟨.provided (.store [(js "consumeAuthId", .bound f s), (js "consumeDelegationId", delegation)] false),
        .explicitShared, none⟩
  | processLocal {protection : ℕ} {strict : Bool}
      (hprotection : Declares reply (js "replayProtection") (.object protection))
      (hlegacy : Declares reply (js "replayStore") .undefined)
      (hstrict : StrictFlag reply strict)
      (hmode : reply (.get (protectionPlace ++ [Step.member (js "mode")])) = some (.str (js "process-local")))
      (hcarries : reply (.has (protectionPlace ++ [Step.member (js "store")])) = some false) :
      Posture ⟨.inMemory createInMemoryReplayStore, .explicitProcessLocal, none⟩
  | legacy {store : Live} {captured : Captured} {strict : Bool}
      (hprotection : Declares reply (js "replayProtection") .undefined)
      (hlegacy : Declares reply (js "replayStore") store) (hstore : store ≠ .undefined)
      (hstrict : StrictFlag reply strict)
      (hread : StoreRead reply [.member (js "replayStore")] store captured) :
      Posture ⟨.provided captured, .legacyReplayStore, none⟩
  | implicitDefault
      (hprotection : Declares reply (js "replayProtection") .undefined)
      (hlegacy : Declares reply (js "replayStore") .undefined)
      (hstrict : StrictFlag reply false) :
      Posture ⟨.inMemory createInMemoryReplayStore, .implicitDefault, some replayMigrationWarning⟩

end

section

variable {reply : (i : Request) → Answer i} {place : Place} {value : Live} {captured : Captured} {α : Type}

theorem ends_fail {message : JsString} : Call.ends reply (fail message : Capture α) = .error (.configuration message) :=
  rfl

theorem not_ends_throw {e : CaptureError} {a : α} : Call.ends reply (Call.throw e : Capture α) ≠ .ok a := by
  rw [Call.ends_throw]
  exact fun h => by cases h

theorem not_ends_fail {message : JsString} {a : α} : Call.ends reply (fail message : Capture α) ≠ .ok a := not_ends_throw

theorem ends_answered {answer : Option α} {a : α} : Call.ends reply (answered place answer) = .ok a ↔ answer = some a := by
  cases answer with
  | none => simp [answered, not_ends_fail]
  | some v => simp [answered, Call.ends_pure]

theorem ends_read : Call.ends reply (read place) = .ok value ↔ reply (.get place) = some value := by
  rw [read, Call.ends_bind_ok]
  simp only [Call.ends_request, Except.ok.injEq, ends_answered, exists_eq_left']

theorem ends_has {b : Bool} : Call.ends reply (has place) = .ok b ↔ reply (.has place) = some b := by
  rw [has, Call.ends_bind_ok]
  simp only [Call.ends_request, Except.ok.injEq, ends_answered, exists_eq_left']

theorem ends_readWith {next : Live → Capture α} {a : α} :
    Call.ends reply (readWith place next) = .ok a ↔ ∃ v, reply (.get place) = some v ∧ Call.ends reply (next v) = .ok a := by
  rw [readWith, Call.ends_bind_ok]
  simp only [ends_read]

theorem ends_readMembers {keys : List JsString} {keep : Live → Captured} {members : List (JsString × Captured)} :
    Call.ends reply (readMembers place keys keep) = .ok members ↔
      List.Forall₂ (fun k e => ∃ v, reply (.get (place ++ [Step.member k])) = some v ∧ (k, keep v) = e) keys members := by
  rw [readMembers, Call.ends_forEach_ok]
  simp only [ends_readWith, Call.ends_pure, Except.ok.injEq]

theorem ends_kept : Call.ends reply (pure (.live value) : Capture Captured) = .ok captured ↔ captured = .live value := by
  rw [Call.ends_pure, Except.ok.injEq]
  exact eq_comm

theorem ends_captureReplayStore :
    Call.ends reply (captureReplayStore value place) = .ok captured ↔ StoreRead reply place value captured := by
  have hstore : ∀ s, Call.ends reply (readMembers place replayStoreMembers (withReceiver s) >>= fun members =>
      Call.request (.ephemeral place) >>= fun ephemeral => pure (Captured.store members ephemeral) : Capture Captured) =
        .ok captured ↔ ∃ auth delegation, reply (.get (place ++ [Step.member (js "consumeAuthId")])) = some auth ∧
          reply (.get (place ++ [Step.member (js "consumeDelegationId")])) = some delegation ∧
            captured = .store [(js "consumeAuthId", withReceiver s auth),
              (js "consumeDelegationId", withReceiver s delegation)] (reply (.ephemeral place)) := by
    intro s
    simp only [Call.ends_bind_ok, ends_readMembers, Call.ends_request, Call.ends_pure, Except.ok.injEq, exists_eq_left',
      replayStoreMembers, List.forall₂_cons_left_iff, List.forall₂_nil_left_iff]
    constructor
    · rintro ⟨_, ⟨_, _, ⟨auth, hauth, rfl⟩, ⟨_, _, ⟨delegation, hdelegation, rfl⟩, rfl, rfl⟩, rfl⟩, rfl⟩
      exact ⟨auth, delegation, hauth, hdelegation, rfl⟩
    · rintro ⟨auth, delegation, hauth, hdelegation, rfl⟩
      exact ⟨_, ⟨_, _, ⟨auth, hauth, rfl⟩, ⟨_, _, ⟨delegation, hdelegation, rfl⟩, rfl, rfl⟩, rfl⟩, rfl⟩
  cases value with
  | object s => exact hstore s
  | array s => exact hstore s
  | function s => exact hstore s
  | revoked callable id => exact iff_of_false not_ends_fail fun h => h
  | _ => exact ends_kept

theorem ends_captureReplayProtection :
    Call.ends reply (captureReplayProtection value protectionPlace) = .ok captured ↔ ProtectionRead reply value captured := by
  cases value with
  | object o =>
    rw [captureReplayProtection, Call.ends_bind_ok]
    simp only [ends_read, Call.ends_bind_ok, ends_has, ProtectionRead]
    refine exists_congr fun mode => and_congr_right fun _ => ?_
    constructor
    · rintro ⟨carries, hcarries, hrest⟩
      cases carries with
      | false =>
        have heq := Except.ok.inj (Call.ends_pure.symm.trans hrest)
        exact .inl ⟨hcarries, heq.symm⟩
      | true =>
        obtain ⟨inner, hinner, hlast⟩ := Call.ends_bind_ok.mp hrest
        obtain ⟨store, hstore, hread⟩ := ends_readWith.mp hinner
        have heq := Except.ok.inj (Call.ends_pure.symm.trans hlast)
        exact .inr ⟨hcarries, store, inner, hstore, ends_captureReplayStore.mp hread, heq.symm⟩
    · rintro (⟨hcarries, rfl⟩ | ⟨hcarries, store, inner, hstore, hread, rfl⟩)
      · exact ⟨false, hcarries, Call.ends_pure⟩
      · refine ⟨true, hcarries, Call.ends_bind_ok.mpr ⟨inner, ?_, Call.ends_pure⟩⟩
        exact ends_readWith.mpr ⟨store, hstore, ends_captureReplayStore.mpr hread⟩
  | revoked callable id =>
    cases callable with
    | false => exact iff_of_false not_ends_throw fun h => h
    | true => exact ends_kept
  | _ => exact ends_kept

theorem member_head {members : List (JsString × Captured)} {name : JsString} :
    member ((name, captured) :: members) name = captured := by
  simp [member]

theorem member_next {members : List (JsString × Captured)} {name other : JsString} (h : name ≠ other) :
    member ((other, captured) :: members) name = member members name := by
  rw [member, List.lookup_cons, beq_false_of_ne h]
  rfl

theorem member_of_forall₂ {keys : List JsString} {raw : List (JsString × Captured)} {Q : JsString → Captured → Prop}
    {key : JsString} (h : List.Forall₂ (fun k e => ∃ c, e = (k, c) ∧ Q k c) keys raw) (hkey : key ∈ keys) :
    Q key (member raw key) := by
  induction h with
  | nil => cases hkey
  | @cons k e keys raw hhead _ ih =>
    obtain ⟨c, rfl, hc⟩ := hhead
    by_cases heq : key = k
    · subst heq
      rw [member_head]
      exact hc
    · rw [member_next heq]
      exact ih ((List.mem_cons.mp hkey).resolve_left heq)

/-- Every option is kept as it was captured. -/
theorem captured_option {config : Live} {raw : List (JsString × Captured)}
    (h : Call.ends reply (captureSecureGuardConfig config) = .ok raw) :
    ∃ c, ∀ key ∈ configFields, ∃ v, Declares reply key v ∧ Call.ends reply (captureOption c key v) = .ok (member raw key) := by
  obtain ⟨-, -, c, hentries⟩ := captured_passes h
  have hall := Call.ends_forEach_ok.mp hentries
  simp only [ends_readWith, Call.ends_bind_ok, Call.ends_pure, Except.ok.injEq] at hall
  refine ⟨c, fun key hkey => ?_⟩
  refine member_of_forall₂ (Q := fun k x => ∃ v, Declares reply k v ∧ Call.ends reply (captureOption c k v) = .ok x)
    (hall.imp ?_) hkey
  rintro k e ⟨v, hv, x, hx, rfl⟩
  exact ⟨x, rfl, v, hv, hx⟩

theorem captured_protection {config : Live} {raw : List (JsString × Captured)}
    (h : Call.ends reply (captureSecureGuardConfig config) = .ok raw) :
    ∃ v, Declares reply (js "replayProtection") v ∧ ProtectionRead reply v (member raw (js "replayProtection")) := by
  obtain ⟨c, hc⟩ := captured_option h
  obtain ⟨v, hv, hends⟩ := hc (js "replayProtection") (by decide)
  refine ⟨v, hv, ends_captureReplayProtection.mp ?_⟩
  rwa [captureOption, if_pos rfl] at hends

theorem captured_store {config : Live} {raw : List (JsString × Captured)}
    (h : Call.ends reply (captureSecureGuardConfig config) = .ok raw) :
    ∃ v, Declares reply (js "replayStore") v ∧
      StoreRead reply [.member (js "replayStore")] v (member raw (js "replayStore")) := by
  obtain ⟨c, hc⟩ := captured_option h
  obtain ⟨v, hv, hends⟩ := hc (js "replayStore") (by decide)
  refine ⟨v, hv, ends_captureReplayStore.mp ?_⟩
  rwa [captureOption, if_neg (by decide), if_pos rfl] at hends

theorem captured_flag {config : Live} {raw : List (JsString × Captured)}
    (h : Call.ends reply (captureSecureGuardConfig config) = .ok raw) :
    ∃ v, Declares reply (js "requireExplicitReplayProtection") v ∧
      member raw (js "requireExplicitReplayProtection") = .live v := by
  obtain ⟨c, hc⟩ := captured_option h
  obtain ⟨v, hv, hends⟩ := hc (js "requireExplicitReplayProtection") (by decide)
  refine ⟨v, hv, ?_⟩
  rw [captureOption, if_neg (by decide), if_neg (by decide), if_neg (by decide), if_neg (by decide), if_neg (by decide),
    if_neg (by decide), if_neg (by decide)] at hends
  exact (Except.ok.inj (Call.ends_pure.symm.trans hends)).symm

theorem StoreRead.isUndefined {store : Live} (h : StoreRead reply place store captured) :
    isUndefined captured = true ↔ store = .undefined := by
  cases store with
  | object s | array s | function s =>
    obtain ⟨auth, delegation, -, -, rfl⟩ := h
    simp [SecureConfig.isUndefined]
  | revoked callable id => exact h.elim
  | _ =>
    obtain rfl := h
    simp [SecureConfig.isUndefined]

theorem ProtectionRead.isUndefined (h : ProtectionRead reply value captured) :
    isUndefined captured = true ↔ value = .undefined := by
  cases value with
  | object o =>
    obtain ⟨mode, -, ⟨-, rfl⟩ | ⟨-, store, inner, -, -, rfl⟩⟩ := h
    · simp [SecureConfig.isUndefined]
    · simp [SecureConfig.isUndefined]
  | revoked callable id =>
    cases callable with
    | false => exact h.elim
    | true =>
      obtain rfl := h
      simp [SecureConfig.isUndefined]
  | _ =>
    obtain rfl := h
    simp [SecureConfig.isUndefined]

theorem ProtectionRead.isUndefined_object {protection : ℕ} (h : ProtectionRead reply (.object protection) captured) :
    SecureConfig.isUndefined captured = false := by
  refine Bool.eq_false_iff.mpr fun hundefined => ?_
  cases h.isUndefined.mp hundefined

theorem StoreRead.unique {store : Live} {captured' : Captured} (h : StoreRead reply place store captured)
    (h' : StoreRead reply place store captured') : captured = captured' := by
  cases store with
  | object s | array s | function s =>
    obtain ⟨auth, delegation, hauth, hdelegation, rfl⟩ := h
    obtain ⟨auth', delegation', hauth', hdelegation', rfl⟩ := h'
    obtain rfl := Option.some.inj (hauth.symm.trans hauth')
    obtain rfl := Option.some.inj (hdelegation.symm.trans hdelegation')
    rfl
  | revoked callable id => exact h.elim
  | _ => exact Eq.trans h (Eq.symm h')

end

section

variable {reply : (i : Request) → Answer i} {resolved : ReplayResolution} {captured other : Captured} {strict : Bool}

theorem strictFromConfig_ok {value : Live} : Call.ends reply (strictFromConfig (.live value)) = .ok strict ↔
    value = .bool strict ∨ (strict = false ∧ value = .undefined) := by
  cases value with
  | undefined => simp [strictFromConfig, Call.ends_pure, eq_comm]
  | bool b => simp [strictFromConfig, Call.ends_pure]
  | _ => simp [strictFromConfig, Call.ends_bind_ok, ends_fail]

theorem resolveShared_ok : Call.ends reply (resolveShared captured) = .ok resolved ↔ ∃ members ephemeral,
    captured = .store members ephemeral ∧ isCallable (member members (js "consumeAuthId")) = true ∧
      (isUndefined (member members (js "consumeDelegationId")) = true ∨
        isCallable (member members (js "consumeDelegationId")) = true) ∧
      resolved = ⟨.provided captured, .explicitShared, none⟩ := by
  cases captured with
  | store members ephemeral =>
    constructor
    · intro h
      simp only [resolveShared] at h
      split_ifs at h with hauth hdelegation
      · exact absurd h not_ends_fail
      · exact absurd h not_ends_fail
      rw [Call.ends_pure] at h
      refine ⟨members, ephemeral, rfl, by simpa using hauth, ?_, (Except.ok.inj h).symm⟩
      cases hundefined : isUndefined (member members (js "consumeDelegationId")) with
      | true => exact .inl rfl
      | false => exact .inr (by simpa [hundefined] using hdelegation)
    · rintro ⟨_, _, heq, hauth, hdelegation, rfl⟩
      obtain ⟨rfl, rfl⟩ := Captured.store.inj heq
      rw [resolveShared, hauth]
      rcases hdelegation with h | h
      · simp [h, Call.ends_pure]
      · simp [h, Call.ends_pure]
  | live v => cases v <;> simp [resolveShared, ends_fail]
  | _ => simp [resolveShared, ends_fail]

theorem not_ends_refuseMode {mode : Captured} : Call.ends reply (refuseMode mode) ≠ .ok resolved := by
  intro h
  obtain ⟨got, -, hfail⟩ := Call.ends_bind_ok.mp h
  exact not_ends_fail hfail

theorem not_ends_refused {array : Capture Bool} : Call.ends reply (array >>= fun _ => refuseProtection) ≠ .ok resolved := by
  intro h
  obtain ⟨_, -, hfail⟩ := Call.ends_bind_ok.mp h
  exact not_ends_fail hfail

theorem resolveDeclared_ok : Call.ends reply (resolveDeclared captured) = .ok resolved ↔ ∃ members,
    captured = .record members ∧
    ((member members (js "mode") = .live (.str (js "process-local")) ∧ members.lookup (js "store") = none ∧
        resolved = ⟨.inMemory createInMemoryReplayStore, .explicitProcessLocal, none⟩) ∨
      (member members (js "mode") = .live (.str (js "shared")) ∧
        Call.ends reply (resolveShared (member members (js "store"))) = .ok resolved)) := by
  unfold resolveDeclared
  split
  · next members =>
    have hmodes : js "shared" ≠ js "process-local" := by decide
    simp only [Captured.record.injEq, exists_eq_left']
    split
    · next mode hmode =>
      simp only [hmode, Captured.live.injEq, Live.str.injEq]
      split_ifs with hlocal hcarries hshared
      · have hsome := Option.isSome_iff_ne_none.mp hcarries
        simp [hlocal, hsome, hmodes.symm, ends_fail]
      · have hnone := Option.not_isSome_iff_eq_none.mp hcarries
        simp [hlocal, hnone, hmodes.symm, Call.ends_pure, eq_comm]
      · simp [hshared, hmodes]
      · simp [hlocal, hshared, not_ends_refuseMode]
    · next hmode =>
      refine iff_of_false not_ends_refuseMode ?_
      rintro (⟨h, -⟩ | ⟨h, -⟩)
      · exact hmode _ h
      · exact hmode _ h
  · refine iff_of_false not_ends_refused ?_
    rintro ⟨members, h, -⟩
    cases h
  · next hrecord _ =>
    refine iff_of_false not_ends_fail ?_
    rintro ⟨members, h, -⟩
    exact hrecord members h

theorem resolveReplayProtection_ok : Call.ends reply (resolveReplayProtection captured other strict) = .ok resolved ↔
    (isUndefined captured = false ∧ isUndefined other = true ∧ Call.ends reply (resolveDeclared captured) = .ok resolved) ∨
      (isUndefined captured = true ∧ isUndefined other = false ∧ resolved = ⟨.provided other, .legacyReplayStore, none⟩) ∨
        (isUndefined captured = true ∧ isUndefined other = true ∧ strict = false ∧
          resolved = ⟨.inMemory createInMemoryReplayStore, .implicitDefault, some replayMigrationWarning⟩) := by
  rw [resolveReplayProtection]
  cases isUndefined captured <;> cases isUndefined other <;> cases strict <;>
    simp [ends_fail, Call.ends_pure, eq_comm]

theorem resolveCaptured_ok {raw : List (JsString × Captured)} : Call.ends reply (resolveCaptured raw) = .ok resolved ↔
    ∃ strict, Call.ends reply (strictFromConfig (member raw (js "requireExplicitReplayProtection"))) = .ok strict ∧
      Call.ends reply (resolveReplayProtection (member raw (js "replayProtection")) (member raw (js "replayStore")) strict) =
        .ok resolved ∧ ¬(resolved.source = .explicitShared ∧ isCapturedEphemeralReplayStore resolved.store = true) := by
  rw [resolveCaptured, Call.ends_bind_ok]
  simp only [Call.ends_bind_ok]
  refine exists_congr fun strict => and_congr_right fun _ => ?_
  constructor
  · rintro ⟨found, hfound, h⟩
    split_ifs at h with hmark
    · exact absurd h not_ends_fail
    · obtain rfl := Except.ok.inj (Call.ends_pure.symm.trans h)
      exact ⟨hfound, hmark⟩
  · rintro ⟨hfound, hdurable⟩
    refine ⟨resolved, hfound, ?_⟩
    rw [if_neg hdurable]
    exact Call.ends_pure

end

section

variable {reply : (i : Request) → Answer i} {config : Live} {raw : List (JsString × Captured)} {resolved : ReplayResolution}

theorem isCallable_withReceiver {receiver : ℕ} {fn : Live} :
    isCallable (withReceiver receiver fn) = true ↔ ∃ f, withReceiver receiver fn = .bound f receiver := by
  unfold withReceiver
  split
  · simp [isCallable]
  · simp [isCallable]
  · next hfunction hrevoked => cases fn with
    | function f => exact absurd rfl (hfunction f)
    | revoked callable id =>
      cases callable with
      | false => simp [isCallable]
      | true => exact absurd rfl (hrevoked id)
    | _ => simp [isCallable]

theorem isUndefined_iff {captured : Captured} : isUndefined captured = true ↔ captured = .live .undefined := by
  cases captured with
  | live v => cases v <;> simp [isUndefined]
  | _ => simp [isUndefined]

theorem StoreRead.of_store {place : Place} {store : Live} {members : List (JsString × Captured)} {ephemeral : Bool}
    (h : StoreRead reply place store (.store members ephemeral)) : ∃ s auth delegation,
      members = [(js "consumeAuthId", withReceiver s auth), (js "consumeDelegationId", withReceiver s delegation)] := by
  cases store with
  | object s | array s | function s =>
    obtain ⟨auth, delegation, -, -, heq⟩ := h
    exact ⟨s, auth, delegation, (Captured.store.inj heq).1⟩
  | revoked callable id => exact h.elim
  | _ => cases h

theorem posture_of_shared {protection : ℕ} {store : Live} {captured : Captured} {strict : Bool}
    (hprotection : Declares reply (js "replayProtection") (.object protection))
    (hlegacy : Declares reply (js "replayStore") .undefined) (hstrict : StrictFlag reply strict)
    (hmode : reply (.get (protectionPlace ++ [Step.member (js "mode")])) = some (.str (js "shared")))
    (hcarries : reply (.has (protectionPlace ++ [Step.member (js "store")])) = some true)
    (hstore : reply (.get (protectionPlace ++ [Step.member (js "store")])) = some store)
    (hread : StoreRead reply (protectionPlace ++ [Step.member (js "store")]) store captured)
    (h : Call.ends reply (resolveShared captured) = .ok resolved)
    (hdurable : ¬(resolved.source = .explicitShared ∧ isCapturedEphemeralReplayStore resolved.store = true)) :
    Posture reply resolved := by
  obtain ⟨members, ephemeral, rfl, hauth, hdelegation, rfl⟩ := resolveShared_ok.mp h
  have hlasting : ephemeral = false := by
    cases ephemeral with
    | false => rfl
    | true => exact absurd ⟨rfl, rfl⟩ hdurable
  subst hlasting
  obtain ⟨s, auth, delegation, rfl⟩ := hread.of_store
  rw [member_head, isCallable_withReceiver] at hauth
  rw [member_next (by decide), member_head, isUndefined_iff, isCallable_withReceiver] at hdelegation
  obtain ⟨f, hf⟩ := hauth
  rw [hf] at hread ⊢
  exact .shared hprotection hlegacy hstrict hmode hcarries hstore hread hdelegation

theorem posture_of_declared {value : Live} {captured : Captured} {strict : Bool}
    (hprotection : Declares reply (js "replayProtection") value) (hread : ProtectionRead reply value captured)
    (hlegacy : Declares reply (js "replayStore") .undefined) (hstrict : StrictFlag reply strict)
    (h : Call.ends reply (resolveDeclared captured) = .ok resolved)
    (hdurable : ¬(resolved.source = .explicitShared ∧ isCapturedEphemeralReplayStore resolved.store = true)) :
    Posture reply resolved := by
  obtain ⟨members, rfl, hmembers⟩ := resolveDeclared_ok.mp h
  cases value with
  | object protection =>
    obtain ⟨mode, hmode, ⟨hcarries, hrecord⟩ | ⟨hcarries, store, inner, hstore, hinner, hrecord⟩⟩ := hread
    · obtain rfl := Captured.record.inj hrecord
      rw [member_head, member_next (by decide)] at hmembers
      rcases hmembers with ⟨hlocal, -, rfl⟩ | ⟨-, hshared⟩
      · obtain rfl := Captured.live.inj hlocal
        exact .processLocal hprotection hlegacy hstrict hmode hcarries
      · obtain ⟨_, _, hbad, -⟩ := resolveShared_ok.mp hshared
        cases hbad
    · obtain rfl := Captured.record.inj hrecord
      rw [member_head, member_next (by decide), member_head] at hmembers
      rcases hmembers with ⟨-, hnone, -⟩ | ⟨hmodeShared, hshared⟩
      · rw [List.lookup_cons, beq_false_of_ne (by decide), List.lookup_cons_self] at hnone
        cases hnone
      · obtain rfl := Captured.live.inj hmodeShared
        exact posture_of_shared hprotection hlegacy hstrict hmode hcarries hstore hinner hshared hdurable
  | revoked callable id =>
    cases callable with
    | false => exact hread.elim
    | true => cases hread
  | _ => cases hread

theorem Declares.unique {key : JsString} {value other : Live} (h : Declares reply key value) (h' : Declares reply key other) :
    value = other := Option.some.inj (Eq.trans (Eq.symm h) h')

theorem resolveDeclared_shared {protection f s : ℕ} {store : Live} {captured delegation : Captured}
    (hprotection : ProtectionRead reply (.object protection) captured)
    (hmode : reply (.get (protectionPlace ++ [Step.member (js "mode")])) = some (.str (js "shared")))
    (hcarries : reply (.has (protectionPlace ++ [Step.member (js "store")])) = some true)
    (hstore : reply (.get (protectionPlace ++ [Step.member (js "store")])) = some store)
    (hread : StoreRead reply (protectionPlace ++ [Step.member (js "store")]) store
      (.store [(js "consumeAuthId", .bound f s), (js "consumeDelegationId", delegation)] false))
    (hdelegation : delegation = .live .undefined ∨ ∃ g, delegation = .bound g s) :
    Call.ends reply (resolveDeclared captured) = .ok ⟨.provided (.store [(js "consumeAuthId", .bound f s),
      (js "consumeDelegationId", delegation)] false), .explicitShared, none⟩ := by
  obtain ⟨mode, hmode', ⟨hnot, -⟩ | ⟨-, store', inner, hstore', hinner, rfl⟩⟩ := hprotection
  · cases hcarries.symm.trans hnot
  · obtain rfl := Option.some.inj (hmode.symm.trans hmode')
    obtain rfl := Option.some.inj (hstore.symm.trans hstore')
    obtain rfl := hread.unique hinner
    refine resolveDeclared_ok.mpr ⟨_, rfl, .inr ⟨member_head, ?_⟩⟩
    rw [member_next (by decide), member_head]
    refine resolveShared_ok.mpr ⟨_, _, rfl, ?_, ?_, rfl⟩
    · rw [member_head]
      rfl
    · rw [member_next (by decide), member_head]
      rcases hdelegation with rfl | ⟨g, rfl⟩
      · exact .inl rfl
      · exact .inr rfl

theorem resolveDeclared_local {protection : ℕ} {captured : Captured}
    (hprotection : ProtectionRead reply (.object protection) captured)
    (hmode : reply (.get (protectionPlace ++ [Step.member (js "mode")])) = some (.str (js "process-local")))
    (hcarries : reply (.has (protectionPlace ++ [Step.member (js "store")])) = some false) :
    Call.ends reply (resolveDeclared captured) = .ok ⟨.inMemory createInMemoryReplayStore, .explicitProcessLocal, none⟩ := by
  obtain ⟨mode, hmode', ⟨-, rfl⟩ | ⟨hnot, -⟩⟩ := hprotection
  · obtain rfl := Option.some.inj (hmode.symm.trans hmode')
    refine resolveDeclared_ok.mpr ⟨_, rfl, .inl ⟨member_head, ?_, rfl⟩⟩
    rw [List.lookup_cons, beq_false_of_ne (by decide)]
    rfl
  · cases hcarries.symm.trans hnot

/-- What is captured resolves to what was declared. -/
theorem resolveCaptured_iff (h : Call.ends reply (captureSecureGuardConfig config) = .ok raw) :
    Call.ends reply (resolveCaptured raw) = .ok resolved ↔ Posture reply resolved := by
  obtain ⟨protection, hprotection, hprotectionRead⟩ := captured_protection h
  obtain ⟨store, hstore, hstoreRead⟩ := captured_store h
  obtain ⟨flag, hflag, hkept⟩ := captured_flag h
  rw [resolveCaptured_ok, hkept]
  simp only [strictFromConfig_ok, resolveReplayProtection_ok]
  have hstrictFlag : ∀ strict, (flag = .bool strict ∨ (strict = false ∧ flag = .undefined)) ↔ StrictFlag reply strict := by
    intro strict
    rw [StrictFlag, Declares, Declares, hflag, Option.some.injEq, Option.some.injEq]
  constructor
  · rintro ⟨strict, hstrict, hcase, hdurable⟩
    have hset := (hstrictFlag strict).mp hstrict
    rcases hcase with ⟨-, hnone, hdeclared⟩ | ⟨hnone, hsome, rfl⟩ | ⟨hnone, hnone', rfl, rfl⟩
    · obtain rfl := hstoreRead.isUndefined.mp hnone
      exact posture_of_declared hprotection hprotectionRead hstore hset hdeclared hdurable
    · obtain rfl := hprotectionRead.isUndefined.mp hnone
      refine .legacy hprotection hstore (fun heq => ?_) hset hstoreRead
      rw [hstoreRead.isUndefined.mpr heq] at hsome
      cases hsome
    · obtain rfl := hprotectionRead.isUndefined.mp hnone
      obtain rfl := hstoreRead.isUndefined.mp hnone'
      exact .implicitDefault hprotection hstore hset
  · intro hposture
    cases hposture with
    | @shared _ _ _ _ _ strict hdeclared hlegacy hset hmode hcarries hread hwhole hdelegation =>
      obtain rfl := hprotection.unique hdeclared
      obtain rfl := hstore.unique hlegacy
      have hnew := hprotectionRead.isUndefined_object
      refine ⟨strict, (hstrictFlag strict).mpr hset, .inl ⟨hnew, hstoreRead.isUndefined.mpr rfl, ?_⟩, ?_⟩
      · exact resolveDeclared_shared hprotectionRead hmode hcarries hread hwhole hdelegation
      · rintro ⟨-, h⟩
        cases h
    | @processLocal _ strict hdeclared hlegacy hset hmode hcarries =>
      obtain rfl := hprotection.unique hdeclared
      obtain rfl := hstore.unique hlegacy
      have hnew := hprotectionRead.isUndefined_object
      refine ⟨strict, (hstrictFlag strict).mpr hset, .inl ⟨hnew, hstoreRead.isUndefined.mpr rfl, ?_⟩, ?_⟩
      · exact resolveDeclared_local hprotectionRead hmode hcarries
      · rintro ⟨h, -⟩
        cases h
    | @legacy store' captured strict hdeclared hlegacy hset hflagged hread =>
      obtain rfl := hprotection.unique hdeclared
      obtain rfl := hstore.unique hlegacy
      obtain rfl := hstoreRead.unique hread
      have hold : isUndefined (member raw (js "replayStore")) = false :=
        Bool.eq_false_iff.mpr fun hu => hset (hstoreRead.isUndefined.mp hu)
      refine ⟨strict, (hstrictFlag strict).mpr hflagged, .inr (.inl ⟨hprotectionRead.isUndefined.mpr rfl, hold, rfl⟩), ?_⟩
      rintro ⟨h, -⟩
      cases h
    | implicitDefault hdeclared hlegacy hset =>
      obtain rfl := hprotection.unique hdeclared
      obtain rfl := hstore.unique hlegacy
      refine ⟨false, (hstrictFlag false).mpr hset, .inr (.inr ⟨hprotectionRead.isUndefined.mpr rfl,
        hstoreRead.isUndefined.mpr rfl, rfl, rfl⟩), ?_⟩
      rintro ⟨h, -⟩
      cases h

theorem ends_secureReplay : Call.ends reply (secureReplay config) = .ok resolved ↔
    (∃ raw, Call.ends reply (captureSecureGuardConfig config) = .ok raw) ∧ Posture reply resolved := by
  rw [secureReplay, Call.ends_bind_ok]
  constructor
  · rintro ⟨raw, hraw, h⟩
    exact ⟨⟨raw, hraw⟩, (resolveCaptured_iff hraw).mp h⟩
  · rintro ⟨⟨raw, hraw⟩, hposture⟩
    exact ⟨raw, hraw, (resolveCaptured_iff hraw).mpr hposture⟩

theorem within_isArray (place : Place) (value : Captured) : (isArray place value).Within {.revoked place} := by
  have hasked : ∀ answer, (unlessRevoked place answer).Within {.revoked place} := by
    intro answer
    refine within_then Call.within_request fun revoked => ?_
    cases revoked with
    | false => exact Call.within_pure
    | true => exact Call.within_throw
  unfold isArray
  split
  · exact hasked true
  · exact hasked false
  · exact hasked false
  · exact Call.within_throw
  · exact Call.within_pure
  · exact Call.within_pure

theorem within_describe (place : Place) (value : Captured) : (describe place value).Within {.revoked place} := by
  unfold describe
  split
  · exact Call.within_pure
  · exact Call.within_pure
  · exact Call.within_pure
  · exact within_then (within_isArray place value) fun _ => Call.within_pure

theorem within_strictFromConfig (value : Captured) : (strictFromConfig value).Within {.revoked strictPlace} := by
  unfold strictFromConfig
  split
  · exact Call.within_pure
  · exact Call.within_pure
  · exact within_then (within_describe strictPlace value) fun _ => Call.within_throw

/-- What the resolution of a posture may ask. -/
def resolving : Set Request := {.revoked modePlace, .revoked protectionPlace}

theorem within_refuseMode (mode : Captured) : (refuseMode mode).Within resolving := by
  refine Call.Within.mono ?_ (Set.singleton_subset_iff.mpr (Set.mem_insert _ _))
  exact within_then (within_describe modePlace mode) fun _ => Call.within_throw

theorem within_resolveShared (store : Captured) : (resolveShared store).Within resolving := by
  unfold resolveShared
  split
  · exact Call.within_throw
  · exact Call.within_throw
  · dsimp only
    split_ifs
    · exact Call.within_throw
    · exact Call.within_throw
    · exact Call.within_pure
  · exact Call.within_throw

theorem within_resolveDeclared (replayProtection : Captured) : (resolveDeclared replayProtection).Within resolving := by
  unfold resolveDeclared
  split
  · split
    · split_ifs
      · exact Call.within_throw
      · exact Call.within_pure
      · exact within_resolveShared _
      · exact within_refuseMode _
    · exact within_refuseMode _
  · refine Call.Within.mono ?_ (Set.subset_insert _ _)
    exact within_then (within_isArray protectionPlace _) fun _ => Call.within_throw
  · exact Call.within_throw

theorem within_resolveReplayProtection (replayProtection replayStore : Captured) (strict : Bool) :
    (resolveReplayProtection replayProtection replayStore strict).Within resolving := by
  dsimp only [resolveReplayProtection]
  split_ifs
  · exact Call.within_throw
  · exact within_resolveDeclared _
  · exact Call.within_pure
  · exact Call.within_throw
  · exact Call.within_pure

theorem within_resolveCaptured (raw : List (JsString × Captured)) :
    (resolveCaptured raw).Within ({.revoked strictPlace} ∪ resolving) := by
  have hapart : Disjoint {Request.revoked strictPlace} resolving := by
    rw [Set.disjoint_singleton_left]
    rintro (h | h)
    · exact absurd h (by decide)
    · exact absurd h (by decide)
  refine (within_strictFromConfig _).bind (fun strict => ?_) hapart
  refine within_then (within_resolveReplayProtection _ _ strict) fun resolved => ?_
  split_ifs
  · exact Call.within_throw
  · exact Call.within_pure

theorem within_secureReplay (config : Live) : (secureReplay config).Within Set.univ := by
  have hapart : Disjoint capturing ({.revoked strictPlace} ∪ resolving) := by
    rw [Set.disjoint_left]
    rintro i hi (rfl | rfl | rfl)
    · exact hi _ rfl
    · exact hi _ rfl
    · exact hi _ rfl
  exact ((within_capture config).bind within_resolveCaptured hapart).mono (Set.subset_univ _)

/-- However the deployer's objects change their answers, a guard is built exactly where one
reading of each answer declares a posture, and with the store that this posture names. -/
theorem secureReplay_posture (config : Live) {evs : List (Sigma Answer)} {r : Except CaptureError ReplayResolution}
    (hp : Path (secureReplay config ⟨⟩) evs (.done (r, ⟨⟩))) :
    (evs.map Sigma.fst).Nodup ∧ ∃ reply, Gives reply evs ∧ ∀ resolved, r = .ok resolved ↔
      (∃ raw, Call.ends reply (captureSecureGuardConfig config) = .ok raw) ∧ Posture reply resolved := by
  obtain ⟨hnodup, reply, hreply, hends⟩ := (within_secureReplay config).table inert hp ⟨⟩
  refine ⟨hnodup, reply, hreply, fun resolved => ?_⟩
  have hr : Call.ends reply (secureReplay config) = r := congrArg Prod.fst hends
  rw [← hr]
  exact ends_secureReplay

theorem posture_sharedAnswers : Posture sharedAnswers ⟨.provided (.store [(js "consumeAuthId", .bound 3 2),
    (js "consumeDelegationId", .live .undefined)] false), .explicitShared, none⟩ := by
  have hprotection : Declares sharedAnswers (js "replayProtection") (.object 1) := rfl
  have hstrict : StrictFlag sharedAnswers false := .inr ⟨rfl, rfl⟩
  refine .shared hprotection rfl hstrict rfl rfl rfl ?_ (.inl rfl)
  exact ⟨.function 3, .undefined, rfl, rfl, rfl⟩

theorem secureReplay_posture_sample : ∃ (evs : List (Sigma Answer)) (reply : (i : Request) → Answer i),
    (evs.map Sigma.fst).Nodup ∧ Gives reply evs ∧ Posture reply ⟨.provided (.store [(js "consumeAuthId", .bound 3 2),
      (js "consumeDelegationId", .live .undefined)] false), .explicitShared, none⟩ := by
  have hends := ends_secureReplay.mpr ⟨captures_sharedAnswers, posture_sharedAnswers⟩
  obtain ⟨evs, hpath, -⟩ := Call.ends_path sharedAnswers (secureReplay (.object 0))
  obtain ⟨hnodup, reply, hreply, hposture⟩ := secureReplay_posture (.object 0) hpath
  exact ⟨evs, reply, hnodup, hreply, ((hposture _).mp hends).2⟩

end

end OxDeAI.SecureConfig
