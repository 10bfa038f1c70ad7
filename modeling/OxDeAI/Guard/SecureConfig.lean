import OxDeAI.Js.Json
import OxDeAI.Lib.Once

/-! The capture of a secure guard's configuration: the deployer's objects answer each read
as they like, by a getter, a proxy or a prototype. -/

namespace OxDeAI.SecureConfig

open Js Async

/-- A value of the host; objects and functions are known by their identity. -/
inductive Live
  | undefined
  | null
  | bool (b : Bool)
  | num (n : JsNumber)
  | bigint (z : ℤ)
  | str (s : JsString)
  | symbol (id : ℕ)
  | object (id : ℕ)
  | array (id : ℕ)
  | function (id : ℕ)
  -- a proxy that is revoked: `typeof` still tells a function, `Array.isArray` and every read throw
  | revoked (callable : Bool) (id : ℕ)
  deriving DecidableEq

inductive Step
  | member (name : JsString)
  | index (i : ℕ)
  | length
  deriving DecidableEq

/-- How a value is reached from the configuration. -/
abbrev Place := List Step

def Step.label : Step → JsString
  | member name => js "." ++ name
  | index i => js "[" ++ natDecimal i ++ js "]"
  | length => js ".length"

def label (place : Place) : JsString := js "config" ++ place.flatMap Step.label

/-- The own property names of the intrinsic prototypes, as `Reflect.ownKeys` lists them. -/
structure Intrinsics where
  object : List JsString
  array : List JsString
  function : List JsString

/-- What the capture asks of its host; the last is whether the proxy read at a place has been
revoked since. -/
inductive Request
  | get (place : Place)
  | has (place : Place)
  | ephemeral (place : Place)
  | intrinsics (pass : ℕ)
  | revoked (place : Place)
  deriving DecidableEq

/-- Nothing stands for an accessor or a trap that threw. -/
abbrev Answer : Request → Type
  | .get _ => Option Live
  | .has _ => Option Bool
  | .ephemeral _ => Bool
  | .intrinsics _ => Intrinsics
  | .revoked _ => Bool

/-- An `OxDeAIGuardConfigurationError`, or what the host throws where `Array.isArray` is asked of
a revoked proxy. -/
inductive CaptureError
  | configuration (message : JsString)
  | typeError
  deriving DecidableEq

abbrev Capture (α : Type) := Call PUnit Request Answer PUnit CaptureError α

def fail {α : Type} (message : JsString) : Capture α := Call.throw (.configuration message)

def configFields : List JsString :=
  [js "engine", js "getState", js "setState", js "mapActionToIntent", js "beforeExecute", js "onDecision",
    js "onBoundaryEvent", js "expectedAudience", js "trustedKeySets", js "trustedDelegationAuthorities",
    js "trustedDelegationSigners", js "delegationRevocationProvider", js "requireDelegationRevocation", js "revocation",
    js "replayStore", js "replayProtection", js "requireExplicitReplayProtection", js "computeStateHash"]

def replayProtectionMembers : List JsString := [js "mode", js "store"]

def replayStoreMembers : List JsString := [js "consumeAuthId", js "consumeDelegationId"]

def signerMembers : List JsString := [js "delegator", js "issuer"]

def authorityMembers : List JsString := [js "issuer", js "policyId"]

def providerMembers : List JsString := [js "check"]

def revocationMembers : List JsString := [js "trustedKrlKeySets", js "scopes", js "provider", js "watermarkStore"]

def scopeMembers : List JsString := [js "krlIssuer", js "keyIssuers"]

def watermarkMembers : List JsString := [js "accept"]

def keySetMembers : List JsString := [js "issuer", js "version", js "keys"]

def keySetKeyMembers : List JsString :=
  [js "kid", js "alg", js "public_key", js "status", js "not_before", js "not_after"]

/-- Every name that is read, where it first stands. -/
def readNames : List JsString :=
  (configFields ++ replayProtectionMembers ++ replayStoreMembers ++ signerMembers ++ authorityMembers ++ providerMembers ++
    revocationMembers ++ scopeMembers ++ watermarkMembers ++ keySetMembers ++ keySetKeyMembers).reverse.dedup.reverse

def callableFields : List JsString :=
  [js "getState", js "setState", js "mapActionToIntent", js "beforeExecute", js "onDecision", js "onBoundaryEvent",
    js "computeStateHash"]

/-- What is kept: the value itself, a function with its receiver, or a frozen copy. -/
inductive Captured
  | live (v : Live)
  | bound (function receiver : ℕ)
  | record (members : List (JsString × Captured))
  | store (members : List (JsString × Captured)) (ephemeral : Bool)
  | list (items : List Captured)

def isDigit (u : CodeUnit) : Bool := 48 ≤ u.val && u.val ≤ 57

def isIndexKey (k : JsString) : Bool :=
  match k with
  | [] => false
  | [u] => isDigit u
  | u :: us => isDigit u && u.val ≠ 48 && us.all isDigit

/-- The first name that a read would inherit, with the prototype that has it. -/
def polluted (names : Intrinsics) : Option (JsString × JsString) :=
  let from_ (proto : JsString) (own read : List JsString) := (read.find? (own.contains ·)).map (fun name => (proto, name))
  let indexed (proto : JsString) (own : List JsString) := (own.find? isIndexKey).map (fun name => (proto, name))
  (from_ (js "Object.prototype") names.object readNames) <|>
    (from_ (js "Array.prototype") names.array authorityMembers) <|>
    (from_ (js "Function.prototype") names.function replayStoreMembers) <|>
    (indexed (js "Object.prototype") names.object) <|> (indexed (js "Array.prototype") names.array)

def pollutionMessage (proto name : JsString) : JsString :=
  proto ++ js " has a property named " ++ quote name ++ js ", which a secure guard option or member would inherit " ++
    js "(prototype pollution). Refusing to construct: an inherited value could supply or replace security configuration."

def assertIntrinsicsUnpolluted (pass : ℕ) : Capture PUnit := do
  let names ← Call.request (.intrinsics pass)
  match polluted names with
  | some (proto, name) => fail (pollutionMessage proto name)
  | none => pure ⟨⟩

def unreadable (place : Place) : JsString := label place ++ js " could not be read."

/-- What was answered, or the error of a read that threw. -/
def answered {α : Type} (place : Place) (answer : Option α) : Capture α :=
  match answer with
  | some v => pure v
  | none => fail (unreadable place)

def read (place : Place) : Capture Live := Call.request (.get place) >>= fun answer => answered place answer

def has (place : Place) : Capture Bool := Call.request (.has place) >>= fun answer => answered place answer

def arrayLength (length : Live) : Option ℕ :=
  match length with
  | .num (.int z) => if z.natAbs ≤ JsNumber.maxSafeInteger ∧ 0 ≤ z then some z.toNat else none
  | _ => none

/-- Read a value and go on with it. -/
def readWith {α : Type} (place : Place) (next : Live → Capture α) : Capture α := read place >>= next

def copyArray (value : Live) (place : Place) (entry : Live → Place → Capture Captured) : Capture Captured :=
  match value with
  | .array _ => do
    let length ← read (place ++ [Step.length])
    let n ← answered place (arrayLength length)
    let items ← Call.forEach (fun i => readWith (place ++ [Step.index i]) fun e => entry e (place ++ [Step.index i])) (List.range n)
    pure (.list items)
  | .revoked _ _ => Call.throw .typeError
  | v => pure (.live v)

/-- The listed members, one read each. -/
def readMembers (place : Place) (keys : List JsString) (keep : Live → Captured) : Capture (List (JsString × Captured)) :=
  Call.forEach (fun k => readWith (place ++ [Step.member k]) fun v => pure (k, keep v)) keys

def copyMembers (keys : List JsString) (anyObject : Bool) (value : Live) (place : Place) : Capture Captured :=
  match value with
  | .object _ => do
    let members ← readMembers place keys .live
    pure (.record members)
  | .array a =>
    if anyObject then do
      let members ← readMembers place keys .live
      pure (.record members)
    else pure (.live (.array a))
  | .revoked false _ =>
    if anyObject then fail (unreadable (place ++ (keys.take 1).map .member)) else Call.throw .typeError
  | v => pure (.live v)

def withReceiver (receiver : ℕ) (fn : Live) : Captured :=
  match fn with
  | .function f | .revoked true f => .bound f receiver
  | v => .live v

def captureReplayStore (store : Live) (place : Place) : Capture Captured :=
  match store with
  | .object s | .array s | .function s => do
    let members ← readMembers place replayStoreMembers (withReceiver s)
    let ephemeral ← Call.request (.ephemeral place)
    pure (.store members ephemeral)
  | .revoked _ _ => fail (unreadable (place ++ [Step.member (js "consumeAuthId")]))
  | v => pure (.live v)

def captureReplayProtection (value : Live) (place : Place) : Capture Captured :=
  match value with
  | .object _ => do
    let mode ← read (place ++ [Step.member (js "mode")])
    let carries ← has (place ++ [Step.member (js "store")])
    if !carries then pure (.record [(js "mode", .live mode)])
    else do
      let store ← readWith (place ++ [Step.member (js "store")]) fun store =>
        captureReplayStore store (place ++ [Step.member (js "store")])
      pure (.record [(js "mode", .live mode), (js "store", store)])
  | .revoked false _ => Call.throw .typeError
  | v => pure (.live v)

def captureSigners (value : Live) (place : Place) : Capture Captured := copyArray value place (copyMembers signerMembers false)

def captureAuthorities (value : Live) (place : Place) : Capture Captured :=
  copyArray value place (copyMembers authorityMembers true)

/-- A record whose one method is read once and bound to it. -/
def captureMethod (name : JsString) (value : Live) (place : Place) : Capture Captured :=
  match value with
  | .object o => do
    let members ← readMembers place [name] (withReceiver o)
    pure (.record members)
  | .revoked false _ => Call.throw .typeError
  | v => pure (.live v)

def captureDelegationRevocationProvider (value : Live) (place : Place) : Capture Captured :=
  captureMethod (js "check") value place

def captureKeySet (value : Live) (place : Place) : Capture Captured :=
  match value with
  | .object _ => do
    let issuer ← read (place ++ [Step.member (js "issuer")])
    let version ← read (place ++ [Step.member (js "version")])
    let keys ← readWith (place ++ [Step.member (js "keys")]) fun keys =>
      copyArray keys (place ++ [Step.member (js "keys")]) (copyMembers keySetKeyMembers false)
    pure (.record [(js "issuer", .live issuer), (js "version", .live version), (js "keys", keys)])
  | .revoked false _ => Call.throw .typeError
  | v => pure (.live v)

def captureKeySets (value : Live) (place : Place) : Capture Captured :=
  match value with
  | .array a => copyArray (.array a) place captureKeySet
  | .revoked _ _ => Call.throw .typeError
  | v => captureKeySet v place

def captureScope (value : Live) (place : Place) : Capture Captured :=
  match value with
  | .object _ => do
    let krlIssuer ← read (place ++ [Step.member (js "krlIssuer")])
    let keyIssuers ← readWith (place ++ [Step.member (js "keyIssuers")]) fun issuers =>
      copyArray issuers (place ++ [Step.member (js "keyIssuers")]) fun x _ => pure (.live x)
    pure (.record [(js "krlIssuer", .live krlIssuer), (js "keyIssuers", keyIssuers)])
  | .revoked false _ => Call.throw .typeError
  | v => pure (.live v)

def captureRevocation (value : Live) (place : Place) : Capture Captured :=
  match value with
  | .object _ => do
    let trustedKrlKeySets ← readWith (place ++ [Step.member (js "trustedKrlKeySets")]) fun sets =>
      captureKeySets sets (place ++ [Step.member (js "trustedKrlKeySets")])
    let scopes ← readWith (place ++ [Step.member (js "scopes")]) fun scopes =>
      copyArray scopes (place ++ [Step.member (js "scopes")]) captureScope
    let provider ← read (place ++ [Step.member (js "provider")])
    let watermarkStore ← readWith (place ++ [Step.member (js "watermarkStore")]) fun store =>
      captureMethod (js "accept") store (place ++ [Step.member (js "watermarkStore")])
    pure (.record [(js "trustedKrlKeySets", trustedKrlKeySets), (js "scopes", scopes), (js "provider", .live provider),
      (js "watermarkStore", watermarkStore)])
  | .revoked false _ => Call.throw .typeError
  | v => pure (.live v)

/-- Nested options are copied, callables are bound to the configuration, the rest is kept. -/
def captureOption (config : ℕ) (key : JsString) (value : Live) : Capture Captured :=
  let place : Place := [.member key]
  if key = js "replayProtection" then captureReplayProtection value place
  else if key = js "replayStore" then captureReplayStore value place
  else if key = js "trustedDelegationSigners" then captureSigners value place
  else if key = js "trustedDelegationAuthorities" then captureAuthorities value place
  else if key = js "delegationRevocationProvider" then captureDelegationRevocationProvider value place
  else if key = js "revocation" then captureRevocation value place
  else if callableFields.contains key then pure (withReceiver config value)
  else pure (.live value)

def captureSecureGuardConfig (config : Live) : Capture (List (JsString × Captured)) :=
  match config with
  | .object c | .array c => do
    assertIntrinsicsUnpolluted 0
    let entries ← Call.forEach (fun key => readWith [.member key] fun value => do
      let captured ← captureOption c key value
      pure (key, captured)) configFields
    assertIntrinsicsUnpolluted 1
    pure entries
  | .revoked false _ => do
    assertIntrinsicsUnpolluted 0
    fail (unreadable [.member (js "engine")])
  | _ => fail (js "config must be a plain object.")

end OxDeAI.SecureConfig
