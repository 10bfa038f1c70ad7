import OxDeAI.Sift.KeyStore
import OxDeAI.Sift.VerifyReceipt

/-! `verifyReceiptWithKeyStore`: the key comes from a store that others may refresh
meanwhile. -/

namespace OxDeAI.Sift

open Js Async

structure KeyStoreVerifyOptions where
  kid : JsString
  now : Option Date := none
  maxAgeMs : Option JsNumber := none
  requireAllowDecision : Option Bool := none

/-- `{ ...verifyOpts, publicKeyRaw: rawKey }`. -/
def KeyStoreVerifyOptions.withKey (options : KeyStoreVerifyOptions) (rawKey : List Byte) : VerifyReceiptOptions where
  publicKeyRaw := some (.bytes rawKey)
  now := options.now
  maxAgeMs := options.maxAgeMs
  requireAllowDecision := options.requireAllowDecision

/-- What the users of a store wait for: what its refreshes wait for, the turn after a
revocation test, and the turn after a key lookup with the time at its end. The memory
that was tested is noted; no code reads it. -/
inductive StoreRequest
  | store (i : KeyStoreRequest)
  | tested (kid : JsString) (memory : KeyStore)
  | looked

abbrev StoreAnswer : StoreRequest → Type
  | .store i => KeyStoreAnswer i
  | .tested _ _ => Unit
  | .looked => Date

abbrev StoreUse (α : Type) := Prog KeyStore StoreRequest StoreAnswer α

/-- A key as it was found: the memory it was read from, and the memory the kid was
last tested in. -/
structure FoundKey where
  rawKey : List Byte
  tested : KeyStore
  read : KeyStore
  clock : Date

inductive KeyLookup
  | revoked
  | unknown
  | found (key : FoundKey)

/-- How a use of the store ends: a refresh, or a verification before or after its key
was found. -/
inductive StoreOutcome
  | refreshed (result : Except Thrown Unit)
  | threw (thrown : Thrown)
  | failed (error : VerifyReceiptError)
  | verified (kid : JsString) (key : FoundKey) (result : Except VerifyReceiptError VerifiedReceipt)

def onStore {α : Type} (p : Refresh α) : StoreUse α := Prog.embed StoreRequest.store p

def awaitTested (kid : JsString) (memory : KeyStore) : StoreUse Unit := Prog.request (StoreRequest.tested kid memory)

def awaitLooked : StoreUse Date := Prog.request StoreRequest.looked

/-- The answer is that of the memory before the turn. -/
def isKidRevoked (kid : JsString) : StoreUse (Bool × KeyStore) := do
  let memory ← Prog.read
  awaitTested kid memory
  return (decide (kid ∈ memory.revokedKids), memory)

def getPublicKeyByKid (kid : JsString) : StoreUse (Option (List Byte) × KeyStore × Date) := do
  let memory ← Prog.read
  let clock ← awaitLooked
  return (memory.keyCache.own? kid, memory, clock)

/-- Steps 2 and 3, and once more after a refresh. -/
def lookUpKey (kid : JsString) : StoreUse KeyLookup := do
  match ← isKidRevoked kid with
  | (true, _) => return .revoked
  | (false, tested) =>
    match ← getPublicKeyByKid kid with
    | (none, _, _) => return .unknown
    | (some rawKey, read, clock) => return .found ⟨rawKey, tested, read, clock⟩

def revokedKid (kid : JsString) : VerifyReceiptError :=
  ⟨.revokedKid, js "Key '" ++ kid ++ js "' is revoked"⟩

/-- What a handler makes of an exception. -/
def Thrown.toReceiptError (thrown : Thrown) (code : VerifyReceiptErrorCode) (before : JsString) :
    Except Thrown VerifyReceiptError :=
  match thrown with
  | .keyStore error => .ok ⟨.keyStore error.code, error.message⟩
  | .other message _ => message.map (fun m => ⟨code, before ++ m⟩)

/-- The outer handler. -/
def unexpectedThrown (thrown : Thrown) : StoreOutcome :=
  match thrown.toReceiptError .verificationError (js "Unexpected error during keystore-based verification: ") with
  | .ok error => .failed error
  | .error thrown => .threw thrown

/-- The handler of the refresh; what it throws goes to the outer one. -/
def refreshThrew (thrown : Thrown) : StoreOutcome :=
  match thrown.toReceiptError (.keyStore .keystoreRefreshFailed) (js "Unexpected error during keystore refresh: ") with
  | .ok error => .failed error
  | .error thrown => unexpectedThrown thrown

section

variable (H : SiftHost) (opts : SiftHttpKeyStoreOptions)

def verifyWithKey (receipt : JsValue) (options : KeyStoreVerifyOptions) (key : FoundKey) : StoreOutcome :=
  .verified options.kid key (verifyReceipt H key.clock receipt (options.withKey key.rawKey))

/-- `nowSeconds` is the time of the refresh, if there is one. -/
def verifyReceiptWithKeyStore (receipt : JsValue) (options : KeyStoreVerifyOptions) (nowSeconds : JsNumber) :
    StoreUse StoreOutcome :=
  if options.kid.length = 0 then
    return .failed ⟨.missingKid, js "A non-empty kid must be provided for keystore verification"⟩
  else do
    match ← lookUpKey options.kid with
    | .revoked => return .failed (revokedKid options.kid)
    | .found key => return verifyWithKey H receipt options key
    | .unknown =>
      match ← onStore (awaitCall (refresh opts nowSeconds)) with
      | (.error thrown, _) => return refreshThrew thrown
      | (.ok (), _) =>
        match ← lookUpKey options.kid with
        | .revoked => return .failed (revokedKid options.kid)
        | .unknown => return .failed ⟨.unknownKid, js "Key '" ++ options.kid ++ js "' not found in JWKS after refresh"⟩
        | .found key => return verifyWithKey H receipt options key

def refreshStore (nowSeconds : JsNumber) : StoreUse StoreOutcome := do
  let result ← onStore (refresh opts nowSeconds)
  return .refreshed result

end

end OxDeAI.Sift
