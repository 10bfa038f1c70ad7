import OxDeAI.Js.Base64
import OxDeAI.Js.Value
import OxDeAI.Lib.Async

/-! `SiftHttpKeyStore`: keys and revocations, refreshed from two endpoints. -/

namespace OxDeAI.Sift

open Js Async

inductive KrlMode
  | signedRequired
  | signedPreferred
  | unsignedLegacy
  deriving DecidableEq

inductive KrlIntegrity
  | signed
  | unsignedFallback
  | unsignedLegacy
  | failed
  | none
  deriving DecidableEq

inductive KeyStoreErrorCode
  | jwksFetchFailed
  | krlFetchFailed
  | keystoreRefreshFailed
  deriving DecidableEq

def KeyStoreErrorCode.text : KeyStoreErrorCode → JsString
  | jwksFetchFailed => js "JWKS_FETCH_FAILED"
  | krlFetchFailed => js "KRL_FETCH_FAILED"
  | keystoreRefreshFailed => js "KEYSTORE_REFRESH_FAILED"

structure KeyStoreError where
  code : KeyStoreErrorCode
  message : JsString

/-- What may be thrown. Of a value that is no `KeyStoreError` the handlers look at
the message they show and at its string; reading one may throw in turn. -/
inductive Thrown
  | keyStore (error : KeyStoreError)
  | other (message string : Except Thrown JsString)

def Thrown.message : Thrown → Except Thrown JsString
  | keyStore error => .ok error.message
  | other message _ => message

/-- A handler throws an error that shows what it caught. -/
def Thrown.shownAfter (thrown : Thrown) (code : KeyStoreErrorCode) (before : JsString) : Thrown :=
  match thrown.message with
  | .ok message => .keyStore ⟨code, before ++ message⟩
  | .error thrown => thrown

def Thrown.toKeyStoreError : Thrown → Except Thrown KeyStoreError
  | keyStore error => .ok error
  | other _ string => string.map (⟨.keystoreRefreshFailed, ·⟩)

/-- `accepted`, of a verification result. Versions are integers. -/
structure AcceptedVersion where
  issuer : JsString
  krlVersion : ℤ
  deriving DecidableEq

structure KrlViolation where
  code : JsString
  message : Option JsString

inductive KrlVerifyResult
  | threw (thrown : Thrown)
  | returned (ok : Bool) (violations : List KrlViolation) (accepted : Option AcceptedVersion)

structure KrlContext where
  now : JsNumber
  previousKrlVersionByIssuer : Record ℤ

/-- Tells apart the calls of a callback that is not a function of its arguments. -/
abbrev Moment := ℕ

structure SiftHttpKeyStoreOptions where
  krlMode : KrlMode
  verifyKrl : Option (Moment → JsValue → KrlContext → KrlVerifyResult)
  krlWatermarkStore : Bool
  signedKrlCache : Bool
  verifies : krlMode = .signedRequired → verifyKrl.isSome = true

structure KrlStatus where
  mode : KrlMode
  lastIntegrity : KrlIntegrity
  lastReason : Option JsString
  unsignedFallbackActive : Bool
  lastVerifiedAt : Option JsNumber
  lastKrlVersionByIssuer : Record ℤ
  watermarkStore : Bool
  lkgCacheActive : Bool
  lkgVerifiedAt : Option JsNumber

/-- A list of revoked kids that became the active one. -/
structure TakenKrl where
  revoked : Finset JsString
  version : Option AcceptedVersion

/-- The state in memory. `taken` records the swaps of `revokedKids` in their
order; no code reads it. -/
structure KeyStore where
  keyCache : Record (List Byte)
  revokedKids : Finset JsString
  krlVersionByIssuer : Record ℤ
  krlStatus : KrlStatus
  taken : List TakenKrl

def KeyStore.initial (opts : SiftHttpKeyStoreOptions) : KeyStore where
  keyCache := .empty
  revokedKids := ∅
  krlVersionByIssuer := .empty
  krlStatus := {
    mode := opts.krlMode
    lastIntegrity := .none
    lastReason := none
    unsignedFallbackActive := false
    lastVerifiedAt := none
    lastKrlVersionByIssuer := .empty
    watermarkStore := opts.krlWatermarkStore
    lkgCacheActive := false
    lkgVerifiedAt := none }
  taken := []

def b64uDecode (s : JsString) : List Byte :=
  base64Decode ((s.map (fun u => if u = unit 43 then unit 45 else if u = unit 47 then unit 95 else u)).filter
    (fun u => u ≠ unit 61))

/-- An entry of the key set that is used: its kid and its raw key. -/
def jwksEntry? (entry : JsValue) : Option (JsString × List Byte) :=
  if (entry.field (js "kty")).isText (js "OKP") && (entry.field (js "crv")).isText (js "Ed25519") &&
      (entry.field (js "kid")).hasText && (entry.field (js "x")).hasText then
    let raw := b64uDecode ((entry.field (js "x")).text?.getD [])
    if raw.length = 32 then some ((entry.field (js "kid")).text?.getD [], raw) else none
  else none

def parseJwks (body : JsValue) : Except KeyStoreError (Record (List Byte)) :=
  match body.field (js "keys") with
  | .arr keys => .ok ((keys.filterMap jwksEntry?).foldl (fun cache e => cache.set e.1 e.2) .empty)
  | _ => .error ⟨.jwksFetchFailed, js "JWKS response missing required 'keys' array"⟩

/-- The strings of a list; other entries are skipped. -/
def stringSet (kids : List JsValue) : Finset JsString := (kids.filterMap JsValue.text?).toFinset

def isObjectValue : JsValue → Bool
  | .arr _ => true
  | v => v.isRecord

def parseKrl (body : JsValue) : Except KeyStoreError (Finset JsString) :=
  if !isObjectValue body then .error ⟨.krlFetchFailed, js "KRL response is not a JSON object"⟩
  else match body.field (js "revoked_kids") with
    | .arr kids => .ok (stringSet kids)
    | _ => .error ⟨.krlFetchFailed, js "KRL response missing required 'revoked_kids' array"⟩

def hasSignatureField (body : JsValue) : Bool := body.isRecord && body.has (js "signature")

def extractRevokedKidsFromVerified (body : JsValue) : Finset JsString :=
  match body.field (js "revoked_kids") with
  | .arr kids => stringSet kids
  | _ => ∅

structure KrlProcessSuccess where
  revoked : Finset JsString
  integrity : KrlIntegrity
  updatedVersion : Option AcceptedVersion

/-- Without a reason the error escapes before the failure is recorded. -/
structure KrlProcessFailure where
  reason : Option JsString
  error : Thrown

def krlFailure (reason message : JsString) : KrlProcessFailure :=
  ⟨some reason, .keyStore ⟨.krlFetchFailed, reason ++ js ": " ++ message⟩⟩

section

variable (opts : SiftHttpKeyStoreOptions) (versions : Record ℤ) (moment : Moment) (krlBody : JsValue)
  (nowSeconds : JsNumber)

def runVerifyKrl (verifyKrl : Moment → JsValue → KrlContext → KrlVerifyResult) :
    Except KrlProcessFailure KrlProcessSuccess :=
  match verifyKrl moment krlBody ⟨nowSeconds, versions⟩ with
  | .threw thrown => match thrown.message with
    | .ok message => .error ⟨some (js "KRL_VERIFY_CALLBACK_ERROR"),
        .keyStore ⟨.krlFetchFailed, js "verifyKrl callback threw unexpectedly: " ++ message⟩⟩
    | .error thrown => .error ⟨none, thrown⟩
  | .returned false violations _ =>
    let first := violations.head?
    .error (krlFailure ((first.map KrlViolation.code).getD (js "KRL_SIG_INVALID"))
      ((first.bind KrlViolation.message).getD (js "signed KRL verification failed")))
  | .returned true _ none => .error (krlFailure (js "KRL_VERIFY_RESULT_INCOMPLETE")
      (js "verifyKrl returned ok: true but did not include accepted issuer/krl_version metadata. Production wiring must populate result.accepted from the verified SignedKRLV1 payload fields."))
  | .returned true _ (some accepted) =>
    .ok ⟨extractRevokedKidsFromVerified krlBody, .signed, some accepted⟩

/-- The list is taken without a signature. -/
def processUnsigned (integrity : KrlIntegrity) : Except KrlProcessFailure KrlProcessSuccess :=
  match parseKrl krlBody with
  | .ok revoked => .ok ⟨revoked, integrity, none⟩
  | .error error => .error ⟨some error.code.text, .keyStore error⟩

def processKrlForMode : Except KrlProcessFailure KrlProcessSuccess :=
  match opts.krlMode, opts.verifyKrl with
  | .unsignedLegacy, _ => processUnsigned krlBody .unsignedLegacy
  | .signedRequired, verify =>
    if !hasSignatureField krlBody then .error (krlFailure (js "KRL_UNSIGNED_IN_SIGNED_REQUIRED")
      (js "The fetched KRL does not contain a signature field. Configure the KRL publisher to produce signed KRLs (SignedKRLV1), or downgrade to \"signed_preferred\" or \"unsigned_legacy\" mode."))
    else match verify with
      | some verify => runVerifyKrl versions moment krlBody nowSeconds verify
      -- no options have this: the constructor throws
      | none => .error (krlFailure (js "KRL_VERIFY_CALLBACK_ERROR") [])
  | .signedPreferred, verify =>
    if !hasSignatureField krlBody then processUnsigned krlBody .unsignedFallback
    else match verify with
      | some verify => runVerifyKrl versions moment krlBody nowSeconds verify
      | none => .error (krlFailure (js "KRL_MISSING_VERIFY_CALLBACK")
          (js "The fetched KRL contains a signature field but no verifyKrl callback is configured. Provide a verifyKrl callback to verify signed KRLs, or configure krlMode \"unsigned_legacy\" if signature verification is not yet required."))

end

structure HttpResponse where
  ok : Bool
  status : ℕ

structure LkgEntry where
  payload : JsValue
  verifiedAt : JsNumber

/-- What a refresh waits for. `turn` is the turn of the event loop that passes
when a method of the store itself is awaited. -/
inductive KeyStoreRequest
  | fetch
  | bodies
  | turn
  | watermarkList
  | watermarkSet (issuer : JsString) (krlVersion : ℤ)
  | cacheGet
  | cacheSet (payload : JsValue) (verifiedAt : JsNumber)

abbrev KeyStoreAnswer : KeyStoreRequest → Type
  | .fetch => Except Thrown (HttpResponse × HttpResponse)
  | .bodies => Except Thrown (JsValue × JsValue)
  | .turn => Moment
  | .watermarkList => Except Thrown (Record ℤ)
  | .watermarkSet _ _ => Except Thrown Unit
  | .cacheGet => Except Thrown (Option LkgEntry) × Moment
  | .cacheSet _ _ => Except Thrown Unit

abbrev Refresh (α : Type) := Prog KeyStore KeyStoreRequest KeyStoreAnswer α

def awaitFetch : Refresh (Except Thrown (HttpResponse × HttpResponse)) := Prog.request KeyStoreRequest.fetch

def awaitBodies : Refresh (Except Thrown (JsValue × JsValue)) := Prog.request KeyStoreRequest.bodies

def awaitTurn : Refresh Moment := Prog.request KeyStoreRequest.turn

def awaitWatermarkList : Refresh (Except Thrown (Record ℤ)) := Prog.request KeyStoreRequest.watermarkList

def awaitWatermarkSet (accepted : AcceptedVersion) : Refresh (Except Thrown Unit) :=
  Prog.request (KeyStoreRequest.watermarkSet accepted.issuer accepted.krlVersion)

def awaitCacheGet : Refresh (Except Thrown (Option LkgEntry) × Moment) := Prog.request KeyStoreRequest.cacheGet

def awaitCacheSet (payload : JsValue) (verifiedAt : JsNumber) : Refresh (Except Thrown Unit) :=
  Prog.request (KeyStoreRequest.cacheSet payload verifiedAt)

namespace KeyStore

variable (opts : SiftHttpKeyStoreOptions) (store : KeyStore)

/-- A failure is recorded before it is thrown. -/
def noteFailure (reason : JsString) : KeyStore :=
  { store with krlStatus := { store.krlStatus with
      mode := opts.krlMode
      lastIntegrity := .failed
      lastReason := some reason
      lastKrlVersionByIssuer := store.krlVersionByIssuer
      watermarkStore := opts.krlWatermarkStore } }

def noteFresh (failure : KrlProcessFailure) : KeyStore :=
  match failure.reason with
  | some reason => store.noteFailure opts reason
  | none => store

/-- A persisted version only raises the floor. -/
def mergeVersion (versions : Record ℤ) (e : JsString × ℤ) : Record ℤ :=
  match versions.own? e.1 with
  | none => versions.set e.1 e.2
  | some current => if current < e.2 then versions.set e.1 e.2 else versions

def mergeVersions (persisted : Record ℤ) : KeyStore :=
  { store with krlVersionByIssuer := persisted.entries.foldl mergeVersion store.krlVersionByIssuer }

def setVersion (versions : Record ℤ) : Option AcceptedVersion → Record ℤ
  | none => versions
  | some accepted => versions.set accepted.issuer accepted.krlVersion

/-- The swap of a fresh refresh. -/
def takeFresh (newKeys : Record (List Byte)) (krl : KrlProcessSuccess) (nowSeconds : JsNumber) : KeyStore where
  keyCache := newKeys
  revokedKids := krl.revoked
  krlVersionByIssuer := setVersion store.krlVersionByIssuer krl.updatedVersion
  krlStatus := {
    mode := opts.krlMode
    lastIntegrity := krl.integrity
    lastReason := none
    unsignedFallbackActive := krl.integrity = .unsignedFallback
    lastVerifiedAt := some nowSeconds
    lastKrlVersionByIssuer := setVersion store.krlVersionByIssuer krl.updatedVersion
    watermarkStore := opts.krlWatermarkStore
    lkgCacheActive := false
    lkgVerifiedAt := none }
  taken := store.taken ++ [⟨krl.revoked, krl.updatedVersion⟩]

/-- The swap of a cached list; the keys stay. -/
def takeCached (krl : KrlProcessSuccess) (verifiedAt nowSeconds : JsNumber) : KeyStore where
  keyCache := store.keyCache
  revokedKids := krl.revoked
  krlVersionByIssuer := setVersion store.krlVersionByIssuer krl.updatedVersion
  krlStatus := {
    mode := opts.krlMode
    lastIntegrity := .signed
    lastReason := none
    unsignedFallbackActive := false
    lastVerifiedAt := some nowSeconds
    lastKrlVersionByIssuer := setVersion store.krlVersionByIssuer krl.updatedVersion
    watermarkStore := opts.krlWatermarkStore
    lkgCacheActive := true
    lkgVerifiedAt := some verifiedAt }
  taken := store.taken ++ [⟨krl.revoked, krl.updatedVersion⟩]

/-- The status alone changes. -/
def withStatus (f : KrlStatus → KrlStatus) : KeyStore := { store with krlStatus := f store.krlStatus }

def noteCached (failure : KrlProcessFailure) : KeyStore :=
  match failure.reason with
  | some reason => (store.noteFailure opts reason).withStatus (fun status =>
      { status with unsignedFallbackActive := false, lkgCacheActive := false })
  | none => store

end KeyStore

section

variable (opts : SiftHttpKeyStoreOptions)

/-- Await one of the store's own methods. -/
def awaitCall {α : Type} (call : Refresh α) : Refresh (α × Moment) := do
  let result ← call
  let moment ← awaitTurn
  return (result, moment)

def fetchBodies : Refresh (Except Thrown (JsValue × JsValue)) := do
  match ← awaitFetch with
  | .error thrown =>
    return .error (thrown.shownAfter .keystoreRefreshFailed (js "Network error during JWKS/KRL refresh: "))
  | .ok (jwksRes, krlRes) =>
    if !jwksRes.ok then
      return .error (.keyStore
        ⟨.jwksFetchFailed, js "JWKS endpoint returned HTTP " ++ natDecimal jwksRes.status⟩)
    else if !krlRes.ok then
      return .error (.keyStore
        ⟨.krlFetchFailed, js "KRL endpoint returned HTTP " ++ natDecimal krlRes.status⟩)
    else
      match ← awaitBodies with
      | .error thrown =>
        return .error (thrown.shownAfter .keystoreRefreshFailed (js "Failed to parse JWKS/KRL JSON: "))
      | .ok bodies => return .ok bodies

def mergeWatermarks : Refresh (Except Thrown Unit) :=
  if opts.krlWatermarkStore && opts.krlMode ≠ .unsignedLegacy then do
    match ← awaitWatermarkList with
    | .error thrown =>
      Prog.update (KeyStore.noteFailure opts · (js "KRL_WATERMARK_LOAD_FAILED"))
      return .error (thrown.shownAfter .keystoreRefreshFailed (js "KRL_WATERMARK_LOAD_FAILED: Persistent watermark store could not be loaded before KRL verification — refresh fails closed. Error: "))
    | .ok persisted =>
      Prog.update (KeyStore.mergeVersions · persisted)
      return .ok ()
  else return .ok ()

def persistWatermark (updated : Option AcceptedVersion) : Refresh (Except Thrown Unit) :=
  match opts.krlWatermarkStore, updated with
  | true, some accepted => do
    match ← awaitWatermarkSet accepted with
    | .error thrown =>
      Prog.update (KeyStore.noteFailure opts · (js "KRL_WATERMARK_PERSIST_FAILED"))
      return .error (thrown.shownAfter .krlFetchFailed (js "KRL_WATERMARK_PERSIST_FAILED: Signed KRL verified successfully but persisting the krl_version watermark to the configured KrlWatermarkStore failed. Refresh is blocked to prevent accepting a KRL whose version was not durably recorded. Error: "))
    | .ok () => return .ok ()
  | _, _ => return .ok ()

/-- A failed write is not fatal, but the warning shows its message. -/
def writeLkg (krlBody : JsValue) (integrity : KrlIntegrity) (nowSeconds : JsNumber) :
    Refresh (Except Thrown Unit) :=
  if opts.signedKrlCache && integrity = .signed then do
    match ← awaitCacheSet krlBody nowSeconds with
    | .ok () => return .ok ()
    | .error thrown => match thrown.message with
      | .ok _ => return .ok ()
      | .error thrown => return .error thrown
  else return .ok ()

/-- From the verified list on: persist its version, then swap. -/
def commitFresh (newKeys : Record (List Byte)) (krlBody : JsValue) (krl : KrlProcessSuccess)
    (nowSeconds : JsNumber) : Refresh (Except Thrown Unit) := do
  match ← persistWatermark opts krl.updatedVersion with
  | .error error => return .error error
  | .ok () =>
    Prog.update (KeyStore.takeFresh opts · newKeys krl nowSeconds)
    writeLkg opts krlBody krl.integrity nowSeconds

/-- The list is verified against the versions of this moment. -/
def processFresh (newKeys : Record (List Byte)) (krlBody : JsValue) (moment : Moment)
    (nowSeconds : JsNumber) : Refresh (Except Thrown Unit) := do
  let store ← Prog.read
  match processKrlForMode opts store.krlVersionByIssuer moment krlBody nowSeconds with
  | .error failure =>
    Prog.update (KeyStore.noteFresh opts · failure)
    return .error failure.error
  | .ok krl => commitFresh opts newKeys krlBody krl nowSeconds

def doFreshRefresh (nowSeconds : JsNumber) : Refresh (Except Thrown Unit) := do
  match ← fetchBodies with
  | .error error => return .error error
  | .ok (jwksBody, krlBody) =>
    match parseJwks jwksBody with
    | .error error => return .error (.keyStore error)
    | .ok newKeys =>
      match ← awaitCall (mergeWatermarks opts) with
      | (.error error, _) => return .error error
      | (.ok (), moment) => processFresh opts newKeys krlBody moment nowSeconds

/-- The cached list is verified again, against the versions of this moment. -/
def processCached (entry : LkgEntry) (moment : Moment) (nowSeconds : JsNumber)
    (verifyKrl : Moment → JsValue → KrlContext → KrlVerifyResult) : Refresh (Except Thrown Unit) := do
  let store ← Prog.read
  match runVerifyKrl store.krlVersionByIssuer moment entry.payload nowSeconds verifyKrl with
  | .error failure =>
    Prog.update (KeyStore.noteCached opts · failure)
    return .error failure.error
  | .ok krl =>
    Prog.update (KeyStore.takeCached opts · krl entry.verifiedAt nowSeconds)
    return .ok ()

def readLkg (nowSeconds : JsNumber) (verifyKrl : Moment → JsValue → KrlContext → KrlVerifyResult) :
    Refresh (Except Thrown Unit) := do
  match ← awaitCacheGet with
  | (.error thrown, _) =>
    Prog.update (KeyStore.withStatus · (fun status =>
      { status with lastIntegrity := .failed, lastReason := some (js "KRL_LKG_READ_FAILED"),
                    lkgCacheActive := false }))
    return .error (thrown.shownAfter .keystoreRefreshFailed (js "LKG cache read failed during fallback: "))
  | (.ok none, _) =>
    return .error (.keyStore ⟨.keystoreRefreshFailed,
      js "No last-known-good signed KRL available in the configured cache."⟩)
  | (.ok (some entry), moment) => processCached opts entry moment nowSeconds verifyKrl

def doLkgFallback (nowSeconds : JsNumber) : Refresh (Except Thrown Unit) :=
  match opts.verifyKrl with
  | none => do
    Prog.update (KeyStore.withStatus · (fun status =>
      { status with lastIntegrity := .failed, lastReason := some (js "KRL_MISSING_VERIFY_CALLBACK") }))
    return .error (.keyStore ⟨.krlFetchFailed, js "KRL_MISSING_VERIFY_CALLBACK: Fresh KRL fetch failed and an LKG cache entry was found, but no verifyKrl callback is configured to re-verify it."⟩)
  | some verifyKrl => do
    match ← awaitCall (mergeWatermarks opts) with
    | (.error error, _) => return .error error
    | (.ok (), _) => readLkg opts nowSeconds verifyKrl

def refresh (nowSeconds : JsNumber) : Refresh (Except Thrown Unit) := do
  match ← awaitCall (doFreshRefresh opts nowSeconds) with
  | (.ok (), _) => return .ok ()
  | (.error thrown, _) =>
    match thrown.toKeyStoreError with
    | .error thrown => return .error thrown
    | .ok primaryError =>
      if opts.signedKrlCache && opts.krlMode ≠ .unsignedLegacy then
        match ← awaitCall (doLkgFallback opts nowSeconds) with
        | (.ok (), _) => return .ok ()
        | (.error lkgErr, _) =>
          return .error (if opts.krlMode = .signedRequired then lkgErr else .keyStore primaryError)
      else return .error (.keyStore primaryError)

end

end OxDeAI.Sift
