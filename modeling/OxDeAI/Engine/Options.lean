import OxDeAI.Js.Rounding
import OxDeAI.Snapshot.Payload

/-! Engine configuration, the policy id it determines, and the state hash. -/

namespace OxDeAI

open Js

structure EngineOptions where
  policyVersion : JsString
  engineSecret : JsString
  authorizationTtlSeconds : Option JsNumber := none
  authorizationIssuer : Option JsString := none
  authorizationAudience : Option JsString := none
  authorizationSigningAlg : Option SigningAlg := none
  authorizationSigningKid : Option JsString := none
  authorizationPrivateKeyPem : Option JsString := none
  maxClockSkewSeconds : JsNumber
  maxIntentAgeSeconds : JsNumber
  denyMode : Option EvalMode := none
  policyId : Option JsString := none
  strictDeterminism : Option Bool := none
  checkpointEveryNEvents : Option JsNumber := none

def engineVersion : JsString := js "unknown"

def defaultAuthorizationTtlSeconds : JsNumber := .int 60

def isValidTtl (ttl : JsNumber) : Bool := ttl.isSafeInteger && !ttl.le (.int 0)

def resolveAuthorizationTtlSeconds (value : Option JsNumber) : Except JsError JsNumber :=
  let ttl := value.getD defaultAuthorizationTtlSeconds
  if isValidTtl ttl then .ok ttl
  else .error (.error (js "authorization_ttl_seconds must be a positive finite safe integer (seconds)"))

/-- A constructed engine: its options passed the checks of the constructor. -/
structure PolicyEngine where
  opts : EngineOptions
  authorizationTtl : JsNumber
  secretLength : 32 ≤ opts.engineSecret.length
  clockSkew : isProtocolSeconds opts.maxClockSkewSeconds = true
  intentAge : isProtocolSeconds opts.maxIntentAgeSeconds = true
  ttl : isValidTtl authorizationTtl = true

def PolicyEngine.create (opts : EngineOptions) : Except JsError PolicyEngine :=
  if hs : 32 ≤ opts.engineSecret.length then
    if hc : isProtocolSeconds opts.maxClockSkewSeconds = true then
      if ha : isProtocolSeconds opts.maxIntentAgeSeconds = true then
        match ht : resolveAuthorizationTtlSeconds opts.authorizationTtlSeconds with
        | .error e => .error e
        | .ok ttl => .ok ⟨opts, ttl, hs, hc, ha, by
            simp only [resolveAuthorizationTtlSeconds] at ht
            split at ht
            · cases ht
              assumption
            · cases ht⟩
      else .error (.error (js "EngineOptions.maxIntentAgeSeconds must be a finite, non-negative safe integer (unix seconds)"))
    else .error (.error (js "EngineOptions.maxClockSkewSeconds must be a finite, non-negative safe integer (unix seconds)"))
  else .error (.error (js "engine_secret must be a string of at least 32 characters (got " ++
    natDecimal opts.engineSecret.length ++ js " chars)"))

namespace PolicyEngine

variable (e : PolicyEngine)

def issuer : JsString := e.opts.authorizationIssuer.getD (js "oxdeai.policy-engine")

def audience : JsString := e.opts.authorizationAudience.getD (js "oxdeai.relying-party")

def signingAlg : SigningAlg := e.opts.authorizationSigningAlg.getD .hmacSha256

def signingKid : JsString :=
  e.opts.authorizationSigningKid.getD
    (match e.signingAlg with
      | .ed25519 => js "ed25519-default"
      | .hmacSha256 => js "hmac-default")

/-- The interval an intent stays fresh; unbounded when the sum is not exact. -/
def freshnessHorizonSeconds : JsNumber :=
  let horizon := e.opts.maxIntentAgeSeconds.add e.opts.maxClockSkewSeconds
  if horizon.isSafeInteger then horizon else .posInf

theorem exists_seconds : ∃ skew age : ℕ, e.opts.maxClockSkewSeconds = .int skew ∧
    e.opts.maxIntentAgeSeconds = .int age ∧ skew ≤ JsNumber.maxSafeInteger ∧
    age ≤ JsNumber.maxSafeInteger := by
  obtain ⟨skew, hs, hs'⟩ := isProtocolSeconds_iff.mp e.clockSkew
  obtain ⟨age, ha, ha'⟩ := isProtocolSeconds_iff.mp e.intentAge
  exact ⟨skew, age, hs, ha, hs', ha'⟩

theorem exists_ttl : ∃ ttl : ℕ, e.authorizationTtl = .int ttl ∧ 0 < ttl ∧
    ttl ≤ JsNumber.maxSafeInteger := by
  have h := e.ttl
  simp only [isValidTtl, Bool.and_eq_true, Bool.not_eq_true'] at h
  obtain ⟨z, hz, hz'⟩ := JsNumber.exists_int_of_isSafeInteger h.1
  have h0 : 0 < z := by simpa [hz] using h.2
  exact ⟨z.toNat, by rw [hz, Int.toNat_of_nonneg h0.le], by omega, by omega⟩

theorem freshnessHorizonSeconds_eq {skew age : ℕ} (hs : e.opts.maxClockSkewSeconds = .int skew)
    (ha : e.opts.maxIntentAgeSeconds = .int age) :
    e.freshnessHorizonSeconds = .posInf ∨ e.freshnessHorizonSeconds = .int ((age + skew : ℕ) : ℤ) := by
  by_cases hle : age + skew ≤ 2 ^ 53
  · have hadd : (JsNumber.int age).add (.int skew) = .int ((age + skew : ℕ) : ℤ) := by
      rw [JsNumber.add_int (by omega)]
      push_cast
      rfl
    simp only [freshnessHorizonSeconds, hs, ha, hadd]
    split
    · exact .inr rfl
    · exact .inl rfl
  · left
    have hbig : (2 : ℚ) ^ 53 ≤ (((age : ℤ) + (skew : ℤ) : ℤ) : ℚ) := by
      have : 2 ^ 53 ≤ age + skew := by omega
      exact_mod_cast this
    have hsafe : ((JsNumber.int age).add (.int skew)).isSafeInteger = false :=
      JsNumber.not_isSafeInteger_round hbig
    simp [freshnessHorizonSeconds, hs, ha, hsafe]

end PolicyEngine

section

variable (P : Platform) (e : PolicyEngine)

def describeModules (ids : List ModuleId) : JsValue :=
  .arr (ids.map (fun id => .obj [(js "id", .str id.text), (js "version", .null)]))

def denyModeText : EvalMode → JsString
  | .failFast => js "fail-fast"
  | .collectAll => js "collect-all"

/-- The configured id, or the digest of the engine's description, its keys sorted. -/
def computePolicyId : JsString :=
  match e.opts.policyId with
  | some (u :: us) => u :: us
  | _ => P.sha256Hex (utf8Encode (jsonText (.obj
      [(js "engine", .str (js "PolicyEngine")),
        (js "engineVersion", .str engineVersion),
        (js "modules", .obj [(js "execute", describeModules ModuleId.sorted),
          (js "release", describeModules [.concurrency, .killSwitch, .replay])]),
        (js "opts", .obj [(js "authorization_ttl_seconds", .num e.authorizationTtl),
          (js "deny_mode", .str (denyModeText (e.opts.denyMode.getD .failFast))),
          (js "policy_version", .str e.opts.policyVersion),
          (js "strict", .bool (e.opts.strictDeterminism.getD false))])])))

def stateHash (id : ModuleId) (state : State) : Except JsError JsString :=
  (serializeState id state).bind (sha256HexFromJson P)

def stateHashPayload (policyId : JsString) (moduleHashes : List (JsString × JsString)) : JsValue :=
  .obj [(js "formatVersion", .num (.int 1)), (js "engineVersion", .str engineVersion),
    (js "policyId", .str policyId),
    (js "modules", .obj (moduleHashes.map (fun e => (e.1, .str e.2))))]

def computeStateHash (state : State) : Except JsError JsString := do
  let moduleHashes ← ModuleId.sorted.mapM (fun id => (stateHash P id state).map (fun h => (id.text, h)))
  sha256HexFromJson P (stateHashPayload (computePolicyId P e) moduleHashes)

end

end OxDeAI
