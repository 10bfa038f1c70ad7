import OxDeAI.Core.Clone
import OxDeAI.Verification.SignedKrl

/-! `evaluateRevocation`: one verified list per configured publisher decides whether
a key in use is revoked. -/

namespace OxDeAI

open Js

structure GuardRevocationScope where
  krlIssuer : JsString
  keyIssuers : List JsString

structure GuardKrlWatermark where
  krlVersion : JsNumber
  digest : JsString

/-- The validated configuration. -/
structure ResolvedRevocation where
  trustedKrlKeySets : List KeySet
  scopes : List GuardRevocationScope
  keySets : trustedKrlKeySets ≠ []
  configured : scopes ≠ []
  distinct : (scopes.map GuardRevocationScope.krlIssuer).Nodup
  named : ∀ s ∈ scopes, s.krlIssuer ≠ [] ∧ s.keyIssuers ≠ [] ∧ ∀ issuer ∈ s.keyIssuers, issuer ≠ []

inductive KeyRole
  | parent
  | delegation
  deriving DecidableEq

structure CheckedKey where
  role : KeyRole
  issuer : JsString
  kid : JsString

inductive RevocationDenial
  | unavailable (message : JsString)
  | invalid (message : JsString)
  | revoked (role : KeyRole) (issuer kid : JsString)
  deriving DecidableEq

/-- How the provider's call settled. -/
inductive ProviderAnswer
  | threw (reason : JsString)
  | tampered
  | value (v : JsValue)

inductive StoreAnswer
  | accepted
  | rejected
  | other
  | threw

/-- The watermark store answers a call in the light of the calls before it. -/
abbrev KrlWatermarkStore := List (JsString × GuardKrlWatermark) → JsString → GuardKrlWatermark → StoreAnswer

/-- A verified list, as it is applied to the keys of its scope. -/
structure AppliedKrl where
  krlIssuer : JsString
  keyIssuers : List JsString
  revoked : List JsString
  watermark : GuardKrlWatermark

def quoted (s : JsString) : JsString := js "\"" ++ s ++ js "\""

/-- One envelope of the provider's list, filed under its issuer. -/
def fileKrl (scopes : List GuardRevocationScope) (byIssuer : List (JsString × JsValue)) (item : JsValue) :
    Except RevocationDenial (List (JsString × JsValue)) :=
  match structuredClone item with
  | none => .error (.invalid (js "KRL envelope is not cloneable plain data"))
  | some env =>
    let issuer := (reported (env.field (js "issuer"))).getD []
    if !env.isRecord || !(env.field (js "issuer")).hasText ||
        !(scopes.map GuardRevocationScope.krlIssuer).contains issuer then
      .error (.invalid (js "KRL from an unconfigured or missing issuer"))
    else if (ownEntry issuer byIssuer).isSome then
      .error (.invalid (js "more than one KRL for issuer " ++ quoted issuer))
    else .ok (byIssuer ++ [(issuer, env)])

section

variable (H : Host) (keySets : List KeySet) (now : JsNumber)

def krlOptions : VerifySignedKrlOptions where
  now := some now
  trustedKeySets := some (.many keySets)

def acceptsKrl (env : JsValue) : Bool := (verifySignedKrl H now env (krlOptions keySets now)).ok

/-- Verify the list of a scope and take its kids as they are written. -/
def applyKrl (scope : GuardRevocationScope) (env : JsValue) : Except RevocationDenial AppliedKrl :=
  let result := verifySignedKrl H now env (krlOptions keySets now)
  if !result.ok then
    .error (.invalid (js "KRL " ++ quoted scope.krlIssuer ++ js " rejected: " ++
      List.intercalate (js ", ") (result.violations.map (fun v => v.code.text))))
  else
    match sha256HexFromJson H.toPlatform (signedKrlSigningPayload env) with
    | .error _ =>
      .error (.invalid (js "KRL " ++ quoted scope.krlIssuer ++ js " canonicalization failed"))
    | .ok digest => .ok {
        krlIssuer := scope.krlIssuer
        keyIssuers := scope.keyIssuers
        revoked := kidTexts (env.field (js "revoked_kids"))
        watermark := ⟨((env.field (js "krl_version")).number?).getD .nan, digest⟩ }

def applyScope (byIssuer : List (JsString × JsValue)) (scope : GuardRevocationScope) :
    Except RevocationDenial AppliedKrl :=
  match ownEntry scope.krlIssuer byIssuer with
  | none => .error (.unavailable (js "no KRL for issuer " ++ quoted scope.krlIssuer))
  | some env => applyKrl H keySets now scope env

end

def checkCoverage (applied : List AppliedKrl) (keys : List CheckedKey) : Except RevocationDenial Unit :=
  match keys.find? (fun key => !applied.any (fun a => a.keyIssuers.contains key.issuer)) with
  | some key => .error (.unavailable
      (js "no revocation authority configured for key issuer " ++ quoted key.issuer))
  | none => .ok ()

def acceptWatermark (store : KrlWatermarkStore) (calls : List (JsString × GuardKrlWatermark))
    (entry : AppliedKrl) : Except RevocationDenial (List (JsString × GuardKrlWatermark)) :=
  match store calls entry.krlIssuer entry.watermark with
  | .accepted => .ok (calls ++ [(entry.krlIssuer, entry.watermark)])
  | .rejected => .error (.invalid
      (js "KRL " ++ quoted entry.krlIssuer ++ js " version regression or digest conflict"))
  | .other => .error (.unavailable (js "KRL watermark store returned an indeterminate result"))
  | .threw => .error (.unavailable (js "KRL watermark store unavailable"))

/-- Does a list that covers the issuer of the key name its kid? -/
def isRevokedBy (applied : List AppliedKrl) (key : CheckedKey) : Bool :=
  applied.any (fun a => a.keyIssuers.contains key.issuer && a.revoked.contains key.kid)

def checkRevoked (applied : List AppliedKrl) (keys : List CheckedKey) : Except RevocationDenial Unit :=
  match keys.find? (isRevokedBy applied) with
  | some key => .error (.revoked key.role key.issuer key.kid)
  | none => .ok ()

section

variable (H : Host) (cfg : ResolvedRevocation) (now : JsNumber) (keys : List CheckedKey)
  (store : KrlWatermarkStore)

/-- The phases after the provider's list was copied. -/
def applyKrls (items : List JsValue) : Except RevocationDenial Unit := do
  let byIssuer ← items.foldlM (fileKrl cfg.scopes) []
  let applied ← cfg.scopes.mapM (applyScope H cfg.trustedKrlKeySets now byIssuer)
  checkCoverage applied keys
  let _ ← applied.foldlM (acceptWatermark store) []
  checkRevoked applied keys

def denialOf : Except RevocationDenial Unit → Option RevocationDenial
  | .error d => some d
  | .ok _ => none

/-- `none` permits. -/
def evaluateRevocation : ProviderAnswer → Option RevocationDenial
  | .threw reason => some (.unavailable (js "revocation provider failed: " ++ reason))
  | .tampered => some (.unavailable (js "a built-in prototype defines `then` (prototype pollution); the revocation provider's answer cannot be trusted"))
  | .value (.arr raw) =>
    if areCloneable raw then denialOf (applyKrls H cfg now keys store (plainElements raw))
    else some (.invalid (js "KRL provider returned a non-cloneable list"))
  | .value _ => some (.unavailable (js "revocation provider returned no KRL list"))

end

section

variable {H : Host} {keySets : List KeySet} {cfg : ResolvedRevocation} {now : JsNumber}
  {keys : List CheckedKey} {store : KrlWatermarkStore} {e e' : JsValue}

/-- Two applied lists that no check tells apart. -/
structure SameEffect (a b : AppliedKrl) : Prop where
  krlIssuer : a.krlIssuer = b.krlIssuer
  keyIssuers : a.keyIssuers = b.keyIssuers
  watermark : a.watermark = b.watermark
  revoked : ∀ kid, kid ∈ a.revoked ↔ kid ∈ b.revoked

/-- Two envelopes of one issuer that every scope applies to the same effect. -/
structure SameKrl (H : Host) (keySets : List KeySet) (now : JsNumber) (e e' : JsValue) : Prop where
  cloneable : isCloneable e = isCloneable e'
  isRecord : e.isRecord = e'.isRecord
  issuer : e.field (js "issuer") = e'.field (js "issuer")
  applied : ∀ scope, ExceptRel SameEffect (applyKrl H keySets now scope (toPlain e))
    (applyKrl H keySets now scope (toPlain e'))

theorem SameEffect.refl (a : AppliedKrl) : SameEffect a a := ⟨rfl, rfl, rfl, fun _ => Iff.rfl⟩

theorem SameKrl.refl (e : JsValue) : SameKrl H keySets now e e := by
  refine ⟨rfl, rfl, rfl, fun scope => ?_⟩
  cases applyKrl H keySets now scope (toPlain e) with
  | error d => exact .error d
  | ok a => exact .ok (.refl a)

/-- Filed envelopes, issuer by issuer. -/
def SameFile (H : Host) (keySets : List KeySet) (now : JsNumber) (f f' : JsString × JsValue) : Prop :=
  f.1 = f'.1 ∧ ∀ scope, ExceptRel SameEffect (applyKrl H keySets now scope f.2)
    (applyKrl H keySets now scope f'.2)

theorem ownEntry_sameFile {files files' : List (JsString × JsValue)}
    (h : List.Forall₂ (SameFile H keySets now) files files') (issuer : JsString) :
    (ownEntry issuer files = none ∧ ownEntry issuer files' = none) ∨
      ∃ env env', ownEntry issuer files = some env ∧ ownEntry issuer files' = some env' ∧
        ∀ scope, ExceptRel SameEffect (applyKrl H keySets now scope env) (applyKrl H keySets now scope env') := by
  induction h with
  | nil => exact .inl ⟨rfl, rfl⟩
  | @cons f f' files files' hf _ ih =>
    obtain ⟨k, env⟩ := f
    obtain ⟨k', env'⟩ := f'
    obtain ⟨hk, happlied⟩ := hf
    have hkk : k = k' := hk
    subst hkk
    by_cases hki : k = issuer
    · right
      exact ⟨env, env', by rw [ownEntry, if_pos hki], by rw [ownEntry, if_pos hki], happlied⟩
    · rw [ownEntry, if_neg hki, ownEntry, if_neg hki]
      exact ih

theorem fileKrl_same {scopes : List GuardRevocationScope} {files files' : List (JsString × JsValue)}
    (hfiles : List.Forall₂ (SameFile H keySets now) files files') (hc : isCloneable e = true)
    (h : SameKrl H keySets now e e') :
    ExceptRel (List.Forall₂ (SameFile H keySets now)) (fileKrl scopes files (toPlain e))
      (fileKrl scopes files' (toPlain e')) := by
  have hissuer : (toPlain e).field (js "issuer") = (toPlain e').field (js "issuer") := by
    rw [field_toPlain, field_toPlain, h.issuer]
  simp only [fileKrl, structuredClone_toPlain hc, structuredClone_toPlain (h.cloneable ▸ hc), hissuer,
    isRecord_toPlain, h.isRecord]
  generalize (reported ((toPlain e').field (js "issuer"))).getD [] = issuer
  by_cases hbad : (!e'.isRecord || !((toPlain e').field (js "issuer")).hasText ||
      !(scopes.map GuardRevocationScope.krlIssuer).contains issuer) = true
  · rw [if_pos hbad, if_pos hbad]
    exact .error _
  · rw [if_neg hbad, if_neg hbad]
    rcases ownEntry_sameFile hfiles issuer with ⟨hn, hn'⟩ | ⟨env, env', hs, hs', -⟩
    · rw [hn, hn', if_neg (by simp), if_neg (by simp)]
      exact .ok (List.rel_append hfiles (.cons ⟨rfl, h.applied⟩ .nil))
    · simp only [hs, hs', Option.isSome_some, if_true]
      exact .error _

theorem applyScope_same {files files' : List (JsString × JsValue)}
    (hfiles : List.Forall₂ (SameFile H keySets now) files files') (scope : GuardRevocationScope) :
    ExceptRel SameEffect (applyScope H keySets now files scope) (applyScope H keySets now files' scope) := by
  unfold applyScope
  rcases ownEntry_sameFile hfiles scope.krlIssuer with ⟨hn, hn'⟩ | ⟨env, env', hs, hs', happlied⟩
  · rw [hn, hn']
    exact .error _
  · rw [hs, hs']
    exact happlied scope

theorem any_same {p : AppliedKrl → Bool} (hp : ∀ a b, SameEffect a b → p a = p b)
    {applied applied' : List AppliedKrl} (h : List.Forall₂ SameEffect applied applied') :
    applied.any p = applied'.any p := by
  induction h with
  | nil => rfl
  | cons hab _ ih => rw [List.any_cons, List.any_cons, hp _ _ hab, ih]

theorem checkCoverage_same {applied applied' : List AppliedKrl}
    (h : List.Forall₂ SameEffect applied applied') :
    checkCoverage applied keys = checkCoverage applied' keys := by
  have hany : ∀ key : CheckedKey, applied.any (fun a => a.keyIssuers.contains key.issuer) =
      applied'.any (fun a => a.keyIssuers.contains key.issuer) := by
    intro key
    exact any_same (fun a b hab => by rw [hab.keyIssuers]) h
  simp only [checkCoverage, hany]

theorem checkRevoked_same {applied applied' : List AppliedKrl}
    (h : List.Forall₂ SameEffect applied applied') :
    checkRevoked applied keys = checkRevoked applied' keys := by
  have hany : isRevokedBy applied = isRevokedBy applied' := by
    funext key
    refine any_same (fun a b hab => ?_) h
    have hmem : a.revoked.contains key.kid = b.revoked.contains key.kid := by
      rw [Bool.eq_iff_iff, List.contains_iff_mem, List.contains_iff_mem]
      exact hab.revoked key.kid
    rw [hab.keyIssuers, hmem]
  rw [checkRevoked, checkRevoked, hany]

theorem acceptWatermark_same {calls : List (JsString × GuardKrlWatermark)} {a b : AppliedKrl}
    (h : SameEffect a b) : acceptWatermark store calls a = acceptWatermark store calls b := by
  rw [acceptWatermark, acceptWatermark, h.krlIssuer, h.watermark]

theorem foldlM_acceptWatermark_same {applied applied' : List AppliedKrl}
    (h : List.Forall₂ SameEffect applied applied') :
    ExceptRel (· = ·) (applied.foldlM (acceptWatermark store) [])
      (applied'.foldlM (acceptWatermark store) []) := by
  refine ExceptRel.foldlM (T := SameEffect) ?_ h rfl
  intro calls calls' a b hcalls hab
  rw [hcalls, acceptWatermark_same hab]
  cases acceptWatermark store calls' b with
  | error d => exact .error d
  | ok c => exact .ok rfl

theorem exceptRel_refl {x : Except RevocationDenial Unit} : ExceptRel (· = ·) x x := by
  cases x with
  | error d => exact .error d
  | ok u => exact .ok rfl

/-- Envelopes with the same effect lead to the same verdict. -/
theorem applyKrls_same {items items' : List JsValue}
    (h : List.Forall₂ (fun x y => isCloneable x = true ∧ SameKrl H cfg.trustedKrlKeySets now x y) items items') :
    applyKrls H cfg now keys store (plainElements items) =
      applyKrls H cfg now keys store (plainElements items') := by
  have hplain : List.Forall₂ (fun x y => ∃ e e', x = toPlain e ∧ y = toPlain e' ∧ isCloneable e = true ∧
      SameKrl H cfg.trustedKrlKeySets now e e') (plainElements items) (plainElements items') := by
    rw [plainElements_eq_map, plainElements_eq_map, List.forall₂_map_left_iff, List.forall₂_map_right_iff]
    exact h.imp fun x y hxy => ⟨x, y, rfl, rfl, hxy.1, hxy.2⟩
  apply exceptRel_eq
  unfold applyKrls
  have hfile := ExceptRel.foldlM (R := List.Forall₂ (SameFile H cfg.trustedKrlKeySets now))
    (f := fileKrl cfg.scopes) (g := fileKrl cfg.scopes) (a := []) (b := []) (by
      rintro files files' x y hfiles ⟨e, e', rfl, rfl, hc, hsame⟩
      exact fileKrl_same hfiles hc hsame) hplain .nil
  refine hfile.bind fun files files' hfiles => ?_
  have happly : ExceptRel (List.Forall₂ SameEffect)
      (cfg.scopes.mapM (applyScope H cfg.trustedKrlKeySets now files))
      (cfg.scopes.mapM (applyScope H cfg.trustedKrlKeySets now files')) :=
    ExceptRel.mapM fun scope _ => applyScope_same hfiles scope
  refine happly.bind fun applied applied' happlied => ?_
  rw [checkCoverage_same happlied]
  refine exceptRel_refl.bind fun _ _ _ => ?_
  refine (foldlM_acceptWatermark_same happlied).bind fun _ _ _ => ?_
  rw [checkRevoked_same happlied]
  exact exceptRel_refl

end

end OxDeAI
