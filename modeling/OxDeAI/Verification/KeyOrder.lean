import OxDeAI.Verification.KeyReports

/-! When the order of the trusted keys does not matter to a verdict. -/

namespace OxDeAI

open Js

section

variable (H : Host) (syntaxError : JsString → JsString) (clock : JsNumber) (sets : List KeySet)
  (a : SignedArtifact)

/-- Two distinct entries match issuer, kid and algorithm of the artifact. -/
def AmbiguousFor : Prop :=
  ∃ s, signer syntaxError a = some s ∧ AmbiguousKey sets s.issuer s.kid s.alg

/-- The verdict is that of every other order of the key sets, and it is no
acceptance when the key is ambiguous. -/
structure OrderIndependent : Prop where
  reordered : ∀ sets', Reordered sets sets' →
    verdict H syntaxError clock sets' a = verdict H syntaxError clock sets a
  ambiguous : AmbiguousFor syntaxError sets a → ¬ Accepted (verdict H syntaxError clock sets a)

/-- All keys that some order selects fare alike. Where the key is ambiguous, none
of them verifies the signature or the artifact fails another check. -/
structure ResolvesAlike : Prop where
  alike : ∀ q, keyQuery H syntaxError clock a = some q → ∀ c c', q.Candidate sets c →
    q.Candidate sets c' → q.outcome c = q.outcome c'
  ambiguous : AmbiguousFor syntaxError sets a → OthersHold H syntaxError clock a →
    ∃ q, keyQuery H syntaxError clock a = some q ∧ ∀ c, q.Candidate sets c → q.outcome c ≠ .verified

end

section

variable {H : Host} {syntaxError : JsString → JsString} {clock : JsNumber} {sets sets' : List KeySet}
  {a : SignedArtifact} {q : KeyQuery} {report : KeyOutcome → Except JsError Verdict}

theorem keyQuery_reports (h : keyQuery H syntaxError clock a = some q) :
    ∃ report, ReportsOutcome H syntaxError clock a q report := by
  cases a with
  | authorization auth opts => exact authorization_reports h
  | delegation delegation opts => exact delegation_reports h
  | envelope bytes opts => exact envelope_reports h
  | krl e opts => exact krl_reports h

theorem keyQuery_ignores (h : keyQuery H syntaxError clock a = none) :
    IgnoresKeys H syntaxError clock a := by
  cases a with
  | authorization auth opts => exact authorization_ignores h
  | delegation delegation opts => exact delegation_ignores h
  | envelope bytes opts => exact envelope_ignores h
  | krl e opts => exact krl_ignores h

theorem Reordered.ne_nil (h : Reordered sets sets') (hs : sets ≠ []) : sets' ≠ [] := by
  intro hs'
  have := h.isEmpty_eq
  simp [hs', hs] at this

theorem Reordered.eq_nil (h : Reordered [] sets') : sets' = [] := by
  have := h.isEmpty_eq
  simpa using this

theorem AmbiguousFor.ne_nil (h : AmbiguousFor syntaxError sets a) : sets ≠ [] := by
  obtain ⟨s, -, hs⟩ := h
  exact hs.ne_nil

/-- A reporting verifier depends on the order exactly if the outcomes of the
candidates differ. -/
theorem reordered_iff (hr : ReportsOutcome H syntaxError clock a q report) (hs : sets ≠ []) :
    (∀ sets', Reordered sets sets' →
      verdict H syntaxError clock sets' a = verdict H syntaxError clock sets a) ↔
      ∀ c c', q.Candidate sets c → q.Candidate sets c' → q.outcome c = q.outcome c' := by
  constructor
  · intro h
    -- every candidate is selected by some order, whose verdict is the given one
    have hfound : ∀ c, q.Candidate sets c → q.outcome c = q.outcome (q.find sets) := by
      intro c hc
      obtain ⟨sets', hre, hfind⟩ := exists_reordered_find hc
      have hv := h sets' hre
      rw [hr.verdict_eq sets' (hre.ne_nil hs), hr.verdict_eq sets hs] at hv
      have ho := hr.injective hv
      rw [KeyQuery.find, hfind] at ho
      exact ho
    intro c c' hc hc'
    rw [hfound c hc, hfound c' hc']
  · intro h sets' hre
    have hc : q.Candidate sets (q.find sets) := candidateKey_find sets q.issuer q.kid .ed25519
    have hc' : q.Candidate sets (q.find sets') :=
      (candidateKey_find sets' q.issuer q.kid .ed25519).reordered hre
    rw [hr.verdict_eq sets' (hre.ne_nil hs), hr.verdict_eq sets hs, h _ _ hc' hc]

theorem OrderIndependent.resolvesAlike (h : OrderIndependent H syntaxError clock sets a) :
    ResolvesAlike H syntaxError clock sets a := by
  constructor
  · intro q hq
    by_cases hs : sets = []
    · subst hs
      have hnone : ∀ c, q.Candidate [] c → c = none := by
        rintro c (⟨ks, hks, -⟩ | ⟨-, hc⟩)
        · cases hks
        · exact hc
      intro c c' hc hc'
      rw [hnone c hc, hnone c' hc']
    · obtain ⟨report, hr⟩ := keyQuery_reports hq
      exact (reordered_iff hr hs).mp h.reordered
  · intro hamb hothers
    have hs := hamb.ne_nil
    have hnot := h.ambiguous hamb
    cases hq : keyQuery H syntaxError clock a with
    | none =>
      obtain ⟨s, hsigner, -⟩ := hamb
      exact absurd (((keyQuery_ignores hq).accepted s hsigner sets hs).mpr hothers) hnot
    | some q =>
      refine ⟨q, rfl, fun c hc hver => hnot ?_⟩
      obtain ⟨report, hr⟩ := keyQuery_reports hq
      obtain ⟨sets', hre, hfind⟩ := exists_reordered_find hc
      rw [← h.reordered sets' hre, hr.verdict_eq sets' (hre.ne_nil hs), KeyQuery.find, hfind]
      exact (hr.accepted _).mpr ⟨hothers, hver⟩

theorem ResolvesAlike.orderIndependent (h : ResolvesAlike H syntaxError clock sets a) :
    OrderIndependent H syntaxError clock sets a := by
  constructor
  · intro sets' hre
    by_cases hs : sets = []
    · subst hs
      rw [hre.eq_nil]
    · cases hq : keyQuery H syntaxError clock a with
      | none => exact (keyQuery_ignores hq).verdict_eq sets' sets (hre.ne_nil hs) hs
      | some q =>
        obtain ⟨report, hr⟩ := keyQuery_reports hq
        exact (reordered_iff hr hs).mpr (h.alike q hq) sets' hre
  · intro hamb hacc
    have hs := hamb.ne_nil
    cases hq : keyQuery H syntaxError clock a with
    | none =>
      have hothers : OthersHold H syntaxError clock a := by
        obtain ⟨s, hsigner, -⟩ := hamb
        exact ((keyQuery_ignores hq).accepted s hsigner sets hs).mp hacc
      obtain ⟨q, hq', -⟩ := h.ambiguous hamb hothers
      rw [hq] at hq'
      cases hq'
    | some q =>
      obtain ⟨report, hr⟩ := keyQuery_reports hq
      rw [hr.verdict_eq sets hs] at hacc
      obtain ⟨hothers, hver⟩ := (hr.accepted _).mp hacc
      obtain ⟨q', hq', hno⟩ := h.ambiguous hamb hothers
      rw [hq] at hq'
      obtain rfl := Option.some.inj hq'
      exact hno _ (candidateKey_find sets q.issuer q.kid .ed25519) hver

end

theorem keyResolution_orderIndependent (H : Host) (syntaxError : JsString → JsString) (clock : JsNumber)
    (sets : List KeySet) (a : SignedArtifact) :
    OrderIndependent H syntaxError clock sets a ↔ ResolvesAlike H syntaxError clock sets a :=
  ⟨OrderIndependent.resolvesAlike, ResolvesAlike.orderIndependent⟩

def duplicateKeys (keys : List KeySetKey) : List KeySet := [{ sampleKeySet with keys := keys }]

def signedAuthorization : JsValue :=
  sampleAuthorization (.num (.int 1060)) (js "Ed25519") sampleSignature []

def signedArtifact : SignedArtifact := .authorization signedAuthorization (sampleOptions 1000)

/-- The sample signature verifies under the sample key, whatever its status. -/
theorem checkAgainst_duplicate (status : Option KeyStatus) (keys : List KeySetKey) :
    (checkAgainst sampleHost (.int 0) signedAuthorization (sampleOptions 1000) (fun kid =>
      findKeyInKeySets (duplicateKeys (sampleKey status :: keys)) (.str (js "issuer-1")) kid
        .ed25519)).violations = [] ↔ keyIsActiveAt (sampleKey status) (.int 1000) = true := by
  have hc : Canonical sampleHost.nfc (authorizationSigningPayload signedAuthorization) :=
    (isCanonical_iff _).mp (by decide)
  have hmat : (signatureParts signedAuthorization).material = some _ :=
    material_sample (by decide) sampleSignature_ne_nil
  have hfind : findKeyInKeySets (duplicateKeys (sampleKey status :: keys)) (.str (js "issuer-1")) (js "k1")
      .ed25519 = some (sampleKey status) := by
    have hset : (duplicateKeys (sampleKey status :: keys)).find? (isOfIssuer (.str (js "issuer-1"))) =
        some { sampleKeySet with keys := sampleKey status :: keys } := List.find?_cons_of_pos rfl
    have hnamed : isNamed (js "k1") .ed25519 (sampleKey status) = true := rfl
    rw [findKeyInKeySets_of_set hset]
    exact List.find?_cons_of_pos hnamed
  have hname : isEd25519Name (js "Ed25519") = true := by decide
  simp only [checkAgainst, checkSignature, hmat, hname, hfind, Bool.not_true, if_true]
  rw [if_neg Bool.false_ne_true, checkEd25519_passes]
  constructor
  · rintro ⟨key, hkey, hactive, -⟩
    rw [Option.some.inj hkey]
    exact hactive
  · intro hactive
    refine ⟨sampleKey status, rfl, hactive, ?_⟩
    rw [acceptsEd25519, verifyEd25519_sample hc, Bool.true_or]

/-- The first of the duplicates decides. -/
theorem accepted_duplicate (status : Option KeyStatus) (keys : List KeySetKey) :
    Accepted (verdict sampleHost id (.int 0) (duplicateKeys (sampleKey status :: keys)) signedArtifact) ↔
      keyIsActiveAt (sampleKey status) (.int 1000) = true := by
  have hf : checkFields sampleHost.nfc (.int 1000) (.int 300) (sampleOptions 1000) signedAuthorization = [] :=
    checkFields_eq_nil.mpr (fieldsHold_sample (by decide) sampleSignature_ne_nil (by decide) (by decide)
      ⟨1060, rfl, by decide⟩)
  have hskew : resolveMaxFutureIssuedAtSkewSeconds (js "verifyAuthorization")
      (sampleOptions 1000).maxFutureIssuedAtSkewSeconds = .ok (.int 300) := rfl
  have hn : signedAuthorization.isNullish = false := rfl
  have hs : duplicateKeys (sampleKey status :: keys) ≠ [] := List.cons_ne_nil _ _
  rw [signedArtifact, verdict_authorization hs, hskew]
  simp only [hn, Bool.false_eq_true, if_false]
  rw [accepted_authorizationResult, List.append_eq_nil_iff]
  constructor
  · rintro ⟨-, h⟩
    exact (checkAgainst_duplicate status keys).mp h
  · intro h
    exact ⟨hf, (checkAgainst_duplicate status keys).mpr h⟩

theorem revoked_duplicate_reordered : ¬ ∀ (sets : List KeySet) (a : SignedArtifact),
    OrderIndependent sampleHost id (.int 0) sets a := by
  intro hclaim
  have h := hclaim (duplicateKeys [sampleKey none, sampleKey (some .revoked)]) signedArtifact
  have hacc : Accepted (verdict sampleHost id (.int 0)
      (duplicateKeys [sampleKey none, sampleKey (some .revoked)]) signedArtifact) :=
    (accepted_duplicate none [sampleKey (some .revoked)]).mpr (by decide)
  have hre : Reordered (duplicateKeys [sampleKey none, sampleKey (some .revoked)])
      (duplicateKeys [sampleKey (some .revoked), sampleKey none]) :=
    ⟨_, List.Perm.refl _, .cons ⟨rfl, rfl, List.Perm.swap _ _ _⟩ .nil⟩
  rw [← h.reordered _ hre, accepted_duplicate] at hacc
  exact absurd hacc (by decide)

end OxDeAI
