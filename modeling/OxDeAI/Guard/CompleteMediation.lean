import OxDeAI.Guard.Reach

/-! A guard call executes at most once, after every check of its path, and consumes
and commits only after the verification and the binding. -/

namespace OxDeAI

open Js Async

def sampleGuardConfig : GuardConfig where
  expectedAudience := js "svc"
  audience := by decide

def samplePaymentIntent : JsValue :=
  .obj [(js "agent_id", .str (js "agent-2")), (js "amount", .bigint 5)]

/-- The sample authorization for an audience, bound to an intent. -/
def issuedAuthorization (audience intentHash : JsString) : JsValue :=
  (sampleParent audience).spreadSet (js "intent_hash") (.str intentHash)

theorem issuedAuthorization_verified {cfg : GuardConfig} {authorities : Option (List AuthorizationAuthority)}
    {intentHash : JsString} (hne : intentHash ≠ [])
    (hauthority : ∀ trusted, authorities = some trusted → ⟨js "issuer-1", js "p1"⟩ ∈ trusted) :
    StrictlyVerified sampleHost cfg (.int 1000) [sampleKeySet] authorities
      (issuedAuthorization cfg.expectedAudience intentHash) := by
  have hc : Canonical sampleHost.nfc (authorizationSigningPayload
      (issuedAuthorization cfg.expectedAudience intentHash)) := (isCanonical_iff _).mp rfl
  have halg : js "Ed25519" ≠ [] := by decide
  have hmaterial : (signatureParts (issuedAuthorization cfg.expectedAudience intentHash)).material =
      some (js "Ed25519", js "k1", sampleSignature) :=
    material_some.mpr ⟨⟨halg, rfl⟩, ⟨by decide, rfl⟩, sampleSignature_ne_nil, rfl⟩
  have hfields : FieldsHold sampleHost.nfc (.int 1000) defaultMaxFutureIssuedAtSkewSeconds
      (strictOptions cfg (.int 1000) [sampleKeySet] authorities)
      (issuedAuthorization cfg.expectedAudience intentHash) := by
    have hheld : FieldsHold sampleHost.nfc (.int 1000) (.int 300) (sampleOptions 1000)
        (sampleAuthorization (.num (.int 1060)) (js "Ed25519") sampleSignature []) :=
      fieldsHold_sample halg sampleSignature_ne_nil (by decide) (by decide) ⟨1060, rfl, by decide⟩
    exact {
      decision := rfl
      intentHash := JsValue.hasText_iff.mpr ⟨intentHash, hne, rfl⟩
      stateHash := rfl
      policyId := rfl
      issuer := rfl
      audience := JsValue.hasText_iff.mpr ⟨cfg.expectedAudience, cfg.audience, rfl⟩
      authId := hheld.authId
      issuedAt := hheld.issuedAt
      alg := rfl
      kid := rfl
      sig := hheld.sig
      expiry := hheld.expiry
      expectedIssuer := nofun
      expectedAudience := fun _ h => congrArg _ (Option.some.inj h)
      expectedPolicyId := nofun
      authority := fun trusted h => ⟨_, hauthority trusted h, rfl, rfl⟩ }
  refine strictlyVerified_iff.mpr ⟨hfields, rfl, nofun, _, _, _, hmaterial, nofun, ?_⟩
  refine .ed25519 (sampleKey none) (by decide) find_sampleKey rfl ?_
  rw [acceptsEd25519, verifyEd25519_sample hc, Bool.true_or]

end OxDeAI
