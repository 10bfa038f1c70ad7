import OxDeAI.Guard.CompleteMediation
import OxDeAI.Guard.DelegatedAuthority
import OxDeAI.Guard.Watermarks
import OxDeAI.Verification.KeyLookup

/-! Revocation is checked for the key that signed: the kid that is looked up names the
key under which the parent was accepted, and no other key. -/

namespace OxDeAI

open Js Async

/-- The keys of the sets, each with its issuer. -/
def keyEntries (keySets : List KeySet) : List (JsString × KeySetKey) :=
  keySets.flatMap (fun ks => ks.keys.map (fun key => (ks.issuer, key)))

def entryName (e : JsString × KeySetKey) : JsString × JsString := (e.1, e.2.kid)

section

variable (H : Host)

def entryIdentity (e : JsString × KeySetKey) : Option JsString := ed25519PublicKeyIdentity H e.2.publicKey

/-- Every key is known by one issuer and kid, these stand for one key, and none of the
keys signs revocation lists. -/
structure SeparateIdentities (krlKeySets keySets : List KeySet) : Prop where
  identity : ∀ e ∈ keyEntries keySets, ∃ id, entryIdentity H e = some id
  separate : ∀ e ∈ keyEntries keySets, ∀ k ∈ keyEntries krlKeySets, entryIdentity H e ≠ entryIdentity H k
  oneName : ∀ e ∈ keyEntries keySets, ∀ f ∈ keyEntries keySets,
    entryIdentity H e = entryIdentity H f → entryName e = entryName f
  oneKey : ∀ e ∈ keyEntries keySets, ∀ f ∈ keyEntries keySets,
    entryName e = entryName f → entryIdentity H e = entryIdentity H f

def registrationOf (e : JsString × KeySetKey) (id : JsString) : KeyRegistration :=
  ⟨id, e.2.status, e.2.notBefore, e.2.notAfter⟩

/-- The scan knows each key behind it by its identity and by its name. -/
def ScanHolds (krl : List JsString) (seen : List (JsString × KeySetKey)) (scan : TrustScan) : Prop :=
  ∀ e ∈ seen, ∃ id, entryIdentity H e = some id ∧ id ∉ krl ∧ scan.owner? id = some (entryName e) ∧
    scan.registered? (entryName e) = some (registrationOf e id)

end

section

variable {H : Host} {krl : List JsString} {seen : List (JsString × KeySetKey)} {scan scan' : TrustScan}
  {issuer label : JsString} {key : KeySetKey} {keySets : List KeySet}

theorem TrustScan.owner?_add (scan : TrustScan) (name : JsString × JsString) (entry : KeyRegistration) (id : JsString) :
    (scan.add name entry).owner? id = if entry.identity = id then some name else scan.owner? id := by
  unfold TrustScan.owner? TrustScan.add
  by_cases h : entry.identity = id
  · rw [if_pos h, List.find?_cons_of_pos (by simpa using h)]
    rfl
  · rw [if_neg h, List.find?_cons_of_neg (by simpa using h)]

theorem TrustScan.registered?_add (scan : TrustScan) (name name' : JsString × JsString) (entry : KeyRegistration) :
    (scan.add name entry).registered? name' = if name = name' then some entry else scan.registered? name' := by
  unfold TrustScan.registered? TrustScan.add
  by_cases h : name = name'
  · rw [if_pos h, List.find?_cons_of_pos (by simpa using h)]
    rfl
  · rw [if_neg h, List.find?_cons_of_neg (by simpa using h)]

/-- What a key passed that the scan took. -/
theorem scanKey_ok (h : scanKey H krl issuer label scan key = .ok scan') :
    ∃ id, entryIdentity H (issuer, key) = some id ∧ id ∉ krl ∧
      (∀ owner, scan.owner? id = some owner → owner = (issuer, key.kid)) ∧
        (∀ entry, scan.registered? (issuer, key.kid) = some entry → entry = registrationOf (issuer, key) id) ∧
          scan' = scan.add (issuer, key.kid) (registrationOf (issuer, key) id) := by
  unfold scanKey at h
  dsimp only at h
  split at h
  · cases h
  split at h
  · cases h
  cases hid : ed25519PublicKeyIdentity H key.publicKey with
  | none =>
    rw [hid] at h
    cases h
  | some id =>
    rw [hid] at h
    dsimp only at h
    split at h
    · cases h
    rename_i hkrl
    cases howner : (scan.owner? id).filter (· ≠ (issuer, key.kid)) with
    | some owner =>
      rw [howner] at h
      cases h
    | none =>
      rw [howner] at h
      dsimp only at h
      split at h
      · cases h
      rename_i hentry
      refine ⟨id, hid, by simpa using hkrl, ?_, ?_, (Except.ok.inj h).symm⟩
      · intro owner hsome
        rw [hsome] at howner
        by_contra hne
        simp [Option.filter, hne] at howner
      · intro entry hsome
        rw [hsome] at hentry
        simpa [registrationOf] using hentry

theorem ScanHolds.scanKey (hscan : ScanHolds H krl seen scan)
    (h : OxDeAI.scanKey H krl issuer label scan key = .ok scan') :
    ScanHolds H krl (seen ++ [(issuer, key)]) scan' := by
  obtain ⟨id, hid, hkrl, howner, hentry, rfl⟩ := scanKey_ok h
  intro e he
  rcases List.mem_append.mp he with he | he
  · obtain ⟨id', hid', hkrl', howner', hentry'⟩ := hscan e he
    refine ⟨id', hid', hkrl', ?_, ?_⟩
    · rw [TrustScan.owner?_add]
      by_cases hsame : (registrationOf (issuer, key) id).identity = id'
      · rw [if_pos hsame]
        have hsame' : id = id' := hsame
        rw [← hsame'] at howner'
        rw [howner _ howner']
      · rw [if_neg hsame, howner']
    · rw [TrustScan.registered?_add]
      by_cases hsame : (issuer, key.kid) = entryName e
      · rw [if_pos hsame]
        rw [← hsame] at hentry'
        rw [hentry _ hentry']
      · rw [if_neg hsame, hentry']
  · obtain rfl := List.mem_singleton.mp he
    refine ⟨id, hid, hkrl, ?_, ?_⟩
    · rw [TrustScan.owner?_add]
      exact if_pos rfl
    · rw [TrustScan.registered?_add]
      exact if_pos rfl

theorem scanKeySet_holds {indexed : KeySet × ℕ} (hscan : ScanHolds H krl seen scan)
    (h : scanKeySet H krl scan indexed = .ok scan') :
    ScanHolds H krl (seen ++ indexed.1.keys.map (fun key => (indexed.1.issuer, key))) scan' := by
  unfold scanKeySet at h
  split at h
  · cases h
  · have hall := foldlM_ok (fun (pre : List (KeySetKey × ℕ)) scan => ScanHolds H krl
      (seen ++ pre.map (fun key => (indexed.1.issuer, key.1))) scan) (by
        intro pre scan key scan' hpre _ hkey
        rw [List.map_append, ← List.append_assoc]
        exact hpre.scanKey hkey) (by simpa using hscan) h
    have hkeys : indexed.1.keys.zipIdx.map (fun key => (indexed.1.issuer, key.1)) =
        (indexed.1.keys.zipIdx.map Prod.fst).map (fun key => (indexed.1.issuer, key)) := by
      rw [List.map_map]
      rfl
    rw [hkeys, List.zipIdx_map_fst] at hall
    exact hall

theorem mem_krlKeyIdentities {krlKeySets : List KeySet} {id : JsString} :
    id ∈ krlKeyIdentities H krlKeySets ↔ ∃ e ∈ keyEntries krlKeySets, entryIdentity H e = some id := by
  simp only [krlKeyIdentities, keyEntries, List.mem_flatMap, List.mem_filterMap, List.mem_map, entryIdentity]
  constructor
  · rintro ⟨ks, hks, key, hkey, hid⟩
    exact ⟨_, ⟨ks, hks, key, hkey, rfl⟩, hid⟩
  · rintro ⟨_, ⟨ks, hks, key, hkey, rfl⟩, hid⟩
    exact ⟨ks, hks, key, hkey, hid⟩

/-- What a validated snapshot holds. -/
theorem validatedTrustSnapshot_separate {krlKeySets live : List KeySet}
    (h : validatedTrustSnapshot H (krlKeyIdentities H krlKeySets) live = .ok keySets) :
    SeparateIdentities H krlKeySets keySets := by
  obtain rfl := validatedTrustSnapshot_eq h
  unfold validatedTrustSnapshot at h
  cases hfold : keySets.zipIdx.foldlM (scanKeySet H (krlKeyIdentities H krlKeySets)) {} with
  | error message =>
    rw [hfold] at h
    cases h
  | ok scan =>
    have hall := foldlM_ok (fun (pre : List (KeySet × ℕ)) scan => ScanHolds H (krlKeyIdentities H krlKeySets)
      (keyEntries (pre.map Prod.fst)) scan) (by
        intro pre scan indexed scan' hpre _ hone
        have hset := scanKeySet_holds hpre hone
        simpa [keyEntries] using hset) (by
          intro e he
          cases he) hfold
    rw [List.zipIdx_map_fst] at hall
    refine ⟨fun e he => ?_, fun e he k hk hsame => ?_, fun e he f hf hsame => ?_, fun e he f hf hname => ?_⟩
    · obtain ⟨id, hid, -⟩ := hall e he
      exact ⟨id, hid⟩
    · obtain ⟨id, hid, hkrl, -⟩ := hall e he
      apply hkrl
      exact mem_krlKeyIdentities.mpr ⟨k, hk, hsame ▸ hid⟩
    · obtain ⟨id, hid, -, howner, -⟩ := hall e he
      obtain ⟨id', hid', -, howner', -⟩ := hall f hf
      rw [hid, hid'] at hsame
      rw [← Option.some.inj hsame, howner] at howner'
      exact Option.some.inj howner'
    · obtain ⟨id, hid, -, -, hentry⟩ := hall e he
      obtain ⟨id', hid', -, -, hentry'⟩ := hall f hf
      rw [hname, hentry'] at hentry
      have hreg := Option.some.inj hentry
      have hids : id' = id := congrArg KeyRegistration.identity hreg
      rw [hid, hid', hids]

end

/-- Core accepts the authorization, under this key. -/
structure AcceptedUnder (H : Host) (cfg : GuardConfig) (now : JsNumber) (keySets : List KeySet)
    (authorities : List AuthorizationAuthority) (authorization : JsValue) (key : KeySetKey) : Prop where
  verified : StrictlyVerified H cfg now keySets (some authorities) authorization
  kid : (signatureParts authorization).kid = .str key.kid
  found : findKeyInKeySets keySets (authorization.field (js "issuer")) key.kid .ed25519 = some key
  active : keyIsActiveAt key now = true
  signature : ∃ signature, (signatureParts authorization).sig = .str signature ∧
    acceptsEd25519 H (authorizationSigningPayload authorization) signature key.publicKey = true

/-- The provider's lists, by scope: verified, covering each key, and revoking none. -/
structure EvidenceClears (H : Host) (revocation : ResolvedRevocation) (now : JsNumber) (answer : ProviderAnswer)
    (keys : List CheckedKey) (env : GuardRevocationScope → JsValue) : Prop where
  listed : ∃ raw, answer = .value (.arr raw) ∧
    ∀ scope ∈ revocation.scopes, ∃ item ∈ raw, structuredClone item = some (env scope)
  verified : ∀ scope ∈ revocation.scopes, (env scope).field (js "issuer") = .str scope.krlIssuer ∧
    acceptsKrl H revocation.trustedKrlKeySets now (env scope) = true
  covered : ∀ key ∈ keys, ∃ scope ∈ revocation.scopes, key.issuer ∈ scope.keyIssuers
  unrevoked : ∀ key ∈ keys, ∀ scope ∈ revocation.scopes, key.issuer ∈ scope.keyIssuers →
    key.kid ∉ kidTexts ((env scope).field (js "revoked_kids"))

section

variable {H : Host} {cfg : GuardConfig} {now : JsNumber} {keySets : List KeySet} {issuer : JsValue}
  {kid kid' : JsString} {alg : SigningAlg} {key : KeySetKey} {authorities : List AuthorizationAuthority}
  {authorization : JsValue}

/-- A key found in the pinned trust is the one core finds in the whole of it. -/
theorem findKeyInKeySets_pin (h : findKeyInKeySets (pinKeySet keySets issuer kid) issuer kid' alg = some key) :
    kid' = kid ∧ findKeyInKeySets keySets issuer kid' alg = some key := by
  unfold pinKeySet at h
  cases hks : keySets.find? (isOfIssuer issuer) with
  | none =>
    have hks' : keySets.find? (fun ks => issuer.isText ks.issuer) = none := hks
    rw [hks'] at h
    cases h
  | some ks =>
    have hks' : keySets.find? (fun ks => issuer.isText ks.issuer) = some ks := hks
    rw [hks'] at h
    let pinned : KeySet := { ks with keys := ks.keys.filter (fun k => k.kid = kid) }
    have hissuer : isOfIssuer issuer ks = true := List.find?_some hks
    have hfirst : [pinned].find? (isOfIssuer issuer) = some pinned := List.find?_cons_of_pos hissuer
    have hpinned : pinned.keys.find? (isNamed kid' alg) = some key := by
      rw [← findKeyInKeySets_of_set hfirst]
      exact h
    rw [List.find?_filter] at hpinned
    rw [findKeyInKeySets_of_set hks]
    -- the pin passes the keys of one kid only, so it changes no search for that kid
    have hfound := List.find?_some hpinned
    simp only [isNamed, decide_eq_true_eq] at hfound
    obtain ⟨hpin, hkid, -⟩ := hfound
    obtain rfl : kid' = kid := hkid.symm.trans hpin
    refine ⟨rfl, ?_⟩
    rw [← hpinned]
    apply congrFun
    apply congrArg
    funext k
    by_cases hk : k.kid = kid' <;> simp [isNamed, hk]

/-- What the trust in one key verifies, the trust in all of them verifies under that key. -/
theorem StrictlyVerified.unpinned
    (h : StrictlyVerified H cfg now (pinKeySet keySets (authorization.field (js "issuer")) kid) (some authorities)
      authorization) :
    ∃ key, key.kid = kid ∧ AcceptedUnder H cfg now keySets authorities authorization key := by
  have hverified := strictlyVerified_iff.mp h
  obtain ⟨alg, kid', signature, hmaterial, -, hsignature⟩ := hverified.signature
  obtain ⟨-, ⟨-, hkid⟩, -, hsig⟩ := material_some.mp hmaterial
  cases hsignature with
  | hmac _ secret _ => exact absurd rfl secret
  | ed25519 key name found active valid =>
    obtain ⟨rfl, hfound⟩ := findKeyInKeySets_pin found
    obtain ⟨ks, hks, -, -, hkey, -⟩ := findKeyInKeySets_some hfound
    have hne : keySets ≠ [] := List.ne_nil_of_mem hks
    refine ⟨key, hkey, strictlyVerified_iff.mpr ?_, hkey ▸ hkid, hkey ▸ hfound, active, signature, hsig, valid⟩
    exact {
      toFieldsHold := { hverified.toFieldsHold with }
      notNullish := hverified.notNullish
      trustedKeys := fun _ => hne
      signature := ⟨alg, kid', signature, hmaterial, fun _ => hne, .ed25519 key name hfound active valid⟩ }

theorem evaluateRevocation_clears {revocation : ResolvedRevocation} {keys : List CheckedKey}
    {store : KrlWatermarkStore} {answer : ProviderAnswer}
    (h : evaluateRevocation H revocation now keys store answer = none) :
    ∃ env, EvidenceClears H revocation now answer keys env := by
  let call : RevocationCall := ⟨0, revocation, now, keys⟩
  have heval : evaluateRevocation H call.cfg call.now call.keys store answer = denialOf (do
      let applied ← verifiedKrls H call answer
      let _ ← applied.foldlM (acceptWatermark store) []
      checkRevoked applied call.keys) := evaluateRevocation_eq store
  rw [h] at heval
  cases happlied : verifiedKrls H call answer with
  | error e =>
    rw [happlied] at heval
    cases heval
  | ok applied =>
    rw [happlied] at heval
    have hrest : none = denialOf (do
        let _ ← applied.foldlM (acceptWatermark store) []
        checkRevoked applied keys) := heval
    have hrevoked : denialOf (checkRevoked applied keys) = none := by
      cases haccepted : applied.foldlM (acceptWatermark store) [] with
      | error e =>
        rw [haccepted] at hrest
        cases hrest
      | ok calls =>
        rw [haccepted] at hrest
        exact hrest.symm
    obtain ⟨env, hfrom⟩ := verifiedKrls_from happlied
    refine ⟨env, hfrom.listed, fun scope hscope => ?_, fun key hkey => ?_, fun key hkey scope hscope hissuer => ?_⟩
    · obtain ⟨a, -, ha⟩ := exists_mem_of_forall₂ hfrom.lists.flip hscope
      exact ⟨hfrom.issuer scope hscope, ha.verified⟩
    · obtain ⟨a, ha, hissuer⟩ := hfrom.covered key hkey
      obtain ⟨scope, hscope, happ⟩ := exists_mem_of_forall₂ hfrom.lists ha
      rw [happ.keyIssuers] at hissuer
      exact ⟨scope, hscope, hissuer⟩
    · obtain ⟨a, ha, happ⟩ := exists_mem_of_forall₂ hfrom.lists.flip hscope
      rw [← happ.keyIssuers] at hissuer
      rw [← happ.revoked]
      exact checkRevoked_permits hrevoked key hkey a ha hissuer

end

/-- The keys that revocation is checked for. -/
def signersInUse (parentOwner parentKid delegationOwner delegationKid : JsString) : List CheckedKey :=
  [⟨.parent, parentOwner, parentKid⟩, ⟨.delegation, delegationOwner, delegationKid⟩]

/-- What a delegated call under revocation has checked of the keys that signed. -/
structure SignersChecked {S V : Type} (H : Host) (cfg : GuardConfig) (revocation : ResolvedRevocation)
    (d : DelegatedCall S V) (key : KeySetKey) (parentOwner delegationOwner delegationKid : JsString) : Prop where
  parentIssuer : d.input.parentAuth.field (js "issuer") = .str parentOwner
  delegationIssuer : d.input.delegation.field (js "issuer") = .str delegationOwner
  delegationSigner : d.input.delegation.field (js "kid") = .str delegationKid
  signer : AcceptedUnder H cfg d.now d.confirmKeySets d.authorities d.input.parentAuth key
  trust : SeparateIdentities H revocation.trustedKrlKeySets d.confirmKeySets
  evaluated : evaluateRevocation H revocation d.now
    (signersInUse parentOwner key.kid delegationOwner delegationKid) d.evidence.2 d.evidence.1 = none
  cleared : ∃ env, EvidenceClears H revocation d.now d.evidence.1
    (signersInUse parentOwner key.kid delegationOwner delegationKid) env

theorem DelegatedCall.Cleared.signers {S V : Type} {H : Host} {cfg : GuardConfig} {action delegationInput : JsValue}
    {revocation : ResolvedRevocation} {d : DelegatedCall S V} (h : d.Cleared H cfg action delegationInput)
    (hrevocation : cfg.revocation = some revocation) :
    ∃ key parentOwner delegationOwner delegationKid,
      SignersChecked H cfg revocation d key parentOwner delegationOwner delegationKid := by
  obtain ⟨htrust, kid, -, hpinned, hevaluated⟩ := h.unrevoked.keys revocation hrevocation
  obtain ⟨key, rfl, hsigner⟩ := hpinned.unpinned
  obtain ⟨parentOwner, -, hparent⟩ := JsValue.hasText_iff.mp (strictlyVerified_iff.mp h.parent).issuer
  obtain ⟨r, hr, hok⟩ := h.chain
  obtain ⟨-, haccepted⟩ := verifyDelegationChain_accepts hr hok
  obtain ⟨skew, hskew⟩ := exists_skew_of_verifyDelegationBy haccepted
  have hholds := (verifyDelegationBy_accepts hskew).mp ⟨r, haccepted, hok⟩
  obtain ⟨delegationOwner, -, hissuer⟩ :=
    JsValue.hasText_iff.mp (hholds.hasText (js "issuer") (by simp [delegationTexts]))
  obtain ⟨delegationKid, -, hkid⟩ :=
    JsValue.hasText_iff.mp (hholds.hasText (js "kid") (by simp [delegationTexts]))
  have hkeys : keysInUse d.input key.kid = signersInUse parentOwner key.kid delegationOwner delegationKid := by
    unfold keysInUse signersInUse fieldText
    rw [hparent, hissuer, hkid]
    rfl
  rw [hkeys] at hevaluated
  exact ⟨key, parentOwner, delegationOwner, delegationKid, hparent, hissuer, hkid, hsigner,
    validatedTrustSnapshot_separate (htrust revocation hrevocation), hevaluated,
    evaluateRevocation_clears hevaluated⟩

/-- Whatever the trusted key sets are at each reading, a delegated call that executes
under revocation has looked up the kid of the key that signed the parent. -/
theorem revocation_of_signing_key {σ S V : Type} (H : Host) (cfg : GuardConfig) (revocation : ResolvedRevocation)
    (hrevocation : cfg.revocation = some revocation) (action delegationInput : JsValue)
    (hdelegated : delegationInput.isTruthy = true) {evs : GuardHistory S V}
    (h : Asks (guardCall H cfg action delegationInput : Prog σ (GuardRequest S V) GuardAnswer
      (Except Thrown JsValue)) evs .execute) :
    ∃ (d : DelegatedCall S V) (key : KeySetKey) (parentOwner delegationOwner delegationKid : JsString),
      evs = d.consumed cfg action ++ gateHistory cfg action d.input.parentAuth ∧
        SignersChecked H cfg revocation d key parentOwner delegationOwner delegationKid := by
  have hmediated := guardCall_follows.asks h
  rw [List.nil_append] at hmediated
  rcases hmediated with ⟨hstandard, -⟩ | ⟨-, d, hcleared, rfl⟩
  · rw [hstandard] at hdelegated
    cases hdelegated
  · obtain ⟨key, parentOwner, delegationOwner, delegationKid, hsigners⟩ := hcleared.signers hrevocation
    exact ⟨d, key, parentOwner, delegationOwner, delegationKid, rfl, hsigners⟩

def krlPem : JsString := js "-----BEGIN PUBLIC KEY----- KRL"

/-- A host with two keys, which accept the same signatures. -/
def twoKeyHost : Host where
  toPlatform := samplePlatform
  createPublicKey pem :=
    some (if pem = krlPem then { samplePublicKey with jwkX := some (List.replicate 32 (byte 8)) } else samplePublicKey)

theorem twoKeyHost_key (pem : JsString) : ∃ key, twoKeyHost.createPublicKey pem = some key ∧
    isUsableKey key = true ∧ key.verify = samplePublicKey.verify := by
  by_cases hpem : pem = krlPem
  · exact ⟨_, congrArg some (if_pos hpem), isUsableKey_of_number rfl rfl (by decide), rfl⟩
  · exact ⟨_, congrArg some (if_neg hpem), isUsableKey_sample, rfl⟩

theorem verifyEd25519_twoKeyHost : verifyEd25519 twoKeyHost = verifyEd25519 sampleHost := by
  funext domain payload signature pem
  obtain ⟨key, hkey, husable, hverify⟩ := twoKeyHost_key (normalizePem pem)
  have hkey' : sampleHost.createPublicKey (normalizePem pem) = some samplePublicKey := rfl
  simp only [verifyEd25519, hkey, hkey', husable, isUsableKey_sample, hverify]
  rfl

theorem verifyEd25519Raw_twoKeyHost : verifyEd25519Raw twoKeyHost = verifyEd25519Raw sampleHost := by
  funext payload signature pem
  obtain ⟨key, hkey, -, hverify⟩ := twoKeyHost_key pem
  obtain ⟨normal, hnormal, husable, -⟩ := twoKeyHost_key (normalizePem pem)
  have hkey' : ∀ pem, sampleHost.createPublicKey pem = some samplePublicKey := fun _ => rfl
  have hnfc : twoKeyHost.nfc = sampleHost.nfc := rfl
  simp only [verifyEd25519Raw, isSmallOrderEd25519Pem, hkey, hnormal, hkey', husable, isUsableKey_sample, hnfc]
  cases canonicalSignatureBytes signature with
  | none => rfl
  | some bytes =>
    cases canonicalJson sampleHost.nfc payload with
    | error e => rfl
    | ok text => exact congrFun (congrFun hverify (utf8Encode text)) bytes

theorem verifyDelegationChain_twoKeyHost : verifyDelegationChain twoKeyHost = verifyDelegationChain sampleHost := by
  funext clock delegation parent opts
  have hdelegation : verifyDelegation twoKeyHost clock delegation opts =
      verifyDelegation sampleHost clock delegation opts := by
    simp only [verifyDelegation, verifyDelegationBy, checkDelegationSignature]
    unfold verifyDelegationSignature
    rw [verifyEd25519_twoKeyHost]
    rfl
  rw [verifyDelegationChain, verifyDelegationChain, hdelegation]
  rfl

def krlKeySet : KeySet := { sampleKeySet with keys := [{ sampleKey none with publicKey := krlPem }] }

theorem guardKrl_twoKeyHost : GuardKrl twoKeyHost [krlKeySet] (.int 1000) (sampleKrl (js "K")) := by
  have h := acceptsKrl_iff.mp (acceptsKrl_sample (js "K"))
  have hc : Canonical sampleHost.nfc (signedKrlSigningPayload (sampleKrl (js "K"))) :=
    (isCanonical_iff _).mp rfl
  have hfind : findKeyInKeySets [krlKeySet] (.str (js "issuer-1")) (js "k1") .ed25519 =
      some { sampleKey none with publicKey := krlPem } := by
    have hset : [krlKeySet].find? (isOfIssuer (.str (js "issuer-1"))) = some krlKeySet :=
      List.find?_cons_of_pos (by decide)
    rw [findKeyInKeySets_of_set hset]
    exact List.find?_cons_of_pos (by decide)
  refine ⟨h.isRecord, h.structured, rfl, h.live, List.cons_ne_nil _ _, _, hfind, rfl, ?_⟩
  rw [verifyKrlSignature, verifyEd25519_twoKeyHost]
  exact verifyEd25519_sample hc

theorem sampleDelegatee_ne_nil : js "agent-1" ≠ [] := List.cons_ne_nil _ _

def revokingGuardConfig : GuardConfig where
  expectedAudience := js "agent-1"
  trustedDelegationAuthorities := some [⟨js "issuer-1", js "p1"⟩]
  revocation := some (onePublisher [krlKeySet] (List.cons_ne_nil _ _) samplePublisher_ne_nil samplePublisher_ne_nil)
  audience := sampleDelegatee_ne_nil

def revocableCall (hash : JsString) : DelegatedCall ℕ ℕ :=
  { sampleDelegatedCall hash with
    confirmKeySets := [sampleKeySet]
    evidence := (.value (.arr [sampleKrl (js "K")]), acceptingStore) }

theorem trustHolds_twoKeyHost : TrustHolds twoKeyHost revokingGuardConfig [sampleKeySet] := by
  intro revocation h
  obtain rfl := Option.some.inj h
  rfl

theorem parent_verified_twoKeyHost : StrictlyVerified twoKeyHost revokingGuardConfig (.int 1000) [sampleKeySet]
    (some [⟨js "issuer-1", js "p1"⟩]) (issuedAuthorization (js "agent-1") (js "11")) := by
  have hverified : StrictlyVerified sampleHost revokingGuardConfig (.int 1000) [sampleKeySet]
      (some [⟨js "issuer-1", js "p1"⟩]) (issuedAuthorization (js "agent-1") (js "11")) := by
    refine issuedAuthorization_verified (by decide) fun trusted h => ?_
    rw [← Option.some.inj h]
    exact List.mem_singleton.mpr rfl
  have h := strictlyVerified_iff.mp hverified
  obtain ⟨alg, kid, signature, hmaterial, htrusted, hsignature⟩ := h.signature
  refine strictlyVerified_iff.mpr { h with signature := ⟨alg, kid, signature, hmaterial, htrusted, ?_⟩ }
  cases hsignature with
  | hmac _ secret _ => exact absurd rfl secret
  | ed25519 key name found active valid =>
    refine .ed25519 key name found active ?_
    rw [acceptsEd25519, verifyEd25519_twoKeyHost, verifyEd25519Raw_twoKeyHost]
    exact valid

theorem evaluated_twoKeyHost : evaluateRevocation twoKeyHost
    (onePublisher [krlKeySet] (List.cons_ne_nil _ _) samplePublisher_ne_nil samplePublisher_ne_nil) (.int 1000)
    (signersInUse (js "issuer-1") (js "k1") (js "issuer-1") (js "k1")) acceptingStore
      (.value (.arr [sampleKrl (js "K")])) = none := by
  rw [evaluate_onePublisher guardKrl_twoKeyHost samplePublisher_ne_nil samplePublisher_ne_nil rfl rfl
    (by simp [signersInUse])]
  rfl

theorem revocableCall_cleared : ∃ hash,
    (revocableCall hash).Cleared twoKeyHost revokingGuardConfig samplePayment (sampleDelegationInput hash) := by
  obtain ⟨hash, r, hr, hok⟩ := chain_accepted_payment
  have hpin : pinKeySet [sampleKeySet] (.str (js "issuer-1")) (js "k1") = [sampleKeySet] := by decide
  refine ⟨hash, {
    agent := rfl
    snapshot := ⟨_, rfl, rfl⟩
    complete := ⟨rfl, rfl⟩
    amount := ⟨rfl, show (0 : ℤ) ≤ 5 by decide⟩
    authorities := rfl
    parentScope := rfl
    trust := trustHolds_twoKeyHost
    parent := parent_verified_twoKeyHost
    chain := ⟨r, ?_, hok⟩
    scope := ⟨rfl, ⟨.arr [.str (js "pay")], .bigint 5, .undefined, .undefined⟩, rfl, fun _ => rfl, fun _ => rfl⟩
    unrevoked := ⟨nofun, nofun, ?_⟩ }⟩
  · rw [verifyDelegationChain_twoKeyHost]
    exact hr
  · intro revocation h
    obtain rfl := Option.some.inj h
    refine ⟨trustHolds_twoKeyHost, js "k1", rfl, ?_, evaluated_twoKeyHost⟩
    have hissuer : (revocableCall hash).input.parentAuth.field (js "issuer") = .str (js "issuer-1") := rfl
    have hkeys : (revocableCall hash).confirmKeySets = [sampleKeySet] := rfl
    rw [hissuer, hkeys, hpin]
    exact parent_verified_twoKeyHost

theorem revocation_of_signing_key_sample : ∃ (d : DelegatedCall ℕ ℕ) (key : KeySetKey)
    (parentOwner delegationOwner delegationKid : JsString),
      SignersChecked twoKeyHost revokingGuardConfig
        (onePublisher [krlKeySet] (List.cons_ne_nil _ _) samplePublisher_ne_nil samplePublisher_ne_nil) d key
          parentOwner delegationOwner delegationKid := by
  obtain ⟨hash, hcleared⟩ := revocableCall_cleared
  have hasks : Asks (guardCall twoKeyHost revokingGuardConfig samplePayment (sampleDelegationInput hash) :
      Prog Unit (GuardRequest ℕ ℕ) GuardAnswer (Except Thrown JsValue))
        ((revocableCall hash).consumed revokingGuardConfig samplePayment ++
          gateHistory revokingGuardConfig samplePayment (revocableCall hash).input.parentAuth) .execute :=
    guardCall_asks_delegated rfl hcleared
  obtain ⟨d, key, parentOwner, delegationOwner, delegationKid, -, hsigners⟩ :=
    revocation_of_signing_key twoKeyHost revokingGuardConfig _ rfl samplePayment _ rfl hasks
  exact ⟨d, key, parentOwner, delegationOwner, delegationKid, hsigners⟩

end OxDeAI
