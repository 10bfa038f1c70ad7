import OxDeAI.Engine.Hashable
import OxDeAI.Guard.RevocationContent
import OxDeAI.Lib.Async
import OxDeAI.Lib.HighWater

/-! Several `evaluateRevocation` calls over one in-memory watermark store: versions
only rise, and a permit used lists that were accepted at the head. -/

namespace OxDeAI

open Js Async

structure KrlMark where
  krlVersion : ℤ
  digest : JsString
  deriving DecidableEq

/-- A lower version, or the same version with the same digest. -/
instance : LE KrlMark where
  le a b := a.krlVersion ≤ b.krlVersion ∧ (a.krlVersion = b.krlVersion → a.digest = b.digest)

instance : Preorder KrlMark where
  le_refl a := ⟨le_refl _, fun _ => rfl⟩
  le_trans a b c hab hbc := by
    refine ⟨le_trans hab.1 hbc.1, fun hac => ?_⟩
    have hb : a.krlVersion = b.krlVersion := le_antisymm hab.1 (hac ▸ hbc.1)
    exact (hab.2 hb).trans (hbc.2 (hb ▸ hac))

/-- One `evaluateRevocation` call; the number tells apart calls with equal arguments. -/
structure RevocationCall where
  number : ℕ
  cfg : ResolvedRevocation
  now : JsNumber
  keys : List CheckedKey

structure AcceptedKrl where
  call : RevocationCall
  krlIssuer : JsString
  mark : KrlMark

/-- `createInMemoryKrlWatermarkStore`. `accepted` records the `ACCEPTED` answers in
their order; no code reads it. -/
structure InMemoryKrlWatermarks where
  marks : List (JsString × KrlMark)
  accepted : List AcceptedKrl

def createInMemoryKrlWatermarkStore : InMemoryKrlWatermarks := ⟨[], []⟩

/-- `/^[a-f0-9]{64}$/`. -/
def isSha256Hex (s : JsString) : Bool := s.all isHexUnit && s.length = 64

/-- The candidate, when its shape is accepted. -/
def candidateMark? (krlIssuer : JsString) (candidate : GuardKrlWatermark) : Option KrlMark :=
  match candidate.krlVersion with
  | .int z =>
    if krlIssuer.isEmpty || !(JsNumber.int z).isSafeInteger || z < 0 || !isSha256Hex candidate.digest then none
    else some ⟨z, candidate.digest⟩
  | _ => none

namespace InMemoryKrlWatermarks

def current (s : InMemoryKrlWatermarks) (krlIssuer : JsString) : Option KrlMark := ownEntry krlIssuer s.marks

def record (s : InMemoryKrlWatermarks) (entry : AcceptedKrl) : InMemoryKrlWatermarks :=
  { s with accepted := s.accepted ++ [entry] }

def setMark (s : InMemoryKrlWatermarks) (krlIssuer : JsString) (mark : KrlMark) : InMemoryKrlWatermarks :=
  { s with marks := setEntry krlIssuer mark s.marks }

def accept (s : InMemoryKrlWatermarks) (call : RevocationCall) (krlIssuer : JsString)
    (candidate : GuardKrlWatermark) : StoreAnswer × InMemoryKrlWatermarks :=
  match candidateMark? krlIssuer candidate with
  | none => (.rejected, s)
  | some mark =>
    match s.current krlIssuer with
    | none => (.accepted, (s.setMark krlIssuer mark).record ⟨call, krlIssuer, mark⟩)
    | some current =>
      if mark.krlVersion < current.krlVersion then (.rejected, s)
      else if mark.krlVersion = current.krlVersion then
        if mark.digest = current.digest then (.accepted, s.record ⟨call, krlIssuer, mark⟩)
        else (.rejected, s)
      else (.accepted, (s.setMark krlIssuer mark).record ⟨call, krlIssuer, mark⟩)

end InMemoryKrlWatermarks

/-- A call awaits its provider, and after each `accept` the microtask that brings
the answer. -/
inductive RevocationRequest
  | provider
  | turn

abbrev RevocationReply : RevocationRequest → Type
  | .provider => ProviderAnswer
  | .turn => Unit

/-- What a call returned; `none` is `undefined`, the permit. -/
structure RevocationOutcome where
  call : RevocationCall
  answer : ProviderAnswer
  denial : Option RevocationDenial

abbrev RevocationProg := Prog InMemoryKrlWatermarks RevocationRequest RevocationReply

section

variable (H : Host)

/-- Every list verified and every key covered, before any watermark is touched. -/
def verifiedKrls (call : RevocationCall) : ProviderAnswer → Except RevocationDenial (List AppliedKrl)
  | .threw reason => .error (.unavailable (js "revocation provider failed: " ++ reason))
  | .tampered => .error (.unavailable (js "a built-in prototype defines `then` (prototype pollution); the revocation provider's answer cannot be trusted"))
  | .value (.arr raw) =>
    if areCloneable raw then do
      let byIssuer ← (plainElements raw).foldlM (fileKrl call.cfg.scopes) []
      let applied ← call.cfg.scopes.mapM (applyScope H call.cfg.trustedKrlKeySets call.now byIssuer)
      checkCoverage applied call.keys
      return applied
    else .error (.invalid (js "KRL provider returned a non-cloneable list"))
  | .value _ => .error (.unavailable (js "revocation provider returned no KRL list"))

def errorOf? {α : Type} : Except RevocationDenial α → Option RevocationDenial
  | .error d => some d
  | .ok _ => none

/-- The denial for an answer of the store. -/
def refusal? (entry : AppliedKrl) (answer : StoreAnswer) : Option RevocationDenial :=
  errorOf? (acceptWatermark (fun _ _ _ => answer) [] entry)

def acceptKrl (call : RevocationCall) (entry : AppliedKrl) : RevocationProg StoreAnswer :=
  .act (fun s => (s.accept call entry.krlIssuer entry.watermark).2)
    (fun s => .done (s.accept call entry.krlIssuer entry.watermark).1)

/-- The watermarks one after the other, up to the first that is not accepted. -/
def acceptAll (call : RevocationCall) : List AppliedKrl → RevocationProg (Option RevocationDenial)
  | [] => return none
  | entry :: rest => do
    let answer ← acceptKrl call entry
    let _ ← Prog.request RevocationRequest.turn
    match refusal? entry answer with
    | some d => return some d
    | none => acceptAll call rest

def revocationCall (call : RevocationCall) : RevocationProg RevocationOutcome := do
  let answer ← Prog.request .provider
  match verifiedKrls H call answer with
  | .error d => return ⟨call, answer, some d⟩
  | .ok applied =>
    let refused ← acceptAll call applied
    match refused with
    | some d => return ⟨call, answer, some d⟩
    | none => return ⟨call, answer, denialOf (checkRevoked applied call.keys)⟩

end

section

variable {H : Host} {call : RevocationCall} {answer : ProviderAnswer} {s : InMemoryKrlWatermarks}

def RevocationReply.always (answer : ProviderAnswer) : (i : RevocationRequest) → RevocationReply i
  | .provider => answer
  | .turn => ()

/-- The store after these calls. -/
def InMemoryKrlWatermarks.after (s : InMemoryKrlWatermarks) (call : RevocationCall)
    (calls : List (JsString × GuardKrlWatermark)) : InMemoryKrlWatermarks :=
  calls.foldl (fun s c => (s.accept call c.1 c.2).2) s

/-- The store as it answers one call that has it alone. -/
def InMemoryKrlWatermarks.answers (s : InMemoryKrlWatermarks) (call : RevocationCall) : KrlWatermarkStore :=
  fun calls krlIssuer candidate => ((s.after call calls).accept call krlIssuer candidate).1

theorem evaluateRevocation_eq (store : KrlWatermarkStore) :
    evaluateRevocation H call.cfg call.now call.keys store answer = denialOf (do
      let applied ← verifiedKrls H call answer
      let _ ← applied.foldlM (acceptWatermark store) []
      checkRevoked applied call.keys) := by
  cases answer with
  | threw reason => rfl
  | tampered => rfl
  | value v =>
    cases v with
    | arr raw =>
      by_cases hclone : areCloneable raw = true
      · simp only [evaluateRevocation, verifiedKrls, if_pos hclone, applyKrls, bind_assoc, pure_bind]
      · simp only [evaluateRevocation, verifiedKrls, if_neg hclone]
        rfl
    | _ => rfl

theorem acceptWatermark_refused {store : KrlWatermarkStore} {calls : List (JsString × GuardKrlWatermark)}
    {entry : AppliedKrl} {d : RevocationDenial}
    (h : refusal? entry (store calls entry.krlIssuer entry.watermark) = some d) :
    acceptWatermark store calls entry = .error d := by
  rw [acceptWatermark]
  cases hanswer : store calls entry.krlIssuer entry.watermark <;> rw [hanswer] at h <;> cases h <;> rfl

theorem acceptWatermark_accepted {store : KrlWatermarkStore} {calls : List (JsString × GuardKrlWatermark)}
    {entry : AppliedKrl} (h : refusal? entry (store calls entry.krlIssuer entry.watermark) = none) :
    acceptWatermark store calls entry = .ok (calls ++ [(entry.krlIssuer, entry.watermark)]) := by
  rw [acceptWatermark]
  cases hanswer : store calls entry.krlIssuer entry.watermark <;> rw [hanswer] at h <;> cases h

theorem acceptAll_alone (entries : List AppliedKrl) (calls : List (JsString × GuardKrlWatermark)) :
    ((acceptAll call entries).alone (.always answer) (s.after call calls)).2 =
      errorOf? (entries.foldlM (acceptWatermark (s.answers call)) calls) := by
  induction entries generalizing calls with
  | nil => rfl
  | cons entry entries ih =>
    have hafter : s.after call (calls ++ [(entry.krlIssuer, entry.watermark)]) =
        ((s.after call calls).accept call entry.krlIssuer entry.watermark).2 := by
      rw [InMemoryKrlWatermarks.after, List.foldl_append]
      rfl
    have hresult : ((s.after call calls).accept call entry.krlIssuer entry.watermark).1 =
        s.answers call calls entry.krlIssuer entry.watermark := rfl
    rw [acceptAll, Prog.alone_bind, List.foldlM_cons]
    simp only [acceptKrl, Prog.alone, hresult, ← hafter]
    rw [Prog.alone_bind]
    simp only [Prog.request, Prog.alone]
    cases hrefused : refusal? entry (s.answers call calls entry.krlIssuer entry.watermark) with
    | some d =>
      rw [acceptWatermark_refused hrefused]
      rfl
    | none =>
      rw [acceptWatermark_accepted hrefused]
      exact ih _

/-- A call that has the store alone returns what `evaluateRevocation` does. -/
theorem revocationCall_alone : ((revocationCall H call).alone (.always answer) s).2 =
    ⟨call, answer, evaluateRevocation H call.cfg call.now call.keys (s.answers call) answer⟩ := by
  rw [evaluateRevocation_eq, revocationCall, Prog.alone_bind]
  simp only [Prog.request, Prog.alone, RevocationReply.always]
  cases verifiedKrls H call answer with
  | error d => rfl
  | ok applied =>
    dsimp only
    rw [Prog.alone_bind]
    have haccept : ((acceptAll call applied).alone (.always answer) s).2 =
        errorOf? (applied.foldlM (acceptWatermark (s.answers call)) []) := acceptAll_alone applied []
    rw [haccept]
    cases hfold : applied.foldlM (acceptWatermark (s.answers call)) [] with
    | error d =>
      simp only [bind, Except.bind, hfold]
      rfl
    | ok calls =>
      simp only [bind, Except.bind, hfold]
      rfl

end

/-- Per issuer the accepted marks rise, and the current marks are the last of them. -/
structure InMemoryKrlWatermarks.Coherent (s : InMemoryKrlWatermarks) : Prop where
  rising : HighWater.Rising AcceptedKrl.krlIssuer AcceptedKrl.mark s.accepted
  tops : HighWater.Tops AcceptedKrl.krlIssuer AcceptedKrl.mark s.accepted s.current

/-- The store only accepts more. -/
def AcceptsMore (s t : InMemoryKrlWatermarks) : Prop := s.accepted <+: t.accepted

/-- The call got `ACCEPTED` for the mark when nothing accepted of the issuer was above it. -/
def AcceptedAtHead (s : InMemoryKrlWatermarks) (entry : AcceptedKrl) : Prop :=
  ∃ before after, s.accepted = before ++ entry :: after ∧
    ∀ earlier ∈ before, earlier.krlIssuer = entry.krlIssuer → earlier.mark ≤ entry.mark

section

variable {s t u : InMemoryKrlWatermarks} {call : RevocationCall} {krlIssuer : JsString}
  {candidate : GuardKrlWatermark} {mark : KrlMark} {entry : AcceptedKrl}

theorem createInMemoryKrlWatermarkStore_coherent : createInMemoryKrlWatermarkStore.Coherent where
  rising := HighWater.rising_nil
  tops := HighWater.tops_nil

theorem AcceptsMore.refl (s : InMemoryKrlWatermarks) : AcceptsMore s s := List.prefix_refl _

theorem AcceptsMore.trans (hst : AcceptsMore s t) (htu : AcceptsMore t u) : AcceptsMore s u :=
  List.IsPrefix.trans hst htu

theorem AcceptedAtHead.later (h : AcceptedAtHead s entry) (hst : AcceptsMore s t) : AcceptedAtHead t entry := by
  obtain ⟨before, after, heq, hbelow⟩ := h
  obtain ⟨more, hmore⟩ := hst
  refine ⟨before, after ++ more, ?_, hbelow⟩
  rw [← hmore, heq, List.append_assoc, List.cons_append]

/-- What `accept` does: nothing, or a new entry that no current mark is above. -/
inductive AcceptSpec (s : InMemoryKrlWatermarks) (call : RevocationCall) (krlIssuer : JsString)
    (candidate : GuardKrlWatermark) : StoreAnswer × InMemoryKrlWatermarks → Prop
  | rejected : AcceptSpec s call krlIssuer candidate (.rejected, s)
  | accepted {t : InMemoryKrlWatermarks} {mark : KrlMark} (hmark : candidateMark? krlIssuer candidate = some mark)
    (hadmits : HighWater.Admits s.current krlIssuer mark) (hself : t.current krlIssuer = some mark)
    (hrest : ∀ issuer, issuer ≠ krlIssuer → t.current issuer = s.current issuer)
    (hlog : t.accepted = s.accepted ++ [⟨call, krlIssuer, mark⟩]) :
    AcceptSpec s call krlIssuer candidate (.accepted, t)

theorem accept_spec (s : InMemoryKrlWatermarks) (call : RevocationCall) (krlIssuer : JsString)
    (candidate : GuardKrlWatermark) : AcceptSpec s call krlIssuer candidate (s.accept call krlIssuer candidate) := by
  unfold InMemoryKrlWatermarks.accept
  cases hmark : candidateMark? krlIssuer candidate with
  | none => exact .rejected
  | some mark =>
    have hrest : ∀ issuer, issuer ≠ krlIssuer → (s.setMark krlIssuer mark).current issuer = s.current issuer := by
      intro issuer hne
      show ownEntry issuer (setEntry krlIssuer mark s.marks) = ownEntry issuer s.marks
      rw [ownEntry_setEntry, if_neg hne]
    have hself : (s.setMark krlIssuer mark).current krlIssuer = some mark := by
      show ownEntry krlIssuer (setEntry krlIssuer mark s.marks) = some mark
      rw [ownEntry_setEntry, if_pos rfl]
    cases hcur : s.current krlIssuer with
    | none => exact .accepted hmark (HighWater.admits_none hcur) hself hrest rfl
    | some current =>
      dsimp only
      by_cases hlt : mark.krlVersion < current.krlVersion
      · rw [if_pos hlt]
        exact .rejected
      rw [if_neg hlt]
      by_cases heq : mark.krlVersion = current.krlVersion
      · rw [if_pos heq]
        by_cases hdigest : mark.digest = current.digest
        · rw [if_pos hdigest]
          have hsame : mark = current := by
            cases mark
            cases current
            exact congrArg₂ KrlMark.mk heq hdigest
          have hadmits : HighWater.Admits s.current krlIssuer mark :=
            HighWater.admits_some hcur (le_of_eq hsame.symm)
          exact .accepted hmark hadmits (hcur.trans (congrArg some hsame.symm)) (fun _ _ => rfl) rfl
        · rw [if_neg hdigest]
          exact .rejected
      · rw [if_neg heq]
        have hle : current ≤ mark := by
          refine ⟨by omega, fun h => ?_⟩
          exact absurd h.symm heq
        exact .accepted hmark (HighWater.admits_some hcur hle) hself hrest rfl

theorem AcceptSpec.keeps {result : StoreAnswer × InMemoryKrlWatermarks}
    (h : AcceptSpec s call krlIssuer candidate result) (hs : s.Coherent) :
    result.2.Coherent ∧ AcceptsMore s result.2 := by
  cases h with
  | rejected => exact ⟨hs, .refl s⟩
  | @accepted t mark hmark hadmits hself hrest hlog =>
    refine ⟨⟨?_, ?_⟩, ?_⟩
    · rw [hlog]
      exact hs.rising.admit hs.tops hadmits
    · rw [hlog]
      exact hs.tops.admit hadmits hself hrest
    · rw [AcceptsMore, hlog]
      exact List.prefix_append _ _

theorem AcceptSpec.atHead {result : StoreAnswer × InMemoryKrlWatermarks}
    (h : AcceptSpec s call krlIssuer candidate result) (hs : s.Coherent) (haccepted : result.1 = .accepted) :
    ∃ mark, candidateMark? krlIssuer candidate = some mark ∧ AcceptedAtHead result.2 ⟨call, krlIssuer, mark⟩ := by
  cases h with
  | rejected => cases haccepted
  | @accepted t mark hmark hadmits hself hrest hlog =>
    refine ⟨mark, hmark, s.accepted, [], hlog, ?_⟩
    intro earlier hearlier hissuer
    exact hs.tops.le hadmits hearlier hissuer

theorem candidateMark?_eq_some {z : ℤ} {digest : JsString}
    (h : candidateMark? krlIssuer ⟨.int z, digest⟩ = some mark) : mark = ⟨z, digest⟩ := by
  unfold candidateMark? at h
  dsimp only at h
  split at h
  · cases h
  · exact (Option.some.inj h).symm

end

section

variable {H : Host} {call : RevocationCall} {scopes : List GuardRevocationScope} {raw items : List JsValue}
  {files files' : List (JsString × JsValue)} {applied : List AppliedKrl} {keys : List CheckedKey}

/-- Every filed envelope is the copy of a listed one, under its own issuer. -/
def FiledFrom (items : List JsValue) (files : List (JsString × JsValue)) : Prop :=
  ∀ f ∈ files, f.2.field (js "issuer") = .str f.1 ∧ ∃ item ∈ items, structuredClone item = some f.2

theorem fileKrl_filed {item : JsValue} (hfiles : FiledFrom items files) (hitem : item ∈ items)
    (h : fileKrl scopes files item = .ok files') : FiledFrom items files' := by
  unfold fileKrl at h
  cases hclone : structuredClone item with
  | none =>
    rw [hclone] at h
    cases h
  | some env =>
    rw [hclone] at h
    dsimp only at h
    split at h
    · cases h
    · rename_i hgood
      split at h
      · cases h
      · obtain rfl := Except.ok.inj h
        simp only [Bool.or_eq_true, Bool.not_eq_true', not_or, Bool.not_eq_false] at hgood
        obtain ⟨issuer, -, hissuer⟩ := JsValue.hasText_iff.mp hgood.1.2
        intro f hf
        rcases List.mem_append.mp hf with hf | hf
        · exact hfiles f hf
        · obtain rfl := List.mem_singleton.mp hf
          refine ⟨?_, item, hitem, hclone⟩
          show env.field (js "issuer") = .str ((reported (env.field (js "issuer"))).getD [])
          rw [reported, if_pos hgood.1.2, hissuer]
          rfl

theorem foldlM_fileKrl_filed (h : items.foldlM (fileKrl scopes) [] = .ok files) : FiledFrom items files := by
  refine foldlM_ok (fun _ files => FiledFrom items files) ?_ ?_ h
  · intro _ files item files' hfiles hitem hone
    exact fileKrl_filed hfiles hitem hone
  · intro f hf
    cases hf

theorem checkCoverage_ok (h : checkCoverage applied keys = .ok ()) :
    ∀ key ∈ keys, ∃ a ∈ applied, key.issuer ∈ a.keyIssuers := by
  unfold checkCoverage at h
  split at h
  · cases h
  · rename_i hnone
    intro key hkey
    have hcovered := List.find?_eq_none.mp hnone key hkey
    simpa using hcovered

theorem checkRevoked_permits (h : denialOf (checkRevoked applied keys) = none) :
    ∀ key ∈ keys, ∀ a ∈ applied, key.issuer ∈ a.keyIssuers → key.kid ∉ a.revoked := by
  unfold checkRevoked at h
  split at h
  · cases h
  · rename_i hnone
    intro key hkey a ha hissuer hkid
    have hclear := List.find?_eq_none.mp hnone key hkey
    apply hclear
    rw [isRevokedBy, List.any_eq_true]
    exact ⟨a, ha, by simp [hissuer, hkid]⟩

/-- The list that an applied one was read from. -/
structure AppliedFrom (H : Host) (call : RevocationCall) (scope : GuardRevocationScope) (env : JsValue)
    (a : AppliedKrl) : Prop where
  verified : acceptsKrl H call.cfg.trustedKrlKeySets call.now env = true
  krlIssuer : a.krlIssuer = scope.krlIssuer
  keyIssuers : a.keyIssuers = scope.keyIssuers
  revoked : a.revoked = kidTexts (env.field (js "revoked_kids"))
  watermark : ∃ version digest, env.field (js "krl_version") = .num (.int version) ∧
    sha256HexFromJson H.toPlatform (signedKrlSigningPayload env) = .ok digest ∧
      a.watermark = ⟨.int version, digest⟩

theorem applyKrl_from {scope : GuardRevocationScope} {env : JsValue} {a : AppliedKrl}
    (h : applyKrl H call.cfg.trustedKrlKeySets call.now scope env = .ok a) : AppliedFrom H call scope env a := by
  unfold applyKrl at h
  dsimp only at h
  split at h
  · cases h
  · rename_i hok
    have hverified : acceptsKrl H call.cfg.trustedKrlKeySets call.now env = true := by
      simpa [acceptsKrl] using hok
    cases hdigest : sha256HexFromJson H.toPlatform (signedKrlSigningPayload env) with
    | error e =>
      rw [hdigest] at h
      cases h
    | ok digest =>
      rw [hdigest] at h
      obtain rfl := Except.ok.inj h
      have hholds := verifySignedKrlBy_accepts.mp hverified
      obtain ⟨-, ⟨version, hversion, -⟩, -⟩ := checkKrlFields_eq_nil (checkKrlFields_of_structure hholds.structured)
      refine ⟨hverified, rfl, rfl, rfl, version, digest, hversion, hdigest, ?_⟩
      rw [hversion]
      rfl

/-- The copies of the provider's envelopes, by scope. -/
structure VerifiedFrom (H : Host) (call : RevocationCall) (answer : ProviderAnswer)
    (env : GuardRevocationScope → JsValue) (applied : List AppliedKrl) : Prop where
  listed : ∃ raw, answer = .value (.arr raw) ∧
    ∀ scope ∈ call.cfg.scopes, ∃ item ∈ raw, structuredClone item = some (env scope)
  issuer : ∀ scope ∈ call.cfg.scopes, (env scope).field (js "issuer") = .str scope.krlIssuer
  lists : List.Forall₂ (fun scope a => AppliedFrom H call scope (env scope) a) call.cfg.scopes applied
  covered : ∀ key ∈ call.keys, ∃ a ∈ applied, key.issuer ∈ a.keyIssuers

theorem applyScope_ok {keySets : List KeySet} {now : JsNumber} {scope : GuardRevocationScope} {a : AppliedKrl}
    (h : applyScope H keySets now files scope = .ok a) :
    ∃ env, ownEntry scope.krlIssuer files = some env ∧ applyKrl H keySets now scope env = .ok a := by
  unfold applyScope at h
  cases hown : ownEntry scope.krlIssuer files with
  | none =>
    rw [hown] at h
    cases h
  | some env =>
    rw [hown] at h
    exact ⟨env, rfl, h⟩

theorem verifiedKrls_from {answer : ProviderAnswer} (h : verifiedKrls H call answer = .ok applied) :
    ∃ env, VerifiedFrom H call answer env applied := by
  cases answer with
  | threw reason => cases h
  | tampered => cases h
  | value v =>
    cases v with
    | arr raw =>
      by_cases hclone : areCloneable raw = true
      · simp only [verifiedKrls, if_pos hclone] at h
        obtain ⟨files, hfiles, h⟩ := bind_eq_ok.mp h
        obtain ⟨applied', hscopes, h⟩ := bind_eq_ok.mp h
        obtain ⟨⟨⟩, hcover, h⟩ := bind_eq_ok.mp h
        obtain rfl := Except.ok.inj h
        have hfiled := foldlM_fileKrl_filed hfiles
        have hforall := mapM_eq_ok.mp hscopes
        have hown : ∀ scope ∈ call.cfg.scopes, (scope.krlIssuer, (ownEntry scope.krlIssuer files).getD .undefined) ∈ files := by
          intro scope hscope
          obtain ⟨a, -, ha⟩ := exists_mem_of_forall₂ hforall.flip hscope
          obtain ⟨env, henv, -⟩ := applyScope_ok ha
          rw [henv]
          exact ownEntry_mem henv
        refine ⟨fun scope => (ownEntry scope.krlIssuer files).getD .undefined, ⟨raw, rfl, ?_⟩, ?_, ?_, ?_⟩
        · intro scope hscope
          obtain ⟨-, item, hitem, hcloned⟩ := hfiled _ (hown scope hscope)
          rw [plainElements_eq_map] at hitem
          obtain ⟨x, hx, rfl⟩ := List.mem_map.mp hitem
          have hxc := areCloneable_iff.mp hclone x hx
          rw [structuredClone_toPlain hxc] at hcloned
          exact ⟨x, hx, by rw [structuredClone, if_pos hxc, hcloned]⟩
        · intro scope hscope
          exact (hfiled _ (hown scope hscope)).1
        · refine hforall.imp fun scope a ha => ?_
          obtain ⟨env, henv, happlied⟩ := applyScope_ok ha
          rw [henv]
          exact applyKrl_from happlied
        · exact checkCoverage_ok hcover
      · simp only [verifiedKrls, if_neg hclone] at h
        cases h
    | _ => cases h

end

/-- An answer from outside leaves the store as it is. -/
def leavesStore (s : InMemoryKrlWatermarks) (i : RevocationRequest) (_ : RevocationReply i)
    (t : InMemoryKrlWatermarks) : Prop := t = s

/-- A part of a call, among calls that keep the store coherent and only accept more. -/
abbrev RevocationKeeps {α : Type} (p : RevocationProg α) (s : InMemoryKrlWatermarks)
    (post : α → InMemoryKrlWatermarks → Prop) : Prop :=
  Keeps (amongKeepers leavesStore InMemoryKrlWatermarks.Coherent AcceptsMore) p s post

/-- The store accepted the list of the entry for this call, at the head. -/
def EntryAccepted (call : RevocationCall) (entry : AppliedKrl) (s : InMemoryKrlWatermarks) : Prop :=
  ∃ mark, candidateMark? entry.krlIssuer entry.watermark = some mark ∧
    AcceptedAtHead s ⟨call, entry.krlIssuer, mark⟩

/-- The provider's list that a scope was checked with: copied, verified, and accepted by
the store at its version and digest. -/
structure UsedKrl (H : Host) (call : RevocationCall) (answer : ProviderAnswer) (s : InMemoryKrlWatermarks)
    (scope : GuardRevocationScope) (env : JsValue) : Prop where
  listed : ∃ raw item, answer = .value (.arr raw) ∧ item ∈ raw ∧ structuredClone item = some env
  issuer : env.field (js "issuer") = .str scope.krlIssuer
  verified : acceptsKrl H call.cfg.trustedKrlKeySets call.now env = true
  accepted : ∃ version digest, env.field (js "krl_version") = .num (.int version) ∧
    sha256HexFromJson H.toPlatform (signedKrlSigningPayload env) = .ok digest ∧
      AcceptedAtHead s ⟨call, scope.krlIssuer, ⟨version, digest⟩⟩

/-- What a permit rests on. -/
structure PermitBacked (H : Host) (outcome : RevocationOutcome) (s : InMemoryKrlWatermarks)
    (env : GuardRevocationScope → JsValue) : Prop where
  used : ∀ scope ∈ outcome.call.cfg.scopes, UsedKrl H outcome.call outcome.answer s scope (env scope)
  covered : ∀ key ∈ outcome.call.keys, ∃ scope ∈ outcome.call.cfg.scopes, key.issuer ∈ scope.keyIssuers
  unrevoked : ∀ key ∈ outcome.call.keys, ∀ scope ∈ outcome.call.cfg.scopes, key.issuer ∈ scope.keyIssuers →
    key.kid ∉ kidTexts ((env scope).field (js "revoked_kids"))

def OutcomeHolds (H : Host) (outcome : RevocationOutcome) (s : InMemoryKrlWatermarks) : Prop :=
  outcome.denial = none → ∃ env, PermitBacked H outcome s env

section

variable {H : Host} {s t : InMemoryKrlWatermarks} {call : RevocationCall} {entry : AppliedKrl}
  {answer : ProviderAnswer} {applied : List AppliedKrl} {env : GuardRevocationScope → JsValue}

theorem EntryAccepted.later (h : EntryAccepted call entry s) (hst : AcceptsMore s t) : EntryAccepted call entry t := by
  obtain ⟨mark, hmark, hhead⟩ := h
  exact ⟨mark, hmark, hhead.later hst⟩

theorem OutcomeHolds.later {outcome : RevocationOutcome} (h : OutcomeHolds H outcome s) (hst : AcceptsMore s t) :
    OutcomeHolds H outcome t := by
  intro hpermit
  obtain ⟨env, hbacked⟩ := h hpermit
  refine ⟨env, fun scope hscope => ?_, hbacked.covered, hbacked.unrevoked⟩
  have hused := hbacked.used scope hscope
  obtain ⟨version, digest, hversion, hdigest, hhead⟩ := hused.accepted
  exact ⟨hused.listed, hused.issuer, hused.verified, version, digest, hversion, hdigest, hhead.later hst⟩

theorem refusal?_eq_none {result : StoreAnswer} : refusal? entry result = none ↔ result = .accepted := by
  cases result <;> simp [refusal?, errorOf?, acceptWatermark]

theorem acceptKrl_keeps (call : RevocationCall) (entry : AppliedKrl) (hs : s.Coherent) :
    RevocationKeeps (acceptKrl call entry) s
      (fun result t => t.Coherent ∧ (result = .accepted → EntryAccepted call entry t)) := by
  have hspec := accept_spec s call entry.krlIssuer entry.watermark
  exact ⟨hspec.keeps hs, (hspec.keeps hs).1, hspec.atHead hs⟩

theorem acceptAll_keeps (call : RevocationCall) (entries : List AppliedKrl) (hs : s.Coherent) :
    RevocationKeeps (acceptAll call entries) s
      (fun refused t => refused = none → ∀ entry ∈ entries, EntryAccepted call entry t) := by
  induction entries generalizing s with
  | nil =>
    apply keeps_pure
    intro _ entry hentry
    cases hentry
  | cons entry entries ih =>
    unfold acceptAll
    refine (acceptKrl_keeps call entry hs).bind fun result t ht => ?_
    refine keeps_request_bind trivial fun _ u hanswer => ?_
    cases hrefused : refusal? entry result with
    | some d =>
      apply keeps_pure
      intro hnone
      cases hnone
    | none =>
      have hentry := ht.2 (refusal?_eq_none.mp hrefused)
      refine ((ih hanswer.1).moves AcceptsMore.refl AcceptsMore.trans).imp fun refused v hv hnone => ?_
      rw [List.forall_mem_cons]
      exact ⟨(hentry.later hanswer.2.1).later hv.2, hv.1 hnone⟩

/-- The lists of an unrefused call, with the keys checked against them. -/
theorem VerifiedFrom.backed (h : VerifiedFrom H call answer env applied)
    (haccepted : ∀ entry ∈ applied, EntryAccepted call entry s)
    (hpermit : denialOf (checkRevoked applied call.keys) = none) :
    PermitBacked H ⟨call, answer, denialOf (checkRevoked applied call.keys)⟩ s env where
  used scope hscope := by
    obtain ⟨raw, hraw, hlisted⟩ := h.listed
    obtain ⟨item, hitem, hclone⟩ := hlisted scope hscope
    obtain ⟨a, ha, hfrom⟩ := exists_mem_of_forall₂ h.lists.flip hscope
    obtain ⟨mark, hmark, hhead⟩ := haccepted a ha
    obtain ⟨version, digest, hversion, hdigest, hwatermark⟩ := hfrom.watermark
    rw [hwatermark] at hmark
    obtain rfl := candidateMark?_eq_some hmark
    rw [hfrom.krlIssuer] at hhead
    exact ⟨⟨raw, item, hraw, hitem, hclone⟩, h.issuer scope hscope, hfrom.verified, version, digest, hversion,
      hdigest, hhead⟩
  covered key hkey := by
    obtain ⟨a, ha, hissuer⟩ := h.covered key hkey
    obtain ⟨scope, hscope, hfrom⟩ := exists_mem_of_forall₂ h.lists ha
    rw [hfrom.keyIssuers] at hissuer
    exact ⟨scope, hscope, hissuer⟩
  unrevoked key hkey scope hscope hissuer := by
    obtain ⟨a, ha, hfrom⟩ := exists_mem_of_forall₂ h.lists.flip hscope
    rw [← hfrom.keyIssuers] at hissuer
    rw [← hfrom.revoked]
    exact checkRevoked_permits hpermit key hkey a ha hissuer

theorem revocationCall_keeps (H : Host) (call : RevocationCall) (s : InMemoryKrlWatermarks) :
    RevocationKeeps (revocationCall H call) s (OutcomeHolds H) := by
  unfold revocationCall
  refine keeps_request_bind trivial fun answer t hanswer => ?_
  cases hverified : verifiedKrls H call answer with
  | error d =>
    apply keeps_pure
    intro hnone
    cases hnone
  | ok applied =>
    obtain ⟨env, hfrom⟩ := verifiedKrls_from hverified
    refine (acceptAll_keeps call applied hanswer.1).bind fun refused u hrefused => ?_
    cases refused with
    | some d =>
      apply keeps_pure
      intro hnone
      cases hnone
    | none =>
      apply keeps_pure
      intro hpermit
      exact ⟨env, hfrom.backed (hrefused rfl) hpermit⟩

end

/-- The calls and their common store. -/
abbrev RevocationSystem := System InMemoryKrlWatermarks RevocationRequest RevocationReply RevocationOutcome

def isRevocationCall (H : Host) (p : RevocationProg RevocationOutcome) : Prop := ∃ call, p = revocationCall H call

/-- In every interleaving the accepted marks of an issuer rise, and every permit used
lists accepted at the head, that cover its keys and revoke none of them. -/
theorem krl_anti_rollback (H : Host) (sys : RevocationSystem) (evs : List (Event RevocationRequest RevocationReply))
    (h : Run.Trace (Step (isRevocationCall H) leavesStore) ⟨createInMemoryKrlWatermarkStore, []⟩ evs sys) :
    sys.shared.accepted.Pairwise (fun a b => a.krlIssuer = b.krlIssuer → a.mark ≤ b.mark) ∧
      ∀ outcome, Prog.done outcome ∈ sys.procs → outcome.denial = none →
        ∃ env, PermitBacked H outcome sys.shared env := by
  have hinit : KeepersHold leavesStore InMemoryKrlWatermarks.Coherent AcceptsMore (OutcomeHolds H)
      (⟨createInMemoryKrlWatermarkStore, []⟩ : RevocationSystem) := by
    refine ⟨createInMemoryKrlWatermarkStore_coherent, ?_⟩
    intro p hp
    cases hp
  obtain ⟨hsys, -⟩ := run_keepers AcceptsMore.refl AcceptsMore.trans (fun _ _ _ h hst => h.later hst)
    (by
      intro s i a t hs hserve
      rw [hserve]
      exact ⟨hs, .refl s⟩)
    (by
      intro p hp s hs
      obtain ⟨call, rfl⟩ := hp
      exact revocationCall_keeps H call s) h hinit
  refine ⟨hsys.invariant.rising, ?_⟩
  intro outcome hdone
  exact hsys.done hdone

/-- A host whose digests have the length of SHA-256. -/
def fixedDigestHost : Host := { sampleHost with sha256Hex := fun _ => List.replicate 64 (unit 48) }

theorem samplePublisher_ne_nil : js "issuer-1" ≠ [] := by decide

theorem sampleOwner_ne_nil : js "owner" ≠ [] := by decide

/-- The list of `issuer-1` revokes `K`; the call asks about another kid. -/
def sampleRevocationCall : RevocationCall where
  number := 0
  cfg := onePublisher [sampleKeySet] (List.cons_ne_nil _ _) samplePublisher_ne_nil sampleOwner_ne_nil
  now := .int 1000
  keys := [⟨.parent, js "owner", js "k2"⟩]

def sampleProviderAnswer : ProviderAnswer := .value (.arr [sampleKrl (js "K")])

theorem verifyEd25519_fixedDigestHost : verifyEd25519 fixedDigestHost = verifyEd25519 sampleHost := rfl

theorem guardKrl_fixedDigest (kid : JsString) :
    GuardKrl fixedDigestHost [sampleKeySet] (.int 1000) (sampleKrl kid) := by
  have h := acceptsKrl_iff.mp (acceptsKrl_sample kid)
  obtain ⟨key, hfind, hactive, hverify⟩ := h.key
  refine ⟨h.isRecord, h.structured, h.version, h.live, h.trusted, key, hfind, hactive, ?_⟩
  rw [verifyKrlSignature, verifyEd25519_fixedDigestHost]
  exact hverify

theorem verifiedKrls_sample : verifiedKrls fixedDigestHost sampleRevocationCall sampleProviderAnswer =
    .ok [appliedKrl fixedDigestHost ⟨js "issuer-1", [js "owner"]⟩ (sampleKrl (js "K"))] := by
  have h := guardKrl_fixedDigest (js "K")
  have hclone : isCloneable (sampleKrl (js "K")) = true := rfl
  simp only [sampleProviderAnswer, verifiedKrls, areCloneable_singleton hclone, if_true, plainElements,
    List.foldlM_cons, List.foldlM_nil, bind, Except.bind, pure, Except.pure, sampleRevocationCall, onePublisher]
  rw [fileKrl_onePublisher h samplePublisher_ne_nil rfl hclone]
  simp only [List.mapM_cons, List.mapM_nil, bind, Except.bind, pure, Except.pure, applyScope_onePublisher h]
  rw [checkCoverage_onePublisher (by simp)]

/-- The n-th call with these keys. -/
def sampleRevocation (n : ℕ) : RevocationCall := { sampleRevocationCall with number := n }

def sampleApplied : AppliedKrl := appliedKrl fixedDigestHost ⟨js "issuer-1", [js "owner"]⟩ (sampleKrl (js "K"))

/-- Alone, it is permitted by a store that takes the list. -/
theorem revocationCall_alone_sample {n : ℕ} {s s' : InMemoryKrlWatermarks}
    (h : s.accept (sampleRevocation n) sampleApplied.krlIssuer sampleApplied.watermark = (.accepted, s')) :
    (revocationCall fixedDigestHost (sampleRevocation n)).alone (.always sampleProviderAnswer) s =
      (s', ⟨sampleRevocation n, sampleProviderAnswer, none⟩) := by
  have hverified : verifiedKrls fixedDigestHost (sampleRevocation n) sampleProviderAnswer = .ok [sampleApplied] :=
    verifiedKrls_sample
  have hpermitted : refusal? sampleApplied .accepted = none := rfl
  rw [revocationCall, Prog.alone_bind]
  simp only [Prog.request, Prog.alone, RevocationReply.always, hverified]
  rw [Prog.alone_bind]
  simp only [acceptAll, acceptKrl, Prog.alone_bind, Prog.request, Prog.alone, h, hpermitted]
  rfl

/-- Two calls are given the same list, one after the other, and both are permitted. -/
theorem krl_anti_rollback_sample : ∃ sys : RevocationSystem,
    sys.shared.accepted.Pairwise (fun a b => a.krlIssuer = b.krlIssuer → a.mark ≤ b.mark) ∧
      sys.shared.accepted.length = 2 ∧ ∀ n < 2, ∃ env,
        PermitBacked fixedDigestHost ⟨sampleRevocation n, sampleProviderAnswer, none⟩ sys.shared env := by
  have hfirst := revocationCall_alone_sample (n := 0) (s := createInMemoryKrlWatermarkStore) rfl
  have hsecond := revocationCall_alone_sample (n := 1)
    (s := (createInMemoryKrlWatermarkStore.accept (sampleRevocation 0) sampleApplied.krlIssuer sampleApplied.watermark).2) rfl
  obtain ⟨evs, hrun⟩ := Step.alone (isRevocationCall fixedDigestHost) leavesStore
    (.always sampleProviderAnswer) (fun s i => rfl) ⟨sampleRevocation 0, rfl⟩ createInMemoryKrlWatermarkStore []
  rw [hfirst] at hrun
  obtain ⟨more, hmore⟩ := Step.alone (isRevocationCall fixedDigestHost) leavesStore
    (.always sampleProviderAnswer) (fun s i => rfl) ⟨sampleRevocation 1, rfl⟩ _
    ([] ++ [.done ⟨sampleRevocation 0, sampleProviderAnswer, none⟩])
  rw [hsecond] at hmore
  obtain ⟨hrise, hbacked⟩ := krl_anti_rollback fixedDigestHost _ _ (hrun.append hmore)
  refine ⟨_, hrise, rfl, fun n hn => hbacked _ ?_ rfl⟩
  have hcases : n = 0 ∨ n = 1 := by omega
  rcases hcases with rfl | rfl
  · exact List.mem_cons_self
  · exact List.mem_cons_of_mem _ List.mem_cons_self

end OxDeAI
