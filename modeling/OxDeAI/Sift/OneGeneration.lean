import OxDeAI.Sift.ReceiptSound
import OxDeAI.Sift.RefreshAtomic
import OxDeAI.Sift.VerifyWithKeyStore

/-! A receipt is verified with a key and a revocation list of one refresh, unless the
store is refreshed in the turn between the test and the lookup. -/

namespace OxDeAI.Sift

open Js Async

/-- Only a swap changes the keys or the revocations. -/
structure Later (a b : KeyStore) : Prop where
  taken : a.taken <+: b.taken
  same : b.taken = a.taken → b.revokedKids = a.revokedKids ∧ b.keyCache = a.keyCache

/-- No swap in the turn after a test that the kid passed. -/
def NoSwapSince : (i : StoreRequest) → StoreAnswer i → KeyStore → Prop
  | .tested kid memory, _, store => kid ∉ memory.revokedKids → store.taken = memory.taken
  | _, _, _ => True

def servesStore (store : KeyStore) (i : StoreRequest) (_ : StoreAnswer i) (store' : KeyStore) : Prop := store' = store

abbrev StoreSystem := System KeyStore StoreRequest StoreAnswer StoreOutcome

abbrev StoreEvent := Event StoreRequest StoreAnswer

def StoreSystem.initial (opts : SiftHttpKeyStoreOptions) : StoreSystem := ⟨KeyStore.initial opts, []⟩

section

variable (H : SiftHost) (opts : SiftHttpKeyStoreOptions)

/-- Calls of `refresh` and of the verifier, at any times. -/
inductive IsStoreUse : StoreUse StoreOutcome → Prop
  | refresh (nowSeconds : JsNumber) : IsStoreUse (refreshStore opts nowSeconds)
  | verify (receipt : JsValue) (options : KeyStoreVerifyOptions) (nowSeconds : JsNumber) :
    IsStoreUse (verifyReceiptWithKeyStore H opts receipt options nowSeconds)

def StoreStep : StoreSystem → StoreEvent → StoreSystem → Prop := Step (IsStoreUse H opts) servesStore

def UnswappedStep (sys : StoreSystem) (ev : StoreEvent) (sys' : StoreSystem) : Prop :=
  StoreStep H opts sys ev sys' ∧ ev.Meets NoSwapSince sys.shared

/-- The kid was not revoked when its key was read, and the answer that it was not is of
the generation of the key. -/
structure OneGeneration (kid : JsString) (key : FoundKey) : Prop where
  found : key.read.keyCache.own? kid = some key.rawKey
  unrevoked : kid ∉ key.read.revokedKids
  generation : key.read.taken = key.tested.taken
  keys : key.read.keyCache = key.tested.keyCache

/-- What a verification with a found key has established. -/
def Established (outcome : StoreOutcome) : Prop :=
  ∀ kid key result, outcome = .verified kid key result → OneGeneration kid key ∧
    ∃ (receipt : JsValue) (options : KeyStoreVerifyOptions), options.kid = kid ∧ result = verifyReceipt H key.clock receipt (options.withKey key.rawKey)

end

section

variable {opts : SiftHttpKeyStoreOptions} {store : KeyStore} {nowSeconds : JsNumber}

theorem Later.refl (store : KeyStore) : Later store store := ⟨List.prefix_refl _, fun _ => ⟨rfl, rfl⟩⟩

theorem Later.trans {a b c : KeyStore} (hab : Later a b) (hbc : Later b c) : Later a c := by
  refine ⟨hab.taken.trans hbc.taken, fun hsame => ?_⟩
  have hlength := congrArg List.length hsame
  have hb : a.taken.length = b.taken.length := by
    have h1 := hab.taken.length_le
    have h2 := hbc.taken.length_le
    omega
  have htaken : a.taken = b.taken := hab.taken.eq_of_length hb
  obtain ⟨hkids, hkeys⟩ := hab.same htaken.symm
  obtain ⟨hkids', hkeys'⟩ := hbc.same (hsame.trans htaken)
  exact ⟨hkids'.trans hkids, hkeys'.trans hkeys⟩

theorem Unswapped.later {a b : KeyStore} (h : Unswapped a b) : Later a b where
  taken := by rw [h.taken]
  same _ := ⟨h.revokedKids, h.keyCache⟩

theorem Later.of_swap {a b : KeyStore} {krl : TakenKrl} (h : b.taken = a.taken ++ [krl]) : Later a b where
  taken := ⟨[krl], h.symm⟩
  same hsame := by
    rw [h] at hsame
    simp at hsame

theorem update_moves {α : Type} {f : KeyStore → KeyStore} {a : α} (h : ∀ store, Later store (f store)) :
    (do Prog.update f; return a : Refresh α).Moves Later := Prog.moves_update_bind h (Prog.moves_pure a)

theorem awaitCall_moves {α : Type} {p : Refresh α} (h : p.Moves Later) : (awaitCall p).Moves Later :=
  h.bind fun a => Prog.moves_request_bind fun moment => Prog.moves_pure (a, moment)

theorem fetchBodies_moves : fetchBodies.Moves Later := by
  refine Prog.moves_request_bind ?_
  rintro (thrown | ⟨jwksRes, krlRes⟩)
  · exact Prog.moves_pure _
  · dsimp only
    split
    · exact Prog.moves_pure _
    · split
      · exact Prog.moves_pure _
      · refine Prog.moves_request_bind ?_
        rintro (thrown | bodies) <;> exact Prog.moves_pure _

theorem mergeWatermarks_moves : (mergeWatermarks opts).Moves Later := by
  unfold mergeWatermarks
  split
  · refine Prog.moves_request_bind ?_
    rintro (thrown | persisted)
    · exact update_moves fun _ => (noteFailure_unswapped _).later
    · exact update_moves fun _ => (mergeVersions_unswapped persisted).later
  · exact Prog.moves_pure _

theorem persistWatermark_moves {updated : Option AcceptedVersion} : (persistWatermark opts updated).Moves Later := by
  unfold persistWatermark
  split
  · refine Prog.moves_request_bind ?_
    rintro (thrown | ⟨⟩)
    · exact update_moves fun _ => (noteFailure_unswapped _).later
    · exact Prog.moves_pure _
  · exact Prog.moves_pure _

theorem writeLkg_moves {krlBody : JsValue} {integrity : KrlIntegrity} :
    (writeLkg opts krlBody integrity nowSeconds).Moves Later := by
  unfold writeLkg
  split
  · refine Prog.moves_request_bind ?_
    rintro (thrown | ⟨⟩)
    · dsimp only
      split <;> exact Prog.moves_pure _
    · exact Prog.moves_pure _
  · exact Prog.moves_pure _

theorem processFresh_moves {newKeys : Record (List Byte)} {krlBody : JsValue} {moment : Moment} :
    (processFresh opts newKeys krlBody moment nowSeconds).Moves Later := by
  refine Prog.moves_read_bind Later.refl fun store => ?_
  split
  · exact update_moves fun _ => (noteFresh_unswapped _).later
  · refine persistWatermark_moves.bind ?_
    rintro (thrown | ⟨⟩)
    · exact Prog.moves_pure _
    · exact Prog.moves_update_bind (fun _ => .of_swap rfl) writeLkg_moves

theorem doFreshRefresh_moves : (doFreshRefresh opts nowSeconds).Moves Later := by
  refine fetchBodies_moves.bind ?_
  rintro (thrown | ⟨jwksBody, krlBody⟩)
  · exact Prog.moves_pure _
  · dsimp only
    split
    · exact Prog.moves_pure _
    · refine (awaitCall_moves mergeWatermarks_moves).bind ?_
      rintro ⟨thrown | ⟨⟩, moment⟩
      · exact Prog.moves_pure _
      · exact processFresh_moves

theorem processCached_moves {verify : Moment → JsValue → KrlContext → KrlVerifyResult} {entry : LkgEntry}
    {moment : Moment} : (processCached opts entry moment nowSeconds verify).Moves Later := by
  refine Prog.moves_read_bind Later.refl fun store => ?_
  split
  · exact update_moves fun _ => (noteCached_unswapped _).later
  · exact update_moves fun _ => .of_swap rfl

theorem doLkgFallback_moves : (doLkgFallback opts nowSeconds).Moves Later := by
  unfold doLkgFallback
  split
  · exact update_moves fun _ => (withStatus_unswapped _).later
  · refine (awaitCall_moves mergeWatermarks_moves).bind ?_
    rintro ⟨thrown | ⟨⟩, moment⟩
    · exact Prog.moves_pure _
    · refine Prog.moves_request_bind ?_
      rintro ⟨thrown | entry?, moment⟩
      · exact update_moves fun _ => (withStatus_unswapped _).later
      · cases entry? with
        | none => exact Prog.moves_pure _
        | some entry => exact processCached_moves

theorem refresh_moves : (refresh opts nowSeconds).Moves Later := by
  refine (awaitCall_moves doFreshRefresh_moves).bind ?_
  rintro ⟨thrown | ⟨⟩, moment⟩
  · dsimp only
    split
    · exact Prog.moves_pure _
    · split
      · refine (awaitCall_moves doLkgFallback_moves).bind ?_
        rintro ⟨lkgErr | ⟨⟩, moment'⟩ <;> exact Prog.moves_pure _
      · exact Prog.moves_pure _
  · exact Prog.moves_pure _

/-- Answered when the condition holds, with no change of the store. -/
def servesUnswapped (store : KeyStore) (i : StoreRequest) (a : StoreAnswer i) (store' : KeyStore) : Prop :=
  NoSwapSince i a store ∧ servesStore store i a store'

def StoreKeeps {α : Type} (p : StoreUse α) (store : KeyStore) (post : α → KeyStore → Prop) : Prop :=
  Keeps (amongKeepers servesUnswapped (fun _ => True) Later) p store post

theorem onStore_keeps {α : Type} {p : Refresh α} (h : p.Moves Later) (store : KeyStore) :
    StoreKeeps (onStore p) store (fun _ _ => True) := by
  have hmoves : (onStore p).Moves Later := Prog.Moves.embed (e := StoreRequest.store) h
  exact hmoves.keeps store

theorem isKidRevoked_keeps (kid : JsString) (store : KeyStore) : StoreKeeps (isKidRevoked kid) store
    (fun answer memory => answer.1 = decide (kid ∈ answer.2.revokedKids) ∧
      (kid ∉ answer.2.revokedKids → memory.taken = answer.2.taken) ∧ Later answer.2 memory) := by
  refine keeps_read_bind ⟨trivial, Later.refl store⟩ (keeps_request_bind trivial ?_)
  rintro ⟨⟩ memory ⟨-, hlater, before, hsince, rfl⟩
  exact keeps_pure ⟨rfl, hsince, hlater⟩

theorem getPublicKeyByKid_keeps (kid : JsString) (store : KeyStore) : StoreKeeps (getPublicKeyByKid kid) store
    (fun answer _ => answer.1 = store.keyCache.own? kid ∧ answer.2.1 = store) := by
  refine keeps_read_bind ⟨trivial, Later.refl store⟩ (keeps_request_bind trivial ?_)
  rintro clock memory -
  exact keeps_pure ⟨rfl, rfl⟩

theorem lookUpKey_keeps (kid : JsString) (store : KeyStore) : StoreKeeps (lookUpKey kid) store
    (fun answer _ => ∀ key, answer = .found key → OneGeneration kid key) := by
  refine (isKidRevoked_keeps kid store).bind ?_
  rintro ⟨_ | _, tested⟩ memory ⟨hrevoked, hsince, hlater⟩
  · have hunrevoked : kid ∉ tested.revokedKids := of_decide_eq_false hrevoked.symm
    have htaken := hsince hunrevoked
    refine (getPublicKeyByKid_keeps kid memory).bind ?_
    rintro ⟨_ | rawKey, read, clock⟩ memory' ⟨hkey, rfl⟩
    · exact keeps_pure fun _ he => by cases he
    · refine keeps_pure fun key he => ?_
      cases he
      obtain ⟨hkids, hkeys⟩ := hlater.same htaken
      refine ⟨hkey.symm, ?_, htaken, hkeys⟩
      rw [hkids]
      exact hunrevoked
  · exact keeps_pure fun _ he => by cases he

variable {H : SiftHost}

theorem established_failed {error : VerifyReceiptError} : Established H (.failed error) := fun _ _ _ he => by cases he

theorem established_unexpected (thrown : Thrown) : Established H (unexpectedThrown thrown) := by
  unfold unexpectedThrown
  split <;> exact fun _ _ _ he => by cases he

theorem established_refreshThrew (thrown : Thrown) : Established H (refreshThrew thrown) := by
  unfold refreshThrew
  split
  · exact established_failed
  · exact established_unexpected _

theorem established_verified {receipt : JsValue} {options : KeyStoreVerifyOptions} {key : FoundKey}
    (h : OneGeneration options.kid key) : Established H (verifyWithKey H receipt options key) := by
  intro kid key' result he
  cases he
  exact ⟨h, receipt, options, rfl, rfl⟩

theorem verifyReceiptWithKeyStore_keeps (receipt : JsValue) (options : KeyStoreVerifyOptions) (store : KeyStore) :
    StoreKeeps (verifyReceiptWithKeyStore H opts receipt options nowSeconds) store
      (fun outcome _ => Established H outcome) := by
  unfold verifyReceiptWithKeyStore
  split
  · exact keeps_pure established_failed
  · refine (lookUpKey_keeps options.kid store).bind ?_
    rintro (_ | _ | key) store' hkey
    · exact keeps_pure established_failed
    · refine (onStore_keeps (awaitCall_moves refresh_moves) store').bind ?_
      rintro ⟨thrown | ⟨⟩, moment⟩ store'' -
      · exact keeps_pure (established_refreshThrew thrown)
      · refine (lookUpKey_keeps options.kid store'').bind ?_
        rintro (_ | _ | key) store''' hkey
        · exact keeps_pure established_failed
        · exact keeps_pure established_failed
        · exact keeps_pure (established_verified (hkey key rfl))
    · exact keeps_pure (established_verified (hkey key rfl))

theorem refreshStore_keeps (store : KeyStore) : StoreKeeps (refreshStore opts nowSeconds) store
    (fun outcome _ => Established H outcome) :=
  (onStore_keeps refresh_moves store).bind fun _ _ _ => keeps_pure fun _ _ _ he => by cases he

theorem storeUse_keeps {p : StoreUse StoreOutcome} (h : IsStoreUse H opts p) (store : KeyStore) :
    StoreKeeps p store (fun outcome _ => Established H outcome) := by
  cases h with
  | refresh nowSeconds => exact refreshStore_keeps store
  | verify receipt options nowSeconds => exact verifyReceiptWithKeyStore_keeps receipt options store

/-- In every run in which no swap falls between a test and the lookup after it. -/
theorem accepted_one_generation (H : SiftHost) (opts : SiftHttpKeyStoreOptions) {evs : List StoreEvent}
    {sys : StoreSystem} (h : Run.Trace (UnswappedStep H opts) (StoreSystem.initial opts) evs sys) {kid : JsString}
    {key : FoundKey} {accepted : VerifiedReceipt} (hdone : Prog.done (.verified kid key (.ok accepted)) ∈ sys.procs) :
    OneGeneration kid key ∧ ∃ (receipt : JsValue) (options : KeyStoreVerifyOptions), options.kid = kid ∧
      verifyReceipt H key.clock receipt (options.withKey key.rawKey) = .ok accepted := by
  have hserved : Run.Trace (Step (IsStoreUse H opts) servesUnswapped) (StoreSystem.initial opts) evs sys :=
    h.imp fun _ _ _ hstep => hstep.1.meets hstep.2
  have hserve : ∀ store i a store', True → servesUnswapped store i a store' → True ∧ Later store store' := by
    rintro store i a store' - ⟨-, rfl⟩
    exact ⟨trivial, Later.refl store'⟩
  have hinit : KeepersHold servesUnswapped (fun _ => True) Later (fun outcome _ => Established H outcome)
      (StoreSystem.initial opts) := ⟨trivial, fun p hp => by cases hp⟩
  have hkept := (run_keepers Later.refl Later.trans (fun _ _ _ hpost _ => hpost) hserve
    (fun p hp store _ => storeUse_keeps hp store) hserved hinit).1
  obtain ⟨hone, receipt, options, hkid, hresult⟩ := hkept.done hdone kid key (.ok accepted) rfl
  exact ⟨hone, receipt, options, hkid, hresult.symm⟩

end

/-- How a verification ends whose kid passes and whose key is there. -/
theorem verify_found (H : SiftHost) (opts : SiftHttpKeyStoreOptions) (receipt : JsValue) {options : KeyStoreVerifyOptions}
    (nowSeconds : JsNumber) (clock : Date) {tested read : KeyStore} {rawKey : List Byte} (hkid : options.kid.length ≠ 0)
    (htested : options.kid ∉ tested.revokedKids) (hread : read.keyCache.own? options.kid = some rawKey) :
    ∃ next next', (verifyReceiptWithKeyStore H opts receipt options nowSeconds).settle tested =
        (tested, .ask (.tested options.kid tested) next) ∧ (next ()).settle read = (read, .ask .looked next') ∧
      ∀ store, (next' clock).settle store =
        (store, .done (verifyWithKey H receipt options ⟨rawKey, tested, read, clock⟩)) := by
  unfold verifyReceiptWithKeyStore
  rw [if_neg hkid]
  refine ⟨_, fun clock => .done (verifyWithKey H receipt options ⟨rawKey, tested, read, clock⟩), rfl, ?_, fun _ => rfl⟩
  dsimp only [lookUpKey, isKidRevoked, getPublicKeyByKid, awaitTested, awaitLooked, Prog.read, Prog.request, bind, pure,
    Prog.bind, Prog.settle, id]
  rw [decide_eq_false htested]
  dsimp only [Prog.bind, Prog.settle]
  rw [hread]
  rfl

def legacyOptions : SiftHttpKeyStoreOptions where
  krlMode := .unsignedLegacy
  verifyKrl := none
  krlWatermarkStore := false
  signedKrlCache := false
  verifies := fun h => by cases h

/-- The key of the sample receipt, under a kid that this list revokes or not. -/
def keyBodies (revoked : List JsValue) : Except Thrown (JsValue × JsValue) :=
  .ok (.obj [(js "keys", .arr [.obj [(js "kty", .str (js "OKP")), (js "crv", .str (js "Ed25519")),
    (js "kid", .str (js "k")), (js "x", .str (js "BwcHBwcHBwcHBwcHBwcHBwcHBwcHBwcHBwcHBwcHBwc"))]])],
    .obj [(js "revoked_kids", .arr revoked)])

def sampleKeyOptions : KeyStoreVerifyOptions where
  kid := js "k"
  now := some sampleDate
  maxAgeMs := some (.int 2000000)

section

variable {H : SiftHost} {opts : SiftHttpKeyStoreOptions} {init sys : StoreSystem} {evs : List StoreEvent}

def StoreSystem.started (sys : StoreSystem) (p : StoreUse StoreOutcome) : StoreSystem :=
  ⟨(p.settle sys.shared).1, sys.procs ++ [(p.settle sys.shared).2]⟩

theorem unswapped_start (h : Run.Trace (UnswappedStep H opts) init evs sys) {p : StoreUse StoreOutcome}
    (hp : IsStoreUse H opts p) : Run.Trace (UnswappedStep H opts) init (evs ++ [.start]) (sys.started p) :=
  .snoc h ⟨.start hp, trivial⟩

theorem unswapped_answer (h : Run.Trace (UnswappedStep H opts) init evs sys) (n : ℕ) {i : StoreRequest}
    (a : StoreAnswer i) {next : StoreAnswer i → StoreUse StoreOutcome} (hn : sys.procs[n]? = some (.ask i next))
    (hmeets : NoSwapSince i a sys.shared) : Run.Trace (UnswappedStep H opts) init (evs ++ [.answer i a])
      ⟨((next a).settle sys.shared).1, sys.procs.set n ((next a).settle sys.shared).2⟩ :=
  .snoc h ⟨.answer n hn a rfl, hmeets⟩

theorem store_answer (h : Run.Trace (StoreStep H opts) init evs sys) (n : ℕ) {i : StoreRequest}
    (a : StoreAnswer i) {next : StoreAnswer i → StoreUse StoreOutcome} (hn : sys.procs[n]? = some (.ask i next)) :
    Run.Trace (StoreStep H opts) init (evs ++ [.answer i a])
      ⟨((next a).settle sys.shared).1, sys.procs.set n ((next a).settle sys.shared).2⟩ :=
  .snoc h (.answer n hn a rfl)

end

def sampleKey : List Byte := List.replicate 32 (byte 7)

def sampleKeyCache : Record (List Byte) := Record.empty.set (js "k") sampleKey

/-- What the refresh swaps in. -/
def swapped (revoked : List JsValue) (store : KeyStore) : KeyStore :=
  store.takeFresh legacyOptions sampleKeyCache ⟨stringSet revoked, .unsignedLegacy, none⟩ (.int 0)

/-- A refresh has its keys and its list, and will swap when its turn comes. -/
theorem exists_pendingSwap (revoked : List JsValue) : ∃ evs sys next,
    Run.Trace (UnswappedStep receiptHost legacyOptions) (StoreSystem.initial legacyOptions) evs sys ∧
      sys = ⟨KeyStore.initial legacyOptions, [.ask (.store .turn) next]⟩ ∧
      ∀ store, ((next (0 : ℕ)).settle store).1 = swapped revoked store := by
  have h0 : Run.Trace (UnswappedStep receiptHost legacyOptions) (StoreSystem.initial legacyOptions) [] _ := .nil
  have h1 := unswapped_start h0 (.refresh (.int 0))
  have h2 := unswapped_answer h1 0 (i := .store .fetch) sampleResponses rfl trivial
  have h3 := unswapped_answer h2 0 (i := .store .bodies) (keyBodies revoked) rfl trivial
  exact ⟨_, _, _, h3, rfl, fun _ => rfl⟩

theorem swapped_own (revoked : List JsValue) :
    (swapped revoked (KeyStore.initial legacyOptions)).keyCache.own? sampleKeyOptions.kid = some sampleKey :=
  Record.own?_set_self _ _ _

theorem verifyWithKey_accepts {k : FoundKey} (hkey : k.rawKey = sampleKey) (hclock : k.clock = sampleDate) :
    ∃ accepted, verifyWithKey receiptHost oldRaw sampleKeyOptions k = .verified (js "k") k (.ok accepted) := by
  obtain ⟨accepted, haccepted, -⟩ := accepts_oldReceipt (passes_oldReceipt (.int 2000000))
  have hoptions : sampleKeyOptions.withKey sampleKey = receiptOptions (.int 2000000) := rfl
  refine ⟨accepted, ?_⟩
  rw [verifyWithKey, hkey, hclock, hoptions, haccepted]
  rfl

/-- The key and an empty list are swapped in before the receipt comes. -/
theorem accepted_one_generation_sample : ∃ key, key.rawKey = sampleKey ∧ OneGeneration (js "k") key := by
  obtain ⟨evs, sys, next, hrun, rfl, hswap⟩ := exists_pendingSwap []
  have hturn := unswapped_answer hrun 0 (i := .store .turn) (0 : ℕ) rfl trivial
  rw [hswap] at hturn
  have hempty : sampleKeyOptions.kid ∉ (swapped [] (KeyStore.initial legacyOptions)).revokedKids :=
    Finset.notMem_empty _
  obtain ⟨next₁, next₂, hsettled, htested, hlooked⟩ := verify_found receiptHost legacyOptions oldRaw (.int 0) sampleDate
    (by decide) hempty (swapped_own [])
  have hstart := unswapped_start hturn (.verify oldRaw sampleKeyOptions (.int 0))
  rw [StoreSystem.started, hsettled] at hstart
  have hread := unswapped_answer hstart 1 (i := .tested _ _) () rfl (fun _ => rfl)
  rw [htested] at hread
  have hdone := unswapped_answer hread 1 (i := .looked) sampleDate rfl trivial
  rw [hlooked] at hdone
  obtain ⟨accepted, haccepted⟩ := verifyWithKey_accepts (k := ⟨sampleKey, _, _, sampleDate⟩) rfl rfl
  rw [haccepted] at hdone
  exact ⟨_, rfl, (accepted_one_generation receiptHost legacyOptions hdone (List.mem_of_getElem? (i := 1) rfl)).1⟩

/-- The kid is tested in the empty store; in that turn the key and a list that revokes it are swapped in. -/
theorem swap_after_test_accepts : ¬ ∀ (H : SiftHost) (opts : SiftHttpKeyStoreOptions) (evs : List StoreEvent)
    (sys : StoreSystem), Run.Trace (StoreStep H opts) (StoreSystem.initial opts) evs sys →
      ∀ kid key accepted, Prog.done (.verified kid key (.ok accepted)) ∈ sys.procs → kid ∉ key.read.revokedKids := by
  intro hclaim
  obtain ⟨evs, sys, next, hrun, rfl, hswap⟩ := exists_pendingSwap [.str (js "k")]
  have hempty : sampleKeyOptions.kid ∉ (KeyStore.initial legacyOptions).revokedKids := Finset.notMem_empty _
  obtain ⟨next₁, next₂, hsettled, htested, hlooked⟩ := verify_found receiptHost legacyOptions oldRaw (.int 0) sampleDate
    (by decide) hempty (swapped_own [.str (js "k")])
  have hstart := unswapped_start hrun (.verify oldRaw sampleKeyOptions (.int 0))
  rw [StoreSystem.started, hsettled] at hstart
  have hplain := hstart.imp fun _ _ _ hstep => hstep.1
  have hturn := store_answer hplain 0 (i := .store .turn) (0 : ℕ) rfl
  rw [hswap] at hturn
  have hread := store_answer hturn 1 (i := .tested _ _) () rfl
  rw [htested] at hread
  have hdone := store_answer hread 1 (i := .looked) sampleDate rfl
  rw [hlooked] at hdone
  obtain ⟨accepted, haccepted⟩ := verifyWithKey_accepts (k := ⟨sampleKey, _, _, sampleDate⟩) rfl rfl
  rw [haccepted] at hdone
  have hunrevoked := hclaim _ _ _ _ hdone _ _ _ (List.mem_of_getElem? (i := 1) rfl)
  have hrevoked : js "k" ∈ stringSet [.str (js "k")] := by simp [stringSet, JsValue.text?]
  exact hunrevoked hrevoked

end OxDeAI.Sift
