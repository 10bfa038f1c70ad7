import OxDeAI.Sift.AntiRollback

/-! Refreshes that do not overlap: one that fails has swapped nothing, and what is
swapped in was verified in the same refresh. -/

namespace OxDeAI.Sift

open Js Async

/-- The message of a rejected cache write can be read. -/
def ReadableWrite : (i : KeyStoreRequest) → KeyStoreAnswer i → Prop
  | .cacheSet _ _, .error thrown => ∃ message, thrown.message = .ok message
  | _, _ => True

/-- A refresh starts when the earlier ones are done. -/
def SequentialStep (opts : SiftHttpKeyStoreOptions) (sys : RefreshSystem) (ev : RefreshEvent)
    (sys' : RefreshSystem) : Prop :=
  RefreshStep opts sys ev sys' ∧ (ev = .start → sys.Idle)

def ReadableStep (opts : SiftHttpKeyStoreOptions) (sys : RefreshSystem) (ev : RefreshEvent)
    (sys' : RefreshSystem) : Prop :=
  SequentialStep opts sys ev sys' ∧ ev.Meets (fun i a _ => ReadableWrite i a) sys.shared

/-- No keys and no list were swapped in. -/
structure Unswapped (start store : KeyStore) : Prop where
  keyCache : store.keyCache = start.keyCache
  revokedKids : store.revokedKids = start.revokedKids
  taken : store.taken = start.taken
  versions : VersionsRise start store

section

variable (opts : SiftHttpKeyStoreOptions) (answers : List RefreshEvent)

def Answered (i : KeyStoreRequest) (a : KeyStoreAnswer i) : Prop := Event.answer i a ∈ answers

/-- The list came in one of these answers. -/
def Received (payload : JsValue) : Prop :=
  (∃ jwks, Answered answers .bodies (.ok (jwks, payload))) ∨
    ∃ verifiedAt moment, Answered answers .cacheGet (.ok (some ⟨payload, verifiedAt⟩), moment)

def Passed (moment : Moment) : Prop :=
  Answered answers .turn moment ∨ ∃ result, Answered answers .cacheGet (result, moment)

/-- Between these answers the callback accepted the list. -/
def Vouched (payload : JsValue) (accepted : AcceptedVersion) : Prop :=
  Received answers payload ∧ ∃ verify moment ctx violations, opts.verifyKrl = some verify ∧
    Passed answers moment ∧ verify moment payload ctx = .returned true violations (some accepted)

/-- Written, if there is a place for it. -/
def Persisted (version : Option AcceptedVersion) : Prop :=
  opts.krlWatermarkStore = true → ∀ v, version = some v →
    Answered answers (.watermarkSet v.issuer v.krlVersion) (.ok ())

/-- A signed list is one the callback accepted. -/
def SignedOrigin (payload : JsValue) (krl : KrlProcessSuccess) : Prop :=
  krl.integrity = .signed → krl.revoked = extractRevokedKidsFromVerified payload ∧
    hasSignatureField payload = true ∧
      ∃ accepted, krl.updatedVersion = some accepted ∧ Vouched opts answers payload accepted

/-- What a refresh has done to the memory it started in. -/
inductive Progress (start store : KeyStore) : Prop
  | unswapped (h : Unswapped start store)
  | fresh (payload : JsValue) (krl : KrlProcessSuccess) (revoked : store.revokedKids = krl.revoked)
    (taken : store.taken = start.taken ++ [⟨krl.revoked, krl.updatedVersion⟩])
    (integrity : store.krlStatus.lastIntegrity = krl.integrity)
    (required : opts.krlMode = .signedRequired → krl.integrity = .signed)
    (origin : SignedOrigin opts answers payload krl) (persisted : Persisted opts answers krl.updatedVersion)
  | cached (payload : JsValue) (krl : KrlProcessSuccess) (revoked : store.revokedKids = krl.revoked)
    (taken : store.taken = start.taken ++ [⟨krl.revoked, krl.updatedVersion⟩])
    (active : store.krlStatus.lkgCacheActive = true)
    (extracted : krl.revoked = extractRevokedKidsFromVerified payload)
    (vouched : ∃ accepted, Vouched opts answers payload accepted)

/-- How a part of a refresh ends. -/
structure Outcome {α : Type} (start : KeyStore) (result : Except Thrown α) (store : KeyStore) : Prop where
  progress : Progress opts answers start store
  error : ∀ thrown, result = .error thrown → Unswapped start store

/-- What is asked, and when. -/
structure Asks (start : KeyStore) (i : KeyStoreRequest) (store : KeyStore) : Prop where
  progress : Progress opts answers start store
  cacheSet : ∀ payload verifiedAt, i = .cacheSet payload verifiedAt →
    hasSignatureField payload = true ∧ ∃ accepted, Vouched opts answers payload accepted

/-- A part of the refresh that started in `start` gets some of these answers. -/
def RefreshMakes {α : Type} (start : KeyStore) (p : Refresh α) (store : KeyStore)
    (post : α → KeyStore → Prop) : Prop :=
  Keeps (undisturbed (Answered answers) (Asks opts answers start)) p store post

end

section

variable {opts : SiftHttpKeyStoreOptions} {answers : List RefreshEvent} {start store store' : KeyStore}
  {nowSeconds : JsNumber}

theorem VersionsRise.trans {a b c : KeyStore} (hab : VersionsRise a b) (hbc : VersionsRise b c) :
    VersionsRise a c := by
  intro issuer n hn
  obtain ⟨m, hm, hnm⟩ := hab issuer n hn
  obtain ⟨k, hk, hmk⟩ := hbc issuer m hm
  exact ⟨k, hk, le_trans hnm hmk⟩

theorem Unswapped.refl (store : KeyStore) : Unswapped store store :=
  ⟨rfl, rfl, rfl, (Advances.refl store).versions⟩

theorem Unswapped.trans {a b c : KeyStore} (hab : Unswapped a b) (hbc : Unswapped b c) : Unswapped a c where
  keyCache := hbc.keyCache.trans hab.keyCache
  revokedKids := hbc.revokedKids.trans hab.revokedKids
  taken := hbc.taken.trans hab.taken
  versions := hab.versions.trans hbc.versions

theorem noteFailure_unswapped (reason : JsString) : Unswapped store (store.noteFailure opts reason) :=
  ⟨rfl, rfl, rfl, (Advances.refl store).versions⟩

theorem withStatus_unswapped (f : KrlStatus → KrlStatus) : Unswapped store (store.withStatus f) :=
  ⟨rfl, rfl, rfl, (Advances.refl store).versions⟩

theorem mergeVersions_unswapped (persisted : Record ℤ) : Unswapped store (store.mergeVersions persisted) :=
  ⟨rfl, rfl, rfl, (mergeVersions_advances persisted).versions⟩

theorem noteFresh_unswapped (failure : KrlProcessFailure) : Unswapped store (store.noteFresh opts failure) := by
  unfold KeyStore.noteFresh
  split
  · exact noteFailure_unswapped _
  · exact Unswapped.refl store

theorem noteCached_unswapped (failure : KrlProcessFailure) : Unswapped store (store.noteCached opts failure) := by
  unfold KeyStore.noteCached
  split
  · exact (noteFailure_unswapped _).trans (withStatus_unswapped _)
  · exact Unswapped.refl store

theorem Outcome.of_unswapped {α : Type} {result : Except Thrown α} (h : Unswapped start store) :
    Outcome opts answers start result store := ⟨.unswapped h, fun _ _ => h⟩

/-- The request is not one for the cache. -/
theorem makes_request {α : Type} {i : KeyStoreRequest} {k : KeyStoreAnswer i → Refresh α}
    {post : α → KeyStore → Prop} (hprogress : Progress opts answers start store)
    (hi : ∀ payload verifiedAt, i ≠ .cacheSet payload verifiedAt)
    (h : ∀ a, Answered answers i a → RefreshMakes opts answers start (k a) store post) :
    RefreshMakes opts answers start (Prog.request i >>= k) store post := by
  refine keeps_request_bind ⟨hprogress, fun payload verifiedAt he => absurd he (hi payload verifiedAt)⟩ ?_
  rintro a _ ⟨hanswer, rfl⟩
  exact h a hanswer

theorem makes_update {α : Type} {f : KeyStore → KeyStore} {a : α} {post : α → KeyStore → Prop}
    (h : post a (f store)) : RefreshMakes opts answers start (do Prog.update f; return a) store post :=
  keeps_update_bind trivial (keeps_pure h)

theorem makes_awaitCall {α : Type} {p : Refresh α} {post : α → KeyStore → Prop}
    (h : RefreshMakes opts answers start p store post)
    (hprogress : ∀ a store', post a store' → Progress opts answers start store') :
    RefreshMakes opts answers start (awaitCall p) store (fun result store' =>
      post result.1 store' ∧ Passed answers result.2) := by
  refine h.bind fun a store' ha => ?_
  refine makes_request (hprogress a store' ha) (fun _ _ he => by cases he) fun moment hmoment => ?_
  exact keeps_pure ⟨ha, .inl hmoment⟩

theorem fetchBodies_makes (h : Unswapped start store) : RefreshMakes opts answers start fetchBodies store
    (fun result store' => Unswapped start store' ∧ ∀ jwks krlBody, result = .ok (jwks, krlBody) →
      Received answers krlBody) := by
  refine makes_request (.unswapped h) (fun _ _ he => by cases he) ?_
  rintro (thrown | ⟨jwksRes, krlRes⟩) -
  · exact keeps_pure ⟨h, fun _ _ he => by cases he⟩
  · dsimp only
    split
    · exact keeps_pure ⟨h, fun _ _ he => by cases he⟩
    · split
      · exact keeps_pure ⟨h, fun _ _ he => by cases he⟩
      · refine makes_request (.unswapped h) (fun _ _ he => by cases he) ?_
        rintro (thrown | bodies) hbodies
        · exact keeps_pure ⟨h, fun _ _ he => by cases he⟩
        · refine keeps_pure ⟨h, fun jwks krlBody he => .inl ⟨jwks, ?_⟩⟩
          rw [Except.ok.inj he] at hbodies
          exact hbodies

theorem mergeWatermarks_makes (h : Unswapped start store) : RefreshMakes opts answers start
    (mergeWatermarks opts) store (fun _ store' => Unswapped start store') := by
  unfold mergeWatermarks
  split
  · refine makes_request (.unswapped h) (fun _ _ he => by cases he) ?_
    rintro (thrown | persisted) -
    · exact makes_update (h.trans (noteFailure_unswapped _))
    · exact makes_update (h.trans (mergeVersions_unswapped persisted))
  · exact keeps_pure h

theorem persistWatermark_makes {updated : Option AcceptedVersion} (h : Unswapped start store) :
    RefreshMakes opts answers start (persistWatermark opts updated) store (fun result store' =>
      Unswapped start store' ∧ (result = .ok () → Persisted opts answers updated)) := by
  unfold persistWatermark
  split
  · rename_i accepted _
    refine makes_request (.unswapped h) (fun _ _ he => by cases he) ?_
    rintro (thrown | ⟨⟩) hset
    · exact makes_update ⟨h.trans (noteFailure_unswapped _), fun he => by cases he⟩
    · refine keeps_pure ⟨h, fun _ _ v hv => ?_⟩
      rw [← Option.some.inj hv]
      exact hset
  · rename_i hnone
    refine keeps_pure ⟨h, fun _ hstore v hv => ?_⟩
    exact absurd hv (hnone v hstore)

/-- After the swap the write to the cache ends well. -/
theorem writeLkg_makes {krlBody : JsValue} {krl : KrlProcessSuccess}
    (hreadable : ∀ i a, Answered answers i a → ReadableWrite i a)
    (horigin : SignedOrigin opts answers krlBody krl) (h : Progress opts answers start store) :
    RefreshMakes opts answers start (writeLkg opts krlBody krl.integrity nowSeconds) store
      (fun result store' => result = .ok () ∧ Progress opts answers start store') := by
  unfold writeLkg
  split
  · rename_i hwrites
    have hsigned : krl.integrity = .signed := by simpa using (Bool.and_eq_true_iff.mp hwrites).2
    obtain ⟨-, hfield, accepted, -, hvouched⟩ := horigin hsigned
    refine keeps_request_bind ⟨h, fun payload verifiedAt he => ?_⟩ ?_
    · cases he
      exact ⟨hfield, accepted, hvouched⟩
    · rintro (thrown | ⟨⟩) _ ⟨hset, rfl⟩
      · obtain ⟨message, hmessage⟩ := hreadable _ _ hset
        dsimp only
        rw [hmessage]
        exact keeps_pure ⟨rfl, h⟩
      · exact keeps_pure ⟨rfl, h⟩
  · exact keeps_pure ⟨rfl, h⟩

theorem commitFresh_makes {newKeys : Record (List Byte)} {krlBody : JsValue} {krl : KrlProcessSuccess}
    (hreadable : ∀ i a, Answered answers i a → ReadableWrite i a)
    (hrequired : opts.krlMode = .signedRequired → krl.integrity = .signed)
    (horigin : SignedOrigin opts answers krlBody krl) (h : Unswapped start store) :
    RefreshMakes opts answers start (commitFresh opts newKeys krlBody krl nowSeconds) store
      (Outcome opts answers start) := by
  refine (persistWatermark_makes h).bind ?_
  rintro (thrown | ⟨⟩) store' ⟨h', hpersisted⟩
  · exact keeps_pure (.of_unswapped h')
  · have hswap : Progress opts answers start (store'.takeFresh opts newKeys krl nowSeconds) := by
      refine .fresh krlBody krl rfl ?_ rfl hrequired horigin (hpersisted rfl)
      rw [KeyStore.takeFresh, h'.taken]
    refine keeps_update_bind trivial ((writeLkg_makes hreadable horigin hswap).imp ?_)
    rintro result store'' ⟨rfl, hprogress⟩
    exact ⟨hprogress, fun _ he => by cases he⟩

theorem runVerifyKrl_vouched {verify : Moment → JsValue → KrlContext → KrlVerifyResult} {moment : Moment}
    {versions : Record ℤ} {krlBody : JsValue} {krl : KrlProcessSuccess} (hverify : opts.verifyKrl = some verify)
    (hreceived : Received answers krlBody) (hmoment : Passed answers moment)
    (h : runVerifyKrl versions moment krlBody nowSeconds verify = .ok krl) :
    krl.integrity = .signed ∧ krl.revoked = extractRevokedKidsFromVerified krlBody ∧
      ∃ accepted, krl.updatedVersion = some accepted ∧ Vouched opts answers krlBody accepted := by
  unfold runVerifyKrl at h
  split at h
  · split at h <;> cases h
  · cases h
  · cases h
  · rename_i accepted hresult
    rw [← Except.ok.inj h]
    exact ⟨rfl, rfl, accepted, rfl, hreceived, verify, moment, _, _, hverify, hmoment, hresult⟩

theorem processUnsigned_integrity {krlBody : JsValue} {integrity : KrlIntegrity} {krl : KrlProcessSuccess}
    (h : processUnsigned krlBody integrity = .ok krl) : krl.integrity = integrity := by
  unfold processUnsigned at h
  split at h
  · rw [← Except.ok.inj h]
  · cases h

theorem processKrlForMode_origin {versions : Record ℤ} {moment : Moment} {krlBody : JsValue}
    {krl : KrlProcessSuccess} (hreceived : Received answers krlBody) (hmoment : Passed answers moment)
    (h : processKrlForMode opts versions moment krlBody nowSeconds = .ok krl) :
    (opts.krlMode = .signedRequired → krl.integrity = .signed) ∧ SignedOrigin opts answers krlBody krl := by
  unfold processKrlForMode at h
  split at h
  · rename_i hmode
    refine ⟨fun hrequired => ?_, fun hsigned => ?_⟩
    · rw [hmode] at hrequired
      cases hrequired
    · rw [processUnsigned_integrity h] at hsigned
      cases hsigned
  · rename_i hmode
    split at h
    · cases h
    · rename_i hfield
      split at h
      · obtain ⟨hsigned, hrevoked, hvouched⟩ := runVerifyKrl_vouched (by assumption) hreceived hmoment h
        exact ⟨fun _ => hsigned, fun _ => ⟨hrevoked, by simpa using hfield, hvouched⟩⟩
      · cases h
  · rename_i hmode
    have hpreferred : opts.krlMode = .signedRequired → krl.integrity = .signed := by
      intro hrequired
      rw [hmode] at hrequired
      cases hrequired
    refine ⟨hpreferred, fun hsigned => ?_⟩
    split at h
    · rw [processUnsigned_integrity h] at hsigned
      cases hsigned
    · rename_i hfield
      split at h
      · obtain ⟨-, hrevoked, hvouched⟩ := runVerifyKrl_vouched (by assumption) hreceived hmoment h
        exact ⟨hrevoked, by simpa using hfield, hvouched⟩
      · cases h

theorem processFresh_makes {newKeys : Record (List Byte)} {krlBody : JsValue} {moment : Moment}
    (hreadable : ∀ i a, Answered answers i a → ReadableWrite i a)
    (hreceived : Received answers krlBody) (hmoment : Passed answers moment) (h : Unswapped start store) :
    RefreshMakes opts answers start (processFresh opts newKeys krlBody moment nowSeconds) store
      (Outcome opts answers start) := by
  refine keeps_read_bind trivial ?_
  split
  · exact makes_update (.of_unswapped (h.trans (noteFresh_unswapped _)))
  · rename_i krl hkrl
    obtain ⟨hrequired, horigin⟩ := processKrlForMode_origin hreceived hmoment hkrl
    exact commitFresh_makes hreadable hrequired horigin h

theorem doFreshRefresh_makes
    (hreadable : ∀ i a, Answered answers i a → ReadableWrite i a) (h : Unswapped start store) :
    RefreshMakes opts answers start (doFreshRefresh opts nowSeconds) store (Outcome opts answers start) := by
  refine Keeps.bind (fetchBodies_makes h) ?_
  rintro (thrown | ⟨jwksBody, krlBody⟩) store' ⟨h', hreceived⟩
  · exact keeps_pure (.of_unswapped h')
  · dsimp only
    split
    · exact keeps_pure (.of_unswapped h')
    · refine Keeps.bind (makes_awaitCall (mergeWatermarks_makes h') fun _ _ => .unswapped) ?_
      rintro ⟨thrown | ⟨⟩, moment⟩ store'' ⟨h'', hmoment⟩
      · exact keeps_pure (.of_unswapped h'')
      · exact processFresh_makes hreadable (hreceived _ _ rfl) hmoment h''

theorem processCached_makes {verify : Moment → JsValue → KrlContext → KrlVerifyResult} {entry : LkgEntry}
    {moment : Moment} (hverify : opts.verifyKrl = some verify) (hreceived : Received answers entry.payload)
    (hmoment : Passed answers moment) (h : Unswapped start store) :
    RefreshMakes opts answers start (processCached opts entry moment nowSeconds verify) store
      (Outcome opts answers start) := by
  refine keeps_read_bind trivial ?_
  split
  · exact makes_update (.of_unswapped (h.trans (noteCached_unswapped _)))
  · rename_i krl hkrl
    obtain ⟨-, hrevoked, accepted, -, hvouched⟩ := runVerifyKrl_vouched hverify hreceived hmoment hkrl
    refine makes_update ⟨.cached entry.payload krl rfl ?_ rfl hrevoked ⟨accepted, hvouched⟩, fun _ he => by cases he⟩
    rw [KeyStore.takeCached, h.taken]

theorem doLkgFallback_makes (h : Unswapped start store) :
    RefreshMakes opts answers start (doLkgFallback opts nowSeconds) store (Outcome opts answers start) := by
  unfold doLkgFallback
  split
  · exact makes_update (.of_unswapped (h.trans (withStatus_unswapped _)))
  · rename_i verify hverify
    refine Keeps.bind (makes_awaitCall (mergeWatermarks_makes h) fun _ _ => .unswapped) ?_
    rintro ⟨thrown | ⟨⟩, moment⟩ store' ⟨h', -⟩
    · exact keeps_pure (.of_unswapped h')
    · refine makes_request (.unswapped h') (fun _ _ he => by cases he) ?_
      rintro ⟨thrown | entry?, moment⟩ hget
      · exact makes_update (.of_unswapped (h'.trans (withStatus_unswapped _)))
      · cases entry? with
        | none => exact keeps_pure (.of_unswapped h')
        | some entry =>
          exact processCached_makes hverify (.inr ⟨entry.verifiedAt, moment, hget⟩) (.inr ⟨_, hget⟩) h'

theorem refresh_makes
    (hreadable : ∀ i a, Answered answers i a → ReadableWrite i a) (h : Unswapped start store) :
    RefreshMakes opts answers start (refresh opts nowSeconds) store (Outcome opts answers start) := by
  refine Keeps.bind (makes_awaitCall (doFreshRefresh_makes hreadable h) fun _ _ => Outcome.progress) ?_
  rintro ⟨thrown | ⟨⟩, moment⟩ store' ⟨houtcome, -⟩
  · have h' := houtcome.error thrown rfl
    dsimp only
    split
    · exact keeps_pure (.of_unswapped h')
    · split
      · refine Keeps.bind (makes_awaitCall (doLkgFallback_makes h') fun _ _ => Outcome.progress) ?_
        rintro ⟨lkgErr | ⟨⟩, moment'⟩ store'' ⟨houtcome', -⟩
        · exact keeps_pure (.of_unswapped (houtcome'.error lkgErr rfl))
        · exact keeps_pure houtcome'
      · exact keeps_pure (.of_unswapped h')
  · exact keeps_pure houtcome

end

/-- The last refresh, from an idle system on: its answers so far, and the system now. -/
structure LastRefresh (step : RefreshSystem → RefreshEvent → RefreshSystem → Prop) (before : RefreshSystem)
    (answers : List RefreshEvent) (sys : RefreshSystem) : Prop where
  run : ∃ started, step before .start started ∧ Run.Trace step started answers sys
  same : Event.start ∉ answers

/-- Where the last refresh stands. -/
structure RefreshSound (opts : SiftHttpKeyStoreOptions) (start : KeyStore) (answers : List RefreshEvent)
    (sys : RefreshSystem) : Prop where
  /-- One that throws has swapped nothing and lowered no version. -/
  atomic : ∀ thrown, sys.procs.getLast? = some (.done (.error thrown)) →
    sys.shared.keyCache = start.keyCache ∧ sys.shared.revokedKids = start.revokedKids ∧
      VersionsRise start sys.shared
  /-- A swap to a freshly fetched signed list comes after the write of its version. -/
  written : opts.krlWatermarkStore = true → sys.shared.taken ≠ start.taken →
    sys.shared.krlStatus.lkgCacheActive = false → sys.shared.krlStatus.lastIntegrity = .signed →
      ∃ v, sys.shared.taken.getLast? = some ⟨sys.shared.revokedKids, some v⟩ ∧
        Answered answers (.watermarkSet v.issuer v.krlVersion) (.ok ())
  /-- What is swapped in was accepted by the callback since the refresh started. -/
  verified : opts.krlMode = .signedRequired → sys.shared.taken ≠ start.taken →
    ∃ payload accepted, Vouched opts answers payload accepted ∧
      sys.shared.revokedKids = extractRevokedKidsFromVerified payload
  /-- Only such lists, with a signature, are sent to the cache. -/
  cached : ∀ payload verifiedAt next,
    sys.procs.getLast? = some (.ask (.cacheSet payload verifiedAt) next) →
      hasSignatureField payload = true ∧ ∃ accepted, Vouched opts answers payload accepted
  untaken : sys.shared.taken = start.taken → sys.shared.revokedKids = start.revokedKids

section

variable {opts : SiftHttpKeyStoreOptions} {answers : List RefreshEvent} {start store : KeyStore}

theorem Progress.written (h : Progress opts answers start store) (hstore : opts.krlWatermarkStore = true)
    (hswap : store.taken ≠ start.taken) (hfresh : store.krlStatus.lkgCacheActive = false)
    (hsigned : store.krlStatus.lastIntegrity = .signed) :
    ∃ v, store.taken.getLast? = some ⟨store.revokedKids, some v⟩ ∧
      Answered answers (.watermarkSet v.issuer v.krlVersion) (.ok ()) := by
  cases h with
  | unswapped h => exact absurd h.taken hswap
  | fresh payload krl revoked taken integrity required origin persisted =>
    obtain ⟨-, -, accepted, hversion, -⟩ := origin (integrity.symm.trans hsigned)
    refine ⟨accepted, ?_, persisted hstore accepted hversion⟩
    rw [taken, List.getLast?_concat, revoked, hversion]
  | cached payload krl revoked taken active extracted vouched =>
    rw [active] at hfresh
    cases hfresh

theorem Progress.verified (h : Progress opts answers start store) (hmode : opts.krlMode = .signedRequired)
    (hswap : store.taken ≠ start.taken) : ∃ payload accepted, Vouched opts answers payload accepted ∧
      store.revokedKids = extractRevokedKidsFromVerified payload := by
  cases h with
  | unswapped h => exact absurd h.taken hswap
  | fresh payload krl revoked taken integrity required origin persisted =>
    obtain ⟨hextracted, -, accepted, -, hvouched⟩ := origin (required hmode)
    exact ⟨payload, accepted, hvouched, revoked.trans hextracted⟩
  | cached payload krl revoked taken active extracted vouched =>
    obtain ⟨accepted, hvouched⟩ := vouched
    exact ⟨payload, accepted, hvouched, revoked.trans extracted⟩

theorem Progress.untaken (h : Progress opts answers start store) (hsame : store.taken = start.taken) :
    store.revokedKids = start.revokedKids := by
  cases h with
  | unswapped h => exact h.revokedKids
  | fresh payload krl revoked taken integrity required origin persisted =>
    rw [taken] at hsame
    simp at hsame
  | cached payload krl revoked taken active extracted vouched =>
    rw [taken] at hsame
    simp at hsame

/-- What a refresh that is done or waits says of itself. -/
theorem RefreshSound.of_makes {sys : RefreshSystem} {done : List (Refresh (Except Thrown Unit))}
    {q : Refresh (Except Thrown Unit)} (hprocs : sys.procs = done ++ [q]) (hsettled : q.Settled)
    (h : RefreshMakes opts answers start q sys.shared (Outcome opts answers start)) :
    RefreshSound opts start answers sys := by
  have hlast : sys.procs.getLast? = some q := by rw [hprocs, List.getLast?_concat]
  have hprogress : Progress opts answers start sys.shared := by
    cases q with
    | done result => exact h.progress
    | act f next => cases hsettled
    | ask i next => exact h.1.progress
  refine ⟨?_, hprogress.written, hprogress.verified, ?_, hprogress.untaken⟩
  · intro thrown hthrown
    obtain rfl := Option.some.inj (hlast.symm.trans hthrown)
    have hunswapped := Outcome.error h thrown rfl
    exact ⟨hunswapped.keyCache, hunswapped.revokedKids, hunswapped.versions⟩
  · intro payload verifiedAt next hnext
    obtain rfl := Option.some.inj (hlast.symm.trans hnext)
    exact h.1.cacheSet payload verifiedAt rfl

theorem readable_answers {sys sys' : RefreshSystem} (h : Run.Trace (ReadableStep opts) sys answers sys')
    (i : KeyStoreRequest) (a : KeyStoreAnswer i) (ha : Answered answers i a) : ReadableWrite i a := by
  have hall : ∀ ev ∈ answers, ∀ i a, ev = .answer i a → ReadableWrite i a := by
    refine h.forall_label (I := fun _ => True) (fun _ _ _ _ _ => trivial) ?_ trivial
    rintro sys₁ ev sys₂ - ⟨-, hmeets⟩ i a rfl
    exact hmeets
  exact hall _ ha i a rfl

theorem LastRefresh.sound {before sys : RefreshSystem} (h : LastRefresh (ReadableStep opts) before answers sys) :
    RefreshSound opts before.shared answers sys := by
  obtain ⟨⟨started, hstart, hrun⟩, hsame⟩ := h
  have hidle : before.Idle := hstart.1.2 rfl
  obtain ⟨p, ⟨nowSeconds, rfl⟩, hstarted⟩ : ∃ p, IsRefresh opts p ∧
      started = ⟨(p.settle before.shared).1, before.procs ++ [(p.settle before.shared).2]⟩ := by
    cases hstart.1.1 with
    | start hp => exact ⟨_, hp, rfl⟩
  have hplain : Run.Trace (Step (IsRefresh opts) servesOutside) started answers sys :=
    hrun.imp fun _ _ _ hstep => hstep.1.1
  obtain ⟨q, hprocs, hsettled, hq⟩ := undisturbed_run hidle (fun _ _ _ _ hserve => hserve) (fun _ _ ha => ha)
    hstarted hplain hsame (refresh_makes (readable_answers hrun) (Unswapped.refl _))
  exact .of_makes hprocs hsettled hq

/-- A run has no refresh yet, or it has a last one. -/
theorem exists_lastRefresh {step : RefreshSystem → RefreshEvent → RefreshSystem → Prop} {init sys : RefreshSystem}
    {evs : List RefreshEvent} (hanswer : ∀ i a sys', ¬ step init (.answer i a) sys')
    (h : Run.Trace step init evs sys) : (evs = [] ∧ sys = init) ∨
      ∃ evs' before answers, evs = evs' ++ .start :: answers ∧ Run.Trace step init evs' before ∧
        LastRefresh step before answers sys := by
  induction h with
  | nil => exact .inl ⟨rfl, rfl⟩
  | @snoc es sys₁ ev sys₂ run last ih =>
    right
    cases ev with
    | start => exact ⟨es, sys₁, [], rfl, run, ⟨sys₂, last, .nil⟩, by simp⟩
    | answer i a =>
      rcases ih with ⟨-, rfl⟩ | ⟨evs', before, answers, rfl, hbefore, ⟨started, hstart, hrun⟩, hsame⟩
      · exact absurd last (hanswer i a sys₂)
      · refine ⟨evs', before, answers ++ [.answer i a], by simp, hbefore, ⟨started, hstart, hrun.snoc last⟩, ?_⟩
        simpa using hsame

/-- The revocations in force were extracted from a list that the callback accepted, in the same one
of the refreshes of this run. -/
def KidsVouched (opts : SiftHttpKeyStoreOptions) (evs : List RefreshEvent) (store : KeyStore) : Prop :=
  ∃ earlier answers later payload accepted, evs = earlier ++ .start :: (answers ++ later) ∧
    Event.start ∉ answers ∧ Vouched opts answers payload accepted ∧
      store.revokedKids = extractRevokedKidsFromVerified payload

theorem initial_waits_for_start (i : KeyStoreRequest) (a : KeyStoreAnswer i) (sys' : RefreshSystem) :
    ¬ ReadableStep opts (.initial opts) (.answer i a) sys' := by
  intro h
  cases h.1.1 with
  | answer n hn => simp [RefreshSystem.initial] at hn

/-- By induction on the refreshes: the last one has swapped, or the list is that of the run before. -/
theorem revokedKids_vouched (hmode : opts.krlMode = .signedRequired) {evs : List RefreshEvent} {sys : RefreshSystem}
    (h : Run.Trace (ReadableStep opts) (.initial opts) evs sys) :
    sys.shared.revokedKids = ∅ ∨ KidsVouched opts evs sys.shared := by
  induction hlen : evs.length using Nat.strong_induction_on generalizing evs sys with
  | _ n ih =>
    rcases exists_lastRefresh initial_waits_for_start h with
      ⟨-, rfl⟩ | ⟨evs', before, answers, rfl, hbefore, hlast⟩
    · exact .inl rfl
    · have hsound := hlast.sound
      by_cases htaken : sys.shared.taken = before.shared.taken
      · have hsame := hsound.untaken htaken
        have hshorter : evs'.length < n := by
          rw [← hlen, List.length_append, List.length_cons]
          omega
        rcases ih _ hshorter hbefore rfl with
          hempty | ⟨earlier, answers', later, payload, accepted, rfl, hstart, hvouched, hkids⟩
        · exact .inl (hsame.trans hempty)
        · refine .inr ⟨earlier, answers', later ++ .start :: answers, payload, accepted, ?_, hstart, hvouched,
            hsame.trans hkids⟩
          simp
      · obtain ⟨payload, accepted, hvouched, hkids⟩ := hsound.verified hmode htaken
        exact .inr ⟨evs', answers, [], payload, accepted, by simp, hlast.same, hvouched, hkids⟩

/-- In every run of refreshes that do not overlap, where a rejected write to the cache can be shown,
the last refresh is sound; where signed lists are required the revocations in force are vouched for. -/
theorem refresh_atomic {evs : List RefreshEvent} {sys : RefreshSystem}
    (h : Run.Trace (ReadableStep opts) (.initial opts) evs sys) :
    (evs = [] ∧ sys = .initial opts ∨ ∃ evs' before answers, evs = evs' ++ .start :: answers ∧
      Run.Trace (ReadableStep opts) (.initial opts) evs' before ∧
        LastRefresh (ReadableStep opts) before answers sys ∧ RefreshSound opts before.shared answers sys) ∧
    (opts.krlMode = .signedRequired → sys.shared.revokedKids = ∅ ∨ KidsVouched opts evs sys.shared) := by
  refine ⟨?_, fun hmode => revokedKids_vouched hmode h⟩
  rcases exists_lastRefresh initial_waits_for_start h with hnone | ⟨evs', before, answers, hevs, hbefore, hlast⟩
  · exact .inl hnone
  · exact .inr ⟨evs', before, answers, hevs, hbefore, hlast, hlast.sound⟩

end

def sampleCacheOptions : SiftHttpKeyStoreOptions :=
  { sampleStoreOptions with krlWatermarkStore := false, signedKrlCache := true }

def revokingKrl : JsValue :=
  .obj [(js "issuer", .str (js "i")), (js "krl_version", .num (.int 5)),
    (js "revoked_kids", .arr [.str (js "k")]), (js "signature", .null)]

def revokingBodies : Except Thrown (JsValue × JsValue) := .ok (.obj [(js "keys", .arr [])], revokingKrl)

/-- What reading an object without a prototype as a string throws. -/
def conversionError : Thrown :=
  .other (.ok (js "Cannot convert object to primitive value"))
    (.ok (js "TypeError: Cannot convert object to primitive value"))

/-- An object without a prototype. -/
def unshowable : Thrown := .other (.error conversionError) (.error conversionError)

section

variable {opts : SiftHttpKeyStoreOptions} {init sys : RefreshSystem} {evs : List RefreshEvent}

theorem sequential_answer (h : Run.Trace (SequentialStep opts) init evs sys) (n : ℕ) {i : KeyStoreRequest}
    (a : KeyStoreAnswer i) {next : KeyStoreAnswer i → Refresh (Except Thrown Unit)}
    (hn : sys.procs[n]? = some (.ask i next)) :
    Run.Trace (SequentialStep opts) init (evs ++ [.answer i a])
      ⟨((next a).settle sys.shared).1, sys.procs.set n ((next a).settle sys.shared).2⟩ :=
  .snoc h ⟨.answer n hn a rfl, nofun⟩

theorem readable_answer (h : Run.Trace (ReadableStep opts) init evs sys) (n : ℕ) {i : KeyStoreRequest}
    (a : KeyStoreAnswer i) {next : KeyStoreAnswer i → Refresh (Except Thrown Unit)}
    (hn : sys.procs[n]? = some (.ask i next)) (hreadable : ReadableWrite i a) :
    Run.Trace (ReadableStep opts) init (evs ++ [.answer i a])
      ⟨((next a).settle sys.shared).1, sys.procs.set n ((next a).settle sys.shared).2⟩ :=
  .snoc h ⟨⟨.answer n hn a rfl, nofun⟩, hreadable⟩

/-- The next refresh, once the last one is done. -/
theorem readable_start (h : Run.Trace (ReadableStep opts) init evs sys) (hidle : sys.Idle) :
    Run.Trace (ReadableStep opts) init (evs ++ [.start]) (sys.started opts (.int 0)) :=
  .snoc h ⟨⟨.start ⟨.int 0, rfl⟩, fun _ => hidle⟩, trivial⟩

end

theorem sequential_start (opts : SiftHttpKeyStoreOptions) : SequentialStep opts (.initial opts) .start
    ((RefreshSystem.initial opts).started opts (.int 0)) :=
  ⟨.start ⟨.int 0, rfl⟩, fun _ => nofun⟩

theorem revokingKrl_revokes : extractRevokedKidsFromVerified revokingKrl ≠ ∅ := by
  have hfield : revokingKrl.field (js "revoked_kids") = .arr [.str (js "k")] := rfl
  have hmem : js "k" ∈ extractRevokedKidsFromVerified revokingKrl := by
    rw [extractRevokedKidsFromVerified, hfield]
    simp [stringSet, JsValue.text?]
  exact Finset.ne_empty_of_mem hmem

def networkError : Thrown := .other (.ok (js "connection refused")) (.ok (js "Error: connection refused"))

/-- A refresh that swaps and caches its list, one that cannot fetch and falls back on the cache,
and one that finds the cache empty: it throws, and the list stays in force. -/
theorem refresh_atomic_sample : ∃ (evs : List RefreshEvent) (sys before : RefreshSystem) (thrown : Thrown),
    sys.procs.getLast? = some (.done (.error thrown)) ∧ sys.shared.revokedKids = before.shared.revokedKids ∧
      sys.shared.revokedKids ≠ ∅ ∧ KidsVouched sampleCacheOptions evs sys.shared := by
  have h0 : Run.Trace (ReadableStep sampleCacheOptions) (.initial sampleCacheOptions) _ _ :=
    .snoc .nil ⟨sequential_start sampleCacheOptions, trivial⟩
  have h1 := readable_answer h0 0 (i := .fetch) sampleResponses rfl trivial
  have h2 := readable_answer h1 0 (i := .bodies) revokingBodies rfl trivial
  have h3 := readable_answer h2 0 (i := .turn) (0 : ℕ) rfl trivial
  have h4 := readable_answer h3 0 (i := .cacheSet revokingKrl (.int 0)) (.ok ()) rfl trivial
  have h5 := readable_answer h4 0 (i := .turn) (0 : ℕ) rfl trivial
  have h6 := readable_start h5 (List.forall_mem_singleton.mpr ⟨_, rfl⟩)
  have h7 := readable_answer h6 1 (i := .fetch) (.error networkError) rfl trivial
  have h8 := readable_answer h7 1 (i := .turn) (0 : ℕ) rfl trivial
  have h9 := readable_answer h8 1 (i := .turn) (0 : ℕ) rfl trivial
  have h10 := readable_answer h9 1 (i := .cacheGet) (.ok (some ⟨revokingKrl, .int 0⟩), (0 : ℕ)) rfl trivial
  have h11 := readable_answer h10 1 (i := .turn) (0 : ℕ) rfl trivial
  have h12 := readable_start h11 (List.forall_mem_cons.mpr ⟨⟨_, rfl⟩, List.forall_mem_singleton.mpr ⟨_, rfl⟩⟩)
  have h13 := readable_answer h12 2 (i := .fetch) (.error networkError) rfl trivial
  have h14 := readable_answer h13 2 (i := .turn) (0 : ℕ) rfl trivial
  have h15 := readable_answer h14 2 (i := .turn) (0 : ℕ) rfl trivial
  have h16 := readable_answer h15 2 (i := .cacheGet) (.ok none, (0 : ℕ)) rfl trivial
  have h17 := readable_answer h16 2 (i := .turn) (0 : ℕ) rfl trivial
  obtain ⟨hlast, hvouched⟩ := refresh_atomic h17
  rcases hlast with ⟨hnone, -⟩ | ⟨_, before, _, -, -, -, hsound⟩
  · cases hnone
  · exact ⟨_, _, before, _, rfl, (hsound.atomic _ rfl).2.1, by exact revokingKrl_revokes,
      (hvouched rfl).resolve_left revokingKrl_revokes⟩

/-- The list is in force when the write is rejected; the fallback finds no entry, and the refresh throws. -/
theorem unshowable_rejection_swaps : ∃ before answers sys thrown,
    LastRefresh (SequentialStep sampleCacheOptions) before answers sys ∧ before = .initial sampleCacheOptions ∧
      sys.procs.getLast? = some (.done (.error thrown)) ∧ sys.shared.revokedKids ≠ before.shared.revokedKids := by
  have h0 := trace_here (Run.Trace.nil.snoc (sequential_start sampleCacheOptions))
  have h1 := sequential_answer h0 0 (i := .fetch) sampleResponses rfl
  have h2 := sequential_answer h1 0 (i := .bodies) revokingBodies rfl
  have h3 := sequential_answer h2 0 (i := .turn) (0 : ℕ) rfl
  have h4 := sequential_answer h3 0 (i := .cacheSet revokingKrl (.int 0)) (.error unshowable) rfl
  have h5 := sequential_answer h4 0 (i := .turn) (0 : ℕ) rfl
  have h6 := sequential_answer h5 0 (i := .turn) (0 : ℕ) rfl
  have h7 := sequential_answer h6 0 (i := .cacheGet) (.ok none, (0 : ℕ)) rfl
  have h8 := sequential_answer h7 0 (i := .turn) (0 : ℕ) rfl
  exact ⟨_, _, _, _, ⟨⟨_, sequential_start sampleCacheOptions, h8⟩, by simp⟩, rfl, rfl, revokingKrl_revokes⟩

end OxDeAI.Sift
