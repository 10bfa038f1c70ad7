import OxDeAI.Sift.KeyStore

/-! Overlapping refreshes: versions only rise, as long as no refresh resumes from
its watermark write behind the state in memory. -/

namespace OxDeAI.Sift

open Js Async

/-- No version in memory for this issuer is above this one. -/
def Fits (versions : Record ℤ) (accepted : AcceptedVersion) : Prop :=
  ∀ current, versions.own? accepted.issuer = some current → current ≤ accepted.krlVersion

/-- The callback rejects what is below the version it is told. -/
def RejectsRegressions (verifyKrl : Moment → JsValue → KrlContext → KrlVerifyResult) : Prop :=
  ∀ moment payload ctx violations accepted,
    verifyKrl moment payload ctx = .returned true violations (some accepted) →
      Fits ctx.previousKrlVersionByIssuer accepted

/-- A completed watermark write finds no higher version in memory. -/
def WriteUpToDate : (i : KeyStoreRequest) → KeyStoreAnswer i → KeyStore → Prop
  | .watermarkSet issuer krlVersion, .ok (), store => Fits store.krlVersionByIssuer ⟨issuer, krlVersion⟩
  | _, _, _ => True

/-- Requests are answered from outside: an answer leaves the memory as it is. -/
def servesOutside (store : KeyStore) (i : KeyStoreRequest) (_ : KeyStoreAnswer i) (store' : KeyStore) : Prop :=
  store' = store

def VersionsRise (store store' : KeyStore) : Prop :=
  ∀ issuer n, store.krlVersionByIssuer.own? issuer = some n →
    ∃ m, store'.krlVersionByIssuer.own? issuer = some m ∧ n ≤ m

/-- The active list is the last one taken, and its version is the highest taken
of its issuer. -/
structure ActiveHighest (store : KeyStore) : Prop where
  none : store.taken = [] → store.revokedKids = ∅
  last : ∀ krl, store.taken.getLast? = some krl → store.revokedKids = krl.revoked ∧
    ∃ v, krl.version = some v ∧ ∀ earlier ∈ store.taken, ∀ w, earlier.version = some w →
      w.issuer = v.issuer → w.krlVersion ≤ v.krlVersion

/-- The table is at or above every version taken. -/
def Recorded (store : KeyStore) : Prop :=
  ∀ krl ∈ store.taken, ∀ v, krl.version = some v →
    ∃ m, store.krlVersionByIssuer.own? v.issuer = some m ∧ v.krlVersion ≤ m

/-- What every step of a refresh does to the memory. -/
structure Advances (store store' : KeyStore) : Prop where
  versions : VersionsRise store store'
  current : ActiveHighest store ∧ Recorded store → ActiveHighest store' ∧ Recorded store'

theorem Advances.refl (store : KeyStore) : Advances store store where
  versions := fun _ n h => ⟨n, h, le_refl n⟩
  current := id

theorem Advances.trans {a b c : KeyStore} (hab : Advances a b) (hbc : Advances b c) : Advances a c where
  versions := by
    intro issuer n hn
    obtain ⟨m, hm, hnm⟩ := hab.versions issuer n hn
    obtain ⟨k, hk, hmk⟩ := hbc.versions issuer m hm
    exact ⟨k, hk, le_trans hnm hmk⟩
  current := fun h => hbc.current (hab.current h)

section

variable {store store' : KeyStore} {versions : Record ℤ} {opts : SiftHttpKeyStoreOptions}

/-- Nothing but the versions and the status changes. -/
theorem Advances.of_versions (hrise : VersionsRise store store') (hrevoked : store'.revokedKids = store.revokedKids)
    (htaken : store'.taken = store.taken) : Advances store store' where
  versions := hrise
  current := by
    rintro ⟨hactive, hrecorded⟩
    refine ⟨⟨?_, ?_⟩, ?_⟩
    · rw [htaken, hrevoked]
      exact hactive.none
    · rw [htaken, hrevoked]
      exact hactive.last
    · intro krl hkrl v hv
      rw [htaken] at hkrl
      obtain ⟨m, hm, hle⟩ := hrecorded krl hkrl v hv
      obtain ⟨k, hk, hmk⟩ := hrise v.issuer m hm
      exact ⟨k, hk, le_trans hle hmk⟩

theorem noteFailure_advances (reason : JsString) : Advances store (store.noteFailure opts reason) :=
  .of_versions (Advances.refl store).versions rfl rfl

theorem withStatus_advances (f : KrlStatus → KrlStatus) : Advances store (store.withStatus f) :=
  .of_versions (Advances.refl store).versions rfl rfl

theorem noteFresh_advances (failure : KrlProcessFailure) : Advances store (store.noteFresh opts failure) := by
  unfold KeyStore.noteFresh
  split
  · exact noteFailure_advances _
  · exact Advances.refl store

theorem noteCached_advances (failure : KrlProcessFailure) : Advances store (store.noteCached opts failure) := by
  unfold KeyStore.noteCached
  split
  · exact (noteFailure_advances _).trans (withStatus_advances _)
  · exact Advances.refl store

theorem mergeVersion_rises (e : JsString × ℤ) (issuer : JsString) (n : ℤ)
    (h : versions.own? issuer = some n) :
    ∃ m, (KeyStore.mergeVersion versions e).own? issuer = some m ∧ n ≤ m := by
  unfold KeyStore.mergeVersion
  cases hown : versions.own? e.1 with
  | none =>
    have hne : issuer ≠ e.1 := by
      rintro rfl
      rw [hown] at h
      cases h
    exact ⟨n, by rw [Record.own?_set_of_ne _ hne, h], le_refl n⟩
  | some current =>
    dsimp only
    split
    · rename_i hlt
      by_cases he : issuer = e.1
      · subst he
        rw [hown] at h
        obtain rfl := Option.some.inj h
        exact ⟨e.2, Record.own?_set_self _ _ _, le_of_lt hlt⟩
      · exact ⟨n, by rw [Record.own?_set_of_ne _ he, h], le_refl n⟩
    · exact ⟨n, h, le_refl n⟩

theorem mergeVersions_advances (persisted : Record ℤ) : Advances store (store.mergeVersions persisted) := by
  refine .of_versions ?_ rfl rfl
  intro issuer n hn
  have hfold : ∀ (es : List (JsString × ℤ)) (versions : Record ℤ) (n : ℤ), versions.own? issuer = some n →
      ∃ m, (es.foldl KeyStore.mergeVersion versions).own? issuer = some m ∧ n ≤ m := by
    intro es
    induction es with
    | nil => exact fun versions n hn => ⟨n, hn, le_refl n⟩
    | cons e es ih =>
      intro versions n hn
      obtain ⟨k, hk, hnk⟩ := mergeVersion_rises e issuer n hn
      obtain ⟨m, hm, hkm⟩ := ih _ k hk
      exact ⟨m, hm, le_trans hnk hkm⟩
  exact hfold persisted.entries store.krlVersionByIssuer n hn

theorem set_rises {accepted : AcceptedVersion} (hfits : Fits versions accepted) (issuer : JsString) (n : ℤ)
    (h : versions.own? issuer = some n) :
    ∃ m, (versions.set accepted.issuer accepted.krlVersion).own? issuer = some m ∧ n ≤ m := by
  by_cases he : issuer = accepted.issuer
  · subst he
    exact ⟨_, Record.own?_set_self _ _ _, hfits n h⟩
  · exact ⟨n, by rw [Record.own?_set_of_ne _ he, h], le_refl n⟩

/-- A swap to a list whose version fits the table. -/
theorem take_advances {krl : KrlProcessSuccess} {accepted : AcceptedVersion}
    (hversion : krl.updatedVersion = some accepted) (hfits : Fits store.krlVersionByIssuer accepted)
    (hrevoked : store'.revokedKids = krl.revoked)
    (htable : store'.krlVersionByIssuer = store.krlVersionByIssuer.set accepted.issuer accepted.krlVersion)
    (htaken : store'.taken = store.taken ++ [⟨krl.revoked, krl.updatedVersion⟩]) :
    Advances store store' := by
  have hrise : VersionsRise store store' := by
    intro issuer n hn
    rw [htable]
    exact set_rises hfits issuer n hn
  refine ⟨hrise, ?_⟩
  rintro ⟨-, hrecorded⟩
  refine ⟨⟨?_, ?_⟩, ?_⟩
  · intro hnil
    rw [htaken] at hnil
    simp at hnil
  · intro last hlast
    rw [htaken, List.getLast?_concat] at hlast
    obtain rfl := Option.some.inj hlast
    refine ⟨hrevoked, accepted, hversion, ?_⟩
    intro earlier hmem w hw hiss
    rw [htaken] at hmem
    rcases List.mem_append.mp hmem with hmem | hmem
    · obtain ⟨m, hm, hle⟩ := hrecorded earlier hmem w hw
      rw [hiss] at hm
      exact le_trans hle (hfits m hm)
    · obtain rfl := List.mem_singleton.mp hmem
      have hsame : w = accepted := Option.some.inj (hw.symm.trans hversion)
      rw [hsame]
  · intro taken hmem v hv
    rw [htaken] at hmem
    rcases List.mem_append.mp hmem with hmem | hmem
    · obtain ⟨m, hm, hle⟩ := hrecorded taken hmem v hv
      obtain ⟨k, hk, hmk⟩ := hrise v.issuer m hm
      exact ⟨k, hk, le_trans hle hmk⟩
    · obtain rfl := List.mem_singleton.mp hmem
      have hsame : v = accepted := Option.some.inj (hv.symm.trans hversion)
      rw [hsame, htable]
      exact ⟨_, Record.own?_set_self _ _ _, le_refl _⟩

end

/-- A part of a refresh, started in this state, only advances the memory. -/
def RefreshKeeps {α : Type} (p : Refresh α) (store : KeyStore) (post : α → KeyStore → Prop) : Prop :=
  Keeps (amongOthers servesOutside WriteUpToDate Advances) p store post

section

variable {store : KeyStore} {opts : SiftHttpKeyStoreOptions} {nowSeconds : JsNumber}

theorem pure_keeps {α : Type} {a : α} {post : α → KeyStore → Prop} (h : post a store) :
    RefreshKeeps (pure a) store post := keeps_pure h

theorem update_keeps {α : Type} {f : KeyStore → KeyStore} {a : α} {post : α → KeyStore → Prop}
    (hf : Advances store (f store)) (h : post a (f store)) :
    RefreshKeeps (do Prog.update f; return a) store post :=
  keeps_update_bind hf (pure_keeps h)

theorem request_keeps {α : Type} {i : KeyStoreRequest} {k : KeyStoreAnswer i → Refresh α}
    {post : α → KeyStore → Prop} (h : ∀ a store', WriteUpToDate i a store' → RefreshKeeps (k a) store' post) :
    RefreshKeeps (Prog.request i >>= k) store post := by
  refine keeps_request_bind trivial fun a store' hanswer => ?_
  obtain ⟨_, hmeets, rfl⟩ := hanswer
  exact h a _ hmeets

theorem awaitCall_keeps {α : Type} {p : Refresh α} (h : RefreshKeeps p store (fun _ _ => True)) :
    RefreshKeeps (awaitCall p) store (fun _ _ => True) :=
  h.bind fun _ _ _ => request_keeps fun _ _ _ => pure_keeps trivial

theorem fetchBodies_keeps : RefreshKeeps fetchBodies store (fun _ _ => True) := by
  refine request_keeps ?_
  rintro (message | ⟨jwksRes, krlRes⟩) store' -
  · exact pure_keeps trivial
  · dsimp only
    split
    · exact pure_keeps trivial
    · split
      · exact pure_keeps trivial
      · refine request_keeps ?_
        rintro (message | both) store'' - <;> exact pure_keeps trivial

theorem mergeWatermarks_keeps : RefreshKeeps (mergeWatermarks opts) store (fun _ _ => True) := by
  unfold mergeWatermarks
  split
  · refine request_keeps ?_
    rintro (message | persisted) store' -
    · exact update_keeps (noteFailure_advances _) trivial
    · exact update_keeps (mergeVersions_advances persisted) trivial
  · exact pure_keeps trivial

/-- After a successful write the version still fits; without a store nothing ran
in between. -/
theorem persistWatermark_keeps {updated : Option AcceptedVersion}
    (hfits : ∀ v, updated = some v → Fits store.krlVersionByIssuer v) :
    RefreshKeeps (persistWatermark opts updated) store (fun result store' =>
      result = .ok () → ∀ v, updated = some v → Fits store'.krlVersionByIssuer v) := by
  unfold persistWatermark
  split
  · rename_i accepted _
    refine request_keeps ?_
    rintro (message | ⟨⟩) store' hmeets
    · exact update_keeps (noteFailure_advances _) nofun
    · refine pure_keeps fun _ v hv => ?_
      rw [← Option.some.inj hv]
      exact hmeets
  · exact pure_keeps fun _ => hfits

theorem writeLkg_keeps {krlBody : JsValue} {integrity : KrlIntegrity} :
    RefreshKeeps (writeLkg opts krlBody integrity nowSeconds) store (fun _ _ => True) := by
  unfold writeLkg
  split
  · refine request_keeps ?_
    rintro (thrown | ⟨⟩) store' -
    · dsimp only
      split <;> exact pure_keeps trivial
    · exact pure_keeps trivial
  · exact pure_keeps trivial

theorem commitFresh_keeps {newKeys : Record (List Byte)} {krlBody : JsValue} {krl : KrlProcessSuccess}
    {accepted : AcceptedVersion} (hversion : krl.updatedVersion = some accepted)
    (hfits : Fits store.krlVersionByIssuer accepted) :
    RefreshKeeps (commitFresh opts newKeys krlBody krl nowSeconds) store (fun _ _ => True) := by
  have hcurrent : ∀ v, krl.updatedVersion = some v → Fits store.krlVersionByIssuer v := by
    intro v hv
    rw [hversion] at hv
    rw [← Option.some.inj hv]
    exact hfits
  refine (persistWatermark_keeps hcurrent).bind ?_
  rintro (error | ⟨⟩) store' hfits'
  · exact pure_keeps trivial
  · refine keeps_update_bind ?_ writeLkg_keeps
    refine take_advances hversion (hfits' rfl accepted hversion) rfl ?_ rfl
    rw [KeyStore.takeFresh, hversion]
    rfl

theorem runVerifyKrl_ok {verifyKrl : Moment → JsValue → KrlContext → KrlVerifyResult}
    {versions : Record ℤ} {moment : Moment} {krlBody : JsValue} {krl : KrlProcessSuccess}
    (hverify : RejectsRegressions verifyKrl)
    (h : runVerifyKrl versions moment krlBody nowSeconds verifyKrl = .ok krl) :
    ∃ accepted, krl.updatedVersion = some accepted ∧ Fits versions accepted := by
  unfold runVerifyKrl at h
  split at h
  · split at h <;> cases h
  · cases h
  · cases h
  · rename_i accepted hresult
    rw [← Except.ok.inj h]
    exact ⟨accepted, rfl, hverify _ _ _ _ _ hresult⟩

theorem processKrlForMode_ok {versions : Record ℤ} {moment : Moment} {krlBody : JsValue}
    {krl : KrlProcessSuccess} (hmode : opts.krlMode = .signedRequired)
    (hverify : ∀ verify, opts.verifyKrl = some verify → RejectsRegressions verify)
    (h : processKrlForMode opts versions moment krlBody nowSeconds = .ok krl) :
    ∃ accepted, krl.updatedVersion = some accepted ∧ Fits versions accepted := by
  unfold processKrlForMode at h
  rw [hmode] at h
  dsimp only at h
  split at h
  · cases h
  · split at h
    · rename_i verify hv
      exact runVerifyKrl_ok (hverify verify hv) h
    · cases h

theorem processFresh_keeps {newKeys : Record (List Byte)} {krlBody : JsValue} {moment : Moment}
    (hmode : opts.krlMode = .signedRequired)
    (hverify : ∀ verify, opts.verifyKrl = some verify → RejectsRegressions verify) :
    RefreshKeeps (processFresh opts newKeys krlBody moment nowSeconds) store (fun _ _ => True) := by
  refine keeps_read_bind (Advances.refl store) ?_
  split
  · exact update_keeps (noteFresh_advances _) trivial
  · rename_i krl hkrl
    obtain ⟨accepted, hversion, hfits⟩ := processKrlForMode_ok hmode hverify hkrl
    exact commitFresh_keeps hversion hfits

theorem doFreshRefresh_keeps (hmode : opts.krlMode = .signedRequired)
    (hverify : ∀ verify, opts.verifyKrl = some verify → RejectsRegressions verify) :
    RefreshKeeps (doFreshRefresh opts nowSeconds) store (fun _ _ => True) := by
  refine Keeps.bind fetchBodies_keeps ?_
  rintro (error | ⟨jwksBody, krlBody⟩) store' -
  · exact pure_keeps trivial
  · dsimp only
    split
    · exact pure_keeps trivial
    · refine Keeps.bind (awaitCall_keeps mergeWatermarks_keeps) ?_
      rintro ⟨error | ⟨⟩, moment⟩ store'' -
      · exact pure_keeps trivial
      · exact processFresh_keeps hmode hverify

theorem processCached_keeps {verifyKrl : Moment → JsValue → KrlContext → KrlVerifyResult}
    {entry : LkgEntry} {moment : Moment} (hverify : RejectsRegressions verifyKrl) :
    RefreshKeeps (processCached opts entry moment nowSeconds verifyKrl) store (fun _ _ => True) := by
  refine keeps_read_bind (Advances.refl store) ?_
  split
  · exact update_keeps (noteCached_advances _) trivial
  · rename_i krl hkrl
    obtain ⟨accepted, hversion, hfits⟩ := runVerifyKrl_ok hverify hkrl
    refine update_keeps (take_advances hversion hfits rfl ?_ rfl) trivial
    rw [KeyStore.takeCached, hversion]
    rfl

theorem doLkgFallback_keeps
    (hverify : ∀ verify, opts.verifyKrl = some verify → RejectsRegressions verify) :
    RefreshKeeps (doLkgFallback opts nowSeconds) store (fun _ _ => True) := by
  unfold doLkgFallback
  split
  · exact update_keeps (withStatus_advances _) trivial
  · rename_i verify hv
    refine Keeps.bind (awaitCall_keeps mergeWatermarks_keeps) ?_
    rintro ⟨error | ⟨⟩, moment⟩ store' -
    · exact pure_keeps trivial
    · refine request_keeps ?_
      rintro ⟨message | entry?, moment⟩ store'' -
      · exact update_keeps (withStatus_advances _) trivial
      · cases entry? with
        | none => exact pure_keeps trivial
        | some entry => exact processCached_keeps (hverify verify hv)

theorem refresh_keeps (hmode : opts.krlMode = .signedRequired)
    (hverify : ∀ verify, opts.verifyKrl = some verify → RejectsRegressions verify) :
    RefreshKeeps (refresh opts nowSeconds) store (fun _ _ => True) := by
  refine Keeps.bind (awaitCall_keeps (doFreshRefresh_keeps hmode hverify)) ?_
  rintro ⟨error | ⟨⟩, moment⟩ store' -
  · dsimp only
    split
    · exact pure_keeps trivial
    · split
      · refine Keeps.bind (awaitCall_keeps (doLkgFallback_keeps hverify)) ?_
        rintro ⟨error' | ⟨⟩, moment'⟩ store'' - <;> exact pure_keeps trivial
      · exact pure_keeps trivial
  · exact pure_keeps trivial

end

abbrev RefreshSystem := System KeyStore KeyStoreRequest KeyStoreAnswer (Except Thrown Unit)

abbrev RefreshEvent := Event KeyStoreRequest KeyStoreAnswer

/-- Calls of `refresh` at any times. -/
def IsRefresh (opts : SiftHttpKeyStoreOptions) (p : Refresh (Except Thrown Unit)) : Prop :=
  ∃ nowSeconds, p = refresh opts nowSeconds

def RefreshStep (opts : SiftHttpKeyStoreOptions) : RefreshSystem → RefreshEvent → RefreshSystem → Prop :=
  Step (IsRefresh opts) servesOutside

/-- The same, when every completed watermark write is up to date. -/
def UpToDateStep (opts : SiftHttpKeyStoreOptions) (sys : RefreshSystem) (ev : RefreshEvent)
    (sys' : RefreshSystem) : Prop :=
  RefreshStep opts sys ev sys' ∧ ev.Meets WriteUpToDate sys.shared

def RefreshSystem.initial (opts : SiftHttpKeyStoreOptions) : RefreshSystem := ⟨KeyStore.initial opts, []⟩

theorem keyStore_antiRollback (opts : SiftHttpKeyStoreOptions) (hmode : opts.krlMode = .signedRequired)
    (hverify : ∀ verify, opts.verifyKrl = some verify → RejectsRegressions verify)
    {evs evs' : List RefreshEvent} {sys sys' : RefreshSystem}
    (hrun : Run.Trace (UpToDateStep opts) (.initial opts) evs sys)
    (hrun' : Run.Trace (UpToDateStep opts) sys evs' sys') :
    VersionsRise sys.shared sys'.shared ∧ ActiveHighest sys'.shared := by
  have hprogram : ∀ p, IsRefresh opts p → ∀ store,
      KeepsAmong servesOutside WriteUpToDate Advances p store := by
    rintro p ⟨nowSeconds, rfl⟩ store
    exact refresh_keeps hmode hverify
  have hserve : ∀ store i a store', WriteUpToDate i a store → servesOutside store i a store' →
      Advances store store' := by
    rintro store i a store' - rfl
    exact Advances.refl store'
  have hinit : ∀ p ∈ (RefreshSystem.initial opts).procs, ∀ store,
      KeepsAmong servesOutside WriteUpToDate Advances p store := nofun
  obtain ⟨hfirst, hprocs⟩ := run_keeps Advances.refl Advances.trans hserve hprogram hrun hinit
  obtain ⟨hsecond, -⟩ := run_keeps Advances.refl Advances.trans hserve hprogram hrun' hprocs
  have hstart : ActiveHighest (KeyStore.initial opts) ∧ Recorded (KeyStore.initial opts) :=
    ⟨⟨fun _ => rfl, nofun⟩, nofun⟩
  exact ⟨hsecond.versions, ((hfirst.trans hsecond).current hstart).1⟩

/-- Accepts what is not below the version it is told. -/
def sampleVerify (_ : Moment) (payload : JsValue) (ctx : KrlContext) : KrlVerifyResult :=
  match payload.field (js "issuer"), payload.field (js "krl_version") with
  | .str issuer, .num (.int v) =>
    if v < (ctx.previousKrlVersionByIssuer.own? issuer).getD v then .returned false [] none
    else .returned true [] (some ⟨issuer, v⟩)
  | _, _ => .returned false [] none

theorem sampleVerify_rejects : RejectsRegressions sampleVerify := by
  intro moment payload ctx violations accepted h current hcurrent
  unfold sampleVerify at h
  split at h
  · split at h
    · cases h
    · rename_i hlt
      cases h
      rw [hcurrent] at hlt
      exact not_lt.mp hlt
  · cases h

def sampleStoreOptions : SiftHttpKeyStoreOptions where
  krlMode := .signedRequired
  verifyKrl := some sampleVerify
  krlWatermarkStore := true
  signedKrlCache := false
  verifies := fun _ => rfl

theorem sampleStoreOptions_rejects (verify : Moment → JsValue → KrlContext → KrlVerifyResult)
    (h : sampleStoreOptions.verifyKrl = some verify) : RejectsRegressions verify := by
  obtain rfl := Option.some.inj h
  exact sampleVerify_rejects

def sampleKrl (version : ℤ) : JsValue :=
  .obj [(js "issuer", .str (js "i")), (js "krl_version", .num (.int version)),
    (js "revoked_kids", .arr []), (js "signature", .null)]

def sampleBodies (version : ℤ) : Except Thrown (JsValue × JsValue) :=
  .ok (.obj [(js "keys", .arr [])], sampleKrl version)

def sampleResponses : Except Thrown (HttpResponse × HttpResponse) := .ok (⟨true, 200⟩, ⟨true, 200⟩)

section

variable {step : RefreshSystem → RefreshEvent → RefreshSystem → Prop} {opts : SiftHttpKeyStoreOptions}
  {sys init : RefreshSystem} {evs : List RefreshEvent}

/-- The system after one more refresh starts. -/
def RefreshSystem.started (opts : SiftHttpKeyStoreOptions) (sys : RefreshSystem) (nowSeconds : JsNumber) :
    RefreshSystem :=
  ⟨((refresh opts nowSeconds).settle sys.shared).1,
    sys.procs ++ [((refresh opts nowSeconds).settle sys.shared).2]⟩

theorem upToDate_start (h : Run.Trace (UpToDateStep opts) init evs sys) (nowSeconds : JsNumber) :
    Run.Trace (UpToDateStep opts) init (evs ++ [.start]) (sys.started opts nowSeconds) :=
  .snoc h ⟨.start ⟨nowSeconds, rfl⟩, trivial⟩

theorem upToDate_answer (h : Run.Trace (UpToDateStep opts) init evs sys) (n : ℕ) {i : KeyStoreRequest}
    (a : KeyStoreAnswer i) {next : KeyStoreAnswer i → Refresh (Except Thrown Unit)}
    (hn : sys.procs[n]? = some (.ask i next)) (hmeets : WriteUpToDate i a sys.shared) :
    Run.Trace (UpToDateStep opts) init (evs ++ [.answer i a])
      ⟨((next a).settle sys.shared).1, sys.procs.set n ((next a).settle sys.shared).2⟩ :=
  .snoc h ⟨.answer n hn a rfl, hmeets⟩

/-- The `n`-th refresh gets its answer. -/
theorem refresh_answer (h : Run.Trace (RefreshStep opts) init evs sys) (n : ℕ) {i : KeyStoreRequest}
    (a : KeyStoreAnswer i) {next : KeyStoreAnswer i → Refresh (Except Thrown Unit)}
    (hn : sys.procs[n]? = some (.ask i next)) :
    Run.Trace (RefreshStep opts) init (evs ++ [.answer i a])
      ⟨((next a).settle sys.shared).1, sys.procs.set n ((next a).settle sys.shared).2⟩ :=
  .snoc h (.answer n hn a rfl)

theorem refresh_of_upToDate (h : Run.Trace (UpToDateStep opts) init evs sys) :
    Run.Trace (RefreshStep opts) init evs sys := by
  induction h with
  | nil => exact .nil
  | snoc _ last ih => exact .snoc ih last.1

/-- The run that starts where this one ends. -/
theorem trace_here (_ : Run.Trace step init evs sys) : Run.Trace step sys [] sys := .nil

end

/-- The write of a version completed. -/
def written (version : ℤ) : KeyStoreAnswer (.watermarkSet (js "i") version) := .ok ()

/-- The `n`-th refresh waits for the write of a version, and will then put it in
the table. -/
def PendingWrite (sys : RefreshSystem) (n : ℕ) (version : ℤ) : Prop :=
  ∃ next, sys.procs[n]? = some (.ask (.watermarkSet (js "i") version) next) ∧
    ∀ store, ((next (written version)).settle store).1.krlVersionByIssuer =
      store.krlVersionByIssuer.set (js "i") version

/-- Two refreshes have verified their lists against an empty table. -/
theorem exists_pendingWrites : ∃ evs sys, Run.Trace (UpToDateStep sampleStoreOptions)
    (.initial sampleStoreOptions) evs sys ∧ sys.shared.krlVersionByIssuer = .empty ∧
      PendingWrite sys 0 5 ∧ PendingWrite sys 1 6 := by
  have h0 : Run.Trace (UpToDateStep sampleStoreOptions) (.initial sampleStoreOptions) [] _ := .nil
  have h1 := upToDate_start (upToDate_start h0 (.int 0)) (.int 0)
  have h2 := upToDate_answer h1 0 (i := .fetch) sampleResponses rfl trivial
  have h3 := upToDate_answer h2 1 (i := .fetch) sampleResponses rfl trivial
  have h4 := upToDate_answer h3 0 (i := .bodies) (sampleBodies 5) rfl trivial
  have h5 := upToDate_answer h4 1 (i := .bodies) (sampleBodies 6) rfl trivial
  have h6 := upToDate_answer h5 0 (i := .watermarkList) (.ok .empty) rfl trivial
  have h7 := upToDate_answer h6 1 (i := .watermarkList) (.ok .empty) rfl trivial
  have h8 := upToDate_answer h7 0 (i := .turn) (0 : ℕ) rfl trivial
  have h9 := upToDate_answer h8 1 (i := .turn) (0 : ℕ) rfl trivial
  exact ⟨_, _, h9, rfl, ⟨_, rfl, fun _ => rfl⟩, ⟨_, rfl, fun _ => rfl⟩⟩

/-- The writes complete in the order of the versions. -/
theorem keyStore_antiRollback_sample : ∃ sys sys' : RefreshSystem,
    sys.shared.krlVersionByIssuer.own? (js "i") = some 5 ∧
      sys'.shared.krlVersionByIssuer.own? (js "i") = some 6 ∧
      VersionsRise sys.shared sys'.shared ∧ ActiveHighest sys'.shared := by
  obtain ⟨evs, sys, hrun, hempty, ⟨next, hn, htable⟩, ⟨next', hn', htable'⟩⟩ := exists_pendingWrites
  have hnone : ∀ issuer, sys.shared.krlVersionByIssuer.own? issuer = none := by
    intro issuer
    rw [hempty]
    rfl
  have hfive := upToDate_answer hrun 0 (written 5) hn (by
    intro current hcurrent
    rw [hnone] at hcurrent
    cases hcurrent)
  have hpending : (sys.procs.set 0 ((next (written 5)).settle sys.shared).2)[1]? =
      some (.ask (.watermarkSet (js "i") 6) next') := by
    rw [List.getElem?_set_ne (by decide)]
    exact hn'
  have hsix := upToDate_answer (trace_here hfive) 1 (written 6) hpending (by
    intro current hcurrent
    rw [htable, Record.own?_set_self] at hcurrent
    rw [← Option.some.inj hcurrent]
    decide)
  refine ⟨_, _, ?_, ?_, keyStore_antiRollback sampleStoreOptions rfl sampleStoreOptions_rejects hfive hsix⟩
  · rw [htable, Record.own?_set_self]
  · rw [htable', Record.own?_set_self]

/-- The write of version 6 completes first, then that of version 5. -/
theorem stale_write_rolls_back : ¬ ∀ (opts : SiftHttpKeyStoreOptions), opts.krlMode = .signedRequired →
    (∀ verify, opts.verifyKrl = some verify → RejectsRegressions verify) →
    ∀ (evs evs' : List RefreshEvent) (sys sys' : RefreshSystem),
      Run.Trace (RefreshStep opts) (.initial opts) evs sys → Run.Trace (RefreshStep opts) sys evs' sys' →
        VersionsRise sys.shared sys'.shared ∧ ActiveHighest sys'.shared := by
  intro hclaim
  obtain ⟨evs, sys, hrun, -, ⟨next, hn, htable⟩, ⟨next', hn', htable'⟩⟩ := exists_pendingWrites
  have hsix := refresh_answer (refresh_of_upToDate hrun) 1 (written 6) hn'
  have hpending : (sys.procs.set 1 ((next' (written 6)).settle sys.shared).2)[0]? =
      some (.ask (.watermarkSet (js "i") 5) next) := by
    rw [List.getElem?_set_ne (by decide)]
    exact hn
  have hfive := refresh_answer (trace_here hsix) 0 (written 5) hpending
  have hrise := (hclaim _ rfl sampleStoreOptions_rejects _ _ _ _ hsix hfive).1
  obtain ⟨m, hm, hle⟩ := hrise (js "i") 6 (by rw [htable', Record.own?_set_self])
  rw [htable, Record.own?_set_self] at hm
  have hm5 : (5 : ℤ) = m := Option.some.inj hm
  omega

end OxDeAI.Sift
