import OxDeAI.Guard.SecureConfig

/-! A hostile configuration is captured as some inert one would be: nothing is read twice. -/

namespace OxDeAI.SecureConfig

open Js Async

def Request.place? : Request → Option Place
  | .get place => some place
  | .has place => some place
  | .ephemeral place => some place
  | .intrinsics _ => none
  | .revoked _ => none

/-- The requests at a place and below it. -/
def whole (place : Place) : Set Request := {i | ∃ q, i.place? = some q ∧ place <+: q}

/-- Those but the read of the place itself. -/
def inside (place : Place) : Set Request := {i | i ∈ whole place ∧ i ≠ .get place ∧ i ≠ .has place}

/-- Those of a value that is read and then looked into. -/
def reading (place : Place) : Set Request := {.get place} ∪ inside place

/-- Those of some members. -/
def below (place : Place) (steps : List Step) : Set Request := {i | ∃ a ∈ steps, i ∈ whole (place ++ [a])}

section

variable {place : Place} {a b : Step} {steps : List Step} {α β : Type} {i : Request}

theorem get_mem_whole : Request.get place ∈ whole place := ⟨place, rfl, List.prefix_rfl⟩

theorem has_mem_whole : Request.has place ∈ whole place := ⟨place, rfl, List.prefix_rfl⟩

theorem reading_subset : reading place ⊆ whole place := by
  rintro i (rfl | hi)
  · exact get_mem_whole
  · exact hi.1

theorem whole_step_subset : whole (place ++ [a]) ⊆ inside place := by
  rintro i ⟨q, hq, hpre⟩
  have hne : q ≠ place := by
    rintro rfl
    have hlen := hpre.length_le
    rw [List.length_append, List.length_singleton] at hlen
    omega
  refine ⟨⟨q, hq, (List.prefix_append place [a]).trans hpre⟩, ?_, ?_⟩
  · rintro rfl
    exact hne (Option.some.inj hq).symm
  · rintro rfl
    exact hne (Option.some.inj hq).symm

theorem whole_disjoint (h : a ≠ b) : Disjoint (whole (place ++ [a])) (whole (place ++ [b])) := by
  rw [Set.disjoint_left]
  rintro i ⟨q, hq, hpre⟩ ⟨q', hq', hpre'⟩
  obtain rfl := Option.some.inj (hq.symm.trans hq')
  have hlen : (place ++ [a]).length ≤ (place ++ [b]).length := by
    rw [List.length_append, List.length_append, List.length_singleton, List.length_singleton]
  have heq := (List.prefix_of_prefix_length_le hpre hpre' hlen).eq_of_length (by
    rw [List.length_append, List.length_append, List.length_singleton, List.length_singleton])
  exact h (List.singleton_inj.mp (List.append_cancel_left heq))

theorem below_subset : below place steps ⊆ inside place := by
  rintro i ⟨c, -, hi⟩
  exact whole_step_subset hi

theorem below_disjoint (h : a ∉ steps) : Disjoint (whole (place ++ [a])) (below place steps) := by
  rw [Set.disjoint_left]
  rintro i hi ⟨c, hc, hic⟩
  have hne : a ≠ c := fun heq => h (heq ▸ hc)
  exact Set.disjoint_left.mp (whole_disjoint hne) hi hic

theorem get_disjoint_inside : Disjoint {Request.get place} (inside place) := by
  rw [Set.disjoint_singleton_left]
  exact fun h => h.2.1 rfl

theorem has_disjoint_reading : Disjoint {Request.has place} (reading place) := by
  rw [Set.disjoint_singleton_left]
  rintro (h | h)
  · cases h
  · exact h.2.2 rfl

theorem within_then {m : Capture α} {k : α → Capture β} {R : Set Request} (h : m.Within R) (hk : ∀ x, (k x).Within ∅) :
    (m >>= k).Within R := by
  have hbind := h.bind hk (Set.disjoint_empty _)
  rwa [Set.union_empty] at hbind

theorem within_answered {R : Set Request} (answer : Option α) : (answered place answer).Within R := by
  cases answer with
  | none => exact Call.within_throw
  | some v => exact Call.within_pure

theorem within_read : (read place).Within {.get place} := within_then Call.within_request within_answered

theorem within_has : (has place).Within {.has place} := within_then Call.within_request within_answered

theorem within_read_whole : (read place).Within (whole place) :=
  within_read.mono (Set.singleton_subset_iff.mpr get_mem_whole)

theorem within_readWith {next : Live → Capture α} (h : ∀ v, (next v).Within (inside place)) :
    (readWith place next).Within (reading place) := within_read.bind h get_disjoint_inside

theorem within_readWith_whole {next : Live → Capture α} (h : ∀ v, (next v).Within (inside place)) :
    (readWith place next).Within (whole place) := (within_readWith h).mono reading_subset

/-- One member after another. -/
theorem within_step {m : Capture α} {k : α → Capture β} (h : m.Within (whole (place ++ [a])))
    (hk : ∀ x, (k x).Within (below place steps)) (ha : a ∉ steps) : (m >>= k).Within (below place (a :: steps)) := by
  refine (h.bind hk (below_disjoint ha)).mono ?_
  rintro i (hi | ⟨c, hc, hi⟩)
  · exact ⟨a, List.mem_cons_self, hi⟩
  · exact ⟨c, List.mem_cons_of_mem _ hc, hi⟩

/-- An item for each step, looked into below it. -/
theorem within_items {γ : Type} {f : γ → Capture α} {xs : List γ} (step : γ → Step) (hstep : Function.Injective step)
    (hxs : xs.Nodup) (h : ∀ x ∈ xs, (f x).Within (whole (place ++ [step x]))) :
    (Call.forEach f xs).Within {i | ∃ x ∈ xs, i ∈ whole (place ++ [step x])} := by
  refine Call.within_forEach h (hxs.imp fun hne => whole_disjoint fun heq => ?_)
  exact hne (hstep heq)

theorem items_subset {γ : Type} {xs : List γ} (step : γ → Step) :
    {i | ∃ x ∈ xs, i ∈ whole (place ++ [step x])} ⊆ inside place := by
  rintro i ⟨x, -, hi⟩
  exact whole_step_subset hi

/-- One read for each key. -/
theorem within_readMembers {keys : List JsString} (hkeys : keys.Nodup) (keep : Live → Captured) :
    (readMembers place keys keep).Within {i | ∃ k ∈ keys, i ∈ whole (place ++ [Step.member k])} := by
  have hone : ∀ k ∈ keys, (readWith (place ++ [Step.member k]) fun v => pure (k, keep v)).Within (whole (place ++ [Step.member k])) :=
    fun k _ => within_readWith_whole fun _ => Call.within_pure
  exact within_items Step.member (fun _ _ h => Step.member.inj h) hkeys hone

/-- A copy of the listed members. -/
theorem within_copied {keys : List JsString} (hkeys : keys.Nodup) (keep : Live → Captured)
    (copy : List (JsString × Captured) → Captured) :
    (readMembers place keys keep >>= fun members => pure (copy members) : Capture Captured).Within (inside place) :=
  within_then ((within_readMembers hkeys keep).mono (items_subset Step.member)) fun _ => Call.within_pure

theorem within_copyArray {value : Live} {entry : Live → Place → Capture Captured}
    (h : ∀ (e : Live) (i : ℕ), (entry e (place ++ [Step.index i])).Within (inside (place ++ [Step.index i]))) :
    (copyArray value place entry).Within (inside place) := by
  have hone : ∀ i : ℕ, (readWith (place ++ [Step.index i]) fun e => entry e (place ++ [Step.index i])).Within
      (whole (place ++ [Step.index i])) := fun i => within_readWith_whole fun e => h e i
  have hitems : ∀ n, (Call.forEach (fun i => readWith (place ++ [Step.index i]) fun e => entry e (place ++ [Step.index i]))
      (List.range n) >>= fun items => pure (.list items) : Capture Captured).Within
        {j | ∃ i : ℕ, j ∈ whole (place ++ [Step.index i])} := by
    intro n
    have hall := within_items Step.index (fun _ _ h => Step.index.inj h) List.nodup_range fun i (_ : i ∈ List.range n) => hone i
    refine within_then (hall.mono ?_) fun _ => Call.within_pure
    rintro j ⟨i, -, hj⟩
    exact ⟨i, hj⟩
  have hrest : ∀ length : Live, (answered place (arrayLength length) >>= fun n =>
      Call.forEach (fun i => readWith (place ++ [Step.index i]) fun e => entry e (place ++ [Step.index i])) (List.range n) >>=
        fun items => pure (.list items) : Capture Captured).Within {j | ∃ i : ℕ, j ∈ whole (place ++ [Step.index i])} := by
    intro length
    have hanswered : (answered place (arrayLength length)).Within ∅ := within_answered (arrayLength length)
    have hbind := hanswered.bind hitems (Set.empty_disjoint _)
    rwa [Set.empty_union] at hbind
  have hapart : Disjoint (whole (place ++ [Step.length])) {j | ∃ i : ℕ, j ∈ whole (place ++ [Step.index i])} := by
    rw [Set.disjoint_left]
    rintro j hj ⟨i, hi⟩
    have hne : Step.length ≠ .index i := fun heq => by cases heq
    exact Set.disjoint_left.mp (whole_disjoint hne) hj hi
  unfold copyArray
  split
  · refine (within_read_whole.bind hrest hapart).mono ?_
    rintro j (hj | ⟨i, hj⟩)
    · exact whole_step_subset hj
    · exact whole_step_subset hj
  · exact Call.within_throw
  · exact Call.within_pure

theorem within_copyMembers {keys : List JsString} (hkeys : keys.Nodup) (anyObject : Bool) (value : Live) (place : Place) :
    (copyMembers keys anyObject value place).Within (inside place) := by
  unfold copyMembers
  split
  · exact within_copied hkeys .live .record
  · split
    · exact within_copied hkeys .live .record
    · exact Call.within_pure
  · split
    · exact Call.within_throw
    · exact Call.within_throw
  · exact Call.within_pure

theorem within_captureMethod (name : JsString) (value : Live) (place : Place) :
    (captureMethod name value place).Within (inside place) := by
  unfold captureMethod
  split
  · exact within_copied (List.nodup_singleton name) _ .record
  · exact Call.within_throw
  · exact Call.within_pure

theorem within_captureReplayStore (store : Live) (place : Place) : (captureReplayStore store place).Within (inside place) := by
  have hstore : ∀ s, (readMembers place replayStoreMembers (withReceiver s) >>= fun members =>
      Call.request (.ephemeral place) >>= fun ephemeral => pure (Captured.store members ephemeral) :
        Capture Captured).Within (inside place) := by
    intro s
    have hnodup : replayStoreMembers.Nodup := by decide
    have hmembers : (readMembers place replayStoreMembers (withReceiver s)).Within
        {i | ∃ k ∈ replayStoreMembers, i ∈ whole (place ++ [Step.member k])} := within_readMembers hnodup _
    have hlast : ∀ members, (Call.request (.ephemeral place) >>= fun ephemeral => pure (Captured.store members ephemeral) :
        Capture Captured).Within {Request.ephemeral place} := fun members =>
      within_then Call.within_request fun _ => Call.within_pure
    have hapart : Disjoint {i | ∃ k ∈ replayStoreMembers, i ∈ whole (place ++ [Step.member k])} {Request.ephemeral place} := by
      rw [Set.disjoint_singleton_right]
      rintro ⟨k, -, q, hq, hpre⟩
      obtain rfl := Option.some.inj hq
      have hlen := hpre.length_le
      rw [List.length_append, List.length_singleton] at hlen
      omega
    refine (hmembers.bind hlast hapart).mono ?_
    rintro i (⟨k, -, hi⟩ | rfl)
    · exact whole_step_subset hi
    · refine ⟨⟨place, rfl, List.prefix_rfl⟩, ?_, ?_⟩
      · intro h
        cases h
      · intro h
        cases h
  unfold captureReplayStore
  split
  · exact hstore _
  · exact hstore _
  · exact hstore _
  · exact Call.within_throw
  · exact Call.within_pure

theorem within_captureReplayProtection (value : Live) (place : Place) :
    (captureReplayProtection value place).Within (inside place) := by
  unfold captureReplayProtection
  split
  · have hinner : ∀ store, (captureReplayStore store (place ++ [Step.member (js "store")])).Within
        (inside (place ++ [Step.member (js "store")])) := fun store => within_captureReplayStore store _
    have hstore := within_readWith hinner
    refine Call.Within.mono (R := below place [.member (js "mode"), .member (js "store")]) ?_ below_subset
    refine within_step within_read_whole (fun mode => ?_) (by decide)
    refine (Call.Within.bind (S := reading (place ++ [Step.member (js "store")])) within_has (fun carries => ?_)
      has_disjoint_reading).mono ?_
    · cases carries with
      | false => exact Call.within_pure
      | true => exact within_then hstore fun _ => Call.within_pure
    · rintro i (rfl | hi)
      · exact ⟨_, List.mem_singleton_self _, has_mem_whole⟩
      · exact ⟨_, List.mem_singleton_self _, reading_subset hi⟩
  · exact Call.within_throw
  · exact Call.within_pure

theorem within_captureKeySet (value : Live) (place : Place) : (captureKeySet value place).Within (inside place) := by
  have hkeys : keySetKeyMembers.Nodup := by decide
  unfold captureKeySet
  split
  · refine Call.Within.mono (R := below place [.member (js "issuer"), .member (js "version"), .member (js "keys")]) ?_
      below_subset
    refine within_step within_read_whole (fun issuer => ?_) (by decide)
    refine within_step within_read_whole (fun version => ?_) (by decide)
    refine within_step (within_readWith_whole fun keys => ?_) (fun _ => Call.within_pure) List.not_mem_nil
    exact within_copyArray fun e i => within_copyMembers hkeys false e _
  · exact Call.within_throw
  · exact Call.within_pure

theorem within_captureKeySets (value : Live) (place : Place) : (captureKeySets value place).Within (inside place) := by
  unfold captureKeySets
  split
  · exact within_copyArray fun e i => within_captureKeySet e _
  · exact Call.within_throw
  · exact within_captureKeySet value place

theorem within_captureScope (value : Live) (place : Place) : (captureScope value place).Within (inside place) := by
  unfold captureScope
  split
  · refine Call.Within.mono (R := below place [.member (js "krlIssuer"), .member (js "keyIssuers")]) ?_ below_subset
    refine within_step within_read_whole (fun krlIssuer => ?_) (by decide)
    refine within_step (within_readWith_whole fun issuers => ?_) (fun _ => Call.within_pure) List.not_mem_nil
    exact within_copyArray fun _ _ => Call.within_pure
  · exact Call.within_throw
  · exact Call.within_pure

theorem within_captureRevocation (value : Live) (place : Place) : (captureRevocation value place).Within (inside place) := by
  unfold captureRevocation
  split
  · refine Call.Within.mono (R := below place [.member (js "trustedKrlKeySets"), .member (js "scopes"),
      .member (js "provider"), .member (js "watermarkStore")]) ?_ below_subset
    refine within_step (within_readWith_whole fun sets => within_captureKeySets sets _) (fun sets => ?_) (by decide)
    refine within_step (within_readWith_whole fun scopes => ?_) (fun _ => ?_) (by decide)
    · exact within_copyArray fun e i => within_captureScope e _
    refine within_step within_read_whole (fun provider => ?_) (by decide)
    exact within_step (within_readWith_whole fun store => within_captureMethod _ store _) (fun _ => Call.within_pure)
      List.not_mem_nil
  · exact Call.within_throw
  · exact Call.within_pure

theorem within_captureOption (config : ℕ) (key : JsString) (value : Live) :
    (captureOption config key value).Within (inside [.member key]) := by
  have hsigners : signerMembers.Nodup := by decide
  have hauthorities : authorityMembers.Nodup := by decide
  unfold captureOption
  split
  · exact within_captureReplayProtection value _
  split
  · exact within_captureReplayStore value _
  split
  · exact within_copyArray fun e i => within_copyMembers hsigners false e _
  split
  · exact within_copyArray fun e i => within_copyMembers hauthorities true e _
  split
  · exact within_captureMethod _ value _
  split
  · exact within_captureRevocation value _
  split
  · exact Call.within_pure
  · exact Call.within_pure

theorem within_assert (pass : ℕ) : (assertIntrinsicsUnpolluted pass).Within {Request.intrinsics pass} := by
  refine within_then Call.within_request fun names => ?_
  split
  · exact Call.within_throw
  · exact Call.within_pure

/-- What the capture may ask. -/
def capturing : Set Request := {i | ∀ place, i ≠ .revoked place}

theorem inside_capturing : inside place ⊆ capturing := by
  rintro i ⟨⟨q, hq, -⟩, -⟩ place rfl
  cases hq

theorem intrinsics_not_inside (pass : ℕ) : Request.intrinsics pass ∉ inside place := by
  rintro ⟨⟨q, hq, -⟩, -⟩
  cases hq

theorem within_assert_capturing (pass : ℕ) : (assertIntrinsicsUnpolluted pass).Within capturing := by
  refine (within_assert pass).mono (Set.singleton_subset_iff.mpr fun place h => ?_)
  cases h

/-- Every option, between two looks at the prototypes. -/
theorem within_options (c : ℕ) : (assertIntrinsicsUnpolluted 0 >>= fun _ =>
    Call.forEach (fun key => readWith [.member key] fun value => do
      let captured ← captureOption c key value
      pure (key, captured)) configFields >>= fun entries =>
    assertIntrinsicsUnpolluted 1 >>= fun _ => pure entries : Capture (List (JsString × Captured))).Within capturing := by
  have hfields : configFields.Nodup := by decide
  have hone : ∀ key ∈ configFields, (readWith [.member key] fun value => do
      let captured ← captureOption c key value
      pure (key, captured) : Capture (JsString × Captured)).Within (whole ([] ++ [Step.member key])) := fun key _ =>
    within_readWith_whole fun value => within_then (within_captureOption c key value) fun _ => Call.within_pure
  have hread := (within_items Step.member (fun _ _ h => Step.member.inj h) hfields hone).mono (items_subset Step.member)
  have hlast : ∀ entries : List (JsString × Captured), (assertIntrinsicsUnpolluted 1 >>= fun _ => pure entries :
      Capture (List (JsString × Captured))).Within {Request.intrinsics 1} := fun entries =>
    within_then (within_assert 1) fun _ => Call.within_pure
  have hrest := hread.bind hlast (Set.disjoint_singleton_right.mpr (intrinsics_not_inside 1))
  have hapart : Disjoint {Request.intrinsics 0} (inside [] ∪ {Request.intrinsics 1}) := by
    rw [Set.disjoint_singleton_left]
    rintro (h | h)
    · exact intrinsics_not_inside 0 h
    · cases h
  refine ((within_assert 0).bind (fun _ => hrest) hapart).mono ?_
  rintro i (rfl | hi | rfl) place
  · intro h
    cases h
  · exact inside_capturing hi place
  · intro h
    cases h

theorem within_capture (config : Live) : (captureSecureGuardConfig config).Within capturing := by
  unfold captureSecureGuardConfig
  split
  · exact within_options _
  · exact within_options _
  · exact within_then (within_assert_capturing 0) fun _ => Call.within_throw
  · exact Call.within_throw

/-- What is answered where nobody answers otherwise. -/
def inert : (i : Request) → Answer i
  | .get _ => some .undefined
  | .has _ => some false
  | .ephemeral _ => false
  | .intrinsics _ => ⟨[], [], []⟩
  | .revoked _ => false

theorem ends_unpolluted {reply : (i : Request) → Answer i} {pass : ℕ} {u : PUnit}
    (h : Call.ends reply (assertIntrinsicsUnpolluted pass) = .ok u) : polluted (reply (.intrinsics pass)) = none := by
  obtain ⟨names, hnames, hrest⟩ := Call.ends_bind_ok.mp h
  obtain rfl := Except.ok.inj hnames
  cases hpolluted : polluted (reply (.intrinsics pass)) with
  | none => rfl
  | some found =>
    rw [hpolluted] at hrest
    cases Call.ends_throw.symm.trans hrest

/-- Between two looks at the prototypes every option is read. -/
theorem captured_passes {reply : (i : Request) → Answer i} {config : Live} {raw : List (JsString × Captured)}
    (h : Call.ends reply (captureSecureGuardConfig config) = .ok raw) :
    polluted (reply (.intrinsics 0)) = none ∧ polluted (reply (.intrinsics 1)) = none ∧ ∃ c,
      Call.ends reply (Call.forEach (fun key => readWith [.member key] fun value => do
        let captured ← captureOption c key value
        pure (key, captured)) configFields) = .ok raw := by
  have hcapture : ∀ c : ℕ, Call.ends reply (assertIntrinsicsUnpolluted 0 >>= fun _ =>
      Call.forEach (fun key => readWith [.member key] fun value => do
        let captured ← captureOption c key value
        pure (key, captured)) configFields >>= fun entries =>
      assertIntrinsicsUnpolluted 1 >>= fun _ => pure entries : Capture (List (JsString × Captured))) = .ok raw →
      polluted (reply (.intrinsics 0)) = none ∧ polluted (reply (.intrinsics 1)) = none ∧
        Call.ends reply (Call.forEach (fun key => readWith [.member key] fun value => do
          let captured ← captureOption c key value
          pure (key, captured)) configFields) = .ok raw := by
    intro c hc
    obtain ⟨_, hfirst, hrest⟩ := Call.ends_bind_ok.mp hc
    obtain ⟨entries, hentries, hlast⟩ := Call.ends_bind_ok.mp hrest
    obtain ⟨_, hsecond, hpure⟩ := Call.ends_bind_ok.mp hlast
    obtain rfl := Except.ok.inj (Call.ends_pure.symm.trans hpure)
    exact ⟨ends_unpolluted hfirst, ends_unpolluted hsecond, hentries⟩
  cases config with
  | object c =>
    obtain ⟨hfirst, hsecond, hread⟩ := hcapture c h
    exact ⟨hfirst, hsecond, c, hread⟩
  | array c =>
    obtain ⟨hfirst, hsecond, hread⟩ := hcapture c h
    exact ⟨hfirst, hsecond, c, hread⟩
  | revoked callable id =>
    cases callable with
    | false =>
      obtain ⟨_, -, hrest⟩ := Call.ends_bind_ok.mp h
      cases Call.ends_throw.symm.trans hrest
    | true => cases Call.ends_throw.symm.trans h
  | _ => cases Call.ends_throw.symm.trans h

theorem captured_keys {reply : (i : Request) → Answer i} {config : Live} {raw : List (JsString × Captured)}
    (h : Call.ends reply (captureSecureGuardConfig config) = .ok raw) : raw.map Prod.fst = configFields := by
  obtain ⟨-, -, c, hentries⟩ := captured_passes h
  have hall := Call.ends_forEach_ok.mp hentries
  have hkeys : List.Forall₂ (fun key (entry : JsString × Captured) => key = entry.1) configFields raw := by
    refine hall.imp fun key entry hentry => ?_
    obtain ⟨value, -, hvalue⟩ := Call.ends_bind_ok.mp hentry
    obtain ⟨captured, -, hpure⟩ := Call.ends_bind_ok.mp hvalue
    obtain rfl := Except.ok.inj (Call.ends_pure.symm.trans hpure)
    rfl
  have heq := List.forall₂_map_right_iff.mpr hkeys
  rw [List.forall₂_eq_eq_eq] at heq
  exact heq.symm

/-- Nothing is read twice: whatever its objects answer, a configuration is captured as a fixed
table of those answers is, and never with a name that a read would inherit. -/
theorem captureSecureGuardConfig_once (config : Live) {evs : List (Sigma Answer)}
    {r : Except CaptureError (List (JsString × Captured))} (hp : Path (captureSecureGuardConfig config ⟨⟩) evs (.done (r, ⟨⟩))) :
    (evs.map Sigma.fst).Nodup ∧ ∃ reply, Gives reply evs ∧ Call.ends reply (captureSecureGuardConfig config) = r ∧
      ∀ raw, r = .ok raw → polluted (reply (.intrinsics 0)) = none ∧ polluted (reply (.intrinsics 1)) = none := by
  obtain ⟨hnodup, reply, hreply, hends⟩ := (within_capture config).table inert hp ⟨⟩
  have hr : Call.ends reply (captureSecureGuardConfig config) = r := congrArg Prod.fst hends
  refine ⟨hnodup, reply, hreply, hr, fun raw hraw => ?_⟩
  obtain ⟨hfirst, hsecond, -⟩ := captured_passes (hr.trans hraw)
  exact ⟨hfirst, hsecond⟩

def protectionPlace : Place := [.member (js "replayProtection")]

/-- A shared store, declared by a configuration that answers the same each time. -/
def sharedAnswers : (i : Request) → Answer i
  | .get place =>
    if place = protectionPlace then some (.object 1)
    else if place = protectionPlace ++ [Step.member (js "mode")] then some (.str (js "shared"))
    else if place = protectionPlace ++ [Step.member (js "store")] then some (.object 2)
    else if place = protectionPlace ++ [Step.member (js "store"), .member (js "consumeAuthId")] then some (.function 3)
    else some .undefined
  | .has _ => some true
  | .ephemeral _ => false
  | .intrinsics _ => ⟨[], [], []⟩
  | .revoked _ => false

theorem captures_sharedAnswers : ∃ raw, Call.ends sharedAnswers (captureSecureGuardConfig (.object 0)) = .ok raw := by
  have hok : (Call.ends sharedAnswers (captureSecureGuardConfig (.object 0))).isOk = true := by decide +kernel
  cases hends : Call.ends sharedAnswers (captureSecureGuardConfig (.object 0)) with
  | error e =>
    rw [hends] at hok
    cases hok
  | ok raw => exact ⟨raw, rfl⟩

theorem captureSecureGuardConfig_once_sample : ∃ (evs : List (Sigma Answer)) (reply : (i : Request) → Answer i)
    (raw : List (JsString × Captured)), (evs.map Sigma.fst).Nodup ∧ Gives reply evs ∧
      Call.ends reply (captureSecureGuardConfig (.object 0)) = .ok raw ∧ raw.map Prod.fst = configFields ∧
        polluted (reply (.intrinsics 0)) = none ∧ polluted (reply (.intrinsics 1)) = none := by
  obtain ⟨raw, hraw⟩ := captures_sharedAnswers
  obtain ⟨evs, hpath, -⟩ := Call.ends_path sharedAnswers (captureSecureGuardConfig (.object 0))
  obtain ⟨hnodup, reply, hreply, hends, hclean⟩ := captureSecureGuardConfig_once (.object 0) hpath
  obtain ⟨hfirst, hsecond⟩ := hclean raw hraw
  exact ⟨evs, reply, raw, hnodup, hreply, hends.trans hraw, captured_keys hraw, hfirst, hsecond⟩

end

end OxDeAI.SecureConfig
