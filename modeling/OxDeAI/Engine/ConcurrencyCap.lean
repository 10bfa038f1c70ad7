import OxDeAI.Engine.IntentHash
import OxDeAI.Engine.LeaseTable
import OxDeAI.Engine.ReplaySafety

/-! How many authorizations of an agent are outstanding at a time: every one
issued and neither released nor expired still holds a lease of its own. -/

namespace OxDeAI

open Js Run

/-- The authorizations of an agent that are issued and not released, after one
more evaluation. -/
def Evaluation.track (agent : JsString) (held : List Authorization) (ev : Evaluation) :
    List Authorization :=
  if ev.executes agent then held ++ ev.authorization?.toList
  else if ev.releases agent then
    held.filter (fun auth => ev.intent.authorizationId ≠ some auth.authId)
  else held

def issuedUnreleased (agent : JsString) (evs : List Evaluation) : List Authorization :=
  evs.foldl (Evaluation.track agent) []

/-- Those that have not reached their expiry either. -/
def outstanding (agent : JsString) (evs : List Evaluation) (t : JsNumber) : List Authorization :=
  (issuedUnreleased agent evs).filter (fun auth => !t.ge auth.expiry)

theorem issuedUnreleased_snoc (agent : JsString) (evs : List Evaluation) (ev : Evaluation) :
    issuedUnreleased agent (evs ++ [ev]) = ev.track agent (issuedUnreleased agent evs) := by
  simp [issuedUnreleased, List.foldl_append]

theorem ge_int_trans {t : JsNumber} {m n : ℤ} (h : t.ge (.int n) = true) (hle : m ≤ n) :
    t.ge (.int m) = true := by
  cases t with
  | int z =>
    simp only [JsNumber.ge_int, decide_eq_true_eq] at h ⊢
    omega
  | frac q hq =>
    simp only [JsNumber.ge, JsNumber.isNaN, JsNumber.lt, Bool.not_false, Bool.true_and,
      Bool.not_eq_true', decide_eq_false_iff_not, not_lt] at h ⊢
    have hq' : (m : ℚ) ≤ n := by exact_mod_cast hle
    exact hq'.trans h
  | nan => exact h
  | posInf => exact h
  | negInf => exact h

section

variable {P : Platform} {e : PolicyEngine} {s s' : State × AuditLog} {ev prev : Evaluation}
  {c c' : Charge} {parts parts' : AuthorizationParts}

/-- Ids that are digests are in hexadecimal. -/
theorem AllowedStep.authId_ne_proto (hP : PlatformLaws P) (h : AllowedStep P e ev c parts) :
    parts.authorizationId ≠ protoKey := by
  intro hid
  obtain ⟨-, hdigest⟩ := sha256HexFromJson_ok.mp h.permitted.issued.authorizationId
  have hhex : parts.authorizationId.all isHexUnit = true := hdigest ▸ digest_hex hP _
  rw [hid] at hhex
  exact absurd hhex (by decide)

/-- One id, one intent hash. -/
theorem intentHash_eq_of_authId (hP : PlatformLaws P) (hprev : AllowedStep P e prev c parts)
    (hev : AllowedStep P e ev c' parts') (hid : parts.authorizationId = parts'.authorizationId) :
    parts.intentHash = parts'.intentHash := by
  obtain ⟨hc, hd⟩ := sha256HexFromJson_ok.mp hprev.permitted.issued.authorizationId
  obtain ⟨hc', hd'⟩ := sha256HexFromJson_ok.mp hev.permitted.issued.authorizationId
  have hnf := (digest_eq_iff hP.injective hc hc').mp (hd.symm.trans (hid.trans hd'))
  have hmembers : ∀ {es : List (JsString × JsValue)}, Canonical P.nfc (.obj es) →
      CanonicalMembers P.nfc es := by
    intro es h
    cases h
    assumption
  have hin : ∀ (i : Intent) (h sh sig : JsString) (t x : JsNumber), (js "intent_hash", JsValue.str h) ∈
      authorizationCore P e i h sh [] t x ++ [(js "engine_signature", JsValue.str sig)] := by
    intros
    simp [authorizationCore]
  have hfield := normalForm_member (hmembers hc) (hmembers hc') hnf (hin _ _ _ _ _ _) (hin _ _ _ _ _ _) rfl
  have hascii : ∀ {i : Intent} {h : JsString}, intentHash P i = .ok h → P.nfc h = h := by
    intro i h hh
    obtain ⟨-, rfl⟩ := intentHash_ok.mp hh
    exact hP.nfc.ascii _ (isAscii_of_hex (digest_hex hP _))
  simpa [normalForm, hascii hprev.permitted.hash, hascii hev.permitted.hash] using hfield

/-- Two allowed intents of one agent under one id are one intent presented twice. -/
theorem sameNonce_of_authId (hP : PlatformLaws P) (hprev : AllowedStep P e prev c parts)
    (hev : AllowedStep P e ev c' parts') (hid : parts.authorizationId = parts'.authorizationId)
    (hagent : prev.intent.agentId = ev.intent.agentId) : SameNonce prev ev := by
  have hhash := intentHash_eq_of_authId hP hprev hev hid
  have hsame := sameBinding_of_intentHash hP hprev.permitted.hash (hhash ▸ hev.permitted.hash)
  exact ⟨hagent, hsame.nonce, hsame.timestamp⟩

theorem AllowedStep.expiry_int (h : AllowedStep P e ev c parts) {auth : Authorization}
    (hauth : ev.authorization? = some auth) : ∃ m : ℕ, auth.expiry = .int m := by
  obtain ⟨n, ttl, -, -, -, -, hadd⟩ := h.permitted.clock.exists_seconds
  have heq := Option.some.inj (hauth.symm.trans h.authorization)
  exact ⟨n + ttl, by rw [heq]; exact hadd⟩

/-- What links the outstanding authorizations of a history to the state it
reached. -/
structure CapInvariant (P : Platform) (e : PolicyEngine) (agent : JsString) (evs : List Evaluation)
    (state : State) : Prop where
  allowed : ∀ ev ∈ evs, ev.isAllowed = true → ∃ c parts, AllowedStep P e ev c parts
  source : ∀ auth ∈ issuedUnreleased agent evs, ∃ ev ∈ evs,
    ev.executes agent = true ∧ ev.authorization? = some auth
  nodup : ((issuedUnreleased agent evs).map Authorization.authId).Nodup
  leased : ∀ t, (∀ ev ∈ evs, ev.evaluationTime.le t = true) → ∀ auth ∈ outstanding agent evs t,
    (residentLeases state agent).own? auth.authId = some ⟨auth.expiry⟩
  bound : ∀ t, (∀ ev ∈ evs, ev.evaluationTime.le t = true) → outstanding agent evs t ≠ [] →
    ∃ max : ℕ, state.concurrency.maxConcurrent.own? agent = some (.int max) ∧
      (outstanding agent evs t).length ≤ max

section

variable {agent : JsString} {evs : List Evaluation}

/-- A step that neither issues nor releases for the agent changes nothing for it. -/
theorem CapInvariant.unchanged {a b : State} (h : CapInvariant P e agent evs a)
    (hallowed : ev.isAllowed = true → ∃ c parts, AllowedStep P e ev c parts)
    (htrack : ev.track agent (issuedUnreleased agent evs) = issuedUnreleased agent evs)
    (hleases : residentLeases b agent = residentLeases a agent)
    (hmax : b.concurrency.maxConcurrent = a.concurrency.maxConcurrent) :
    CapInvariant P e agent (evs ++ [ev]) b := by
  have hissued : issuedUnreleased agent (evs ++ [ev]) = issuedUnreleased agent evs := by
    rw [issuedUnreleased_snoc, htrack]
  have hout : ∀ t, outstanding agent (evs ++ [ev]) t = outstanding agent evs t := by
    intro t
    rw [outstanding, outstanding, hissued]
  have htime : ∀ t, (∀ ev' ∈ evs ++ [ev], ev'.evaluationTime.le t = true) →
      ∀ ev' ∈ evs, ev'.evaluationTime.le t = true :=
    fun t ht ev' hev' => ht ev' (List.mem_append_left _ hev')
  refine ⟨?_, ?_, ?_, ?_, ?_⟩
  · intro ev' hev'
    rcases List.mem_append.mp hev' with hev' | hev'
    · exact h.allowed ev' hev'
    · obtain rfl := List.mem_singleton.mp hev'
      exact hallowed
  · intro auth hauth
    rw [hissued] at hauth
    obtain ⟨ev', hev', hx⟩ := h.source auth hauth
    exact ⟨ev', List.mem_append_left _ hev', hx⟩
  · rw [hissued]
    exact h.nodup
  · intro t ht auth hauth
    rw [hout] at hauth
    rw [hleases]
    exact h.leased t (htime t ht) auth hauth
  · intro t ht hne
    rw [hout] at hne
    rw [hout, hmax]
    exact h.bound t (htime t ht) hne

/-- What is outstanding later was outstanding before. -/
theorem CapInvariant.live_before {a : State} (h : CapInvariant P e agent evs a) {n : ℕ}
    {t : JsNumber} (ht : t.ge (.int n) = true) {auth : Authorization}
    (hauth : auth ∈ issuedUnreleased agent evs) (hlive : t.ge auth.expiry = false) :
    (JsNumber.int n).ge auth.expiry = false := by
  obtain ⟨ev', hev', hx, hauth'⟩ := h.source auth hauth
  obtain ⟨c, parts, ha⟩ := h.allowed ev' hev' (executes_iff.mp hx).1
  obtain ⟨m, hm⟩ := ha.expiry_int hauth'
  rw [hm] at hlive ⊢
  by_contra hge
  rw [Bool.not_eq_false, JsNumber.ge_int, decide_eq_true_eq] at hge
  rw [ge_int_trans ht hge] at hlive
  cases hlive

/-- The leases of outstanding authorizations survive the reclamation. -/
theorem CapInvariant.live_leases (hP : PlatformLaws P) {a : State}
    (h : CapInvariant P e agent evs a) {t : JsNumber}
    (ht : ∀ ev ∈ evs, ev.evaluationTime.le t = true) {auth : Authorization}
    (hauth : auth ∈ outstanding agent evs t) :
    (liveLeases t (residentLeases a agent)).own? auth.authId = some ⟨auth.expiry⟩ := by
  obtain ⟨hissued, hlive⟩ := List.mem_filter.mp hauth
  obtain ⟨ev', hev', hx, hauth'⟩ := h.source auth hissued
  obtain ⟨c, parts, ha⟩ := h.allowed ev' hev' (executes_iff.mp hx).1
  have hid : auth.authId ≠ protoKey := by
    rw [Option.some.inj (hauth'.symm.trans ha.authorization)]
    exact ha.authId_ne_proto hP
  rw [own?_liveLeases, if_neg hid, liveAt, Record.own?_filter]
  exact ⟨h.leased t ht auth hauth, hlive⟩

theorem CapInvariant.length_le_live (hP : PlatformLaws P) {a : State}
    (h : CapInvariant P e agent evs a) {t : JsNumber}
    (ht : ∀ ev ∈ evs, ev.evaluationTime.le t = true) :
    (outstanding agent evs t).length ≤ (liveLeases t (residentLeases a agent)).size := by
  have hnd : ((outstanding agent evs t).map Authorization.authId).Nodup :=
    h.nodup.sublist (List.filter_sublist.map _)
  have hsub : (outstanding agent evs t).map Authorization.authId ⊆
      (liveLeases t (residentLeases a agent)).keys := by
    intro id hid
    obtain ⟨auth, hauth, rfl⟩ := List.mem_map.mp hid
    rw [Record.mem_keys, h.live_leases hP ht hauth]
    rfl
  have hlen := (hnd.subperm hsub).length_le
  rwa [List.length_map, Record.length_keys] at hlen

/-- The capacity check leaves room for one more lease. -/
theorem AllowedStep.room (h : AllowedStep P e ev c parts) (hk : ev.intent.kind = .execute) {max : ℕ}
    (hmax : ev.before.concurrency.maxConcurrent.own? ev.intent.agentId = some (.int max))
    (hdouble : (JsNumber.int max).IsDouble) :
    (liveLeases ev.evaluationTime (residentLeases ev.before ev.intent.agentId)).size + 1 ≤ max := by
  obtain ⟨m, n, hc⟩ := h.counts
  have hcap := (h.permitted.admitted.execute hk).capacity _ hmax
  have hremoved : c.removed =
      expiredCount ev.evaluationTime (residentLeases ev.before ev.intent.agentId) := by
    rcases h.transition with ⟨-, -, hr⟩ | ⟨hr, -⟩
    · exact hr
    · rw [hk] at hr
      cases hr
  have htracked : (residentLeases ev.before ev.intent.agentId).size ≤ n := h.le_count hc.count
  have hsize := size_resident ev.evaluationTime (residentLeases ev.before ev.intent.agentId)
  rw [hc.count, hremoved] at hcap
  by_contra hlt
  have hle : max ≤ n - expiredCount ev.evaluationTime (residentLeases ev.before ev.intent.agentId) := by
    omega
  have hsub : (JsNumber.int n).sub
      (.int (expiredCount ev.evaluationTime (residentLeases ev.before ev.intent.agentId))) =
      JsNumber.round ((n - expiredCount ev.evaluationTime
        (residentLeases ev.before ev.intent.agentId) : ℕ) : ℚ) := by
    rw [JsNumber.sub_of_toRat? (x := .int _) rfl, Nat.cast_sub (by omega)]
    simp
  rw [hsub, JsNumber.ge_of_isDouble hdouble hle] at hcap
  cases hcap

/-- An execution adds its own lease, under an id of its own. -/
theorem CapInvariant.execute (hP : PlatformLaws P) (h : CapInvariant P e agent evs ev.before)
    (hev : AllowedStep P e ev c parts) (hx : ev.executes agent = true)
    (hclock : ∀ prev ∈ evs, prev.evaluationTime.le ev.evaluationTime = true)
    (honce : ∀ prev ∈ evs, SameNonce prev ev → ¬ (prev.isAllowed = true ∧ ev.isAllowed = true))
    (hdouble : ∀ max, ev.before.concurrency.maxConcurrent.own? agent = some max → max.IsDouble) :
    CapInvariant P e agent (evs ++ [ev]) ev.after := by
  obtain ⟨hallowed, hk, hagent⟩ := executes_iff.mp hx
  obtain ⟨n, hn, -⟩ := hev.exists_time
  obtain ⟨max, active, hcounts⟩ := hev.counts
  have hnew : ev.authorization? = some (authorizationFor P e ev.intent ev.before ev.evaluationTime parts) :=
    hev.authorization
  have hissued : issuedUnreleased agent (evs ++ [ev]) = issuedUnreleased agent evs ++
      [authorizationFor P e ev.intent ev.before ev.evaluationTime parts] := by
    rw [issuedUnreleased_snoc, Evaluation.track, if_pos hx, hnew]
    rfl
  have hfresh : ∀ auth ∈ issuedUnreleased agent evs, auth.authId ≠ parts.authorizationId := by
    intro auth hauth hid
    obtain ⟨prev, hprev, hxp, hauthp⟩ := h.source auth hauth
    obtain ⟨hap, -, hagentp⟩ := executes_iff.mp hxp
    obtain ⟨c', parts', hp⟩ := h.allowed prev hprev hap
    have hidp : parts'.authorizationId = parts.authorizationId := by
      rw [Option.some.inj (hauthp.symm.trans hp.authorization)] at hid
      exact hid
    have hsame := sameNonce_of_authId hP hp hev hidp (hagentp.trans hagent.symm)
    exact honce prev hprev hsame ⟨hap, hallowed⟩
  have htable : residentLeases ev.after agent =
      (liveLeases ev.evaluationTime (residentLeases ev.before agent)).set parts.authorizationId
        ⟨ev.evaluationTime.add e.authorizationTtl⟩ := by
    have hafter := hev.residentLeases_after
    rcases hev.transition with ⟨-, ha, -⟩ | ⟨hr, -⟩
    · rw [hk, ha, hagent] at hafter
      exact hafter
    · rw [hk] at hr
      cases hr
  have hlater : ∀ t, ev.evaluationTime.le t = true → ∀ auth ∈ issuedUnreleased agent evs,
      t.ge auth.expiry = false → auth ∈ outstanding agent evs ev.evaluationTime := by
    intro t ht auth hauth hlive
    rw [hn] at ht ⊢
    have hb := h.live_before ht hauth hlive
    exact List.mem_filter.mpr ⟨hauth, by simp [hb]⟩
  refine ⟨?_, ?_, ?_, ?_, ?_⟩
  · intro ev' hev'
    rcases List.mem_append.mp hev' with hev' | hev'
    · exact h.allowed ev' hev'
    · obtain rfl := List.mem_singleton.mp hev'
      exact fun _ => ⟨c, parts, hev⟩
  · intro auth hauth
    rw [hissued] at hauth
    rcases List.mem_append.mp hauth with hauth | hauth
    · obtain ⟨ev', hev', hx'⟩ := h.source auth hauth
      exact ⟨ev', List.mem_append_left _ hev', hx'⟩
    · obtain rfl := List.mem_singleton.mp hauth
      exact ⟨ev, by simp, hx, hnew⟩
  · rw [hissued, List.map_append, List.nodup_append]
    refine ⟨h.nodup, List.nodup_singleton _, ?_⟩
    intro id hid id' hid'
    obtain ⟨auth, hauth, rfl⟩ := List.mem_map.mp hid
    obtain rfl := List.mem_singleton.mp hid'
    exact hfresh auth hauth
  · intro t ht auth hauth
    obtain ⟨hin, hlive⟩ := List.mem_filter.mp hauth
    rw [hissued] at hin
    rw [htable, Record.own?_set]
    rcases List.mem_append.mp hin with hin | hin
    · have hout := hlater t (ht ev (by simp)) auth hin (by simpa using hlive)
      rw [if_neg (hfresh auth hin)]
      exact h.live_leases hP hclock hout
    · obtain rfl := List.mem_singleton.mp hin
      exact if_pos rfl
  · intro t ht _
    have hle : (outstanding agent (evs ++ [ev]) t).length ≤
        (outstanding agent evs ev.evaluationTime).length + 1 := by
      rw [outstanding, hissued, List.filter_append, List.length_append]
      have hfst : ((issuedUnreleased agent evs).filter (fun auth => !t.ge auth.expiry)).length ≤
          (outstanding agent evs ev.evaluationTime).length := by
        rw [outstanding, ← List.countP_eq_length_filter, ← List.countP_eq_length_filter]
        apply List.countP_mono_left
        intro auth hauth hlive
        exact (List.mem_filter.mp (hlater t (ht ev (by simp)) auth hauth (by simpa using hlive))).2
      have hsnd := List.length_filter_le (fun auth : Authorization => !t.ge auth.expiry)
        [authorizationFor P e ev.intent ev.before ev.evaluationTime parts]
      rw [List.length_singleton] at hsnd
      omega
    have hlive := h.length_le_live hP hclock
    have hroom := hev.room hk hcounts.cap (hdouble _ (hagent ▸ hcounts.cap))
    rw [hagent] at hroom
    refine ⟨max, ?_, by omega⟩
    rw [hev.after, nextStateFor_maxConcurrent, ← hagent]
    exact hcounts.cap

/-- A release takes out the lease it names and keeps the others. -/
theorem CapInvariant.release (hP : PlatformLaws P) (h : CapInvariant P e agent evs ev.before)
    (hev : AllowedStep P e ev c parts) (hr : ev.releases agent = true)
    (hclock : ∀ prev ∈ evs, prev.evaluationTime.le ev.evaluationTime = true) :
    CapInvariant P e agent (evs ++ [ev]) ev.after := by
  obtain ⟨-, hk, hagent⟩ := releases_iff.mp hr
  obtain ⟨n, hn, -⟩ := hev.exists_time
  have hx : ev.executes agent = false := by simp [Evaluation.executes, hk]
  have hissued : issuedUnreleased agent (evs ++ [ev]) = (issuedUnreleased agent evs).filter
      (fun auth => ev.intent.authorizationId ≠ some auth.authId) := by
    rw [issuedUnreleased_snoc, Evaluation.track, hx, if_neg (by simp), if_pos hr]
  obtain ⟨id, hid, htable⟩ : ∃ id, ev.intent.authorizationId = some id ∧
      residentLeases ev.after agent =
        (liveLeases ev.evaluationTime (residentLeases ev.before agent)).without id := by
    have hafter := hev.residentLeases_after
    rcases hev.transition with ⟨hr', -⟩ | ⟨-, id, hid, -, -, ha, -⟩
    · rw [hk] at hr'
      cases hr'
    · rw [hk, ha, hagent] at hafter
      exact ⟨id, hid, hafter⟩
  have hlater : ∀ t, ev.evaluationTime.le t = true → ∀ auth ∈ outstanding agent (evs ++ [ev]) t,
      auth ∈ outstanding agent evs ev.evaluationTime ∧ auth.authId ≠ id := by
    intro t ht auth hauth
    obtain ⟨hin, hlive⟩ := List.mem_filter.mp hauth
    rw [hissued] at hin
    obtain ⟨hin, hne⟩ := List.mem_filter.mp hin
    rw [hn] at ht ⊢
    have hb := h.live_before ht hin (by simpa using hlive)
    refine ⟨List.mem_filter.mpr ⟨hin, by simp [hb]⟩, ?_⟩
    rintro rfl
    simp [hid] at hne
  refine ⟨?_, ?_, ?_, ?_, ?_⟩
  · intro ev' hev'
    rcases List.mem_append.mp hev' with hev' | hev'
    · exact h.allowed ev' hev'
    · obtain rfl := List.mem_singleton.mp hev'
      exact fun _ => ⟨c, parts, hev⟩
  · intro auth hauth
    rw [hissued] at hauth
    obtain ⟨ev', hev', hx'⟩ := h.source auth (List.mem_filter.mp hauth).1
    exact ⟨ev', List.mem_append_left _ hev', hx'⟩
  · rw [hissued]
    exact h.nodup.sublist (List.filter_sublist.map _)
  · intro t ht auth hauth
    obtain ⟨hout, hne⟩ := hlater t (ht ev (by simp)) auth hauth
    rw [htable, Record.own?_without, if_neg hne]
    exact h.live_leases hP hclock hout
  · intro t ht hne
    have hle : (outstanding agent (evs ++ [ev]) t).length ≤
        (outstanding agent evs ev.evaluationTime).length := by
      have hnd : (outstanding agent (evs ++ [ev]) t).Nodup := by
        apply List.Nodup.of_map Authorization.authId
        rw [outstanding, hissued]
        exact h.nodup.sublist ((List.filter_sublist.trans List.filter_sublist).map _)
      exact (hnd.subperm fun auth hauth => (hlater t (ht ev (by simp)) auth hauth).1).length_le
    obtain ⟨auth, hauth⟩ := List.exists_mem_of_ne_nil _ hne
    obtain ⟨max, hmax, hbound⟩ := h.bound ev.evaluationTime hclock
      (List.ne_nil_of_mem (hlater t (ht ev (by simp)) auth hauth).1)
    refine ⟨max, ?_, hle.trans hbound⟩
    rw [hev.after, nextStateFor_maxConcurrent]
    exact hmax

theorem track_eq_self (held : List Authorization) (hx : ev.executes agent = false)
    (hr : ev.releases agent = false) : ev.track agent held = held := by
  rw [Evaluation.track, hx, hr, if_neg (by simp), if_neg (by simp)]

theorem CapInvariant.step (hP : PlatformLaws P) (h : CapInvariant P e agent evs s.1)
    (hstep : EngineStep P e s ev s')
    (hclock : ∀ prev ∈ evs, prev.evaluationTime.le ev.evaluationTime = true)
    (honce : ∀ prev ∈ evs, SameNonce prev ev → ¬ (prev.isAllowed = true ∧ ev.isAllowed = true))
    (hdouble : ∀ max, s.1.concurrency.maxConcurrent.own? agent = some max → max.IsDouble) :
    CapInvariant P e agent (evs ++ [ev]) s'.1 := by
  rw [hstep.after]
  rw [← hstep.before] at h hdouble
  cases hcur : ev.isAllowed with
  | false =>
    refine h.unchanged (fun ha => by simp [hcur] at ha) ?_ ?_ ?_
    · exact track_eq_self _ (by simp [Evaluation.executes, hcur]) (by simp [Evaluation.releases, hcur])
    · rw [ev.after_of_not_allowed hcur]
    · rw [ev.after_of_not_allowed hcur]
  | true =>
    obtain ⟨c, parts, hev⟩ := hstep.allowed hcur
    cases hx : ev.executes agent with
    | true => exact h.execute hP hev hx hclock honce hdouble
    | false =>
      cases hr : ev.releases agent with
      | true => exact h.release hP hev hr hclock
      | false =>
        have hne : agent ≠ ev.intent.agentId := by
          rintro rfl
          cases hk : ev.intent.kind with
          | execute => simp [Evaluation.executes, hcur, hk] at hx
          | release => simp [Evaluation.releases, hcur, hk] at hr
        refine h.unchanged (fun _ => ⟨c, parts, hev⟩) (track_eq_self _ hx hr) (hev.others hne).2 ?_
        rw [hev.after, nextStateFor_maxConcurrent]

/-- At every moment of a run the outstanding authorizations of an agent are at
most its limit; the limit is a double as every number is. -/
theorem concurrency_cap (hP : PlatformLaws P) (hrun : EngineRun P e s evs s') (hclock : Clocked evs)
    (hdouble : ∀ max, s.1.concurrency.maxConcurrent.own? agent = some max → max.IsDouble)
    {t : JsNumber} (ht : ∀ ev ∈ evs, ev.evaluationTime.le t = true)
    (hne : outstanding agent evs t ≠ []) :
    ∃ max, s.1.concurrency.maxConcurrent.own? agent = some max ∧
      (JsNumber.int (outstanding agent evs t).length).le max = true := by
  have honce := pairwise_not_both_allowed hrun hclock
  have hinv : CapInvariant P e agent evs s'.1 ∧
      s'.1.concurrency.maxConcurrent = s.1.concurrency.maxConcurrent := by
    refine hrun.history_pairwise (H := fun evs a => CapInvariant P e agent evs a.1 ∧
      a.1.concurrency.maxConcurrent = s.1.concurrency.maxConcurrent)
      (hclock.and honce) ⟨?_, rfl⟩ ?_
    · exact ⟨by simp, by simp [issuedUnreleased], by simp [issuedUnreleased],
        by simp [outstanding, issuedUnreleased], by simp [outstanding, issuedUnreleased]⟩
    · rintro evs a ev b ⟨hI, hmax⟩ hprev hstep
      refine ⟨hI.step hP hstep (fun prev hp => (hprev prev hp).1) (fun prev hp => (hprev prev hp).2)
        (hmax ▸ hdouble), ?_⟩
      rw [hstep.after, ← hmax, ← hstep.before]
      cases hcur : ev.isAllowed with
      | false => rw [ev.after_of_not_allowed hcur]
      | true =>
        obtain ⟨c, parts, hev⟩ := hstep.allowed hcur
        rw [hev.after, nextStateFor_maxConcurrent]
  obtain ⟨max, hmax, hle⟩ := hinv.1.bound t ht hne
  exact ⟨.int max, hinv.2 ▸ hmax, by simpa using hle⟩

end

end

/-- With a limit below zero nothing is issued, and still nothing is more than
the limit. -/
theorem outstanding_above_negative_limit :
    let s : State := { sampleState (js "a") with concurrency := { (sampleState (js "a")).concurrency with
      maxConcurrent := Record.empty.set (js "a") (.int (-1)) } }
    let ev := evaluation samplePlatform sampleEngine (AuditLog.initial samplePlatform)
      (sampleIntent (js "a")) s (.int 1000) .failFast
    (∃ log, EngineRun samplePlatform sampleEngine (s, AuditLog.initial samplePlatform) [ev]
      (ev.after, log)) ∧ Clocked [ev] ∧
      s.concurrency.maxConcurrent.own? (js "a") = some (.int (-1)) ∧
      (JsNumber.int (outstanding (js "a") [ev] (.int 1000)).length).le (.int (-1)) = false := by
  intro s ev
  refine ⟨⟨_, .snoc .nil (evaluation_step samplePlatform sampleEngine _ _ _ _ _)⟩,
    List.pairwise_singleton _ _, rfl, ?_⟩
  rw [JsNumber.le_int, decide_eq_false_iff_not]
  omega

theorem concurrency_cap_sample :
    (JsNumber.int (outstanding (js "a") [evaluation samplePlatform sampleEngine
      (AuditLog.initial samplePlatform) (sampleIntent (js "a")) (sampleState (js "a")) (.int 1000)
      .failFast] (.int 1000)).length).le (.int 2) = true := by
  obtain ⟨parts, hp⟩ := permitted_sample
  have ha := evaluation_allowedStep samplePlatform_laws.nfc rfl hp (AuditLog.initial samplePlatform)
    .failFast
  have hstep := evaluation_step samplePlatform sampleEngine (AuditLog.initial samplePlatform)
    (sampleIntent (js "a")) (sampleState (js "a")) (.int 1000) .failFast
  have hx : (evaluation samplePlatform sampleEngine (AuditLog.initial samplePlatform)
      (sampleIntent (js "a")) (sampleState (js "a")) (.int 1000) .failFast).executes (js "a") = true :=
    executes_iff.mpr ⟨ha.isAllowed, rfl, rfl⟩
  have htime : (evaluation samplePlatform sampleEngine (AuditLog.initial samplePlatform)
      (sampleIntent (js "a")) (sampleState (js "a")) (.int 1000) .failFast).evaluationTime =
        .int 1000 := rfl
  have hout : authorizationFor samplePlatform sampleEngine (sampleIntent (js "a")) (sampleState (js "a"))
      (.int 1000) parts ∈ outstanding (js "a") [evaluation samplePlatform sampleEngine
        (AuditLog.initial samplePlatform) (sampleIntent (js "a")) (sampleState (js "a")) (.int 1000)
        .failFast] (.int 1000) := by
    rw [outstanding, issuedUnreleased, List.foldl_cons, List.foldl_nil, Evaluation.track, if_pos hx,
      ha.authorization]
    exact List.mem_filter.mpr ⟨by simp [evaluation], rfl⟩
  generalize evaluation samplePlatform sampleEngine (AuditLog.initial samplePlatform)
    (sampleIntent (js "a")) (sampleState (js "a")) (.int 1000) .failFast = first at *
  have hmax : (sampleState (js "a")).concurrency.maxConcurrent.own? (js "a") = some (.int 2) := rfl
  have hdouble : ∀ max, (sampleState (js "a")).concurrency.maxConcurrent.own? (js "a") = some max →
      max.IsDouble := by
    intro max h
    rw [hmax] at h
    cases h
    exact JsNumber.isDouble_of_le (e := 2) (by norm_num)
  obtain ⟨max, hm, hle⟩ := concurrency_cap samplePlatform_laws (.snoc .nil hstep)
    (List.pairwise_singleton _ _) hdouble (t := .int 1000) (by simp [htime])
    (List.ne_nil_of_mem hout)
  rw [hmax] at hm
  cases hm
  exact hle

end OxDeAI
