import OxDeAI.Guard.StandardPath
import OxDeAI.Js.Coerce
import OxDeAI.Lib.Expiring
import OxDeAI.Verification.SignedContent

/-! A replay store on Redis: how long a consumed id stays recorded, and how long the
authorization that carries it is accepted. -/

namespace OxDeAI

open Js

inductive ReplayCommand
  | consumeAuthId (authId expiry : JsValue)
  | consumeDelegationId (delegationId expiry : JsValue)

def ReplayCommand.expiry : ReplayCommand → JsValue
  | .consumeAuthId _ expiry => expiry
  | .consumeDelegationId _ expiry => expiry

/-- `authKey` and `delegationKey`. -/
def ReplayCommand.key? : ReplayCommand → Option JsString
  | .consumeAuthId authId _ => authId.toText?.map (js "replay:auth:" ++ ·)
  | .consumeDelegationId delegationId _ => delegationId.toText?.map (js "replay:delegation:" ++ ·)

/-- `Math.max(1, expiry - now)`; no value when the subtraction throws. -/
def computeTtl (now : ℤ) (expiry : JsValue) : Option JsNumber :=
  expiry.toNumber?.map (fun n => (JsNumber.int 1).max (n.sub (.int now)))

/-- `EX` takes a positive integer. -/
def redisSeconds? : JsNumber → Option ℕ
  | .int z => if 0 < z then some z.toNat else none
  | _ => none

abbrev RedisKeys := Expiring.Keys JsString

/-- What a consume call resolves to, and the keys after; `none` when it rejects. -/
def redisConsume (keys : RedisKeys) (now : ℤ) (command : ReplayCommand) : Option (Bool × RedisKeys) := do
  let ttl ← computeTtl now command.expiry
  let key ← command.key?
  let seconds ← redisSeconds? ttl
  return Expiring.setNx keys now key seconds

structure RedisClock where
  now : ℤ
  keys : RedisKeys

/-- Calls in the order in which the store serves them. -/
inductive RedisStep : RedisClock → ReplayCommand → RedisClock → Prop
  | settled {s : RedisClock} {now : ℤ} {command : ReplayCommand} {ok : Bool} {keys : RedisKeys} (hnow : s.now ≤ now)
    (hconsume : redisConsume s.keys now command = some (ok, keys)) : RedisStep s command ⟨now, keys⟩
  | rejected {s : RedisClock} {now : ℤ} {command : ReplayCommand} (hnow : s.now ≤ now)
    (hconsume : redisConsume s.keys now command = none) : RedisStep s command ⟨now, s.keys⟩

/-- Where an authorization is consumed. -/
inductive ConsumePath
  | standard
  | delegation
  | gateway

/-- The expiry that each path hands to the store. -/
def ConsumePath.expiry (path : ConsumePath) (authorization : JsValue) : JsValue :=
  match path with
  | .standard => consumeExpiry authorization
  | .delegation => authorization.field (js "expiry")
  | .gateway => authorization.field (js "expiry")

def ConsumePath.command (path : ConsumePath) (authorization : JsValue) : ReplayCommand :=
  .consumeAuthId (authorization.field (js "auth_id")) (path.expiry authorization)

/-- Consumed now, the id of the authorization is not consumed again at any time at
which the authorization is accepted, whatever calls the store serves in between. -/
def Retained (H : Host) (clock : JsNumber) (opts : VerifyAuthorizationOptions) (path : ConsumePath)
    (authorization : JsValue) (t : ℕ) : Prop :=
  ∀ keys keys', redisConsume keys t (path.command authorization) = some (true, keys') →
    ∀ commands s, Run.Trace RedisStep ⟨t, keys'⟩ commands s →
      ∀ t' : ℕ, s.now ≤ t' → acceptsAt H clock opts authorization (.int t') →
        ∀ path' other, JsValue.field other (js "auth_id") = authorization.field (js "auth_id") →
          ∀ keys'', redisConsume s.keys t' (ConsumePath.command path' other) ≠ some (true, keys'')

/-- `t + max(1, n - t)`, when that is an integer. -/
def recordedUntil? (t : ℤ) (n : JsNumber) : Option ℤ :=
  match (JsNumber.int 1).max (n.sub (.int t)) with
  | .int s => some (t + s)
  | _ => none

/-- The expiry is an integer, or the record of the store outlives the acceptance. -/
def RetentionCovers (H : Host) (clock : JsNumber) (opts : VerifyAuthorizationOptions) (path : ConsumePath)
    (authorization : JsValue) (t : ℕ) : Prop :=
  (authorization.field (js "expiry")).isInteger = true ∨
    ∀ lapse, (path.expiry authorization).toNumber?.bind (recordedUntil? t) = some lapse →
      ¬ acceptsAt H clock opts authorization (.int lapse)

section

variable {keys keys' : RedisKeys} {t : ℤ} {command : ReplayCommand} {key : JsString} {lapse : ℤ} {ok : Bool}

theorem max_one_pos {x : JsNumber} {s : ℤ} (h : (JsNumber.int 1).max x = .int s) : 1 ≤ s := by
  cases x with
  | int z =>
    rw [JsNumber.max_int] at h
    have hs : Max.max 1 z = s := JsNumber.int.inj h
    rw [← hs]
    exact le_max_left _ _
  | frac q hq =>
    unfold JsNumber.max at h
    split at h
    · cases h
    · split at h
      · cases h
      · obtain rfl := JsNumber.int.inj h
        exact le_refl _
  | nan => cases h
  | posInf => cases h
  | negInf =>
    obtain rfl := JsNumber.int.inj h
    exact le_refl _

/-- What a consume call does that does not reject. -/
theorem redisConsume_some (h : redisConsume keys t command = some (ok, keys')) :
    ∃ (n : JsNumber) (key : JsString) (s : ℕ), command.expiry.toNumber? = some n ∧ command.key? = some key ∧
      recordedUntil? t n = some (t + s) ∧ (ok, keys') = Expiring.setNx keys t key s := by
  unfold redisConsume computeTtl at h
  cases hn : command.expiry.toNumber? with
  | none => simp [hn] at h
  | some n =>
    cases hkey : command.key? with
    | none => simp [hn, hkey] at h
    | some key =>
      cases hmax : (JsNumber.int 1).max (n.sub (.int t)) with
      | int z =>
        have hz := max_one_pos hmax
        have hpos : 0 < z := by omega
        simp [hn, hkey, hmax, redisSeconds?, hpos] at h
        refine ⟨n, key, z.toNat, rfl, rfl, ?_, h.symm⟩
        rw [recordedUntil?, hmax, Int.toNat_of_nonneg (by omega)]
      | _ => simp [hn, hkey, hmax, redisSeconds?] at h

theorem redisConsume_of (keys : RedisKeys) {n : JsNumber} {s : ℕ} (hn : command.expiry.toNumber? = some n)
    (hkey : command.key? = some key) (hrec : recordedUntil? t n = some (t + s)) :
    redisConsume keys t command = some (Expiring.setNx keys t key s) := by
  unfold recordedUntil? at hrec
  cases hmax : (JsNumber.int 1).max (n.sub (.int t)) with
  | int z =>
    rw [hmax] at hrec
    have hz := max_one_pos hmax
    have hzs : z = s := by
      have := Option.some.inj hrec
      omega
    have hpos : 0 < z := by omega
    have hs : z.toNat = s := by omega
    unfold redisConsume computeTtl
    simp [hn, hkey, hmax, redisSeconds?, hpos, hs]
  | _ =>
    rw [hmax] at hrec
    cases hrec

/-- A recorded id stays recorded through any calls. -/
theorem heldUntil_of_trace {s s' : RedisClock} {commands : List ReplayCommand}
    (hrun : Run.Trace RedisStep s commands s') (h : Expiring.HeldUntil s.keys key lapse) :
    Expiring.HeldUntil s'.keys key lapse := by
  refine hrun.invariant (I := fun s => Expiring.HeldUntil s.keys key lapse) ?_ h
  intro a command b ha hstep
  cases hstep with
  | rejected _ _ => exact ha
  | @settled now _ ok keys' _ hconsume =>
    obtain ⟨n, key', s, -, -, -, hset⟩ := redisConsume_some hconsume
    have hkeys : keys' = (Expiring.setNx a.keys now key' s).2 := congrArg Prod.snd hset
    show Expiring.HeldUntil keys' key lapse
    rw [hkeys]
    exact ha.setNx

/-- While it is recorded an id is not consumed again. -/
theorem redisConsume_of_held (hkey : command.key? = some key) (h : Expiring.HeldUntil keys key lapse)
    (ht : t < lapse) : redisConsume keys t command ≠ some (true, keys') := by
  intro hconsume
  obtain ⟨n, key', s, -, hkey', -, hset⟩ := redisConsume_some hconsume
  rw [hkey] at hkey'
  obtain rfl := Option.some.inj hkey'
  have hrefused : (Expiring.setNx keys t key s).1 = false := h.refuses ht
  rw [← hset] at hrefused
  cases hrefused

end

section

variable {H : Host} {clock : JsNumber} {opts : VerifyAuthorizationOptions} {auth : JsValue} {t u t' : ℕ}

theorem lt_of_le_left {x : JsNumber} {a b : ℤ} (h : (JsNumber.int a).lt x = false) (hab : a ≤ b) :
    (JsNumber.int b).lt x = false := by
  cases x with
  | int z =>
    simp only [JsNumber.lt_int, decide_eq_false_iff_not] at h ⊢
    omega
  | frac q hq =>
    simp only [JsNumber.lt, decide_eq_false_iff_not, not_lt] at h ⊢
    exact le_trans h (by exact_mod_cast hab)
  | nan => rfl
  | posInf => cases h
  | negInf => rfl

theorem lt_of_le_right {x : JsNumber} {a b : ℤ} (h : x.lt (.int b) = false) (hab : a ≤ b) :
    x.lt (.int a) = false := by
  cases x with
  | int z =>
    simp only [JsNumber.lt_int, decide_eq_false_iff_not] at h ⊢
    omega
  | frac q hq =>
    simp only [JsNumber.lt, decide_eq_false_iff_not, not_lt] at h ⊢
    exact le_trans (by exact_mod_cast hab) h
  | nan => rfl
  | posInf => rfl
  | negInf => cases h

/-- A key that is active at two times is active in between. -/
theorem keyIsActiveAt_between {key : KeySetKey} (ht : keyIsActiveAt key (.int t) = true)
    (ht' : keyIsActiveAt key (.int t') = true) (htu : t ≤ u) (hut : u ≤ t') :
    keyIsActiveAt key (.int u) = true := by
  have hparts : ∀ now, keyIsActiveAt key now = true ↔ key.status ≠ some .revoked ∧
      (∀ x, key.notBefore = some x → now.lt x = false) ∧ ∀ x, key.notAfter = some x → x.lt now = false := by
    intro now
    unfold keyIsActiveAt
    cases key.notBefore <;> cases key.notAfter <;> simp
  rw [hparts] at ht ht' ⊢
  refine ⟨ht.1, fun x hx => ?_, fun x hx => ?_⟩
  · exact lt_of_le_left (ht.2.1 x hx) (by omega)
  · exact lt_of_le_right (ht'.2.2 x hx) (by omega)

/-- A safe time that is not ahead stays so. -/
theorem notAhead_mono {k : ℕ} {z : ℤ} (hz : z ≤ 2 ^ 53) (h : ((JsNumber.int t).add (.int k)).lt (.int z) = false)
    (htu : t ≤ u) : ((JsNumber.int u).add (.int k)).lt (.int z) = false := by
  have hle : z ≤ ((u + k : ℕ) : ℤ) := by
    by_cases hsmall : t + k ≤ 2 ^ 53
    · have hadd : (JsNumber.int t).add (.int k) = .int ((t + k : ℕ) : ℤ) := by
        rw [JsNumber.add_int (by omega), Nat.cast_add]
      rw [hadd, JsNumber.lt_int, decide_eq_false_iff_not] at h
      omega
    · omega
  have hround : (JsNumber.int u).add (.int k) = JsNumber.round ((u + k : ℕ) : ℚ) := by
    rw [JsNumber.add]
    norm_cast
  have hge : (JsNumber.round ((u + k : ℕ) : ℚ)).ge (.int (z.toNat : ℤ)) = true :=
    JsNumber.ge_of_isDouble (JsNumber.isDouble_of_le (by omega)) (by omega)
  rw [JsNumber.ge, Bool.and_eq_true, Bool.not_eq_true'] at hge
  rw [hround]
  exact lt_of_le_right hge.2 (by omega)

theorem live_between {k : ℕ} (ht : Live (.int k) auth (.int t)) (ht' : Live (.int k) auth (.int t'))
    (htu : t ≤ u) (hut : u ≤ t')
    (hsafe : ∀ z : ℤ, auth.field (js "issued_at") = .num (.int z) → z ≤ 2 ^ 53) :
    Live (.int k) auth (.int u) := by
  obtain ⟨⟨z, hz, hahead⟩, -⟩ := ht
  obtain ⟨-, e, he, hlive⟩ := ht'
  refine ⟨⟨z, hz, notAhead_mono (hsafe z hz) hahead htu⟩, e, he, ?_⟩
  rw [JsNumber.ge_int, decide_eq_false_iff_not] at hlive ⊢
  omega

theorem skewOf_nat (h : acceptsAt H clock opts auth (.int t)) : ∃ k : ℕ, skewOf opts = .int k := by
  have hskew := exists_skew_of_accepts h
  unfold skewOf at hskew ⊢
  cases hv : opts.maxFutureIssuedAtSkewSeconds with
  | none => exact ⟨300, rfl⟩
  | some n =>
    rw [hv] at hskew
    simp only [resolveMaxFutureIssuedAtSkewSeconds] at hskew
    split at hskew
    · cases hskew
    · rename_i hn
      rw [Bool.or_eq_true, not_or, Bool.not_eq_true', Bool.not_eq_false, Bool.not_eq_true] at hn
      obtain ⟨z, rfl, -⟩ := JsNumber.exists_int_of_isSafeInteger hn.1
      have hpos : ¬ z < 0 := by simpa using hn.2
      refine ⟨z.toNat, ?_⟩
      rw [Int.toNat_of_nonneg (by omega)]
      rfl

theorem acceptsAt_between (hstrict : opts.mode = some .strict) (ht : acceptsAt H clock opts auth (.int t))
    (ht' : acceptsAt H clock opts auth (.int t')) (htu : t ≤ u) (hut : u ≤ t') :
    acceptsAt H clock opts auth (.int u) := by
  have hskew := exists_skew_of_accepts ht
  obtain ⟨k, hk⟩ := skewOf_nat ht
  rw [acceptsAt_iff hstrict hskew] at ht ht' ⊢
  have hiff := fun u => @verifiedAt_iff H (.int t) u opts auth ht
  obtain ⟨hlive, hactive⟩ := (hiff (.int t)).mp ht
  obtain ⟨hlive', hactive'⟩ := (hiff (.int t')).mp ht'
  rw [hiff]
  constructor
  · rw [hk] at hlive hlive' ⊢
    refine live_between hlive hlive' htu hut fun z hz => ?_
    obtain ⟨z', hz', hsafe, -⟩ := ht.issuedAt
    rw [hz] at hz'
    obtain rfl : z = z' := by simpa using hz'
    have hle := JsNumber.isSafeInteger_int.mp hsafe
    rw [JsNumber.maxSafeInteger] at hle
    omega
  · intro hed
    have ha := hactive hed
    have ha' := hactive' hed
    unfold signerActive at ha ha' ⊢
    cases hkey : signerKey opts auth with
    | none =>
      rw [hkey] at ha
      cases ha
    | some key =>
      rw [hkey] at ha ha'
      exact keyIsActiveAt_between ha ha' htu hut

theorem mem_present {fields : List (JsString × Option JsValue)} {k : JsString} {v : JsValue}
    (h : (k, some v) ∈ fields) : (k, v) ∈ present fields := by
  rw [present, List.mem_filterMap]
  exact ⟨_, h, rfl⟩

/-- An integral expiry is signed, and so it is a safe integer. -/
theorem expiry_safe (hstrict : opts.mode = some .strict) (ht : acceptsAt H clock opts auth (.int t)) {e : ℤ}
    (he : auth.field (js "expiry") = .num (.int e)) : e.natAbs ≤ JsNumber.maxSafeInteger := by
  have hverified := (acceptsAt_iff hstrict (exists_skew_of_accepts ht)).mp ht
  obtain ⟨alg, kid, signature, -, -, hsig⟩ := hverified.signature
  obtain ⟨text, htext⟩ := exists_canonicalJson_of_signatureHolds hsig
  have hmem : (js "expiry", JsValue.num (.int e)) ∈ present (payloadFields auth) := by
    apply mem_present
    rw [← signedExpiry_integer.mpr he]
    exact mem_signedExpiry auth
  cases ((canonicalizeToJson_ok _ _).mp htext).1 with
  | obj _ hall =>
    cases hall _ hmem with
    | int hsafe => exact hsafe

theorem recordedUntil?_int {t : ℕ} {e : ℤ} (ht : t < e) (he : e.natAbs ≤ JsNumber.maxSafeInteger) :
    recordedUntil? t (.int e) = some e := by
  rw [JsNumber.maxSafeInteger] at he
  have hsub : (JsNumber.int e).sub (.int t) = .int (e - t) := JsNumber.sub_int (by omega)
  rw [recordedUntil?, hsub, JsNumber.max_int, max_eq_right (by omega)]
  simp

/-- An expiry in the past is recorded for one second. -/
theorem recordedUntil?_zero (t : ℕ) : recordedUntil? t (.int 0) = some (t + (1 : ℕ)) := by
  have hsub : (JsNumber.int 0).sub (.int t) = JsNumber.round (-(t : ℚ)) := by
    rw [JsNumber.sub, JsNumber.neg, JsNumber.add]
    norm_num
  have hge : (JsNumber.int 1).ge (JsNumber.round (-(t : ℚ))) = true :=
    JsNumber.ge_round (by omega) (by
      have : (0 : ℚ) ≤ t := Nat.cast_nonneg t
      push_cast
      linarith)
  rw [JsNumber.ge, Bool.and_eq_true, Bool.and_eq_true, Bool.not_eq_true', Bool.not_eq_true',
    Bool.not_eq_true'] at hge
  have hmax : (JsNumber.int 1).max ((JsNumber.int 0).sub (.int t)) = .int 1 := by
    rw [hsub, JsNumber.max, hge.1.2, hge.2]
    rfl
  rw [recordedUntil?, hmax]
  rfl

theorem ConsumePath.expiry_of_integer (path : ConsumePath) (h : (auth.field (js "expiry")).isInteger = true) :
    path.expiry auth = auth.field (js "expiry") := by
  obtain ⟨z, hz⟩ := JsValue.isInteger_iff.mp h
  cases path with
  | standard =>
    show consumeExpiry auth = auth.field (js "expiry")
    rw [consumeExpiry, hz]
    rfl
  | _ => rfl

theorem recordedUntil?_later {n : JsNumber} {t lapse : ℤ} (h : recordedUntil? t n = some lapse) :
    ∃ s : ℕ, lapse = t + s := by
  unfold recordedUntil? at h
  split at h
  · rename_i z hmax
    have hz := max_one_pos hmax
    refine ⟨z.toNat, ?_⟩
    rw [Int.toNat_of_nonneg (by omega)]
    exact (Option.some.inj h).symm
  · cases h

/-- When the record has lapsed the id is consumed again. -/
theorem consume_lapsed {path : ConsumePath} {id : JsString} {n : JsNumber} {s : ℕ}
    (hid : auth.field (js "auth_id") = .str id) (hn : (path.expiry auth).toNumber? = some n)
    (hrec : recordedUntil? t n = some ((t : ℤ) + s)) : ∃ keys', redisConsume (fun _ => none) t (path.command auth) =
      some (true, keys') ∧ ∃ other : JsValue, other.field (js "auth_id") = .str id ∧
        ∃ keys'', redisConsume keys' (t + s) (ConsumePath.command .gateway other) = some (true, keys'') := by
  have hkey : ∀ (path : ConsumePath) (auth : JsValue), auth.field (js "auth_id") = .str id →
      (path.command auth).key? = some (js "replay:auth:" ++ id) := by
    intro path auth hid
    rw [ConsumePath.command, hid]
    rfl
  have hnumber : (path.command auth).expiry.toNumber? = some n := hn
  have hfirst := redisConsume_of (fun _ => none) hnumber (hkey path auth hid) hrec
  rw [Expiring.setNx_of_not_live rfl] at hfirst
  refine ⟨_, hfirst, .obj [(js "auth_id", .str id), (js "expiry", .null)], rfl, ?_⟩
  have hnull : (ConsumePath.command .gateway (.obj [(js "auth_id", .str id), (js "expiry", .null)])).expiry.toNumber? =
      some (.int 0) := rfl
  have hsecond := redisConsume_of (Function.update (fun _ => none) (js "replay:auth:" ++ id) (some ((t : ℤ) + s)))
    hnull (hkey .gateway _ rfl) (recordedUntil?_zero (t + s))
  have hlapsed : Expiring.live (Function.update (fun _ => none) (js "replay:auth:" ++ id) (some ((t : ℤ) + s)))
      ((t + s : ℕ) : ℤ) (js "replay:auth:" ++ id) = false := by
    rw [Expiring.live, Function.update_self]
    simp
  rw [Expiring.setNx_of_not_live hlapsed, Nat.cast_add] at hsecond
  exact ⟨_, hsecond⟩

/-- A record that lapses while the authorization is accepted retains nothing. -/
theorem not_retained_of_lapse {path : ConsumePath} {id : JsString} {lapse : ℤ}
    (hid : auth.field (js "auth_id") = .str id)
    (hlapse : (path.expiry auth).toNumber?.bind (recordedUntil? t) = some lapse)
    (hlate : acceptsAt H clock opts auth (.int lapse)) : ¬ Retained H clock opts path auth t := by
  intro hret
  obtain ⟨n, hn, hrec⟩ := Option.bind_eq_some_iff.mp hlapse
  obtain ⟨s, rfl⟩ := recordedUntil?_later hrec
  obtain ⟨keys', hfirst, other, hother, keys'', hagain⟩ := consume_lapsed hid hn hrec
  have hrefused := hret _ keys' hfirst [] ⟨t, keys'⟩ .nil (t + s)
  rw [Nat.cast_add] at hrefused
  exact hrefused (show (t : ℤ) ≤ t + s by omega) hlate .gateway other (hother.trans hid.symm) keys'' hagain

/-- An id that was consumed stays so while its authorization is accepted exactly when
the expiry is an integer or the record outlives the acceptance. -/
theorem replay_retention (H : Host) (clock : JsNumber) (opts : VerifyAuthorizationOptions)
    (hstrict : opts.mode = some .strict) (path : ConsumePath) (authorization : JsValue) (t : ℕ)
    (haccept : acceptsAt H clock opts authorization (.int t)) :
    Retained H clock opts path authorization t ↔ RetentionCovers H clock opts path authorization t := by
  have hverified := fun u (h : acceptsAt H clock opts authorization u) =>
    (acceptsAt_iff hstrict (exists_skew_of_accepts h)).mp h
  constructor
  · intro hret
    by_cases hint : (authorization.field (js "expiry")).isInteger = true
    · exact .inl hint
    · right
      intro lapse hlapse hlate
      obtain ⟨id, -, hid, -⟩ := (hverified _ haccept).authId
      exact not_retained_of_lapse hid hlapse hlate hret
  · intro hcov keys keys' hconsume commands s hrun t' hle hlater path' other hid keys''
    obtain ⟨n, key, seconds, hn, hkey, hrec, hset⟩ := redisConsume_some hconsume
    have hheld : Expiring.HeldUntil keys' key (t + seconds) := by
      have hkeys : keys' = (Expiring.setNx keys t key seconds).2 := congrArg Prod.snd hset
      have hok : (Expiring.setNx keys t key seconds).1 = true := (congrArg Prod.fst hset).symm
      rw [hkeys]
      exact Expiring.heldUntil_of_setNx hok
    have hkey' : (ConsumePath.command path' other).key? = some key := by
      rw [← hkey]
      simp only [ConsumePath.command, ReplayCommand.key?, hid]
    refine redisConsume_of_held hkey' (heldUntil_of_trace hrun hheld) ?_
    rcases hcov with hint | hover
    · obtain ⟨e, he⟩ := JsValue.isInteger_iff.mp hint
      have heff : effectiveExpiry authorization = some (.int e) := by
        rw [effectiveExpiry, if_pos hint, he]
        rfl
      have hbefore : ∀ u : ℕ, acceptsAt H clock opts authorization (.int u) → (u : ℤ) < e := by
        intro u hu
        obtain ⟨e', he', hlive⟩ := (hverified _ hu).expiry
        rw [heff] at he'
        obtain rfl : e = e' := by simpa using he'
        rw [JsNumber.ge_int, decide_eq_false_iff_not] at hlive
        omega
      have hnumber : n = .int e := by
        have hpath : (path.command authorization).expiry = .num (.int e) := by
          show path.expiry authorization = .num (.int e)
          rw [path.expiry_of_integer hint, he]
        rw [hpath] at hn
        exact (Option.some.inj hn).symm
      rw [hnumber, recordedUntil?_int (hbefore t haccept) (expiry_safe hstrict haccept he)] at hrec
      have hlapse := Option.some.inj hrec
      have hlt := hbefore t' hlater
      omega
    · by_contra hpast
      have hlapse : (path.expiry authorization).toNumber?.bind (recordedUntil? t) = some ((t : ℤ) + seconds) := by
        rw [Option.bind_eq_some_iff]
        exact ⟨n, hn, hrec⟩
      apply hover _ hlapse
      have hu := @acceptsAt_between H clock opts authorization t (t + seconds) t' hstrict haccept hlater
        (by omega) (by omega)
      rwa [Nat.cast_add] at hu

end

/-- Signed with `expiry: null`, and accepted until its `expires_at`. -/
def nullExpiry : JsValue :=
  sampleAuthorization .null (js "Ed25519") sampleSignature [(js "expires_at", .num (.int 1060))]

theorem acceptsAt_nullExpiry {now : ℤ} (h : 1000 ≤ now) (hlt : now < 1060) :
    acceptsAt sampleHost (.int 0) (sampleOptions 0) nullExpiry (.int now) := by
  have hc : Canonical sampleHost.nfc (authorizationSigningPayload nullExpiry) :=
    (isCanonical_iff _).mp (by decide)
  exact accepts_sample now (by omega) (by omega) ⟨1060, rfl, hlt⟩ hc

theorem null_expiry_consumed_again : ¬ ∀ (path : ConsumePath) (authorization : JsValue) (t : ℕ),
    acceptsAt sampleHost (.int 0) (sampleOptions 0) authorization (.int t) →
      Retained sampleHost (.int 0) (sampleOptions 0) path authorization t := by
  intro hclaim
  have hlapse : (ConsumePath.expiry .gateway nullExpiry).toNumber?.bind (recordedUntil? (1000 : ℕ)) = some 1001 := by
    rw [Option.bind_eq_some_iff]
    exact ⟨.int 0, rfl, recordedUntil?_zero 1000⟩
  have hlate := acceptsAt_nullExpiry (show (1000 : ℤ) ≤ 1001 by omega) (by omega)
  apply not_retained_of_lapse rfl hlapse hlate
  exact hclaim .gateway nullExpiry 1000 (acceptsAt_nullExpiry (by omega) (by omega))

theorem replay_retention_sample : Retained sampleHost (.int 0) (sampleOptions 0) .gateway
    (sampleAuthorization (.num (.int 1060)) (js "Ed25519") sampleSignature []) 1000 := by
  have hc : Canonical sampleHost.nfc (authorizationSigningPayload
      (sampleAuthorization (.num (.int 1060)) (js "Ed25519") sampleSignature [])) :=
    (isCanonical_iff _).mp (by decide)
  have haccept : acceptsAt sampleHost (.int 0) (sampleOptions 0)
      (sampleAuthorization (.num (.int 1060)) (js "Ed25519") sampleSignature []) (.int (1000 : ℕ)) :=
    accepts_sample 1000 (by omega) (by omega) ⟨1060, rfl, by omega⟩ hc
  exact (replay_retention sampleHost (.int 0) (sampleOptions 0) rfl .gateway _ 1000 haccept).mpr (.inl rfl)

end OxDeAI
