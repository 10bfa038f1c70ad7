import OxDeAI.Sift.CoreAcceptance
import OxDeAI.Sift.VerifyReceipt

/-! What an accepted receipt passed, and what two receipts under one signature share. -/

namespace OxDeAI.Sift

open Js

section

variable (H : SiftHost) (clock : Date) (options : VerifyReceiptOptions) (r : SiftReceipt)

/-- Allowed unless that was waived, signed under the supplied key, and with its own hash. -/
structure Authentic : Prop where
  decision : r.decision = .allow ∨ options.requireAllowDecision = some false
  signed : ∃ key message, resolvePublicKey H options = .ok key ∧ isUsableKey key = true ∧
    siftCanonicalJsonBytes (.obj r.signedFields) = .ok message ∧ key.verify message (b64uDecode r.signature) = true
  hash : ∃ bytes, siftCanonicalJsonBytes (.obj r.hashedFields) = .ok bytes ∧
    normalizeHashHex H r.receiptHash = H.sha256Hex bytes

/-- Neither too far in the future nor too old. -/
structure Timely : Prop where
  notFuture : (JsNumber.int (-maxFutureSkewMs)).le (receiptAge H clock options r) = true
  notStale : (receiptAge H clock options r).le (maxAgeOf options) = true

/-- Everything that is checked, except that the receipt is not too old. -/
structure PassesButAge (raw : JsValue) : Prop extends Authentic H options r where
  parsed : parseReceipt H raw = .ok r
  version : r.receiptVersion ∈ supportedReceiptVersions
  signatureText : isSignatureText (normalizedSignature r.signature) = true
  now : (nowOf clock options).time ≠ none
  timestamp : (H.dateParse r.timestamp).time ≠ none
  notFuture : (JsNumber.int (-maxFutureSkewMs)).le (receiptAge H clock options r) = true

end

section

variable {H : SiftHost} {clock : Date} {options : VerifyReceiptOptions} {raw : JsValue} {r : SiftReceipt}
  {accepted : VerifiedReceipt}

theorem checkVersion_ok : checkVersion r = .ok () ↔ r.receiptVersion ∈ supportedReceiptVersions := by
  unfold checkVersion
  by_cases h : supportedReceiptVersions.contains r.receiptVersion = true
  · rw [if_pos h]
    exact iff_of_true rfl (List.contains_iff_mem.mp h)
  · rw [if_neg h]
    exact iff_of_false (fun h => by cases h) fun hmem => h (List.contains_iff_mem.mpr hmem)

theorem checkReceiptHash_ok {hash : JsString} : checkReceiptHash H r = .ok hash ↔
    computeReceiptHash H r = .ok hash ∧ normalizeHashHex H r.receiptHash = hash := by
  unfold checkReceiptHash
  cases hc : computeReceiptHash H r with
  | error message => exact iff_of_false (fun h => by cases h) fun h => by cases h.1
  | ok recomputed =>
    simp only [Except.ok.injEq]
    by_cases h : normalizeHashHex H r.receiptHash = recomputed
    · rw [if_pos h, Except.ok.injEq]
      exact ⟨fun heq => ⟨heq, h.trans heq⟩, And.left⟩
    · rw [if_neg h]
      exact iff_of_false (fun h => by cases h) fun hboth => h (hboth.2.trans hboth.1.symm)

theorem checkSmallOrder_ok {key : PublicKey} : checkSmallOrder key = .ok () ↔ isUsableKey key = true := by
  unfold checkSmallOrder
  by_cases h : isUsableKey key = true
  · simp [h]
  · simp [h]

theorem checkReceiptSignature_ok {key : PublicKey} : checkReceiptSignature key r = .ok () ↔
    isSignatureText (normalizedSignature r.signature) = true ∧
      ∃ message, siftCanonicalJsonBytes (.obj r.signedFields) = .ok message ∧
        key.verify message (b64uDecode r.signature) = true := by
  unfold checkReceiptSignature
  by_cases htext : isSignatureText (normalizedSignature r.signature) = true
  · rw [if_neg (by simp [htext])]
    cases hbytes : siftCanonicalJsonBytes (.obj r.signedFields) with
    | error message => exact iff_of_false (fun h => by cases h) fun h => by obtain ⟨-, _, h, -⟩ := h; cases h
    | ok message =>
      have hdecode : b64uDecode r.signature = base64Decode (normalizedSignature r.signature) := rfl
      simp only [htext, hdecode, true_and, Except.ok.injEq, exists_eq_left']
      by_cases hverify : key.verify message (base64Decode (normalizedSignature r.signature)) = true
      · simp [hverify]
      · simp [hverify]
  · rw [if_pos (by simp [htext])]
    exact iff_of_false (fun h => by cases h) fun h => htext h.1

theorem checkDecision_ok : checkDecision options r = .ok () ↔
    r.decision = .allow ∨ options.requireAllowDecision = some false := by
  unfold checkDecision
  by_cases hwaived : options.requireAllowDecision = some false
  · simp [hwaived]
  · by_cases hallow : r.decision = .allow
    · simp [hallow]
    · simp [hwaived, hallow]

theorem isFinite_getTime {date : Date} : date.getTime.isFinite = true ↔ date.time ≠ none := by
  unfold Date.getTime
  cases date.time with
  | none => exact iff_of_false Bool.false_ne_true fun h => h rfl
  | some ms => exact iff_of_true rfl fun h => by cases h

/-- The age of a receipt is a number when both dates are valid. -/
theorem isNaN_receiptAge (hnow : (nowOf clock options).time ≠ none) (hstamp : (H.dateParse r.timestamp).time ≠ none) :
    (receiptAge H clock options r).isNaN = false := by
  obtain ⟨now, hnow⟩ := Option.ne_none_iff_exists'.mp hnow
  obtain ⟨stamp, hstamp⟩ := Option.ne_none_iff_exists'.mp hstamp
  rw [receiptAge, Date.getTime, Date.getTime, hnow, hstamp]
  exact JsNumber.isNaN_round _

theorem ge_of_not_lt {x y : JsNumber} (hx : x.isNaN = false) (hy : y.isNaN = false) (h : x.lt y = false) :
    x.ge y = true := by
  rw [JsNumber.ge, hx, hy, h]
  rfl

theorem checkFreshness_ok (hnow : (nowOf clock options).time ≠ none) : checkFreshness H clock options r = .ok () ↔
    (H.dateParse r.timestamp).time ≠ none ∧
      (JsNumber.int (-maxFutureSkewMs)).le (receiptAge H clock options r) = true ∧
      (maxAgeOf options).lt (receiptAge H clock options r) = false := by
  unfold checkFreshness
  dsimp only
  by_cases hstamp : (H.dateParse r.timestamp).time ≠ none
  · rw [if_neg (by simp [isFinite_getTime.mpr hstamp])]
    have hnan := isNaN_receiptAge (r := r) hnow hstamp
    by_cases hfuture : (receiptAge H clock options r).lt (.int (-maxFutureSkewMs)) = true
    · rw [if_pos hfuture]
      refine iff_of_false (fun h => by cases h) fun h => ?_
      have hnot := JsNumber.not_lt_of_ge h.2.1
      rw [hfuture] at hnot
      cases hnot
    · have hge := ge_of_not_lt hnan (JsNumber.isNaN_int _) (Bool.eq_false_iff.mpr hfuture)
      rw [if_neg hfuture]
      by_cases hstale : (maxAgeOf options).lt (receiptAge H clock options r) = true
      · rw [if_pos hstale]
        refine iff_of_false (fun h => by cases h) fun h => ?_
        rw [hstale] at h
        cases h.2.2
      · rw [if_neg hstale]
        exact iff_of_true rfl ⟨hstamp, hge, Bool.eq_false_iff.mpr hstale⟩
  · have hinvalid := Bool.eq_false_iff.mpr (mt isFinite_getTime.mp hstamp)
    rw [if_pos (by rw [hinvalid]; rfl)]
    exact iff_of_false (fun h => by cases h) fun h => hstamp h.1

theorem isoTime_ok {date : Date} : (∃ text, isoTime H date = .ok text) ↔ date.time ≠ none := by
  unfold isoTime
  cases date.time with
  | none => exact iff_of_false (fun h => by obtain ⟨_, h⟩ := h; cases h) fun h => h rfl
  | some ms => exact iff_of_true ⟨_, rfl⟩ fun h => by cases h

/-- Acceptance: every check, and an age that does not exceed the limit. -/
theorem verifyReceipt_accepts : (∃ accepted, verifyReceipt H clock raw options = .ok accepted ∧ accepted.receipt = r) ↔
    PassesButAge H clock options r raw ∧ (maxAgeOf options).lt (receiptAge H clock options r) = false := by
  constructor
  · intro h
    obtain ⟨accepted, haccepted, rfl⟩ := h
    simp only [verifyReceipt, bind_eq_ok] at haccepted
    obtain ⟨r, hparsed, _, hversion, hash, hhash, key, hkey, _, hsmall, _, hsignature, _, hdecision, _, hfresh, text, htext,
      hresult⟩ := haccepted
    obtain rfl := Except.ok.inj hresult
    have hnow := isoTime_ok.mp ⟨text, htext⟩
    obtain ⟨hstamp, hfuture, hstale⟩ := (checkFreshness_ok hnow).mp hfresh
    obtain ⟨hsigtext, message, hmessage, hverify⟩ := checkReceiptSignature_ok.mp hsignature
    obtain ⟨hcompute, hclaimed⟩ := checkReceiptHash_ok.mp hhash
    obtain ⟨bytes, hbytes, rfl⟩ := map_eq_ok.mp hcompute
    exact ⟨⟨⟨checkDecision_ok.mp hdecision, ⟨key, message, hkey, checkSmallOrder_ok.mp hsmall, hmessage, hverify⟩,
      ⟨bytes, hbytes, hclaimed⟩⟩, hparsed, checkVersion_ok.mp hversion, hsigtext, hnow, hstamp, hfuture⟩, hstale⟩
  · intro h
    obtain ⟨hpasses, hstale⟩ := h
    obtain ⟨key, message, hkey, husable, hmessage, hverify⟩ := hpasses.signed
    obtain ⟨bytes, hbytes, hclaimed⟩ := hpasses.hash
    obtain ⟨text, htext⟩ := isoTime_ok.mpr hpasses.now
    have hcompute : computeReceiptHash H r = .ok (H.sha256Hex bytes) := map_eq_ok.mpr ⟨bytes, hbytes, rfl⟩
    refine ⟨⟨r, text, H.sha256Hex bytes⟩, ?_, rfl⟩
    simp only [verifyReceipt, bind_eq_ok]
    exact ⟨r, hpasses.parsed, (), checkVersion_ok.mpr hpasses.version, _, checkReceiptHash_ok.mpr ⟨hcompute, hclaimed⟩, key, hkey,
      (), checkSmallOrder_ok.mpr husable, (), checkReceiptSignature_ok.mpr ⟨hpasses.signatureText, message, hmessage, hverify⟩,
      (), checkDecision_ok.mpr hpasses.decision, (),
      (checkFreshness_ok hpasses.now).mpr ⟨hpasses.timestamp, hpasses.notFuture, hstale⟩, text, htext, rfl⟩

end

namespace SiftReceipt

def signedKeys : List JsString :=
  [js "receipt_version", js "tenant_id", js "agent_id", js "action", js "tool", js "decision", js "risk_tier",
    js "timestamp", js "nonce", js "policy_matched", js "receipt_hash"]

def sortedSignedKeys : List JsString :=
  [js "action", js "agent_id", js "decision", js "nonce", js "policy_matched", js "receipt_hash", js "receipt_version",
    js "risk_tier", js "tenant_id", js "timestamp", js "tool"]

theorem siftOrder_signedKeys :
    siftOrder (signedKeys.map (fun k => (k, k))) = sortedSignedKeys.map (fun k => (k, k)) := by decide

theorem sortedSignedKeys_ascii : sortedSignedKeys.all isAscii = true := by decide

variable {r r' : SiftReceipt}

def entry (r : SiftReceipt) (key : JsString) : JsValue := (ownEntry key r.signedFields).getD .undefined

theorem scalar_entry (hrisk : r.riskTier.isSafeInteger = true) : ∀ k ∈ signedKeys, Scalar (r.entry k) := by
  obtain ⟨z, hz, hsafe⟩ := JsNumber.exists_int_of_isSafeInteger hrisk
  have hrisk : Scalar (r.entry (js "risk_tier")) := by
    have hentry : r.entry (js "risk_tier") = .num r.riskTier := rfl
    rw [hentry, hz]
    exact .int hsafe
  simp only [signedKeys, List.forall_mem_cons]
  exact ⟨.str _, .str _, .str _, .str _, .str _, .str _, hrisk, .str _, .str _, .str _, .str _,
    fun k hk => absurd hk List.not_mem_nil⟩

theorem sortedSignedKeys_subset : ∀ k ∈ sortedSignedKeys, k ∈ signedKeys := by decide

theorem signedBytes (hrisk : r.riskTier.isSafeInteger = true) : siftCanonicalJsonBytes (.obj r.signedFields) =
    .ok (utf8Encode (braced ((sortedSignedKeys.map (fun k => (k, r.entry k))).map siftMember))) := by
  have htable := siftCanonicalJson_table r.entry siftOrder_signedKeys fun k hk => (scalar_entry hrisk k hk).fixed
  have hfields : r.signedFields = signedKeys.map (fun k => (k, r.entry k)) := rfl
  rw [siftCanonicalJsonBytes, hfields, htable]
  rfl

theorem decision_text_inj {d d' : SiftDecision} (h : d.text = d'.text) : d = d' := by
  cases d <;> cases d'
  · rfl
  · exact absurd h (by decide)
  · exact absurd h (by decide)
  · rfl

/-- The eleven fields that are signed. -/
def unsigned (r : SiftReceipt) : SiftReceipt := { r with signature := [] }

/-- Receipts with the same signed bytes differ in nothing but their signature. -/
theorem eq_of_signedBytes (hrisk : r.riskTier.isSafeInteger = true) (hrisk' : r'.riskTier.isSafeInteger = true)
    (h : siftCanonicalJsonBytes (.obj r.signedFields) = siftCanonicalJsonBytes (.obj r'.signedFields)) :
    r.unsigned = r'.unsigned := by
  rw [signedBytes hrisk, signedBytes hrisk'] at h
  have htext := utf8Encode_inj (wellFormed_braced _) (wellFormed_braced _) (Except.ok.inj h)
  have hscalar : ∀ {r : SiftReceipt}, r.riskTier.isSafeInteger = true →
      ∀ e ∈ sortedSignedKeys.map (fun k => (k, r.entry k)), Scalar e.2 := by
    intro r hrisk e he
    obtain ⟨k, hk, rfl⟩ := List.mem_map.mp he
    exact scalar_entry hrisk k (sortedSignedKeys_subset k hk)
  have hkeys : ∀ r : SiftReceipt, (sortedSignedKeys.map (fun k => (k, r.entry k))).map Prod.fst = sortedSignedKeys := by
    intro r
    rw [List.map_map]
    exact List.map_id sortedSignedKeys
  have hfields := members_inj ((hkeys r).trans (hkeys r').symm) ((hkeys r).symm ▸ sortedSignedKeys_ascii) (hscalar hrisk)
    (hscalar hrisk') htext
  have hentry : ∀ k ∈ sortedSignedKeys, r.entry k = r'.entry k := fun k hk =>
    congrArg Prod.snd (List.map_inj_left.mp hfields k hk)
  have hstr : ∀ k s s', k ∈ sortedSignedKeys → r.entry k = .str s → r'.entry k = .str s' → s = s' := fun k s s' hk hs hs' =>
    JsValue.str.inj (hs.symm.trans ((hentry k hk).trans hs'))
  have hdecision := decision_text_inj (hstr (js "decision") r.decision.text r'.decision.text (by decide) rfl rfl)
  have hriskTier : r.riskTier = r'.riskTier := JsValue.num.inj (hentry (js "risk_tier") (by decide))
  have hversion := hstr (js "receipt_version") r.receiptVersion r'.receiptVersion (by decide) rfl rfl
  have htenant := hstr (js "tenant_id") r.tenantId r'.tenantId (by decide) rfl rfl
  have hagent := hstr (js "agent_id") r.agentId r'.agentId (by decide) rfl rfl
  have haction := hstr (js "action") r.action r'.action (by decide) rfl rfl
  have htool := hstr (js "tool") r.tool r'.tool (by decide) rfl rfl
  have hstamp := hstr (js "timestamp") r.timestamp r'.timestamp (by decide) rfl rfl
  have hnonce := hstr (js "nonce") r.nonce r'.nonce (by decide) rfl rfl
  have hpolicy := hstr (js "policy_matched") r.policyMatched r'.policyMatched (by decide) rfl rfl
  have hhash := hstr (js "receipt_hash") r.receiptHash r'.receiptHash (by decide) rfl rfl
  cases r
  cases r'
  simp only at hdecision hriskTier hversion htenant hagent haction htool hstamp hnonce hpolicy hhash
  subst hdecision hriskTier hversion htenant hagent haction htool hstamp hnonce hpolicy hhash
  rfl

end SiftReceipt

section

variable {H : SiftHost} {clock : Date} {options : VerifyReceiptOptions} {raw : JsValue} {r : SiftReceipt}

theorem riskTier_safe (h : parseReceipt H raw = .ok r) : r.riskTier.isSafeInteger = true := by
  unfold parseReceipt at h
  split at h
  · cases h
  split at h
  · cases h
  split at h
  · split at h <;> cases h
  split at h
  · rename_i hrisk
    obtain rfl := Except.ok.inj h
    unfold isFiniteNonNegativeInteger at hrisk
    split at hrisk
    · rename_i n hn
      rw [Bool.and_eq_true] at hrisk
      have hvalue : ∀ d, (receiptOf raw d).riskTier = n := by
        intro d
        rw [receiptOf, hn]
        rfl
      exact hvalue _ ▸ hrisk.1
    · cases hrisk
  · cases h

/-- Accepted receipts are authentic and timely unless the age limit is NaN and everything
else is in order. -/
theorem sound_iff : (∀ accepted, verifyReceipt H clock raw options = .ok accepted →
      Authentic H options accepted.receipt ∧ Timely H clock options accepted.receipt) ↔
    ¬ ((maxAgeOf options).isNaN = true ∧ ∃ r, PassesButAge H clock options r raw) := by
  constructor
  · intro h hboth
    obtain ⟨hnan, r, hpasses⟩ := hboth
    have hlt : (maxAgeOf options).lt (receiptAge H clock options r) = false := by
      cases hage : maxAgeOf options with
      | nan => rfl
      | _ => rw [hage] at hnan; cases hnan
    obtain ⟨accepted, haccepted, rfl⟩ := verifyReceipt_accepts.mpr ⟨hpasses, hlt⟩
    have hstale := (h accepted haccepted).2.notStale
    rw [JsNumber.le, JsNumber.ge, hnan] at hstale
    cases hstale
  · intro h accepted haccepted
    obtain ⟨hpasses, hstale⟩ := verifyReceipt_accepts.mp ⟨accepted, haccepted, rfl⟩
    have hnan : (maxAgeOf options).isNaN = false := Bool.eq_false_iff.mpr fun hnan => h ⟨hnan, _, hpasses⟩
    have hage := isNaN_receiptAge hpasses.now hpasses.timestamp
    exact ⟨hpasses.toAuthentic, hpasses.notFuture, ge_of_not_lt hnan hage hstale⟩

/-- A receipt that was accepted under a key. -/
structure Acceptance (H : SiftHost) (key : PublicKey) where
  clock : Date
  options : VerifyReceiptOptions
  raw : JsValue
  accepted : VerifiedReceipt
  accepts : verifyReceipt H clock raw options = .ok accepted
  supplied : resolvePublicKey H options = .ok key

variable {key : PublicKey}

/-- Two acceptances under one signature return the same signed fields. -/
theorem Acceptance.same_fields (a b : Acceptance H key)
    (hsignature : b64uDecode a.accepted.receipt.signature = b64uDecode b.accepted.receipt.signature)
    (hone : ∀ m m', key.verify m (b64uDecode a.accepted.receipt.signature) = true →
      key.verify m' (b64uDecode a.accepted.receipt.signature) = true → m = m') :
    a.accepted.receipt.unsigned = b.accepted.receipt.unsigned := by
  have hsigned : ∀ c : Acceptance H key, c.accepted.receipt.riskTier.isSafeInteger = true ∧
      ∃ message, siftCanonicalJsonBytes (.obj c.accepted.receipt.signedFields) = .ok message ∧
        key.verify message (b64uDecode c.accepted.receipt.signature) = true := by
    intro c
    obtain ⟨hpasses, -⟩ := verifyReceipt_accepts.mp ⟨c.accepted, c.accepts, rfl⟩
    obtain ⟨key', message, hkey, -, hmessage, hverify⟩ := hpasses.signed
    obtain rfl := Except.ok.inj (c.supplied.symm.trans hkey)
    exact ⟨riskTier_safe hpasses.parsed, message, hmessage, hverify⟩
  obtain ⟨hrisk, message, hmessage, hverify⟩ := hsigned a
  obtain ⟨hrisk', message', hmessage', hverify'⟩ := hsigned b
  refine SiftReceipt.eq_of_signedBytes hrisk hrisk' ?_
  rw [hmessage, hmessage', hone message message' hverify (hsignature ▸ hverify')]

/-- What an authorization takes from the receipt. -/
theorem bound_of_receipt {P : Platform} {clock : Date} {input : ReceiptToAuthorizationInput} {issued : ReceiptAuthorization}
    (h : receiptToAuthorization P clock input = .ok issued) :
    issued.authorization.authId = input.receipt.nonce ∧ issued.authorization.policyId = input.receipt.policyMatched := by
  obtain ⟨intentHash, stateHash, nowMs, ttl, -, rfl⟩ := receiptToAuthorization_ok h
  exact ⟨rfl, rfl⟩

end

/-- Accepted receipts are sound unless the age limit is NaN and everything else is in
order; and a signature that is valid for one message belongs to one receipt, and to one
`auth_id` and `policy_id`. -/
theorem verifyReceipt_sound_iff (H : SiftHost) (clock : Date) (options : VerifyReceiptOptions) (raw : JsValue) :
    ((∀ accepted, verifyReceipt H clock raw options = .ok accepted →
        Authentic H options accepted.receipt ∧ Timely H clock options accepted.receipt) ↔
      ¬ ((maxAgeOf options).isNaN = true ∧ ∃ r, PassesButAge H clock options r raw)) ∧
    ∀ (key : PublicKey) (a b : Acceptance H key),
      b64uDecode a.accepted.receipt.signature = b64uDecode b.accepted.receipt.signature →
      (∀ m m', key.verify m (b64uDecode a.accepted.receipt.signature) = true →
        key.verify m' (b64uDecode a.accepted.receipt.signature) = true → m = m') →
      a.accepted.receipt.unsigned = b.accepted.receipt.unsigned ∧
      ∀ (P : Platform) (clock clock' : Date) (input input' : ReceiptToAuthorizationInput) (issued issued' : ReceiptAuthorization),
        input.receipt = a.accepted.receipt → input'.receipt = b.accepted.receipt →
        receiptToAuthorization P clock input = .ok issued → receiptToAuthorization P clock' input' = .ok issued' →
          issued.authorization.authId = issued'.authorization.authId ∧
            issued.authorization.policyId = issued'.authorization.policyId := by
  refine ⟨sound_iff, fun key a b hsignature hone => ?_⟩
  have hsame := a.same_fields b hsignature hone
  refine ⟨hsame, fun P clock clock' input input' issued issued' ha hb hissued hissued' => ?_⟩
  obtain ⟨hauth, hpolicy⟩ := bound_of_receipt hissued
  obtain ⟨hauth', hpolicy'⟩ := bound_of_receipt hissued'
  have hnonce := congrArg SiftReceipt.nonce hsame
  have hmatched := congrArg SiftReceipt.policyMatched hsame
  rw [hauth, hauth', hpolicy, hpolicy', ha, hb]
  exact ⟨hnonce, hmatched⟩

namespace SiftReceipt

def hashedKeys : List JsString :=
  [js "receipt_version", js "tenant_id", js "agent_id", js "action", js "tool", js "decision", js "risk_tier",
    js "timestamp", js "nonce", js "policy_matched"]

def sortedHashedKeys : List JsString :=
  [js "action", js "agent_id", js "decision", js "nonce", js "policy_matched", js "receipt_version", js "risk_tier",
    js "tenant_id", js "timestamp", js "tool"]

theorem siftOrder_hashedKeys :
    siftOrder (hashedKeys.map (fun k => (k, k))) = sortedHashedKeys.map (fun k => (k, k)) := by decide

theorem hashedKeys_subset : ∀ k ∈ hashedKeys, k ∈ signedKeys := by decide

theorem hashedBytes {r : SiftReceipt} (hrisk : r.riskTier.isSafeInteger = true) :
    siftCanonicalJsonBytes (.obj r.hashedFields) =
      .ok (utf8Encode (braced ((sortedHashedKeys.map (fun k => (k, r.entry k))).map siftMember))) := by
  have htable := siftCanonicalJson_table r.entry siftOrder_hashedKeys fun k hk =>
    (scalar_entry hrisk k (hashedKeys_subset k hk)).fixed
  have hfields : r.hashedFields = hashedKeys.map (fun k => (k, r.entry k)) := rfl
  rw [siftCanonicalJsonBytes, hfields, htable]
  rfl

end SiftReceipt

def epochReceipt : SiftReceipt := { sampleReceipt with timestamp := js "1970-01-01T00:00:00Z" }

def oldReceipt : SiftReceipt :=
  { epochReceipt with
    receiptHash := sampleHex (utf8Encode (braced
      ((SiftReceipt.sortedHashedKeys.map (fun k => (k, epochReceipt.entry k))).map siftMember)))
    signature := base64UrlEncode sampleSignatureBytes }

def oldMessage : List Byte :=
  utf8Encode (braced ((SiftReceipt.sortedSignedKeys.map (fun k => (k, oldReceipt.entry k))).map siftMember))

/-- A host whose one key signed the receipt. -/
def receiptHost : SiftHost where
  toHost := signerHost oldMessage
  createPublicKeyDer _ := some (signerKey oldMessage)
  toLowerCase s := s
  dateParse _ := ⟨some ⟨0, by decide⟩⟩
  toISOString _ := js "1970-01-01T00:16:40.000Z"
  string _ := .ok []

def receiptOptions (maxAgeMs : JsNumber) : VerifyReceiptOptions where
  publicKeyRaw := some (.bytes (List.replicate 32 (byte 7)))
  now := some sampleDate
  maxAgeMs := some maxAgeMs

def oldRaw : JsValue := .obj (oldReceipt.signedFields ++ [(js "signature", .str oldReceipt.signature)])

theorem normalizeHashHex_digits {u : CodeUnit} {us : JsString} (h : u ≠ unit 115) :
    normalizeHashHex receiptHost (u :: us) = u :: us := by
  refine if_neg fun hprefix => h ?_
  have hhead : js "sha256:" = unit 115 :: (js "sha256:").tail := by decide
  rw [hhead] at hprefix
  exact (List.cons_prefix_cons.mp hprefix).1.symm

theorem passes_oldReceipt (maxAgeMs : JsNumber) :
    PassesButAge receiptHost sampleDate (receiptOptions maxAgeMs) oldReceipt oldRaw where
  decision := .inl rfl
  signed := ⟨signerKey oldMessage, oldMessage, rfl, isUsableKey_signer _, SiftReceipt.signedBytes rfl,
    signerKey_verify.mpr rfl⟩
  hash := by
    have hfields : SiftReceipt.sortedHashedKeys.map (fun k => (k, epochReceipt.entry k)) =
        SiftReceipt.sortedHashedKeys.map (fun k => (k, oldReceipt.entry k)) := rfl
    refine ⟨_, SiftReceipt.hashedBytes rfl, ?_⟩
    have hclaimed : oldReceipt.receiptHash = sampleHex (utf8Encode (braced
        ((SiftReceipt.sortedHashedKeys.map (fun k => (k, epochReceipt.entry k))).map siftMember))) := rfl
    have hsha : ∀ bytes, receiptHost.sha256Hex bytes = sampleHex bytes := fun _ => rfl
    rw [← hfields, hsha, hclaimed, sampleHex]
    exact normalizeHashHex_digits (by decide)
  parsed := rfl
  version := by decide
  signatureText := by decide
  now := fun h => by cases h
  timestamp := fun h => by cases h
  notFuture := by
    have hage : receiptAge receiptHost sampleDate (receiptOptions maxAgeMs) oldReceipt = .int 1000000 :=
      JsNumber.sub_int (by decide)
    rw [hage]
    decide

/-- A limit that is not a number lets every age pass. -/
theorem nan_accepts_old_receipt : ¬ ∀ (H : SiftHost) (clock : Date) (options : VerifyReceiptOptions) (raw : JsValue)
    (accepted : VerifiedReceipt), verifyReceipt H clock raw options = .ok accepted →
      Authentic H options accepted.receipt ∧ Timely H clock options accepted.receipt := by
  intro hclaim
  obtain ⟨accepted, haccepted, -⟩ := verifyReceipt_accepts.mpr ⟨passes_oldReceipt .nan, rfl⟩
  have hstale := (hclaim _ _ _ _ accepted haccepted).2.notStale
  rw [JsNumber.le, JsNumber.ge] at hstale
  cases hstale

theorem accepts_oldReceipt {raw : JsValue}
    (h : PassesButAge receiptHost sampleDate (receiptOptions (.int 2000000)) oldReceipt raw) : ∃ accepted,
      verifyReceipt receiptHost sampleDate raw (receiptOptions (.int 2000000)) = .ok accepted ∧
        accepted.receipt = oldReceipt := by
  have hage : receiptAge receiptHost sampleDate (receiptOptions (.int 2000000)) oldReceipt = .int 1000000 :=
    JsNumber.sub_int (by decide)
  have hstale : (maxAgeOf (receiptOptions (.int 2000000))).lt
      (receiptAge receiptHost sampleDate (receiptOptions (.int 2000000)) oldReceipt) = false := by
    rw [hage]
    decide
  exact verifyReceipt_accepts.mpr ⟨h, hstale⟩

/-- The same receipt with its members in another order. -/
def turnedRaw : JsValue := .obj ((js "signature", .str oldReceipt.signature) :: oldReceipt.signedFields)

theorem passes_turnedRaw (maxAgeMs : JsNumber) :
    PassesButAge receiptHost sampleDate (receiptOptions maxAgeMs) oldReceipt turnedRaw :=
  { passes_oldReceipt maxAgeMs with parsed := rfl }

def oldInput (audience : JsString) : ReceiptToAuthorizationInput := { sampleInput audience with receipt := oldReceipt }

theorem issued_oldReceipt {audience : JsString} (h : audience ≠ []) : receiptToAuthorization samplePlatform sampleDate
    (oldInput audience) = .ok (constructAuthorization (oldInput audience) sampleHash sampleHash (.int 1000) (.int 1030)) := by
  have hissuer : js "issuer-1" ≠ [] := by decide
  have hkey : js "k1" ≠ [] := by decide
  have hpolicy : js "p1" ≠ [] := by decide
  have hadd : (JsNumber.int (1000000 / 1000)).add (.int 30) = .int 1030 := JsNumber.add_int (by decide)
  have hhash : siftCanonicalJsonHash samplePlatform (.obj []) = .ok sampleHash := rfl
  have hobject : isObjectValue (.obj []) = true := rfl
  have httl : (!defaultTtlSeconds.isSafeInteger || defaultTtlSeconds.le (.int 0)) = false := rfl
  simp only [receiptToAuthorization, oldInput, sampleInput, oldReceipt, epochReceipt, sampleReceipt, ne_eq,
    not_true_eq_false, if_false, hissuer, h, hkey, hpolicy, hobject, hhash, Option.getD_none, httl, Bool.not_true,
    Bool.false_eq_true, sampleDate]
  exact congrArg (fun exp => Except.ok (constructAuthorization (oldInput audience) sampleHash sampleHash (.int 1000) exp)) hadd

/-- The receipt is accepted in either order, and gets one `auth_id` whoever it is issued for. -/
theorem verifyReceipt_sound_iff_sample : ∃ a b : Acceptance receiptHost (signerKey oldMessage),
    a.raw = oldRaw ∧ b.raw = turnedRaw ∧ Timely receiptHost sampleDate (receiptOptions (.int 2000000)) a.accepted.receipt ∧
      a.accepted.receipt.unsigned = b.accepted.receipt.unsigned ∧ ∃ issued issued',
        receiptToAuthorization samplePlatform sampleDate (oldInput (js "svc")) = .ok issued ∧
          receiptToAuthorization samplePlatform sampleDate (oldInput (js "till")) = .ok issued' ∧
            issued.authorization.authId = issued'.authorization.authId := by
  obtain ⟨accepted, haccepted, hreceipt⟩ := accepts_oldReceipt (passes_oldReceipt (.int 2000000))
  obtain ⟨turned, hturned, hreceipt'⟩ := accepts_oldReceipt (passes_turnedRaw (.int 2000000))
  let a : Acceptance receiptHost (signerKey oldMessage) :=
    ⟨sampleDate, receiptOptions (.int 2000000), oldRaw, accepted, haccepted, rfl⟩
  let b : Acceptance receiptHost (signerKey oldMessage) :=
    ⟨sampleDate, receiptOptions (.int 2000000), turnedRaw, turned, hturned, rfl⟩
  obtain ⟨hsound, hone⟩ := verifyReceipt_sound_iff receiptHost sampleDate (receiptOptions (.int 2000000)) oldRaw
  have htimely := (hsound.mpr (fun h => by cases h.1) accepted haccepted).2
  have hsignature : b64uDecode a.accepted.receipt.signature = b64uDecode b.accepted.receipt.signature := by
    rw [show a.accepted.receipt = oldReceipt from hreceipt, show b.accepted.receipt = oldReceipt from hreceipt']
  obtain ⟨hunsigned, hissue⟩ := hone (signerKey oldMessage) a b hsignature fun m m' hm hm' =>
    (signerKey_verify.mp hm).trans (signerKey_verify.mp hm').symm
  have hsvc := issued_oldReceipt (show js "svc" ≠ [] by decide)
  have htill := issued_oldReceipt (show js "till" ≠ [] by decide)
  have hid := (hissue samplePlatform sampleDate sampleDate _ _ _ _ hreceipt.symm hreceipt'.symm hsvc htill).1
  exact ⟨a, b, rfl, rfl, htimely, hunsigned, _, _, hsvc, htill, hid⟩

end OxDeAI.Sift
