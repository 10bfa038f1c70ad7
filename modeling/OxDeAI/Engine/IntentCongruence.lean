import OxDeAI.Engine.IntentHash
import OxDeAI.Engine.Issue

/-! Which intents of one hash are judged alike: the hash binds strings up to
normalization, the modules read them as they are. -/

namespace OxDeAI

open Js

/-- The fields that an evaluation reads; the others are blanked. -/
def Intent.read (intent : Intent) : Intent :=
  match intent.kind with
  | .execute => { intent with
      intentId := [], metadataHash := [], signature := [], toolCall := none, authorizationId := none }
  | .release => { intent with
      intentId := [], metadataHash := [], signature := [], toolCall := none, asset := none
      target := [], tool := none }

/-- Decision, reasons, authorization and the hash of the next state agree. -/
def Agrees (P : Platform) (e : PolicyEngine) :
    Except JsError EvaluatePureOutput → Except JsError EvaluatePureOutput → Prop
  | .ok (.deny reasons), .ok (.deny reasons') => reasons = reasons'
  | .ok (.allow auth next), .ok (.allow auth' next') =>
    auth = auth' ∧ computeStateHash P e next = computeStateHash P e next'
  | .error err, .error err' => err = err'
  | _, _ => False

/-- The strings that the modules compare agree as they are, unless the intents
are refused before they are compared. -/
structure JudgedAlike (a b : Intent) : Prop where
  valid : validateIntent a = validateIntent b
  agentId : validateIntent a = .ok () → a.agentId = b.agentId
  execute : validateIntent a = .ok () → isProtocolSeconds a.timestamp = true → a.kind = .execute →
    a.asset = b.asset ∧ a.target = b.target ∧ a.tool = b.tool
  release : validateIntent a = .ok () → isProtocolSeconds a.timestamp = true → a.kind = .release →
    a.authorizationId = b.authorizationId

section

variable {P : Platform} {e : PolicyEngine} {a b : Intent} {state : State} {t : JsNumber}

theorem agrees_refl (r : Except JsError EvaluatePureOutput) : Agrees P e r r := by
  cases r with
  | error err => rfl
  | ok out => cases out <;> simp [Agrees]

theorem precheck_congr (hv : validateIntent a = validateIntent b) (ha : a.agentId = b.agentId) :
    precheck e a state t = precheck e b state t := by
  simp only [precheck, hv, validateStateForIntent, ha]

theorem outcomeAfterGate_read (intent : Intent) (mode : EvalMode) (count : ℕ) (hash : JsString) :
    outcomeAfterGate P e intent state t mode count hash =
      outcomeAfterGate P e intent.read state t mode count hash := by
  obtain ⟨_, _, _, _, _, _, _, _, _, _, _, type, _, _, _⟩ := intent
  cases type with
  | none => rfl
  | some type => cases type <;> rfl

theorem SameBinding.kind {nfc : JsString → JsString} (h : SameBinding nfc a b) : a.kind = b.kind := by
  rw [Intent.kind, Intent.kind, h.type]

/-- The fields read are bound as they are, or agree by assumption. -/
theorem read_eq {nfc : JsString → JsString} (h : SameBinding nfc a b) (ha : a.agentId = b.agentId)
    (hx : a.kind = .execute → a.asset = b.asset ∧ a.target = b.target ∧ a.tool = b.tool)
    (hr : a.kind = .release → a.authorizationId = b.authorizationId) : a.read = b.read := by
  have hk := h.kind
  rw [Intent.read, Intent.read]
  cases hka : a.kind with
  | execute =>
    obtain ⟨hasset, htarget, htool⟩ := hx hka
    rw [← hk, hka]
    simp only [ha, h.actionType, h.depth, h.amount, hasset, htarget, h.timestamp, h.nonce, h.type, htool]
  | release =>
    rw [← hk, hka]
    simp only [ha, h.actionType, h.depth, h.amount, h.timestamp, h.nonce, h.type, hr hka]

theorem verifyTrustedTime_of_not_seconds (ht : ValidClock e t) {n : JsNumber}
    (hn : isProtocolSeconds n = false) :
    verifyTrustedTime n t e.opts.maxClockSkewSeconds e.opts.maxIntentAgeSeconds =
      .ok (.deny [.stateInvalid]) := by
  obtain ⟨skew, age, hs, ha, hs', ha'⟩ := e.exists_seconds
  obtain ⟨n', rfl, hn'⟩ := isProtocolSeconds_iff.mp ht.seconds
  rw [hs, ha]
  exact verifyTrustedTime_malformed hn' hs' ha' hn

/-- Intents judged alike have one outcome. -/
theorem evaluatePure_congr (hP : PlatformLaws P) {hash : JsString} (hha : intentHash P a = .ok hash)
    (hhb : intentHash P b = .ok hash) (h : JudgedAlike a b) (mode : EvalMode) (log : AuditLog) :
    (evaluatePure P e a state t mode log).1 = (evaluatePure P e b state t mode log).1 := by
  have hsame := sameBinding_of_intentHash hP hha hhb
  have hva := h.valid
  rw [evaluatePure_fst hP.nfc, evaluatePure_fst hP.nfc]
  cases hv : validateIntent a with
  | error reason =>
    have hearly : ∀ i : Intent, validateIntent i = .error reason →
        precheck e i state t = .error (.ok (.deny [reason])) := by
      intro i hi
      simp only [precheck, hi]
    rw [hearly a hv, hearly b (hva ▸ hv)]
  | ok u =>
    have hagent := h.agentId hv
    rw [precheck_congr hva hagent]
    cases hpre : precheck e b state t with
    | error early => rfl
    | ok u =>
      have hclock := (precheck_ok.mp hpre).clock
      simp only [outcome, hha, hhb, Except.bind, hsame.timestamp]
      by_cases hts : isProtocolSeconds a.timestamp = true
      · have hread := read_eq hsame hagent (h.execute hv hts) (h.release hv hts)
        rw [outcomeAfterGate_read, hread, ← outcomeAfterGate_read]
      · rw [hsame.timestamp, Bool.not_eq_true] at hts
        rw [verifyTrustedTime_of_not_seconds hclock hts]

end

end OxDeAI
