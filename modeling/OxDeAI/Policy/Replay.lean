import OxDeAI.Policy.Gates
import OxDeAI.Js.Rounding

/-! Replay protection: nonces an agent has used, kept at least as long as the
same intent can still be fresh. -/

namespace OxDeAI

open Js

def replayCapacityExhaustedReason : ReasonCode := .velocityExceeded

def nonceKey (intent : Intent) : JsString := decimal intent.nonce

/-- The interval entries are kept for. -/
def retention (cfg : ReplayState) (context : PolicyEvaluationContext) : JsNumber :=
  match context.freshnessHorizonSeconds with
  | none => cfg.windowSeconds
  | some horizon => cfg.windowSeconds.max horizon

def windowStart (cfg : ReplayState) (context : PolicyEvaluationContext) : JsNumber :=
  context.evaluationTime.sub (retention cfg context)

def pruneNonces (start : JsNumber) (list : List NonceEntry) : List NonceEntry :=
  list.filter (fun x => x.ts.ge start)

/-- The window and the capacity do not switch protection off. -/
def validReplayConfig (cfg : ReplayState) : Bool :=
  !(cfg.windowSeconds.isNaN || cfg.windowSeconds.lt (.int 0)) &&
  !(cfg.maxNoncesPerAgent.isNaN || cfg.maxNoncesPerAgent.lt (.int 1))

/-- What a read of the prototype returns has no `filter`. -/
def nonceList (state : State) (agent : JsString) : Except JsError (List NonceEntry) :=
  match state.replay.nonces.get agent with
  | .own list => .ok list
  | .absent => .ok []
  | .inherited _ => .error .typeError

def replayModule : PolicyModule := fun intent state context =>
  let agent := intent.agentId
  let cfg := state.replay
  if !validReplayConfig cfg then .ok (.deny [.stateInvalid])
  else
    (nonceList state agent).map (fun list =>
      let pruned := pruneNonces (windowStart cfg context) list
      let n := nonceKey intent
      if pruned.any (fun x => x.nonce = n) then .deny [.replayNonce]
      else if (JsNumber.int pruned.length).ge cfg.maxNoncesPerAgent then
        .deny [replayCapacityExhaustedReason]
      else
        let next := pruned ++ [⟨n, context.evaluationTime⟩]
        .allow (some { replay := some { cfg with nonces := cfg.nonces.set agent next } }))

/-- What a permitted intent found, and the list it leaves behind. -/
structure ReplayAdmits (intent : Intent) (state : State) (context : PolicyEvaluationContext)
    (pruned : List NonceEntry) : Prop where
  own : ∃ list, nonceList state intent.agentId = .ok list ∧
    pruned = pruneNonces (windowStart state.replay context) list
  config : validReplayConfig state.replay = true
  unused : ∀ x ∈ pruned, x.nonce ≠ nonceKey intent
  capacity : (JsNumber.int pruned.length).ge state.replay.maxNoncesPerAgent = false

def recordNonce (intent : Intent) (state : State) (context : PolicyEvaluationContext)
    (pruned : List NonceEntry) : ReplayState :=
  { state.replay with
    nonces := state.replay.nonces.set intent.agentId
      (pruned ++ [⟨nonceKey intent, context.evaluationTime⟩]) }

theorem replayModule_allow {intent : Intent} {state : State} {context : PolicyEvaluationContext}
    {delta : Option StateDelta} :
    replayModule intent state context = .ok (.allow delta) ↔
      ∃ pruned, ReplayAdmits intent state context pruned ∧
        delta = some { replay := some (recordNonce intent state context pruned) } := by
  cases hc : validReplayConfig state.replay with
  | false =>
    simp only [replayModule, hc, Bool.not_false, if_true]
    exact ⟨fun h => (by cases h), fun ⟨_, h, _⟩ => by simp [h.config] at hc⟩
  | true =>
    simp only [replayModule, hc, Bool.not_true, Bool.false_eq_true, if_false, map_eq_ok]
    constructor
    · rintro ⟨list, hl, h⟩
      split at h
      · cases h
      · rename_i hu
        split at h
        · cases h
        · rename_i hcap
          cases h
          exact ⟨_, ⟨⟨list, hl, rfl⟩, hc, by simpa using hu, by simpa using hcap⟩, rfl⟩
    · rintro ⟨pruned, ⟨⟨list, hl, rfl⟩, -, hu, hcap⟩, rfl⟩
      refine ⟨list, hl, ?_⟩
      rw [if_neg (by simpa using hu), if_neg (by simpa using hcap)]
      rfl

/-- An entry no older than the freshness horizon is never pruned. -/
theorem mem_pruneNonces {cfg : ReplayState} {t e : ℕ} {horizon : JsNumber} {list : List NonceEntry}
    {x : NonceEntry} (hw : cfg.windowSeconds.isNaN = false) (hx : x ∈ list) (hts : x.ts = .int e)
    (he : e ≤ JsNumber.maxSafeInteger)
    (hyoung : horizon = .posInf ∨ ∃ h : ℕ, horizon = .int h ∧ t ≤ e + h) :
    x ∈ pruneNonces (windowStart cfg ⟨.int t, some horizon⟩) list := by
  refine List.mem_filter.mpr ⟨hx, ?_⟩
  rw [hts]
  rcases hyoung with rfl | ⟨h, rfl, hle⟩
  · simp [windowStart, retention, JsNumber.max_posInf_of_not_nan hw]
  · refine JsNumber.ge_sub_max hw ?_ (by exact_mod_cast hle)
    simp only [JsNumber.maxSafeInteger] at he
    omega

end OxDeAI
