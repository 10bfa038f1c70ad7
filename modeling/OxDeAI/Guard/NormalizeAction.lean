import OxDeAI.Engine.Issue
import OxDeAI.Guard.Boundary
import OxDeAI.Js.Coerce
import OxDeAI.Sift.StringifyText

/-! `defaultNormalizeAction`, and what its `metadata_hash` tells of the arguments. -/

namespace OxDeAI

open Js

/-- What a call of the default normalizer takes from its environment: the case mapping of
texts, the bytes it draws in hexadecimal, and the time in milliseconds. -/
structure NormalizerEnvironment where
  toLowerCase : JsString → JsString
  randomHex : ℕ → JsString
  now : ℕ

structure ProposedAction where
  name : JsString
  args : JsValue
  context : JsValue := .undefined
  resourceType : Option JsString := none
  estimatedCost : Option JsNumber := none
  timestampSeconds : Option JsNumber := none

section

variable (P : Platform) (env : NormalizerEnvironment)

def inferActionType (name : JsString) (resourceType : Option JsString) : ActionType :=
  let needle := env.toLowerCase (resourceType.getD name)
  let mentions (words : List JsString) : Bool := words.any (fun word => word <:+: needle)
  if mentions [js "onchain", js "blockchain", js "chain", js "mint", js "swap"] then .onchainTx
  else if mentions [js "payment", js "pay", js "transfer", js "send"] then .payment
  else if mentions [js "purchase", js "buy", js "order", js "subscribe"] then .purchase
  else .provision

/-- `Object.fromEntries(Object.keys(args).sort().map((k) => [k, args[k]]))`. -/
def sortedArgs (args : JsValue) : List (JsString × JsValue) := sortedByUnits args.entries

def hashArgs (args : JsValue) : JsString :=
  P.sha256Hex (utf8Encode (stringify (enumerated (.obj (sortedArgs args)))))

def requireContextString (context : JsValue) (field : JsString) : Except GuardError JsString :=
  match context.field field with
  | .str (u :: us) => .ok (u :: us)
  | _ => .error (.normalization (js "ProposedAction.context." ++ field ++
      js " is required for default normalization but was not provided or is not a non-empty string. Supply it via action.context." ++
      field ++ js " or provide a custom mapActionToIntent function."))

def truncate (q : ℚ) : ℤ := if 0 ≤ q then q.floor else q.ceil

def notBigInt (text : JsString) : GuardError := .other (js "Cannot convert " ++ text ++ js " to a BigInt")

def notIntegral (x : JsNumber) : GuardError :=
  .other (js "The number " ++ x.text ++ js " cannot be converted to a BigInt because it is not an integer")

def nonceOf (rawNonce : JsValue) : Except GuardError ℤ :=
  match rawNonce with
  | .bigint z => .ok z
  | .num x => match x.toRat? with
    | some q => .ok (truncate q)
    | none => .error (notIntegral x)
  | .str text => match stringToBigInt? text with
    | some z => .ok z
    | none => .error (notBigInt text)
  | _ =>
    let drawn := js "0x" ++ env.randomHex 8
    match stringToBigInt? drawn with
    | some z => .ok z
    | none => .error (notBigInt drawn)

/-- `BigInt(Math.round(costUnits * 1_000_000))`, of a cost that is finite and not negative. -/
def amountOf (costUnits : JsNumber) : Except GuardError ℤ :=
  match costUnits.toRat? with
  | some cost =>
    if cost < 0 then .error (.normalization
      (js "ProposedAction.estimatedCost must be a non-negative finite number, got: " ++ costUnits.text))
    else
      let scaled := JsNumber.round (cost * 1000000)
      match scaled.toRat? with
      | some q => .ok (q + 1 / 2).floor
      | none => .error (notIntegral scaled)
  | none => .error (.normalization
      (js "ProposedAction.estimatedCost must be a non-negative finite number, got: " ++ costUnits.text))

def timestampOf (timestampSeconds : Option JsNumber) : JsNumber :=
  match timestampSeconds.bind JsNumber.toRat? with
  | some q => .int (truncate q)
  | none => .int (env.now / 1000 : ℕ)

/-- The text of a field, when it is one that is not empty. -/
def textOr (value : JsValue) (default : JsString) : JsString :=
  match value with
  | .str (u :: us) => u :: us
  | _ => default

def defaultNormalizeAction (action : ProposedAction) : Except GuardError Intent := do
  if action.name = [] then throw (.normalization (js "ProposedAction.name must be a non-empty string."))
  if !action.args.isRecord then throw (.normalization (js "ProposedAction.args must be a plain object."))
  let agentId ← requireContextString action.context (js "agent_id")
  let intentId := textOr (action.context.field (js "intent_id")) (env.randomHex 16)
  let target := textOr (action.context.field (js "target")) action.name
  let nonce ← nonceOf env (action.context.field (js "nonce"))
  let amount ← amountOf (action.estimatedCost.getD (.int 0))
  return { intentId := intentId, agentId := agentId, actionType := inferActionType env action.name action.resourceType,
           depth := none, amount := amount, asset := none, target := target, timestamp := timestampOf env action.timestampSeconds,
           metadataHash := hashArgs P action.args, nonce := nonce, signature := js "oxdeai-guard-placeholder",
           type := some .execute, authorizationId := none, tool := none, toolCall := none }

theorem defaultNormalizeAction_hash {action : ProposedAction} {intent : Intent}
    (h : defaultNormalizeAction P env action = .ok intent) :
    intent.metadataHash = hashArgs P action.args ∧ action.args.isRecord = true := by
  unfold defaultNormalizeAction at h
  by_cases hname : action.name = []
  · rw [if_pos hname] at h
    cases h
  · cases hargs : action.args.isRecord with
    | false =>
      simp only [hname, hargs, if_false, Bool.not_false, if_true] at h
      cases h
    | true =>
      simp only [hname, hargs, if_false, Bool.not_true, Bool.false_eq_true] at h
      simp only [bind_eq_ok] at h
      obtain ⟨agentId, -, nonce, -, amount, -, h⟩ := h
      cases h
      exact ⟨rfl, rfl⟩

end

/-- Below the top level, objects in one place enumerate their keys in the same order. -/
def NestedKeyOrder (args args' : JsValue) : Prop :=
  ∀ k v w, ownEntry k args.entries = some v → ownEntry k args'.entries = some w → SameKeyOrder v w

section

variable (P : Platform) {es fs : List (JsString × JsValue)}

theorem enumerated_sortedArgs (es : List (JsString × JsValue)) :
    enumerated (.obj (sortedArgs (.obj es))) = .obj (siftOrder (es.map (fun e => (e.1, enumerated e.2)))) := by
  have hsort : sortedByUnits (es.map (fun e => (e.1, enumerated e.2))) =
      (sortedByUnits es).map (fun e => (e.1, enumerated e.2)) := insertionSort_keys (· ≤ ·) enumerated es
  rw [enumerated, arranged_obj, siftOrder, hsort]
  rfl

theorem hashArgs_eq_iff (hi : Function.Injective P.sha256Hex) (hes : JsonOver IsFiniteDouble (.obj es))
    (hfs : JsonOver IsFiniteDouble (.obj fs)) :
    hashArgs P (.obj es) = hashArgs P (.obj fs) ↔ JsonEq (.obj es) (.obj fs) ∧ NestedKeyOrder (.obj es) (.obj fs) := by
  cases hes with
  | obj hnd hmembers =>
    cases hfs with
    | obj hnd' hmembers' =>
      have hsorted : ∀ {gs : List (JsString × JsValue)}, (gs.map Prod.fst).Nodup → (∀ e ∈ gs, JsonOver IsFiniteDouble e.2) →
          JsonOver IsFiniteDouble (enumerated (.obj (sortedArgs (.obj gs)))) := by
        intro gs hgs hall
        have hperm : (sortedByUnits gs).Perm gs := List.perm_insertionSort _ gs
        exact (JsonOver.obj ((hperm.map Prod.fst).nodup_iff.mpr hgs) fun e he => hall e (hperm.mem_iff.mp he)).arranged
          perm_propertyOrder
      have ha := hsorted hnd hmembers
      have hb := hsorted hnd' hmembers'
      have hhash : hashArgs P (.obj es) = hashArgs P (.obj fs) ↔
          enumerated (.obj (sortedArgs (.obj es))) = enumerated (.obj (sortedArgs (.obj fs))) := by
        refine ⟨fun h => ?_, fun h => by rw [hashArgs, hashArgs, h]⟩
        exact stringify_inj ha hb (utf8Encode_inj (wellFormed_stringify ha) (wellFormed_stringify hb) (hi h))
      have hpermuted : (es.map (fun e => (e.1, enumerated e.2))).Perm (fs.map (fun e => (e.1, enumerated e.2))) ↔
          ∀ k, (ownEntry k es).map enumerated = (ownEntry k fs).map enumerated := by
        constructor
        · intro hp k
          have hk := ownEntry_perm hp (nodup_arranged hnd) k
          rwa [ownEntry_map, ownEntry_map] at hk
        · intro h
          refine perm_of_ownEntry (nodup_arranged hnd) (nodup_arranged hnd') fun k => ?_
          rw [ownEntry_map, ownEntry_map]
          exact h k
      have hkeyed : ((es.map (fun e => (e.1, enumerated e.2))).map Prod.fst).Nodup := nodup_arranged hnd
      rw [hhash, enumerated_sortedArgs, enumerated_sortedArgs, JsValue.obj.injEq, siftOrder_eq_iff hkeyed,
        hpermuted, ownEntry_map_eq_iff, jsonEq_obj]
      constructor
      · rintro ⟨hkeys, h⟩
        have hiff := fun k v w hv hw => (enumerated_eq_iff (hmembers (k, v) (ownEntry_mem hv))
          (hmembers' (k, w) (ownEntry_mem hw))).mp (h k v w hv hw)
        exact ⟨⟨hkeys, fun k v w hv hw => (hiff k v w hv hw).1⟩, fun k v w hv hw => (hiff k v w hv hw).2⟩
      · rintro ⟨⟨hkeys, hequal⟩, horder⟩
        refine ⟨hkeys, fun k v w hv hw => ?_⟩
        exact (enumerated_eq_iff (hmembers (k, v) (ownEntry_mem hv)) (hmembers' (k, w) (ownEntry_mem hw))).mpr
          ⟨hequal k v w hv hw, horder k v w hv hw⟩

/-- The hash is faithful to the arguments as JSON values unless they are equal and only
differ in the order of the keys of a nested object. -/
theorem metadataHash_faithful (hi : Function.Injective P.sha256Hex) (env env' : NormalizerEnvironment)
    {action action' : ProposedAction} {intent intent' : Intent} (hargs : JsonOver IsFiniteDouble action.args)
    (hargs' : JsonOver IsFiniteDouble action'.args) (h : defaultNormalizeAction P env action = .ok intent)
    (h' : defaultNormalizeAction P env' action' = .ok intent') :
    (intent.metadataHash = intent'.metadataHash ↔ JsonEq action.args action'.args) ↔
      (JsonEq action.args action'.args → NestedKeyOrder action.args action'.args) := by
  obtain ⟨hhash, hrecord⟩ := defaultNormalizeAction_hash P env h
  obtain ⟨hhash', hrecord'⟩ := defaultNormalizeAction_hash P env' h'
  have hobject : ∀ {v : JsValue}, JsonOver IsFiniteDouble v → v.isRecord = true → ∃ es, v = .obj es := by
    intro v hv hrecord
    cases hv with
    | obj => exact ⟨_, rfl⟩
    | _ => cases hrecord
  obtain ⟨es, hes⟩ := hobject hargs hrecord
  obtain ⟨fs, hfs⟩ := hobject hargs' hrecord'
  have hiff := hashArgs_eq_iff P hi (hes ▸ hargs) (hfs ▸ hargs')
  rw [hhash, hhash', hes, hfs, hiff]
  constructor
  · exact fun h hequal => (h.mpr hequal).2
  · exact fun h => ⟨fun hboth => hboth.1, fun hequal => ⟨hequal, h hequal⟩⟩

end

section

def fixedEnvironment : NormalizerEnvironment where
  toLowerCase s := s
  randomHex n := List.replicate (2 * n) (unit 48)
  now := 1700000000000

def pointArgs (first second : JsString) : JsValue :=
  .obj [(js "at", .obj [(first, .num (.int 1)), (second, .num (.int 1))])]

def pointAction (first second : JsString) : ProposedAction where
  name := js "move"
  args := pointArgs first second
  context := .obj [(js "agent_id", .str (js "agent")), (js "nonce", .bigint 1)]

theorem isFiniteDouble_one : IsFiniteDouble (.int 1) := ⟨rfl, JsNumber.isDouble_of_le (e := 1) (by norm_num)⟩

theorem json_pointArgs {first second : JsString} (hne : first ≠ second) :
    JsonOver IsFiniteDouble (pointArgs first second) := by
  refine .obj (by simp) fun e he => ?_
  obtain rfl := List.mem_singleton.mp he
  refine .obj (by simpa using hne) fun e he => ?_
  rcases List.mem_pair.mp he with rfl | rfl
  · exact .num isFiniteDouble_one
  · exact .num isFiniteDouble_one

theorem normalizes_pointAction (first second : JsString) :
    ∃ intent, defaultNormalizeAction samplePlatform fixedEnvironment (pointAction first second) = .ok intent := by
  have hamount : amountOf (.int 0) = .ok 0 := by decide +kernel
  have hdefault : (pointAction first second).estimatedCost.getD (.int 0) = .int 0 := rfl
  unfold defaultNormalizeAction
  rw [hdefault, hamount]
  exact ⟨_, rfl⟩

theorem metadataHash_faithful_sample : ∃ intent intent',
    defaultNormalizeAction samplePlatform fixedEnvironment (pointAction (js "x") (js "y")) = .ok intent ∧
      defaultNormalizeAction samplePlatform fixedEnvironment (pointAction (js "x") (js "z")) = .ok intent' ∧
        ((intent.metadataHash = intent'.metadataHash ↔
          JsonEq (pointArgs (js "x") (js "y")) (pointArgs (js "x") (js "z"))) ↔
        (JsonEq (pointArgs (js "x") (js "y")) (pointArgs (js "x") (js "z")) →
          NestedKeyOrder (pointArgs (js "x") (js "y")) (pointArgs (js "x") (js "z")))) := by
  obtain ⟨intent, h⟩ := normalizes_pointAction (js "x") (js "y")
  obtain ⟨intent', h'⟩ := normalizes_pointAction (js "x") (js "z")
  exact ⟨intent, intent', h, h', metadataHash_faithful samplePlatform samplePlatform_laws.injective fixedEnvironment
    fixedEnvironment (json_pointArgs (by decide)) (json_pointArgs (by decide)) h h'⟩

/-- The two orders of a nested object's keys have two hashes. -/
theorem metadataHash_nested_order : ∃ intent intent',
    defaultNormalizeAction samplePlatform fixedEnvironment (pointAction (js "x") (js "y")) = .ok intent ∧
      defaultNormalizeAction samplePlatform fixedEnvironment (pointAction (js "y") (js "x")) = .ok intent' ∧
        JsonEq (pointArgs (js "x") (js "y")) (pointArgs (js "y") (js "x")) ∧ intent.metadataHash ≠ intent'.metadataHash := by
  obtain ⟨intent, h⟩ := normalizes_pointAction (js "x") (js "y")
  obtain ⟨intent', h'⟩ := normalizes_pointAction (js "y") (js "x")
  have hmember : JsonEq (.obj [(js "x", .num (.int 1)), (js "y", .num (.int 1))])
      (.obj [(js "y", .num (.int 1)), (js "x", .num (.int 1))]) := by
    refine .obj (fun k => by simp [or_comm]) fun k v w hv hw => ?_
    have hv := ownEntry_mem hv
    have hw := ownEntry_mem hw
    simp only [List.mem_cons, Prod.mk.injEq, List.not_mem_nil, or_false] at hv hw
    obtain rfl : v = .num (.int 1) := by rcases hv with hv | hv <;> exact hv.2
    obtain rfl : w = .num (.int 1) := by rcases hw with hw | hw <;> exact hw.2
    exact .same _
  have hequal : JsonEq (pointArgs (js "x") (js "y")) (pointArgs (js "y") (js "x")) := by
    refine .obj (fun k => Iff.rfl) fun k v w hv hw => ?_
    have hv := ownEntry_mem hv
    have hw := ownEntry_mem hw
    simp only [List.mem_singleton, Prod.mk.injEq] at hv hw
    obtain ⟨-, rfl⟩ := hv
    obtain ⟨-, rfl⟩ := hw
    exact hmember
  refine ⟨intent, intent', h, h', hequal, ?_⟩
  rw [(defaultNormalizeAction_hash _ _ h).1, (defaultNormalizeAction_hash _ _ h').1]
  intro hsame
  have hiff := hashArgs_eq_iff samplePlatform samplePlatform_laws.injective
    (@json_pointArgs (js "x") (js "y") (by decide)) (@json_pointArgs (js "y") (js "x") (by decide))
  have horder := (hiff.mp hsame).2 (js "at") _ _ rfl rfl
  cases horder with
  | leaf _ hobj => exact hobj _ rfl
  | obj hkeys _ => exact absurd hkeys (by decide +kernel)

end

end OxDeAI
