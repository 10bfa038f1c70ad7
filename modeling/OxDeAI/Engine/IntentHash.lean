import OxDeAI.Engine.Hashable

/-! What an intent hash binds: two intents have one hash exactly when their
fields agree up to the normalization of strings. -/

namespace OxDeAI

open Js

section

variable {P : Platform} {nfc : JsString → JsString} {a b : Intent}

def bindingFields (intent : Intent) : List (JsString × Option JsValue) :=
  [(js "intent_id", some (.str intent.intentId)),
    (js "agent_id", some (.str intent.agentId)),
    (js "action_type", some (.str intent.actionType.text)),
    (js "depth", intent.depth.map .num),
    (js "amount", some (.bigint intent.amount)),
    (js "asset", intent.asset.map .str),
    (js "target", some (.str intent.target)),
    (js "timestamp", some (.num intent.timestamp)),
    (js "metadata_hash", some (.str intent.metadataHash)),
    (js "nonce", some (.bigint intent.nonce)),
    (js "type", intent.type.map (fun t => .str t.text)),
    (js "authorization_id", intent.authorizationId.map .str),
    (js "tool", intent.tool.map .str),
    (js "tool_call", intent.toolCall.map .bool)]

theorem present_cons (f : JsString × Option JsValue) (fields : List (JsString × Option JsValue)) :
    present (f :: fields) = optionalField f.1 f.2 ++ present fields := by
  obtain ⟨k, v⟩ := f
  cases v <;> rfl

theorem intentBinding_eq (intent : Intent) : intentBinding intent = present (bindingFields intent) := by
  have hnil : present [] = [] := rfl
  simp only [bindingFields, present_cons, hnil, intentBinding, optionalField, List.append_assoc,
    List.append_nil, List.cons_append, List.nil_append]

def bindingKeys : List JsString :=
  [js "intent_id", js "agent_id", js "action_type", js "depth", js "amount", js "asset", js "target",
    js "timestamp", js "metadata_hash", js "nonce", js "type", js "authorization_id", js "tool",
    js "tool_call"]

theorem keys_bindingFields (intent : Intent) : (bindingFields intent).map Prod.fst = bindingKeys := rfl

theorem canonicalMembers_intentBinding (hn : NfcLaws nfc) (intent : Intent) :
    CanonicalMembers nfc (intentBinding intent) := by
  rw [intentBinding_eq]
  apply canonicalMembers_present hn
  · rw [keys_bindingFields]
    decide
  · rw [keys_bindingFields]
    decide

/-- The fields of two intents agree up to normalization. -/
structure SameBinding (nfc : JsString → JsString) (a b : Intent) : Prop where
  intentId : nfc a.intentId = nfc b.intentId
  agentId : nfc a.agentId = nfc b.agentId
  actionType : a.actionType = b.actionType
  depth : a.depth = b.depth
  amount : a.amount = b.amount
  asset : a.asset.map nfc = b.asset.map nfc
  target : nfc a.target = nfc b.target
  timestamp : a.timestamp = b.timestamp
  metadataHash : nfc a.metadataHash = nfc b.metadataHash
  nonce : a.nonce = b.nonce
  type : a.type = b.type
  authorizationId : a.authorizationId.map nfc = b.authorizationId.map nfc
  tool : a.tool.map nfc = b.tool.map nfc
  toolCall : a.toolCall = b.toolCall

theorem ActionType.isAscii_text (t : ActionType) : isAscii t.text = true := by cases t <;> decide

theorem IntentType.isAscii_text (t : IntentType) : isAscii t.text = true := by cases t <;> decide

theorem ActionType.text_inj {s t : ActionType} (h : s.text = t.text) : s = t := by
  revert h
  cases s <;> cases t <;> decide

theorem IntentType.text_inj {s t : IntentType} (h : s.text = t.text) : s = t := by
  revert h
  cases s <;> cases t <;> decide

theorem map_str_eq_iff {s t : Option JsString} :
    (s.map JsValue.str).map (normalForm nfc) = (t.map JsValue.str).map (normalForm nfc) ↔
      s.map nfc = t.map nfc := by
  cases s <;> cases t <;> simp [normalForm]

/-- Two bindings have one normal form exactly when the fields agree. -/
theorem normalForm_intentBinding_eq_iff (hn : NfcLaws nfc) :
    normalForm nfc (.obj (intentBinding a)) = normalForm nfc (.obj (intentBinding b)) ↔
      SameBinding nfc a b := by
  have hk : ((bindingFields a).map Prod.fst).all isPlainKey = true := by
    rw [keys_bindingFields]
    decide
  have hnd : ((bindingFields a).map Prod.fst).Nodup := by
    rw [keys_bindingFields]
    decide
  have haction : ∀ s t : ActionType, nfc s.text = nfc t.text ↔ s = t := by
    intro s t
    rw [hn.ascii _ s.isAscii_text, hn.ascii _ t.isAscii_text]
    exact ⟨ActionType.text_inj, fun h => h ▸ rfl⟩
  have htype : ∀ s t : Option IntentType, (s.map (fun t => JsValue.str t.text)).map (normalForm nfc) =
      (t.map (fun t => JsValue.str t.text)).map (normalForm nfc) ↔ s = t := by
    intro s t
    cases s <;> cases t <;> simp only [Option.map_none, Option.map_some, reduceCtorEq,
      Option.some.injEq, normalForm, JsValue.str.injEq]
    rename_i s t
    rw [hn.ascii _ s.isAscii_text, hn.ascii _ t.isAscii_text]
    exact ⟨IntentType.text_inj, fun h => h ▸ rfl⟩
  have hdecimal : ∀ m n : ℤ, decimal m = decimal n ↔ m = n :=
    fun m n => ⟨decimal_inj, fun h => h ▸ rfl⟩
  have hnum : ∀ s t : Option JsNumber, (s.map JsValue.num).map (normalForm nfc) =
      (t.map JsValue.num).map (normalForm nfc) ↔ s = t := by
    intro s t
    cases s <;> cases t <;> simp [normalForm]
  have hbool : ∀ s t : Option Bool, (s.map JsValue.bool).map (normalForm nfc) =
      (t.map JsValue.bool).map (normalForm nfc) ↔ s = t := by
    intro s t
    cases s <;> cases t <;> simp [normalForm]
  rw [intentBinding_eq, intentBinding_eq,
    normalForm_present_eq_iff hn hk hnd ((keys_bindingFields a).trans (keys_bindingFields b).symm)]
  simp only [bindingFields, List.map_cons, List.map_nil, List.cons.injEq, and_true, map_str_eq_iff,
    htype, hnum, hbool, Option.map_some, Option.some.injEq, normalForm, JsValue.str.injEq,
    JsValue.num.injEq, haction, hdecimal]
  constructor
  · rintro ⟨h1, h2, h3, h4, h5, h6, h7, h8, h9, h10, h11, h12, h13, h14⟩
    exact ⟨h1, h2, h3, h4, h5, h6, h7, h8, h9, h10, h11, h12, h13, h14⟩
  · rintro ⟨h1, h2, h3, h4, h5, h6, h7, h8, h9, h10, h11, h12, h13, h14⟩
    exact ⟨h1, h2, h3, h4, h5, h6, h7, h8, h9, h10, h11, h12, h13, h14⟩

def intentDigest (P : Platform) (intent : Intent) : JsString := digest P (.obj (intentBinding intent))

theorem intentHash_ok {intent : Intent} {h : JsString} : intentHash P intent = .ok h ↔
    Canonical P.nfc (.obj (intentBinding intent)) ∧ h = intentDigest P intent := sha256HexFromJson_ok

/-- Hashes that never collide bind the fields up to normalization. -/
theorem sameBinding_of_intentHash (hP : PlatformLaws P) {h : JsString} (ha : intentHash P a = .ok h)
    (hb : intentHash P b = .ok h) : SameBinding P.nfc a b := by
  obtain ⟨hca, rfl⟩ := intentHash_ok.mp ha
  obtain ⟨hcb, heq⟩ := intentHash_ok.mp hb
  exact (normalForm_intentBinding_eq_iff hP.nfc).mp ((digest_eq_iff hP.injective hca hcb).mp heq)

end

end OxDeAI
