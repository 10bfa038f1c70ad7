import OxDeAI.Engine.Issue
import OxDeAI.Js.Except
import OxDeAI.Sift.CoreAcceptance
import OxDeAI.Sift.StringifyText

/-! `normalizeIntent` and `normalizeState`, and what the hashes of their results tell. -/

namespace OxDeAI.Sift

open Js

/-- The codes under which a normalizer refuses a key and a value. -/
structure NormalizerCodes (γ : Type) where
  invalid : γ
  unsupported : γ

structure NormalizeError (γ : Type) where
  code : γ
  message : JsString

section

variable {γ : Type} (codes : NormalizerCodes γ)

def unsupportedValue (path typeLabel : JsString) : NormalizeError γ :=
  ⟨codes.unsupported, js "Value at '" ++ path ++ js "' has an unsupported type: " ++ typeLabel⟩

/-- The members in the order of their keys, up to the first that is refused. -/
def collect (results : List (JsString × Except (NormalizeError γ) JsValue)) :
    Except (NormalizeError γ) (List (JsString × JsValue)) :=
  results.mapM (fun r => r.2.map (fun v => (r.1, v)))

mutual

def normalizeValue (path : JsString) : JsValue → Except (NormalizeError γ) JsValue
  | .null => .ok .null
  | .bool b => .ok (.bool b)
  | .str s => .ok (.str s)
  | .num n =>
    if n.isSafeInteger then .ok (.num n)
    else .error ⟨codes.unsupported, js "Value at '" ++ path ++
      js "' is not a safe integer (floats, NaN, and Infinity are not allowed)"⟩
  | .arr xs => (normalizeElements path 0 xs).map .arr
  | .obj es => (collect (propertyOrder (normalizeMembers path es))).map .obj
  -- the tag of an instance whose class gives it none
  | .instance _ => .error (unsupportedValue codes path (js "[object Object]"))
  | .bigint _ => .error (unsupportedValue codes path (js "bigint"))
  | .undefined => .error (unsupportedValue codes path (js "undefined"))
  | .function => .error (unsupportedValue codes path (js "function"))
  | .symbol => .error (unsupportedValue codes path (js "symbol"))

def normalizeElements (path : JsString) (i : ℕ) : List JsValue → Except (NormalizeError γ) (List JsValue)
  | [] => .ok []
  | x :: xs => do
    let y ← normalizeValue (path ++ js "[" ++ natDecimal i ++ js "]") x
    let ys ← normalizeElements path (i + 1) xs
    return y :: ys

def normalizeMembers (path : JsString) : List (JsString × JsValue) → List (JsString × Except (NormalizeError γ) JsValue)
  | [] => []
  | (k, v) :: es =>
    (k, if k = [] then .error ⟨codes.invalid, js "Empty string key found at '" ++ path ++ js "'"⟩
        else normalizeValue (path ++ js "." ++ k) v) :: normalizeMembers path es

end

/-- The members of a root, whose paths are their keys. -/
def normalizeRoot (emptyKey : JsString) (es : List (JsString × JsValue)) :
    Except (NormalizeError γ) (List (JsString × JsValue)) :=
  collect (propertyOrder (es.map (fun e =>
    (e.1, if e.1 = [] then .error ⟨codes.invalid, emptyKey⟩ else normalizeValue codes e.1 e.2))))

end

inductive NormalizeIntentErrorCode
  | invalidParams
  | ambiguousIntent
  | actionMismatch
  | toolMismatch
  | unsupportedParamType
  | nonDeterministicInput
  deriving DecidableEq

structure NormalizeIntentInput where
  receipt : SiftReceipt
  params : JsValue
  expectedAction : Option JsString := none
  expectedTool : Option JsString := none

structure OxDeAIIntent where
  tool : JsString
  params : List (JsString × JsValue)

def OxDeAIIntent.value (intent : OxDeAIIntent) : JsValue :=
  .obj [(js "type", .str (js "EXECUTE")), (js "tool", .str intent.tool), (js "params", .obj intent.params)]

def intentCodes : NormalizerCodes NormalizeIntentErrorCode := ⟨.invalidParams, .unsupportedParamType⟩

/-- A name of the receipt against the one the caller expects, if any. -/
def requireExpected (code : NormalizeIntentErrorCode) (what : JsString) (expected : Option JsString) (found : JsString) :
    Except (NormalizeError NormalizeIntentErrorCode) Unit :=
  match expected with
  | some expected =>
    if found ≠ expected then
      .error ⟨code, js "Expected " ++ what ++ js " '" ++ expected ++ js "' but receipt has '" ++ found ++ js "'"⟩
    else .ok ()
  | none => .ok ()

def normalizeIntent (input : NormalizeIntentInput) : Except (NormalizeError NormalizeIntentErrorCode) OxDeAIIntent := do
  requireExpected .actionMismatch (js "action") input.expectedAction input.receipt.action
  requireExpected .toolMismatch (js "tool") input.expectedTool input.receipt.tool
  if input.receipt.tool = [] then throw ⟨.ambiguousIntent, js "Receipt tool is missing or empty"⟩
  if input.params.isNullish then throw ⟨.ambiguousIntent,
    js "Explicit params are required; a Sift receipt alone is not sufficient to construct executable intent"⟩
  match input.params with
  | .obj es =>
    let params ← normalizeRoot intentCodes (js "Empty string keys are not allowed in params") es
    return ⟨input.receipt.tool, params⟩
  | _ => throw ⟨.invalidParams, js "params must be a plain object; arrays and primitives are not allowed at the top level"⟩

inductive NormalizeStateErrorCode
  | missingState
  | invalidState
  | missingRequiredStateKey
  | unsupportedStateValue
  | nonDeterministicState
  deriving DecidableEq

structure NormalizeStateInput where
  state : JsValue
  requiredKeys : Option (List JsString) := none

def stateCodes : NormalizerCodes NormalizeStateErrorCode := ⟨.invalidState, .unsupportedStateValue⟩

def requireKeys (normalizedState : List (JsString × JsValue)) (requiredKeys : List JsString) :
    Except (NormalizeError NormalizeStateErrorCode) Unit :=
  match requiredKeys.find? (fun key => (ownEntry key normalizedState).isNone) with
  | some key => .error ⟨.missingRequiredStateKey, js "Required state key '" ++ key ++ js "' is missing"⟩
  | none => .ok ()

/-- The own properties of the normalized state. -/
def normalizeState (input : NormalizeStateInput) :
    Except (NormalizeError NormalizeStateErrorCode) (List (JsString × JsValue)) := do
  if input.state.isNullish then throw ⟨.missingState, js "State is required; null and undefined are not accepted"⟩
  match input.state with
  | .obj es =>
    let normalizedState ← normalizeRoot stateCodes (js "Empty string keys are not allowed in state") es
    requireKeys normalizedState (input.requiredKeys.getD [])
    return normalizedState
  | _ => throw ⟨.invalidState,
      js "State must be a plain object; arrays, primitives, and class instances are not allowed at the top level"⟩

/-- Nulls, booleans, texts, safe integers, and arrays and plain objects of them, with no
key empty. -/
inductive Accepted : JsValue → Prop
  | null : Accepted .null
  | bool (b : Bool) : Accepted (.bool b)
  | str (s : JsString) : Accepted (.str s)
  | num {n : JsNumber} (h : n.isSafeInteger = true) : Accepted (.num n)
  | arr {xs : List JsValue} (h : ∀ x ∈ xs, Accepted x) : Accepted (.arr xs)
  | obj {es : List (JsString × JsValue)} (hkeys : ∀ e ∈ es, e.1 ≠ []) (h : ∀ e ∈ es, Accepted e.2) : Accepted (.obj es)

section

variable {γ : Type} {codes : NormalizerCodes γ}

theorem collect_ok_iff {es ms : List (JsString × JsValue)} {r : JsString × JsValue → Except (NormalizeError γ) JsValue}
    {p : JsString × JsValue → Prop} {g : JsValue → JsValue} (h : ∀ e ∈ es, ∀ y, r e = .ok y ↔ p e ∧ y = g e.2) :
    collect (propertyOrder (es.map (fun e => (e.1, r e)))) = .ok ms ↔
      (∀ e ∈ es, p e) ∧ ms = propertyOrder (es.map (fun e => (e.1, g e.2))) := by
  have hstep : ∀ e ∈ propertyOrder es, ∀ m, (r e).map (fun v => (e.1, v)) = .ok m ↔ p e ∧ m = (e.1, g e.2) := by
    intro e he m
    rw [map_eq_ok]
    constructor
    · rintro ⟨y, hy, rfl⟩
      obtain ⟨hp, rfl⟩ := (h e (mem_propertyOrder.mp he) y).mp hy
      exact ⟨hp, rfl⟩
    · rintro ⟨hp, rfl⟩
      exact ⟨g e.2, (h e (mem_propertyOrder.mp he) _).mpr ⟨hp, rfl⟩, rfl⟩
  rw [propertyOrder_map r, propertyOrder_map (fun e => g e.2), collect, List.mapM_map]
  refine (mapM_ok_iff hstep).trans ?_
  simp only [mem_propertyOrder]

theorem normalizeMembers_eq_map (path : JsString) (es : List (JsString × JsValue)) :
    normalizeMembers codes path es = es.map (fun e =>
      (e.1, if e.1 = [] then .error ⟨codes.invalid, js "Empty string key found at '" ++ path ++ js "'"⟩
        else normalizeValue codes (path ++ js "." ++ e.1) e.2)) := by
  induction es with
  | nil => rfl
  | cons e es ih => rw [normalizeMembers, ih, List.map_cons]

/-- A normalizer keeps what it accepts, with the keys as they are enumerated. -/
theorem normalizeValue_ok_iff (path : JsString) (v w : JsValue) :
    normalizeValue codes path v = .ok w ↔ Accepted v ∧ w = enumerated v := by
  induction v using jsValue_induction generalizing path w with
  | null =>
    rw [normalizeValue, Except.ok.injEq]
    exact ⟨fun h => ⟨.null, h.symm⟩, fun h => h.2.symm⟩
  | bool b =>
    rw [normalizeValue, Except.ok.injEq]
    exact ⟨fun h => ⟨.bool b, h.symm⟩, fun h => h.2.symm⟩
  | str s =>
    rw [normalizeValue, Except.ok.injEq]
    exact ⟨fun h => ⟨.str s, h.symm⟩, fun h => h.2.symm⟩
  | num n =>
    rw [normalizeValue]
    by_cases hn : n.isSafeInteger = true
    · rw [if_pos hn, Except.ok.injEq]
      exact ⟨fun h => ⟨.num hn, h.symm⟩, fun h => h.2.symm⟩
    · rw [if_neg hn]
      refine ⟨fun h => (by cases h), fun h => ?_⟩
      cases h.1 with
      | num h => exact absurd h hn
  | arr xs ih =>
    have helements : ∀ i ys, normalizeElements codes path i xs = .ok ys ↔ (∀ x ∈ xs, Accepted x) ∧ ys = xs.map enumerated := by
      induction xs with
      | nil => exact fun i ys => by simp [normalizeElements, eq_comm]
      | cons x xs ihxs =>
        intro i ys
        have hx := ih x List.mem_cons_self (path ++ js "[" ++ natDecimal i ++ js "]")
        have hxs := ihxs (fun y hy => ih y (List.mem_cons_of_mem _ hy)) (i + 1)
        rw [normalizeElements, bind_eq_ok, List.forall_mem_cons, List.map_cons]
        constructor
        · rintro ⟨y, hy, h⟩
          obtain ⟨ys', hys, h⟩ := bind_eq_ok.mp h
          obtain ⟨hax, rfl⟩ := (hx y).mp hy
          obtain ⟨haxs, rfl⟩ := (hxs ys').mp hys
          exact ⟨⟨hax, haxs⟩, (Except.ok.inj h).symm⟩
        · rintro ⟨⟨hax, haxs⟩, rfl⟩
          exact ⟨_, (hx _).mpr ⟨hax, rfl⟩, bind_eq_ok.mpr ⟨_, (hxs _).mpr ⟨haxs, rfl⟩, rfl⟩⟩
    rw [normalizeValue, map_eq_ok, enumerated, arranged_arr]
    constructor
    · rintro ⟨ys, hys, rfl⟩
      obtain ⟨hall, rfl⟩ := (helements 0 ys).mp hys
      exact ⟨.arr hall, rfl⟩
    · rintro ⟨hall, rfl⟩
      cases hall with
      | arr hall => exact ⟨_, (helements 0 _).mpr ⟨hall, rfl⟩, rfl⟩
  | obj es ih =>
    have hmember : ∀ e ∈ es, ∀ y,
        (if e.1 = [] then .error ⟨codes.invalid, js "Empty string key found at '" ++ path ++ js "'"⟩
          else normalizeValue codes (path ++ js "." ++ e.1) e.2) = .ok y ↔ (e.1 ≠ [] ∧ Accepted e.2) ∧ y = enumerated e.2 := by
      intro e he y
      by_cases hk : e.1 = []
      · rw [if_pos hk]
        exact ⟨fun h => (by cases h), fun h => absurd hk h.1.1⟩
      · rw [if_neg hk, ih e he, and_assoc, and_iff_right hk]
    rw [normalizeValue, normalizeMembers_eq_map, map_eq_ok, enumerated, arranged_obj]
    constructor
    · rintro ⟨ms, hms, rfl⟩
      obtain ⟨hall, rfl⟩ := (collect_ok_iff hmember).mp hms
      exact ⟨.obj (fun e he => (hall e he).1) fun e he => (hall e he).2, rfl⟩
    · rintro ⟨hall, rfl⟩
      cases hall with
      | obj hkeys hall => exact ⟨_, (collect_ok_iff hmember).mpr ⟨fun e he => ⟨hkeys e he, hall e he⟩, rfl⟩, rfl⟩
  | inst es ih => exact ⟨fun h => (by cases h), fun h => (by cases h.1)⟩
  | bigint z => exact ⟨fun h => (by cases h), fun h => (by cases h.1)⟩
  | undefined => exact ⟨fun h => (by cases h), fun h => (by cases h.1)⟩
  | function => exact ⟨fun h => (by cases h), fun h => (by cases h.1)⟩
  | symbol => exact ⟨fun h => (by cases h), fun h => (by cases h.1)⟩

theorem normalizeRoot_ok_iff {emptyKey : JsString} {es ms : List (JsString × JsValue)} :
    normalizeRoot codes emptyKey es = .ok ms ↔ Accepted (.obj es) ∧ JsValue.obj ms = enumerated (.obj es) := by
  have hmember : ∀ e ∈ es, ∀ y, (if e.1 = [] then .error ⟨codes.invalid, emptyKey⟩ else normalizeValue codes e.1 e.2) = .ok y ↔
      (e.1 ≠ [] ∧ Accepted e.2) ∧ y = enumerated e.2 := by
    intro e he y
    by_cases hk : e.1 = []
    · rw [if_pos hk]
      exact ⟨nofun, fun h => absurd hk h.1.1⟩
    · rw [if_neg hk, normalizeValue_ok_iff, and_assoc, and_iff_right hk]
  rw [normalizeRoot, collect_ok_iff hmember, enumerated, arranged_obj, JsValue.obj.injEq]
  constructor
  · exact fun h => ⟨.obj (fun e he => (h.1 e he).1) fun e he => (h.1 e he).2, h.2⟩
  · rintro ⟨hall, hms⟩
    cases hall with
    | obj hkeys hall => exact ⟨fun e he => ⟨hkeys e he, hall e he⟩, hms⟩

end

/-- No object has two properties of one key. -/
inductive DistinctKeys : JsValue → Prop
  | leaf {v : JsValue} (harr : ∀ xs, v ≠ .arr xs) (hobj : ∀ es, v ≠ .obj es) : DistinctKeys v
  | arr {xs : List JsValue} (h : ∀ x ∈ xs, DistinctKeys x) : DistinctKeys (.arr xs)
  | obj {es : List (JsString × JsValue)} (hnd : (es.map Prod.fst).Nodup) (h : ∀ e ∈ es, DistinctKeys e.2) :
      DistinctKeys (.obj es)

abbrev SafeJson : JsValue → Prop := JsonOver (fun x => x.isSafeInteger = true)

theorem Accepted.safe {v : JsValue} (h : Accepted v) (hdistinct : DistinctKeys v) : SafeJson v := by
  induction h with
  | null => exact .null
  | bool b => exact .bool b
  | str s => exact .str s
  | num hn => exact .num hn
  | arr _ ih =>
    cases hdistinct with
    | leaf harr _ => exact absurd rfl (harr _)
    | arr hd => exact .arr fun x hx => ih x hx (hd x hx)
  | obj _ _ ih =>
    cases hdistinct with
    | leaf _ hobj => exact absurd rfl (hobj _)
    | obj hnd hd => exact .obj hnd fun e he => ih e he (hd e he)

theorem Accepted.enumerated {v : JsValue} (h : Accepted v) : Accepted (enumerated v) := by
  induction h with
  | null => exact .null
  | bool b => exact .bool b
  | str s => exact .str s
  | num hn => exact .num hn
  | arr _ ih =>
    rw [OxDeAI.enumerated, arranged_arr]
    refine .arr fun y hy => ?_
    obtain ⟨x, hx, rfl⟩ := List.mem_map.mp hy
    exact ih x hx
  | @obj es hkeys _ ih =>
    rw [OxDeAI.enumerated, arranged_obj]
    have hmem : ∀ e ∈ propertyOrder (es.map (fun e => (e.1, arranged propertyOrder e.2))),
        ∃ f ∈ es, e = (f.1, arranged propertyOrder f.2) := by
      intro e he
      obtain ⟨f, hf, rfl⟩ := List.mem_map.mp (mem_propertyOrder.mp he)
      exact ⟨f, hf, rfl⟩
    refine .obj (fun e he => ?_) fun e he => ?_
    · obtain ⟨f, hf, rfl⟩ := hmem e he
      exact hkeys f hf
    · obtain ⟨f, hf, rfl⟩ := hmem e he
      exact ih f hf

theorem safe_enumerated {v : JsValue} (h : SafeJson v) : SafeJson (enumerated v) := h.arranged perm_propertyOrder

theorem enumerated_enumerated {v : JsValue} (h : SafeJson v) : enumerated (enumerated v) = enumerated v := by
  unfold enumerated
  induction h with
  | null => rfl
  | bool b => rfl
  | str s => rfl
  | num hn => rfl
  | @arr xs _ ih =>
    rw [arranged_arr, arranged_arr, List.map_map]
    congr 1
    exact List.map_congr_left ih
  | @obj es hnd _ ih =>
    rw [arranged_obj, arranged_obj]
    congr 1
    have hagain : (propertyOrder (es.map (fun e => (e.1, arranged propertyOrder e.2)))).map
        (fun e => (e.1, arranged propertyOrder e.2)) = propertyOrder (es.map (fun e => (e.1, arranged propertyOrder e.2))) := by
      refine (List.map_congr_left fun e he => ?_).trans (List.map_id _)
      obtain ⟨f, hf, rfl⟩ := List.mem_map.mp (mem_propertyOrder.mp he)
      exact Prod.ext rfl (ih f hf)
    rw [hagain, propertyOrder_propertyOrder (nodup_arranged hnd)]

section

variable (P : Platform) {v w : JsValue}

theorem siftCanonicalize_safe (h : SafeJson v) : siftCanonicalize v = .ok (arranged siftOrder v) := by
  induction h with
  | null => rfl
  | bool b => rfl
  | str s => rfl
  | @num n hn =>
    obtain ⟨z, rfl, -⟩ := JsNumber.exists_int_of_isSafeInteger hn
    rfl
  | @arr xs _ ih =>
    have helements : siftElements xs = .ok (xs.map (arranged siftOrder)) := by
      induction xs with
      | nil => rfl
      | cons x xs ihxs =>
        rw [siftElements, ih x List.mem_cons_self, ihxs (fun y hy => ‹∀ y ∈ x :: xs, SafeJson y› y (List.mem_cons_of_mem _ hy))
          fun y hy => ih y (List.mem_cons_of_mem _ hy)]
        rfl
    rw [siftCanonicalize, helements, arranged_arr]
    rfl
  | @obj es _ _ ih =>
    have hmembers : siftMembers es =
        (es.map (fun e => (e.1, arranged siftOrder e.2))).map (fun m => (m.1, .ok m.2)) := by
      induction es with
      | nil => rfl
      | cons e es ihes =>
        rename_i hnd hall
        rw [siftMembers, ih e List.mem_cons_self, ihes (List.Nodup.of_cons hnd)
          (fun f hf => hall f (List.mem_cons_of_mem _ hf)) fun f hf => ih f (List.mem_cons_of_mem _ hf)]
        rfl
    rw [siftCanonicalize_obj hmembers, arranged_obj]
    rfl

/-- The digest of a value's text under Sift. -/
def siftDigest (v : JsValue) : JsString := P.sha256Hex (utf8Encode (signedText (arranged siftOrder v)))

theorem siftCanonicalJsonHash_safe (h : SafeJson v) : siftCanonicalJsonHash P v = .ok (siftDigest P v) := by
  rw [siftCanonicalJsonHash, siftCanonicalJsonBytes, siftCanonicalJson, siftCanonicalize_safe h]
  rfl

theorem siftOrder_perm {es fs : List (JsString × JsValue)} (hnd : (es.map Prod.fst).Nodup) (hp : es.Perm fs) :
    siftOrder es = siftOrder fs := (siftOrder_eq_iff hnd).mpr hp

theorem siftDigest_eq_iff (hi : Function.Injective P.sha256Hex) (hv : SafeJson v) (hw : SafeJson w) :
    siftDigest P v = siftDigest P w ↔ JsonEq v w := by
  have hva : SafeJson (arranged siftOrder v) := hv.arranged perm_siftOrder
  have hwa : SafeJson (arranged siftOrder w) := hw.arranged perm_siftOrder
  constructor
  · intro h
    have htext := utf8Encode_inj (wellFormed_of_isAscii (isAscii_of_applyEnsureAscii _))
      (wellFormed_of_isAscii (isAscii_of_applyEnsureAscii _)) (hi h)
    exact jsonEq_of_arranged perm_siftOrder hv hw (signedText_inj hva hwa htext)
  · intro h
    rw [siftDigest, siftDigest, arranged_of_jsonEq (fun hnd hp => siftOrder_perm hnd hp) hv hw h]

theorem siftDigest_enumerated (hv : SafeJson v) : siftDigest P (enumerated v) = siftDigest P v := by
  rw [siftDigest, siftDigest, enumerated, arranged_arranged perm_propertyOrder (fun hnd hp => siftOrder_perm hnd hp) hv]

end

theorem normalizeIntent_ok {input : NormalizeIntentInput} {intent : OxDeAIIntent} (h : normalizeIntent input = .ok intent) :
    ∃ es, input.params = .obj es ∧ Accepted (.obj es) ∧ intent.tool = input.receipt.tool ∧
      JsValue.obj intent.params = enumerated (.obj es) := by
  obtain ⟨_, -, h⟩ := bind_eq_ok.mp h
  obtain ⟨_, -, h⟩ := bind_eq_ok.mp h
  by_cases htool : input.receipt.tool = []
  · rw [if_pos htool] at h
    cases h
  · rw [if_neg htool] at h
    cases hparams : input.params with
    | obj es =>
      simp only [hparams] at h
      obtain ⟨ms, hms, h⟩ := bind_eq_ok.mp h
      obtain ⟨haccepted, henumerated⟩ := normalizeRoot_ok_iff.mp hms
      cases h
      exact ⟨es, rfl, haccepted, rfl, henumerated⟩
    | _ =>
      simp only [hparams] at h
      cases h

theorem requireKeys_ok_iff {ms : List (JsString × JsValue)} {keys : List JsString} :
    requireKeys ms keys = .ok () ↔ ∀ key ∈ keys, key ∈ ms.map Prod.fst := by
  have hmissing : (keys.find? (fun key => (ownEntry key ms).isNone) = none) ↔ ∀ key ∈ keys, key ∈ ms.map Prod.fst := by
    rw [List.find?_eq_none]
    refine forall₂_congr fun key _ => ?_
    rw [← ownEntry_isSome]
    cases ownEntry key ms <;> simp
  rw [← hmissing, requireKeys]
  cases keys.find? (fun key => (ownEntry key ms).isNone) <;> simp

theorem normalizeState_ok_iff {state : JsValue} {requiredKeys : Option (List JsString)} {ms : List (JsString × JsValue)} :
    normalizeState ⟨state, requiredKeys⟩ = .ok ms ↔ ∃ es, state = .obj es ∧ Accepted (.obj es) ∧
      JsValue.obj ms = enumerated (.obj es) ∧ ∀ key ∈ requiredKeys.getD [], key ∈ ms.map Prod.fst := by
  unfold normalizeState
  cases state with
  | obj es =>
    constructor
    · intro h
      obtain ⟨ms', hms, h⟩ := bind_eq_ok.mp h
      obtain ⟨_, hkeys, h⟩ := bind_eq_ok.mp h
      cases h
      obtain ⟨haccepted, henumerated⟩ := normalizeRoot_ok_iff.mp hms
      exact ⟨es, rfl, haccepted, henumerated, requireKeys_ok_iff.mp hkeys⟩
    · rintro ⟨_, ⟨⟩, haccepted, henumerated, hkeys⟩
      refine bind_eq_ok.mpr ⟨ms, normalizeRoot_ok_iff.mpr ⟨haccepted, henumerated⟩, ?_⟩
      exact bind_eq_ok.mpr ⟨(), requireKeys_ok_iff.mpr hkeys, rfl⟩
  | _ =>
    constructor
    · intro h
      cases h
    · intro h
      obtain ⟨es, hes, -⟩ := h
      cases hes

section

variable (P : Platform)

theorem safe_intentValue {intent : OxDeAIIntent} (h : SafeJson (.obj intent.params)) : SafeJson intent.value := by
  have hkeys : [js "type", js "tool", js "params"].Nodup := by decide
  refine .obj hkeys fun e he => ?_
  simp only [List.mem_cons, List.not_mem_nil, or_false] at he
  rcases he with rfl | rfl | rfl
  · exact .str _
  · exact .str _
  · exact h

theorem jsonEq_intentValue {intent intent' : OxDeAIIntent} (htool : intent.tool = intent'.tool) :
    JsonEq intent.value intent'.value ↔ JsonEq (.obj intent.params) (.obj intent'.params) := by
  have hne : js "type" ≠ js "params" ∧ js "tool" ≠ js "params" := by decide
  rw [OxDeAIIntent.value, OxDeAIIntent.value, jsonEq_obj, htool]
  constructor
  · rintro ⟨-, h⟩
    exact h (js "params") _ _ (by simp [ownEntry, hne]) (by simp [ownEntry, hne])
  · refine fun h => ⟨fun k => Iff.rfl, fun k v w hv hw => ?_⟩
    simp only [ownEntry] at hv hw
    split_ifs at hv hw
    · exact Option.some.inj hv ▸ Option.some.inj hw ▸ .same _
    · exact Option.some.inj hv ▸ Option.some.inj hw ▸ .same _
    · exact Option.some.inj hv ▸ Option.some.inj hw ▸ h

/-- Two accepted values have one digest exactly if they are equal. -/
theorem digest_normalized (hi : Function.Injective P.sha256Hex) {es es' ms ms' : List (JsString × JsValue)}
    (hd : DistinctKeys (.obj es)) (hd' : DistinctKeys (.obj es')) (ha : Accepted (.obj es)) (ha' : Accepted (.obj es'))
    (hms : JsValue.obj ms = enumerated (.obj es)) (hms' : JsValue.obj ms' = enumerated (.obj es')) :
    JsonEq (.obj ms) (.obj ms') ↔ JsonEq (.obj es) (.obj es') := by
  have hs := ha.safe hd
  have hs' := ha'.safe hd'
  rw [hms, hms', ← siftDigest_eq_iff P hi (safe_enumerated hs) (safe_enumerated hs'), ← siftDigest_eq_iff P hi hs hs',
    siftDigest_enumerated P hs, siftDigest_enumerated P hs']

/-- The hashes of normalized intents and states tell the values that were given, and
normalizing a state again changes nothing. -/
theorem siftBindings_faithful (hi : Function.Injective P.sha256Hex) :
    (∀ (input input' : NormalizeIntentInput) (intent intent' : OxDeAIIntent), DistinctKeys input.params →
      DistinctKeys input'.params → normalizeIntent input = .ok intent → normalizeIntent input' = .ok intent' →
      input.receipt.tool = input'.receipt.tool →
        ∃ hash hash', siftCanonicalJsonHash P intent.value = .ok hash ∧ siftCanonicalJsonHash P intent'.value = .ok hash' ∧
          (hash = hash' ↔ JsonEq input.params input'.params)) ∧
    (∀ (input input' : NormalizeStateInput) (state state' : List (JsString × JsValue)), DistinctKeys input.state →
      DistinctKeys input'.state → normalizeState input = .ok state → normalizeState input' = .ok state' →
        ∃ hash hash', siftCanonicalJsonHash P (.obj state) = .ok hash ∧ siftCanonicalJsonHash P (.obj state') = .ok hash' ∧
          (hash = hash' ↔ JsonEq input.state input'.state)) ∧
    ∀ (input : NormalizeStateInput) (state : List (JsString × JsValue)), DistinctKeys input.state →
      normalizeState input = .ok state → ∀ requiredKeys, requiredKeys = none ∨ requiredKeys = input.requiredKeys →
        ∃ again, normalizeState ⟨.obj state, requiredKeys⟩ = .ok again ∧
          siftCanonicalJsonHash P (.obj again) = siftCanonicalJsonHash P (.obj state) := by
  refine ⟨?_, ?_, ?_⟩
  · intro input input' intent intent' hd hd' h h' htool
    obtain ⟨es, hparams, ha, hname, hms⟩ := normalizeIntent_ok h
    obtain ⟨es', hparams', ha', hname', hms'⟩ := normalizeIntent_ok h'
    rw [hparams] at hd
    rw [hparams'] at hd'
    have hsafe : SafeJson (.obj intent.params) := hms ▸ safe_enumerated (ha.safe hd)
    have hsafe' : SafeJson (.obj intent'.params) := hms' ▸ safe_enumerated (ha'.safe hd')
    refine ⟨_, _, siftCanonicalJsonHash_safe P (safe_intentValue hsafe), siftCanonicalJsonHash_safe P (safe_intentValue hsafe'), ?_⟩
    rw [siftDigest_eq_iff P hi (safe_intentValue hsafe) (safe_intentValue hsafe'),
      jsonEq_intentValue (by rw [hname, hname', htool]), hparams, hparams', digest_normalized P hi hd hd' ha ha' hms hms']
  · rintro ⟨value, keys⟩ ⟨value', keys'⟩ state state' hd hd' h h'
    obtain ⟨es, rfl, ha, hms, -⟩ := normalizeState_ok_iff.mp h
    obtain ⟨es', rfl, ha', hms', -⟩ := normalizeState_ok_iff.mp h'
    have hsafe : SafeJson (.obj state) := hms ▸ safe_enumerated (ha.safe hd)
    have hsafe' : SafeJson (.obj state') := hms' ▸ safe_enumerated (ha'.safe hd')
    refine ⟨_, _, siftCanonicalJsonHash_safe P hsafe, siftCanonicalJsonHash_safe P hsafe', ?_⟩
    rw [siftDigest_eq_iff P hi hsafe hsafe', digest_normalized P hi hd hd' ha ha' hms hms']
  · rintro ⟨value, keys⟩ state hd h requiredKeys hrequired
    obtain ⟨es, rfl, ha, hms, hkeys⟩ := normalizeState_ok_iff.mp h
    have hagain : JsValue.obj state = enumerated (.obj state) := by rw [hms, enumerated_enumerated (ha.safe hd)]
    refine ⟨state, normalizeState_ok_iff.mpr ⟨state, rfl, hms ▸ ha.enumerated, hagain, ?_⟩, rfl⟩
    rcases hrequired with rfl | rfl
    · exact fun key hkey => absurd hkey List.not_mem_nil
    · exact hkeys

end

def transferMembers (amount : ℤ) : List (JsString × JsValue) :=
  [(js "amount", .num (.int amount)), (js "to", .arr [.str (js "x"), .null])]

/-- The same in another order. -/
def turnedMembers (amount : ℤ) : List (JsString × JsValue) :=
  [(js "to", .arr [.str (js "x"), .null]), (js "amount", .num (.int amount))]

theorem distinctKeys_transfer (amount : ℤ) : DistinctKeys (.obj (transferMembers amount)) := by
  have hleaf : ∀ v ∈ [JsValue.str (js "x"), .null], DistinctKeys v := by
    intro v hv
    rcases List.mem_pair.mp hv with rfl | rfl
    · exact .leaf nofun nofun
    · exact .leaf nofun nofun
  have hnodup : ((transferMembers amount).map Prod.fst).Nodup := by
    show [js "amount", js "to"].Nodup
    decide
  refine .obj hnodup fun e he => ?_
  rcases List.mem_pair.mp he with rfl | rfl
  · exact .leaf nofun nofun
  · exact .arr hleaf

theorem distinctKeys_turned (amount : ℤ) : DistinctKeys (.obj (turnedMembers amount)) := by
  have htransfer := distinctKeys_transfer amount
  cases htransfer with
  | leaf harr hobj => exact absurd rfl (hobj _)
  | obj hnodup h =>
    have hperm : (turnedMembers amount).Perm (transferMembers amount) := .swap _ _ _
    exact .obj ((hperm.map Prod.fst).nodup_iff.mpr hnodup) fun e he => h e (hperm.mem_iff.mp he)

theorem jsonEq_turned (amount : ℤ) : JsonEq (.obj (transferMembers amount)) (.obj (turnedMembers amount)) := by
  have hnodup : ((transferMembers amount).map Prod.fst).Nodup := by
    show [js "amount", js "to"].Nodup
    decide
  have hperm : (transferMembers amount).Perm (turnedMembers amount) := .swap _ _ _
  refine jsonEq_obj.mpr ⟨fun k => (hperm.map Prod.fst).mem_iff, fun k v w hv hw => ?_⟩
  rw [ownEntry_perm hperm hnodup, hw] at hv
  exact Option.some.inj hv ▸ .same _

/-- Reordered parameters give the same hash, another amount gives another, and a state is
normalized once and for all. -/
theorem siftBindings_faithful_sample :
    (∃ hash, siftCanonicalJsonHash samplePlatform (OxDeAIIntent.value ⟨js "bank", transferMembers 1⟩) = .ok hash ∧
      siftCanonicalJsonHash samplePlatform (OxDeAIIntent.value ⟨js "bank", turnedMembers 1⟩) = .ok hash) ∧
    (∃ hash hash', siftCanonicalJsonHash samplePlatform (.obj (transferMembers 1)) = .ok hash ∧
      siftCanonicalJsonHash samplePlatform (.obj (transferMembers 2)) = .ok hash' ∧ hash ≠ hash') ∧
    ∃ again, normalizeState ⟨.obj (transferMembers 1), none⟩ = .ok again ∧
      siftCanonicalJsonHash samplePlatform (.obj again) = siftCanonicalJsonHash samplePlatform (.obj (transferMembers 1)) := by
  obtain ⟨hintents, hstates, hagain⟩ := siftBindings_faithful samplePlatform samplePlatform_laws.injective
  refine ⟨?_, ?_, ?_⟩
  · obtain ⟨hash, hash', h, h', heq⟩ := hintents ⟨sampleReceipt, .obj (transferMembers 1), none, none⟩
      ⟨sampleReceipt, .obj (turnedMembers 1), none, none⟩ _ _ (distinctKeys_transfer 1) (distinctKeys_turned 1) rfl rfl rfl
    obtain rfl := heq.mpr (jsonEq_turned 1)
    exact ⟨hash, h, h'⟩
  · obtain ⟨hash, hash', h, h', heq⟩ := hstates ⟨.obj (transferMembers 1), none⟩ ⟨.obj (transferMembers 2), none⟩ _ _
      (distinctKeys_transfer 1) (distinctKeys_transfer 2) rfl rfl
    refine ⟨hash, hash', h, h', fun hsame => ?_⟩
    have hone := (jsonEq_obj.mp (heq.mp hsame)).2 (js "amount") (.num (.int 1)) (.num (.int 2)) rfl rfl
    cases hone
  · exact hagain ⟨.obj (transferMembers 1), some [js "amount"]⟩ _ (distinctKeys_transfer 1) rfl none (.inl rfl)

end OxDeAI.Sift
