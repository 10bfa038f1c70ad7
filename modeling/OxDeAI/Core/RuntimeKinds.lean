import OxDeAI.Core.CanonicalForm

/-! Canonical JSON over every kind of runtime value: sparse arrays, and objects
that are no plain data. -/

namespace OxDeAI

open Js

inductive ObjectKind
  | plain
  | date
  | map
  | set
  | typedArray
  | classInstance
  deriving DecidableEq

/-- An element that is absent is a hole. An object has its own enumerable
properties; what a date, a map or a set keeps elsewhere is never read. -/
inductive RuntimeValue
  | null
  | bool (b : Bool)
  | str (s : JsString)
  | num (n : JsNumber)
  | bigint (z : ℤ)
  | undefined
  | function
  | symbol
  | arr (xs : List (Option RuntimeValue))
  | object (kind : ObjectKind) (entries : List (JsString × RuntimeValue))

namespace RuntimeValue

/-- `typeof v === "object" && v !== null && !Array.isArray(v)`. -/
def isPlainObject : RuntimeValue → Bool
  | object _ _ => true
  | _ => false

/-- As much of a value as the test of a timestamp looks at. -/
def face : RuntimeValue → JsValue
  | null => .null
  | bool b => .bool b
  | str s => .str s
  | num n => .num n
  | bigint z => .bigint z
  | undefined => .undefined
  | function => .function
  | symbol => .symbol
  | arr _ => .arr []
  | object _ _ => .obj []

end RuntimeValue

section

variable (nfc : JsString → JsString)

mutual

def canonicalizeRuntime : RuntimeValue → Except JsError JsString
  | .null => .ok (js "null")
  | .str s => .ok (quote (nfc s))
  | .bool b => .ok (if b then js "true" else js "false")
  | .num n =>
    match n with
    | .int z =>
      if z.natAbs ≤ JsNumber.maxSafeInteger then .ok (decimal z)
      else .error (.canonical .unsafeIntegerNumber)
    | _ => .error (.canonical .floatNotAllowed)
  | .bigint z => .ok (quote (decimal z))
  | .undefined | .function | .symbol => .error (.canonical .unsupportedType)
  | .arr xs => (runtimeElements xs).map (fun parts => unit 91 :: join comma parts ++ [unit 93])
  | .object _ es => canonicalObject (runtimeEntries es)

/-- `map` does not visit a hole, and `join` writes nothing for it. -/
def runtimeElements : List (Option RuntimeValue) → Except JsError (List JsString)
  | [] => .ok []
  | none :: xs => (runtimeElements xs).map ([] :: ·)
  | some x :: xs => do
    let t ← canonicalizeRuntime x
    let ts ← runtimeElements xs
    return t :: ts

def runtimeEntries :
    List (JsString × RuntimeValue) → List (JsString × JsValue × Except JsError JsString)
  | [] => []
  | (k, v) :: es => (nfc k, v.face, canonicalizeRuntime v) :: runtimeEntries es

end

end

theorem canonicalMember_returns {entries : List (JsString × JsValue × Except JsError JsString)}
    (hnodup : (entries.map Prod.fst).Nodup) {e : JsString × JsValue × Except JsError JsString} (he : e ∈ entries) :
    (∃ t, canonicalMember entries e.1 = .ok t) ↔
      (e.1 = tsKey → isTimestamp e.2.1 = true) ∧ ∃ t, e.2.2 = .ok t := by
  have hfind : entries.find? (fun e' => e'.1 = e.1) = some e := by
    obtain ⟨e', he'⟩ := Option.isSome_iff_exists.mp
      (List.find?_isSome.mpr ⟨e, he, by simp⟩ : (entries.find? (fun e' => e'.1 = e.1)).isSome = true)
    have hkey : e'.1 = e.1 := by simpa using List.find?_some he'
    rw [he', List.inj_on_of_nodup_map hnodup (List.mem_of_find?_eq_some he') he hkey]
  obtain ⟨key, child, text⟩ := e
  rw [canonicalMember, hfind]
  dsimp only
  by_cases hts : key = tsKey ∧ isTimestamp child = false
  · simp [hts]
  · rw [if_neg hts, map_returns]
    have htimestamp : key = tsKey → isTimestamp child = true := fun hkey => by
      by_contra hno
      exact hts ⟨hkey, by simpa using hno⟩
    exact ⟨fun h => ⟨htimestamp, h⟩, fun h => h.2⟩

theorem canonicalObject_returns {entries : List (JsString × JsValue × Except JsError JsString)} :
    (∃ t, canonicalObject entries = .ok t) ↔
      (entries.map Prod.fst).Nodup ∧ ∀ e ∈ entries,
        (e.1 = tsKey → isTimestamp e.2.1 = true) ∧ ∃ t, e.2.2 = .ok t := by
  rw [canonicalObject]
  by_cases hnodup : (entries.map Prod.fst).Nodup
  · rw [if_pos hnodup, map_returns, mapM_returns]
    constructor
    · intro h
      refine ⟨hnodup, fun e he => (canonicalMember_returns hnodup he).mp (h _ ?_)⟩
      exact mem_sortUtf8Lex.mpr (List.mem_map_of_mem he)
    · rintro ⟨-, h⟩ key hkey
      obtain ⟨e, he, rfl⟩ := List.mem_map.mp (mem_sortUtf8Lex.mp hkey)
      exact (canonicalMember_returns hnodup he).mpr (h e he)
  · rw [if_neg hnodup]
    simp [hnodup]

theorem runtimeEntries_eq_map (nfc : JsString → JsString) (es : List (JsString × RuntimeValue)) :
    runtimeEntries nfc es = es.map (fun e => (nfc e.1, e.2.face, canonicalizeRuntime nfc e.2)) := by
  induction es with
  | nil => rfl
  | cons e es ih => rw [runtimeEntries, ih, List.map_cons]

theorem runtimeElements_returns (nfc : JsString → JsString) (xs : List (Option RuntimeValue)) :
    (∃ ts, runtimeElements nfc xs = .ok ts) ↔ ∀ x, some x ∈ xs → ∃ t, canonicalizeRuntime nfc x = .ok t := by
  induction xs with
  | nil => simp [runtimeElements]
  | cons slot xs ih =>
    cases slot with
    | none =>
      rw [runtimeElements, map_returns, ih]
      simp
    | some x =>
      have hcons : (∀ y, some y ∈ some x :: xs → ∃ t, canonicalizeRuntime nfc y = .ok t) ↔
          (∃ t, canonicalizeRuntime nfc x = .ok t) ∧ ∃ ts, runtimeElements nfc xs = .ok ts := by
        rw [ih]
        simp
      rw [hcons, runtimeElements]
      cases canonicalizeRuntime nfc x <;> cases runtimeElements nfc xs <;>
        simp [bind, Except.bind, pure, Except.pure]

/-- The value itself, and every value in it that is an element or the value of a property. -/
inductive Node : RuntimeValue → RuntimeValue → Prop
  | self (v : RuntimeValue) : Node v v
  | element {xs : List (Option RuntimeValue)} {x w : RuntimeValue} (hx : some x ∈ xs) (h : Node x w) :
      Node (.arr xs) w
  | property {kind : ObjectKind} {es : List (JsString × RuntimeValue)} {e : JsString × RuntimeValue}
      {w : RuntimeValue} (he : e ∈ es) (h : Node e.2 w) : Node (.object kind es) w

section

variable (nfc : JsString → JsString)

structure RuntimeMembers (es : List (JsString × RuntimeValue)) : Prop where
  nodup : (es.map (fun e => nfc e.1)).Nodup
  timestamp : ∀ e ∈ es, nfc e.1 = tsKey → isTimestamp e.2.face = true

/-- What the data model allows a node to be. A hole reads as undefined, so an
array has none. -/
def Allowed : RuntimeValue → Prop
  | .null | .bool _ | .str _ | .bigint _ => True
  | .num n => n.isSafeInteger = true
  | .arr xs => none ∉ xs
  | .object kind es => kind = .plain ∧ RuntimeMembers nfc es
  | .undefined | .function | .symbol => False

/-- What makes canonicalization throw at a node. -/
def Refused : RuntimeValue → Prop
  | .num n => n.isSafeInteger = false
  | .undefined | .function | .symbol => True
  | .object _ es => ¬ RuntimeMembers nfc es
  | .null | .bool _ | .str _ | .bigint _ | .arr _ => False

end

/-- An object that is no plain object, or an array with a hole. -/
def Foreign : RuntimeValue → Prop
  | .object kind _ => kind ≠ .plain
  | .arr xs => none ∈ xs
  | _ => False

theorem allowed_iff {nfc : JsString → JsString} {v : RuntimeValue} :
    Allowed nfc v ↔ ¬ Refused nfc v ∧ ¬ Foreign v := by
  cases v with
  | num n => simp [Allowed, Refused, Foreign]
  | arr xs => simp [Allowed, Refused, Foreign]
  | object kind es => simp [Allowed, Refused, Foreign, and_comm]
  | _ => simp [Allowed, Refused, Foreign]

theorem runtimeValue_induction {motive : RuntimeValue → Prop} (null : motive .null)
    (bool : ∀ b, motive (.bool b)) (str : ∀ s, motive (.str s)) (num : ∀ n, motive (.num n))
    (bigint : ∀ z, motive (.bigint z)) (undefined : motive .undefined) (function : motive .function)
    (symbol : motive .symbol) (arr : ∀ xs, (∀ x, some x ∈ xs → motive x) → motive (.arr xs))
    (object : ∀ kind es, (∀ e ∈ es, motive e.2) → motive (.object kind es)) (v : RuntimeValue) : motive v :=
  RuntimeValue.rec (motive_1 := motive) (motive_2 := fun xs => ∀ x, some x ∈ xs → motive x)
    (motive_3 := fun es => ∀ e ∈ es, motive e.2) (motive_4 := fun slot => ∀ x, slot = some x → motive x)
    (motive_5 := fun e => motive e.2)
    null bool str num bigint undefined function symbol arr object
    (by simp)
    (fun slot xs hslot hxs x hx => by
      rcases List.mem_cons.mp hx with heq | hx
      · exact hslot x heq.symm
      · exact hxs x hx)
    (by simp) (fun _ _ he hes => List.forall_mem_cons.mpr ⟨he, hes⟩)
    (by simp) (fun _ h x hx => Option.some.inj hx ▸ h) (fun _ _ h => h) v

/-- Canonicalization returns exactly if it is refused at no node. -/
theorem canonicalizeRuntime_returns (nfc : JsString → JsString) (v : RuntimeValue) :
    (∃ t, canonicalizeRuntime nfc v = .ok t) ↔ ∀ w, Node v w → ¬ Refused nfc w := by
  have leaf : ∀ {u : RuntimeValue}, (∀ w, Node u w → w = u) → ((∀ w, Node u w → ¬ Refused nfc w) ↔ ¬ Refused nfc u) :=
    fun h => ⟨fun hall => hall _ (.self _), fun hno w hw => h w hw ▸ hno⟩
  induction v using runtimeValue_induction with
  | null => rw [leaf (fun w hw => by cases hw; rfl)]; simp [canonicalizeRuntime, Refused]
  | bool b => rw [leaf (fun w hw => by cases hw; rfl)]; simp [canonicalizeRuntime, Refused]
  | str s => rw [leaf (fun w hw => by cases hw; rfl)]; simp [canonicalizeRuntime, Refused]
  | bigint z => rw [leaf (fun w hw => by cases hw; rfl)]; simp [canonicalizeRuntime, Refused]
  | undefined => rw [leaf (fun w hw => by cases hw; rfl)]; simp [canonicalizeRuntime, Refused]
  | function => rw [leaf (fun w hw => by cases hw; rfl)]; simp [canonicalizeRuntime, Refused]
  | symbol => rw [leaf (fun w hw => by cases hw; rfl)]; simp [canonicalizeRuntime, Refused]
  | num n =>
    rw [leaf (fun w hw => by cases hw; rfl)]
    cases n with
    | int z =>
      by_cases hz : z.natAbs ≤ JsNumber.maxSafeInteger <;>
        simp [canonicalizeRuntime, Refused, JsNumber.isSafeInteger, hz]
    | _ => simp [canonicalizeRuntime, Refused, JsNumber.isSafeInteger]
  | arr xs ih =>
    rw [canonicalizeRuntime, map_returns, runtimeElements_returns]
    constructor
    · intro h w hw
      cases hw with
      | self => exact id
      | element hx hw => exact (ih _ hx).mp (h _ hx) w hw
    · exact fun h x hx => (ih x hx).mpr fun w hw => h w (.element hx hw)
  | object kind es ih =>
    rw [canonicalizeRuntime, canonicalObject_returns, runtimeEntries_eq_map, List.map_map]
    constructor
    · rintro ⟨hnodup, hmembers⟩ w hw
      have hentry : ∀ e ∈ es, (nfc e.1 = tsKey → isTimestamp e.2.face = true) ∧
          ∃ t, canonicalizeRuntime nfc e.2 = .ok t := fun e he => hmembers _ (List.mem_map_of_mem he)
      cases hw with
      | self => exact not_not_intro ⟨hnodup, fun e he => (hentry e he).1⟩
      | property he hw => exact (ih _ he).mp (hentry _ he).2 w hw
    · intro h
      have hmembers : RuntimeMembers nfc es := not_not.mp (h _ (.self _))
      refine ⟨hmembers.nodup, fun e he => ?_⟩
      obtain ⟨entry, hentry, rfl⟩ := List.mem_map.mp he
      refine ⟨hmembers.timestamp entry hentry, (ih entry hentry).mpr fun w hw => h w (.property hentry hw)⟩

/-- Canonicalization returns exactly on the data model if no node is foreign to
it, or if it throws for another node anyway. -/
theorem accepts_data_model_iff (nfc : JsString → JsString) (v : RuntimeValue) :
    ((∃ t, canonicalizeRuntime nfc v = .ok t) ↔ ∀ w, Node v w → Allowed nfc w) ↔
      (∀ w, Node v w → ¬ Foreign w) ∨ ∃ w, Node v w ∧ Refused nfc w := by
  rw [canonicalizeRuntime_returns]
  constructor
  · intro h
    by_cases hrefused : ∃ w, Node v w ∧ Refused nfc w
    · exact .inr hrefused
    · refine .inl fun w hw => ?_
      exact (allowed_iff.mp (h.mp (fun u hu hno => hrefused ⟨u, hu, hno⟩) w hw)).2
  · rintro (hforeign | ⟨w, hw, hrefused⟩)
    · exact forall₂_congr fun w hw => ⟨fun h => allowed_iff.mpr ⟨h, hforeign w hw⟩, fun h => (allowed_iff.mp h).1⟩
    · exact ⟨fun h => absurd hrefused (h w hw), fun h => absurd hrefused (allowed_iff.mp (h w hw)).1⟩

/-- A date is written as an empty object. -/
theorem date_is_canonicalized : ¬ ∀ (nfc : JsString → JsString) (v : RuntimeValue),
    (∃ t, canonicalizeRuntime nfc v = .ok t) ↔ ∀ w, Node v w → Allowed nfc w := by
  intro hclaim
  have hreturns : ∃ t, canonicalizeRuntime id (.object .date []) = .ok t := ⟨js "\x7b\x7d", by decide⟩
  have hallowed := (hclaim id (.object .date [])).mp hreturns _ (.self _)
  cases hallowed.1

mutual

def runtimeValue : JsValue → RuntimeValue
  | .null => .null
  | .bool b => .bool b
  | .str s => .str s
  | .num n => .num n
  | .bigint z => .bigint z
  | .undefined => .undefined
  | .function => .function
  | .symbol => .symbol
  | .arr xs => .arr (runtimeSlots xs)
  | .obj es => .object .plain (runtimeProperties es)
  | .instance es => .object .classInstance (runtimeProperties es)

def runtimeSlots : List JsValue → List (Option RuntimeValue)
  | [] => []
  | x :: xs => some (runtimeValue x) :: runtimeSlots xs

def runtimeProperties : List (JsString × JsValue) → List (JsString × RuntimeValue)
  | [] => []
  | (k, v) :: es => (k, runtimeValue v) :: runtimeProperties es

end

theorem isTimestamp_face (v : JsValue) : isTimestamp (runtimeValue v).face = isTimestamp v := by
  cases v <;> rfl

/-- Of a child's value only the test of a timestamp matters. -/
theorem canonicalObject_congr {α : Type} {xs : List α} {key : α → JsString} {child child' : α → JsValue}
    {text : α → Except JsError JsString} (h : ∀ x ∈ xs, isTimestamp (child x) = isTimestamp (child' x)) :
    canonicalObject (xs.map (fun x => (key x, child x, text x))) =
      canonicalObject (xs.map (fun x => (key x, child' x, text x))) := by
  have hmember : ∀ k, canonicalMember (xs.map (fun x => (key x, child x, text x))) k =
      canonicalMember (xs.map (fun x => (key x, child' x, text x))) k := by
    intro k
    induction xs with
    | nil => rfl
    | cons x xs ih =>
      by_cases hk : key x = k
      · simp [canonicalMember, hk, h x List.mem_cons_self]
      · have hrest := ih fun y hy => h y (List.mem_cons_of_mem _ hy)
        simpa [canonicalMember, hk] using hrest
  have hkeys : (xs.map (fun x => (key x, child x, text x))).map Prod.fst =
      (xs.map (fun x => (key x, child' x, text x))).map Prod.fst := by simp
  rw [canonicalObject, canonicalObject, hkeys, funext hmember]

/-- On dense plain data the two are one function. -/
theorem canonicalizeRuntime_runtimeValue (nfc : JsString → JsString) (v : JsValue) :
    canonicalizeRuntime nfc (runtimeValue v) = canonicalizeToJson nfc v := by
  have hmembers : ∀ es : List (JsString × JsValue),
      (∀ e ∈ es, canonicalizeRuntime nfc (runtimeValue e.2) = canonicalizeToJson nfc e.2) →
        canonicalObject (runtimeEntries nfc (runtimeProperties es)) = canonicalObject (normalizedEntries nfc es) := by
    intro es ih
    have hprops : runtimeProperties es = es.map (fun e => (e.1, runtimeValue e.2)) := by
      induction es with
      | nil => rfl
      | cons e es ihes => rw [runtimeProperties, ihes fun e he => ih e (List.mem_cons_of_mem _ he), List.map_cons]
    have htext : (es.map (fun e => (nfc e.1, (runtimeValue e.2).face, canonicalizeRuntime nfc (runtimeValue e.2)))) =
        es.map (fun e => (nfc e.1, (runtimeValue e.2).face, canonicalizeToJson nfc e.2)) :=
      List.map_congr_left fun e he => by rw [ih e he]
    rw [runtimeEntries_eq_map, hprops, List.map_map, normalizedEntries_eq_map]
    exact (congrArg canonicalObject htext).trans (canonicalObject_congr fun e _ => isTimestamp_face e.2)
  induction v using jsValue_induction with
  | arr xs ih =>
    rw [runtimeValue, canonicalizeRuntime, canonicalizeToJson]
    congr 1
    induction xs with
    | nil => rfl
    | cons x xs ihxs =>
      rw [runtimeSlots, runtimeElements, canonicalElements, ih x List.mem_cons_self,
        ihxs fun y hy => ih y (List.mem_cons_of_mem _ hy)]
  | obj es ih => rw [runtimeValue, canonicalizeRuntime, canonicalizeToJson, hmembers es ih]
  | inst es ih => rw [runtimeValue, canonicalizeRuntime, canonicalizeToJson, hmembers es ih]
  | _ => rfl

end OxDeAI
