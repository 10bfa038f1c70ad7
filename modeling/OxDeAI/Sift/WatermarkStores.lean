import OxDeAI.Lib.Simulation
import OxDeAI.Sift.PropertyOrder

/-! The two stores of KRL watermarks: a map in memory, and an object in a JSON file that
every write replaces. -/

namespace OxDeAI.Sift

open Js

abbrev KrlVersion := {n : ℕ // n ≤ JsNumber.maxSafeInteger}

inductive WatermarkCall
  | get (issuer : JsString)
  | set (issuer : JsString) (krlVersion : KrlVersion)
  | list

/-- What a call resolves to, or the message it is rejected with. A list is an object,
by its properties as they are enumerated. -/
inductive WatermarkAnswer
  | version (v : Read JsNumber)
  | done
  | versions (entries : List (JsString × JsNumber))
  | rejected (message : JsString)
  deriving DecidableEq

/-- `createInMemoryKrlWatermarkStore`, with the entries of its map. -/
def inMemoryStep (store : Record JsNumber) : WatermarkCall → WatermarkAnswer × Record JsNumber
  | .get issuer => (.version (match store.own? issuer with | some v => .own v | none => .absent), store)
  | .set issuer krlVersion =>
    let current := (store.own? issuer).getD (.int 0)
    (.done, store.set issuer (current.max (.int krlVersion.val)))
  | .list => (.versions (propertyOrder store.entries), store)

section

variable (filePath : JsString)

def malformed (reason : JsString) : JsString :=
  js "Malformed KRL watermark file at \"" ++ filePath ++ js "\": " ++ reason

/-- `Array.isArray(parsed) ? "array" : typeof parsed`. -/
def parsedKind : JsValue → JsString
  | .arr _ => js "array"
  | .str _ => js "string"
  | .num _ => js "number"
  | .bool _ => js "boolean"
  | _ => js "object"

def readEntry (result : Record JsNumber) (e : JsString × JsValue) : Except JsString (Record JsNumber) :=
  let refused := malformed filePath (js "entry for issuer \"" ++ e.1 ++
    js "\" has an invalid value (expected a non-negative integer, got " ++ stringify (enumerated e.2) ++ js ").")
  match e.2 with
  | .num n => if !n.isInteger || n.lt (.int 0) then .error refused else .ok (result.assign e.1 n)
  | _ => .error refused

/-- A missing file has no watermarks yet. -/
def readWatermarks : Option (List Byte) → Except JsString (Record JsNumber)
  | none => .ok Record.empty
  | some bytes =>
    match parseJson (utf8Decode bytes) with
    | none => .error (malformed filePath (js "content is not valid JSON. Delete or fix the file to recover."))
    | some (.obj es) => (propertyOrder es).foldlM (readEntry filePath) Record.empty
    | some v => .error (malformed filePath (js "expected a JSON object but got " ++ parsedKind v ++ js "."))

def prettyMember (e : JsString × JsNumber) : JsString := js "\n  " ++ quote e.1 ++ js ": " ++ numberText e.2

/-- `JSON.stringify(watermarks, null, 2)`, of the properties in their order. -/
def prettyText : List (JsString × JsNumber) → JsString
  | [] => js "\x7b\x7d"
  | e :: es => unit 123 :: join comma ((e :: es).map prettyMember) ++ js "\n\x7d"

/-- What the file holds after the rename. -/
def atomicWrite (watermarks : Record JsNumber) : Option (List Byte) :=
  some (utf8Encode (prettyText (propertyOrder watermarks.entries)))

/-- `Math.max(current[issuer] ?? 0, krlVersion)`. What is inherited is no number. -/
def raised (current : Read JsNumber) (krlVersion : KrlVersion) : JsNumber :=
  match current with
  | .own v => v.max (.int krlVersion.val)
  | .inherited _ => .nan
  | .absent => (JsNumber.int 0).max (.int krlVersion.val)

/-- `createFileBackedKrlWatermarkStore`, with the bytes of the file, if there is one. -/
def fileBackedStep (file : Option (List Byte)) (call : WatermarkCall) : WatermarkAnswer × Option (List Byte) :=
  match readWatermarks filePath file with
  | .error message => (.rejected message, file)
  | .ok all =>
    match call with
    | .get issuer => (.version (all.get issuer), file)
    | .set issuer krlVersion => (.done, atomicWrite (all.assign issuer (raised (all.get issuer) krlVersion)))
    | .list => (.versions (propertyOrder all.entries), file)

end

/-- The watermarks are non-negative safe integers, and no issuer is a name that every
object inherits. -/
structure OrdinaryMarks (es : List (JsString × JsNumber)) : Prop where
  version : ∀ e ∈ es, ∃ n : KrlVersion, e.2 = .int n.val
  issuer : ∀ e ∈ es, inherited? e.1 = none

section

variable {es : List (JsString × JsNumber)} {filePath : JsString}

theorem numberText_version (n : KrlVersion) : numberText (.int n.val) = decimal n.val := by
  have hsafe : (n.val : ℤ).natAbs ≤ JsNumber.maxSafeInteger := by simpa using n.property
  rw [numberText, if_pos hsafe]

theorem wellFormed_prettyText (h : OrdinaryMarks es) : WellFormed (prettyText es) := by
  have hmember : ∀ e ∈ es, WellFormed (prettyMember e) := by
    intro e he
    obtain ⟨n, hn⟩ := h.version e he
    rw [prettyMember, hn, numberText_version]
    have hstart : WellFormed (js "\n  " ++ quote e.1) := (wellFormed_of_basic (by decide)).append (wellFormed_quote _)
    exact (hstart.append (wellFormed_of_basic (by decide))).append (wellFormed_decimal _)
  cases es with
  | nil => exact wellFormed_of_basic (by decide)
  | cons e es =>
    have hjoin : WellFormed (join comma ((e :: es).map prettyMember)) :=
      wellFormed_join fun t ht => by
        obtain ⟨f, hf, rfl⟩ := List.mem_map.mp ht
        exact hmember f hf
    have hopen : WellFormed [unit 123] := wellFormed_of_basic (by decide)
    exact (hopen.append hjoin).append (wellFormed_of_basic (by decide))

theorem skipWhitespace_skipWhitespace (s : JsString) : skipWhitespace (skipWhitespace s) = skipWhitespace s := by
  induction s with
  | nil => rfl
  | cons u s ih =>
    by_cases hu : isWhitespace u = true
    · simpa [skipWhitespace, hu] using ih
    · simp [skipWhitespace, hu]

theorem parseMembers_skipWhitespace (fuel : ℕ) (s : JsString) :
    parseMembers fuel (skipWhitespace s) = parseMembers fuel s := by
  cases fuel with
  | zero => rw [parseMembers, parseMembers]
  | succ fuel => rw [parseMembers, parseMembers, skipWhitespace_skipWhitespace]

/-- The value of a member stands behind a blank. -/
theorem parseValue_version (fuel : ℕ) (n : KrlVersion) {rest : JsString} (hrest : NumberEnd rest) :
    parseValue (fuel + 1) (unit 32 :: (decimal n.val ++ rest)) = some (.num (.int n.val), rest) := by
  have hsafe : (n.val : ℤ).natAbs ≤ JsNumber.maxSafeInteger := by simpa using n.property
  have hblank : skipWhitespace (unit 32 :: (decimal n.val ++ rest)) = skipWhitespace (decimal n.val ++ rest) := by
    simp [skipWhitespace, isWhitespace, unit]
  rw [← parseValue_int fuel hsafe hrest, parseValue, parseValue, hblank]

theorem parseMembers_pretty (hne : es ≠ []) (hversion : ∀ e ∈ es, ∃ n : KrlVersion, e.2 = .int n.val) (fuel : ℕ)
    (rest : JsString) (hfuel : 2 * es.length ≤ fuel) :
    parseMembers fuel (join comma (es.map prettyMember) ++ (js "\n\x7d" ++ rest)) =
      some (es.map (fun e => (e.1, .num e.2)), rest) := by
  have hw : ∀ u : CodeUnit, isWhitespace u = false → ∀ r, skipWhitespace (u :: r) = u :: r :=
    fun u h r => skipWhitespace_cons h r
  have hindent : ∀ r, skipWhitespace (js "\n  " ++ r) = skipWhitespace r := fun r => rfl
  have hend : ∀ r, skipWhitespace (js "\n\x7d" ++ r) = unit 125 :: r := fun r => rfl
  induction es generalizing fuel with
  | nil => exact absurd rfl hne
  | cons e es ih =>
    obtain ⟨fuel, rfl⟩ : ∃ n, fuel = n + 2 := ⟨fuel - 2, by simp only [List.length_cons] at hfuel; omega⟩
    obtain ⟨k, v⟩ := e
    obtain ⟨n, hn⟩ := hversion (k, v) List.mem_cons_self
    obtain rfl : v = .int n.val := hn
    have hmember : prettyMember (k, .int n.val) =
        js "\n  " ++ (unit 34 :: (escapeString k ++ unit 34 :: unit 58 :: unit 32 :: decimal n.val)) := by
      rw [prettyMember, numberText_version]
      simp only [quote, List.append_assoc, List.cons_append, List.nil_append]
      rfl
    cases es with
    | nil =>
      have hvalue := @parseValue_version fuel n (js "\n\x7d" ++ rest) ⟨by decide, by decide, by decide, by decide⟩
      simp only [List.map_cons, List.map_nil, join, hmember, List.append_assoc, List.cons_append]
      rw [parseMembers, hindent, hw _ (by decide)]
      simp [parseString_escapeString, hw _ (show isWhitespace (unit 58) = false by decide), hvalue, hend]
    | cons f fs =>
      have hvalue := @parseValue_version fuel n (comma ::
        (join comma ((f :: fs).map prettyMember) ++ (js "\n\x7d" ++ rest))) (numberEnd_comma _)
      have hrest := ih (by simp) (fun e he => hversion e (List.mem_cons_of_mem _ he)) (fuel + 1)
        (by simp only [List.length_cons] at hfuel ⊢; omega)
      simp only [List.map_cons] at hvalue hrest
      simp only [List.map_cons, join, hmember, List.append_assoc, List.cons_append]
      rw [parseMembers, hindent, hw _ (by decide)]
      simp [parseString_escapeString, hw _ (show isWhitespace (unit 58) = false by decide), hvalue,
        hw _ (show isWhitespace comma = false by decide), show comma.val = 44 by decide, hrest]

theorem length_le_join (ts : List JsString) (h : ∀ t ∈ ts, t ≠ []) : ts.length ≤ (join comma ts).length := by
  induction ts with
  | nil => simp
  | cons t ts ih =>
    have ht : 0 < t.length := List.length_pos_of_ne_nil (h t List.mem_cons_self)
    have hts := ih fun u hu => h u (List.mem_cons_of_mem _ hu)
    cases ts with
    | nil => simpa [join] using Nat.succ_le_of_lt ht
    | cons u us =>
      simp only [join, List.length_append, List.length_cons] at hts ⊢
      omega

theorem parseJson_prettyText (hnodup : (es.map Prod.fst).Nodup) (hversion : ∀ e ∈ es, ∃ n : KrlVersion, e.2 = .int n.val) :
    parseJson (prettyText es) = some (.obj (es.map (fun e => (e.1, .num e.2)))) := by
  cases es with
  | nil => rfl
  | cons e es =>
    obtain ⟨body, hbody⟩ : ∃ body, body = join comma ((e :: es).map prettyMember) := ⟨_, rfl⟩
    obtain ⟨fuel, hfuel⟩ : ∃ fuel, fuel = 2 * (unit 123 :: (body ++ js "\n\x7d")).length := ⟨_, rfl⟩
    have hlength : (e :: es).length ≤ body.length := by
      have hshort := length_le_join ((e :: es).map prettyMember) fun t ht => by
        obtain ⟨f, -, rfl⟩ := List.mem_map.mp ht
        exact List.cons_ne_nil _ _
      rwa [List.length_map, ← hbody] at hshort
    have hread := parseMembers_pretty (List.cons_ne_nil e es) hversion fuel []
      (by simp only [hfuel, List.length_append, List.length_cons] at hlength ⊢; omega)
    obtain ⟨rest, hrest⟩ : ∃ rest, body = prettyMember e ++ rest := by
      rw [hbody]
      cases es with
      | nil => exact ⟨[], by simp [join]⟩
      | cons f fs => exact ⟨_, rfl⟩
    obtain ⟨more, hmore⟩ : ∃ more, skipWhitespace (body ++ js "\n\x7d") = unit 34 :: more := by
      refine ⟨escapeString e.1 ++ [unit 34] ++ js ": " ++ numberText e.2 ++ rest ++ js "\n\x7d", ?_⟩
      have hindent : ∀ r, skipWhitespace (js "\n  " ++ r) = skipWhitespace r := fun r => rfl
      simp only [hrest, prettyMember, List.append_assoc, quote, List.cons_append, hindent]
      exact skipWhitespace_cons (by decide) _
    have htext : prettyText (e :: es) = unit 123 :: (body ++ js "\n\x7d") := by rw [hbody]; rfl
    have hobject : objectOf ((e :: es).map (fun e => (e.1, .num e.2))) = (e :: es).map (fun e => (e.1, .num e.2)) :=
      objectOf_of_nodup (by rwa [List.map_map])
    rw [← hbody, List.append_nil, ← parseMembers_skipWhitespace, hmore] at hread
    have hvalue : parseValue (fuel + 1) (prettyText (e :: es)) =
        some (.obj ((e :: es).map (fun e => (e.1, .num e.2))), []) := by
      rw [htext, parseValue, skipWhitespace_cons (show isWhitespace (unit 123) = false by decide)]
      simp only [hmore, hread, Option.map_some, hobject]
      rfl
    rw [parseJson, htext, ← hfuel, ← htext, hvalue]
    rfl

theorem readEntry_version (result : Record JsNumber) {k : JsString} (hk : k ≠ protoKey) (n : KrlVersion) :
    readEntry filePath result (k, .num (.int n.val)) = .ok (result.set k (.int n.val)) := by
  simp [readEntry, JsNumber.isInteger, Record.assign_of_ne result hk]

theorem issuer_ne_proto {k : JsString} (h : inherited? k = none) : k ≠ protoKey := by
  rintro rfl
  exact absurd h (by decide)

theorem foldlM_readEntry (filePath : JsString) (h : OrdinaryMarks es) (acc : Record JsNumber) (hnodup : ((acc.entries ++ es).map Prod.fst).Nodup) :
    (es.map (fun e => (e.1, .num e.2))).foldlM (readEntry filePath) acc = .ok ⟨acc.entries ++ es, hnodup⟩ := by
  induction es generalizing acc with
  | nil =>
    have hacc : (⟨acc.entries ++ [], hnodup⟩ : Record JsNumber) = acc := by cases acc; simp
    rw [hacc]
    rfl
  | cons e es ih =>
    obtain ⟨k, v⟩ := e
    obtain ⟨n, hn⟩ := h.version (k, v) List.mem_cons_self
    obtain rfl : v = .int n.val := hn
    have hk : k ∉ acc.entries.map Prod.fst := by
      rw [List.map_append, List.map_cons, List.nodup_append] at hnodup
      exact fun hm => hnodup.2.2 k hm k (by simp) rfl
    have hset : (acc.set k (.int n.val)).entries = acc.entries ++ [(k, .int n.val)] := setEntry_of_notMem hk
    have hrest : OrdinaryMarks es :=
      ⟨fun e he => h.version e (List.mem_cons_of_mem _ he), fun e he => h.issuer e (List.mem_cons_of_mem _ he)⟩
    have hall := ih hrest (acc.set k (.int n.val)) (by rw [hset]; simpa using hnodup)
    rw [List.map_cons, List.foldlM_cons, readEntry_version acc (issuer_ne_proto (h.issuer _ List.mem_cons_self)) n]
    refine hall.trans ?_
    simp only [hset, List.append_assoc, List.singleton_append]

end

/-- The same watermarks, as they are enumerated. -/
def inOrder (m : Record JsNumber) : Record JsNumber := ⟨propertyOrder m.entries, nodup_propertyOrder m.nodup⟩

theorem own?_inOrder (m : Record JsNumber) (k : JsString) : (inOrder m).own? k = m.own? k := by
  refine Option.ext fun v => ?_
  rw [Record.own?_eq_some, Record.own?_eq_some]
  exact mem_propertyOrder

theorem OrdinaryMarks.inOrder {m : Record JsNumber} (h : OrdinaryMarks m.entries) : OrdinaryMarks (inOrder m).entries :=
  ⟨fun e he => h.version e (mem_propertyOrder.mp he), fun e he => h.issuer e (mem_propertyOrder.mp he)⟩

theorem readWatermarks_atomicWrite (filePath : JsString) {m : Record JsNumber} (h : OrdinaryMarks m.entries) :
    readWatermarks filePath (atomicWrite m) = .ok (inOrder m) := by
  have hmarks := h.inOrder
  have htext : utf8Decode (utf8Encode (prettyText (inOrder m).entries)) = prettyText (inOrder m).entries :=
    utf8Decode_encode (wellFormed_prettyText hmarks)
  have hparsed := parseJson_prettyText (inOrder m).nodup hmarks.version
  have hordered : propertyOrder ((inOrder m).entries.map (fun e => (e.1, JsValue.num e.2))) =
      (inOrder m).entries.map (fun e => (e.1, JsValue.num e.2)) := by
    rw [propertyOrder_map (fun e => JsValue.num e.2), inOrder, propertyOrder_propertyOrder m.nodup]
  have hfold := foldlM_readEntry filePath hmarks Record.empty (inOrder m).nodup
  have hentries : propertyOrder m.entries = (inOrder m).entries := rfl
  rw [atomicWrite, readWatermarks, hentries, htext, hparsed]
  simp only [hordered]
  exact hfold

def ordinaryIssuer : WatermarkCall → Prop
  | .get issuer => inherited? issuer = none
  | .set issuer _ => inherited? issuer = none
  | .list => True

/-- The file holds the watermarks of the map. -/
def Holds (file : Option (List Byte)) (store : Record JsNumber) : Prop :=
  OrdinaryMarks store.entries ∧ (file = none ∧ store = Record.empty ∨ file = atomicWrite store)

theorem readWatermarks_holds (filePath : JsString) {file : Option (List Byte)} {store : Record JsNumber}
    (h : Holds file store) : readWatermarks filePath file = .ok (inOrder store) := by
  obtain ⟨hmarks, ⟨rfl, rfl⟩ | rfl⟩ := h
  · rfl
  · exact readWatermarks_atomicWrite filePath hmarks

theorem max_version {current : Option JsNumber} (h : ∀ v, current = some v → ∃ n : KrlVersion, v = .int n.val)
    (krlVersion : KrlVersion) :
    ∃ n : KrlVersion, (current.getD (.int 0)).max (.int krlVersion.val) = .int n.val ∧
      ∀ v, current = some v → (JsNumber.int n.val).ge v = true := by
  cases current with
  | none => exact ⟨krlVersion, by simp [JsNumber.max_int], by simp⟩
  | some v =>
    obtain ⟨m, rfl⟩ := h v rfl
    have hmax : ((Max.max m krlVersion).val : ℤ) = Max.max (m.val : ℤ) krlVersion.val := by
      rcases le_total m krlVersion with hle | hle
      · have hle' : (m.val : ℤ) ≤ krlVersion.val := by exact_mod_cast hle
        rw [max_eq_right hle, max_eq_right hle']
      · have hle' : (krlVersion.val : ℤ) ≤ m.val := by exact_mod_cast hle
        rw [max_eq_left hle, max_eq_left hle']
    refine ⟨Max.max m krlVersion, by rw [Option.getD_some, JsNumber.max_int, hmax], ?_⟩
    rintro - ⟨⟩
    rw [JsNumber.ge_int, hmax]
    exact decide_eq_true (le_max_left _ _)

theorem OrdinaryMarks.version_own {m : Record JsNumber} (h : OrdinaryMarks m.entries) (k : JsString) :
    ∀ v, m.own? k = some v → ∃ n : KrlVersion, v = .int n.val :=
  fun v hv => h.version (k, v) (m.own?_eq_some.mp hv)

theorem OrdinaryMarks.set {m : Record JsNumber} (h : OrdinaryMarks m.entries) {k : JsString} (hk : inherited? k = none)
    (n : KrlVersion) : OrdinaryMarks (m.set k (.int n.val)).entries := by
  have hentry : ∀ e ∈ (m.set k (.int n.val)).entries, e = (k, .int n.val) ∨ e ∈ m.entries := by
    intro e he
    rcases List.mem_cons.mp ((perm_setEntry m.nodup).mem_iff.mp he) with rfl | he
    · exact .inl rfl
    · exact .inr (List.mem_of_mem_filter he)
  constructor
  · intro e he
    rcases hentry e he with rfl | he
    · exact ⟨n, rfl⟩
    · exact h.version e he
  · intro e he
    rcases hentry e he with rfl | he
    · exact hk
    · exact h.issuer e he

theorem raised_inOrder (m : Record JsNumber) {k : JsString} (hk : inherited? k = none) (krlVersion : KrlVersion) :
    raised ((inOrder m).get k) krlVersion = ((m.own? k).getD (.int 0)).max (.int krlVersion.val) := by
  cases h : m.own? k with
  | none => rw [(inOrder m).get_of_none ((own?_inOrder m k).trans h) hk]; rfl
  | some v => rw [(inOrder m).get_of_own? ((own?_inOrder m k).trans h)]; rfl

theorem fileBacked_simulates (filePath : JsString) :
    Machine.Simulates (fileBackedStep filePath) inMemoryStep Holds ordinaryIssuer := by
  intro file store call hholds hcall
  have hread := readWatermarks_holds filePath hholds
  cases call with
  | get issuer =>
    have hget : (inOrder store).get issuer = match store.own? issuer with | some v => .own v | none => .absent := by
      cases h : store.own? issuer with
      | none => exact (inOrder store).get_of_none ((own?_inOrder store issuer).trans h) hcall
      | some v => exact (inOrder store).get_of_own? ((own?_inOrder store issuer).trans h)
    simp only [fileBackedStep, hread, inMemoryStep, hget]
    exact ⟨trivial, hholds⟩
  | set issuer krlVersion =>
    obtain ⟨n, hn, -⟩ := max_version (hholds.1.version_own issuer) krlVersion
    have hproto := issuer_ne_proto hcall
    have hfile : atomicWrite ((inOrder store).set issuer (.int n.val)) = atomicWrite (store.set issuer (.int n.val)) := by
      rw [atomicWrite, atomicWrite]
      exact congrArg (fun es => some (utf8Encode (prettyText es))) (propertyOrder_setEntry store.nodup)
    simp only [fileBackedStep, hread, inMemoryStep, raised_inOrder store hcall, hn, Record.assign_of_ne _ hproto]
    exact ⟨trivial, hholds.1.set hcall n, .inr hfile⟩
  | list =>
    simp only [fileBackedStep, hread, inMemoryStep]
    exact ⟨congrArg WatermarkAnswer.versions (propertyOrder_propertyOrder store.nodup), hholds⟩

/-- The version of an issuer that the file holds. -/
def storedVersion (filePath : JsString) (file : Option (List Byte)) (issuer : JsString) : Option JsNumber :=
  match readWatermarks filePath file with
  | .ok all => all.own? issuer
  | .error _ => none

theorem storedVersion_holds (filePath : JsString) {file : Option (List Byte)} {store : Record JsNumber}
    (h : Holds file store) (issuer : JsString) : storedVersion filePath file issuer = store.own? issuer := by
  rw [storedVersion, readWatermarks_holds filePath h]
  exact own?_inOrder store issuer

theorem inMemory_not_rejected (store : Record JsNumber) (call : WatermarkCall) (message : JsString) :
    (inMemoryStep store call).1 ≠ .rejected message := by
  cases call <;> simp [inMemoryStep]

/-- A map of versions keeps every entry, or raises it. -/
def Raises (store store' : Record JsNumber) : Prop :=
  (∀ issuer v, store.own? issuer = some v → ∃ n : KrlVersion, v = .int n.val) →
    (∀ issuer v, store'.own? issuer = some v → ∃ n : KrlVersion, v = .int n.val) ∧
      ∀ issuer v, store.own? issuer = some v → ∃ w, store'.own? issuer = some w ∧ w.ge v = true

theorem Raises.refl (store : Record JsNumber) : Raises store store := by
  refine fun h => ⟨h, fun issuer v hv => ⟨v, hv, ?_⟩⟩
  obtain ⟨n, rfl⟩ := h issuer v hv
  simp

theorem Raises.trans {store store' store'' : Record JsNumber} (h : Raises store store') (h' : Raises store' store'') :
    Raises store store'' := by
  intro hversions
  obtain ⟨hversions', hkept⟩ := h hversions
  obtain ⟨hversions'', hkept'⟩ := h' hversions'
  refine ⟨hversions'', fun issuer v hv => ?_⟩
  obtain ⟨w, hw, hle⟩ := hkept issuer v hv
  obtain ⟨x, hx, hle'⟩ := hkept' issuer w hw
  obtain ⟨a, rfl⟩ := hversions issuer v hv
  obtain ⟨b, rfl⟩ := hversions' issuer w hw
  obtain ⟨c, rfl⟩ := hversions'' issuer x hx
  refine ⟨_, hx, ?_⟩
  simp only [JsNumber.ge_int, decide_eq_true_eq] at hle hle' ⊢
  exact hle.trans hle'

theorem raises_step (store : Record JsNumber) (call : WatermarkCall) : Raises store (inMemoryStep store call).2 := by
  cases call with
  | get issuer => exact Raises.refl store
  | list => exact Raises.refl store
  | set issuer krlVersion =>
    intro hversions
    obtain ⟨n, hn, hle⟩ := max_version (hversions issuer) krlVersion
    simp only [inMemoryStep, hn, Record.own?_set]
    constructor
    · intro other v hv
      by_cases ho : other = issuer
      · rw [if_pos ho, Option.some.injEq] at hv
        exact ⟨n, hv.symm⟩
      · rw [if_neg ho] at hv
        exact hversions other v hv
    · intro other v hv
      by_cases ho : other = issuer
      · subst ho
        exact ⟨_, if_pos rfl, hle v hv⟩
      · obtain ⟨m, rfl⟩ := hversions other v hv
        exact ⟨_, (if_neg ho).trans hv, by simp⟩

theorem holds_nothing : Holds none Record.empty :=
  ⟨⟨fun _ he => absurd he List.not_mem_nil, fun _ he => absurd he List.not_mem_nil⟩, .inl ⟨rfl, rfl⟩⟩

/-- For issuers that no object inherits as a name, the file answers as the map does. -/
theorem fileBacked_refines_inMemory (filePath : JsString) (calls : List WatermarkCall)
    (hissuers : ∀ call ∈ calls, ordinaryIssuer call) :
    Machine.answers (fileBackedStep filePath) none calls = Machine.answers inMemoryStep Record.empty calls ∧
      (∀ message, .rejected message ∉ Machine.answers (fileBackedStep filePath) none calls) ∧
      ∀ pre post, calls = pre ++ post → ∀ issuer v,
        storedVersion filePath (Machine.after (fileBackedStep filePath) none pre) issuer = some v →
          ∃ w, storedVersion filePath (Machine.after (fileBackedStep filePath) none calls) issuer = some w ∧
            w.ge v = true := by
  have hsimulates := fileBacked_simulates filePath
  have hanswers := hsimulates.answers_eq holds_nothing hissuers
  refine ⟨hanswers, ?_, ?_⟩
  · intro message hm
    have hgood : ∀ a ∈ Machine.answers inMemoryStep Record.empty calls, a ≠ .rejected message :=
      Machine.forall_answers (fun store call => inMemory_not_rejected store call message) Record.empty calls
    rw [hanswers] at hm
    exact hgood _ hm rfl
  · rintro pre post rfl issuer v hv
    have hpre := hsimulates.after holds_nothing fun call hc => hissuers call (List.mem_append_left _ hc)
    have hall := hsimulates.after holds_nothing hissuers
    rw [storedVersion_holds filePath hpre] at hv
    rw [storedVersion_holds filePath hall, Machine.after_append]
    have hversions : ∀ k v, (Machine.after inMemoryStep Record.empty pre).own? k = some v → ∃ n : KrlVersion, v = .int n.val :=
      fun k => hpre.1.version_own k
    exact (Machine.rises_along Raises.refl (fun _ _ _ => Raises.trans) raises_step _ post hversions).2 issuer v hv

theorem fileBacked_refines_inMemory_sample :
    Machine.answers (fileBackedStep (js "krl.json")) none [.set (js "10") ⟨4, by decide⟩, .get (js "10")] =
      Machine.answers inMemoryStep Record.empty [.set (js "10") ⟨4, by decide⟩, .get (js "10")] :=
  (fileBacked_refines_inMemory (js "krl.json") [.set (js "10") ⟨4, by decide⟩, .get (js "10")] (by
    intro call hc
    simp only [List.mem_cons, List.not_mem_nil, or_false] at hc
    rcases hc with rfl | rfl
    · exact (by decide : inherited? (js "10") = none)
    · exact (by decide : inherited? (js "10") = none))).1

/-- A name that every object inherits: the file gets a watermark that is no number, and
every call after that is rejected. -/
theorem fileBacked_loses_inherited_issuer :
    Machine.answers inMemoryStep Record.empty [.set (js "toString") ⟨1, by decide⟩, .get (js "toString")] =
        [.done, .version (.own (.int 1))] ∧
      ∃ message, Machine.answers (fileBackedStep (js "krl.json")) none
        [.set (js "toString") ⟨1, by decide⟩, .get (js "toString")] = [.done, .rejected message] := by
  refine ⟨by decide, js "Malformed KRL watermark file at \"krl.json\": entry for issuer \"toString\" has an invalid value (expected a non-negative integer, got null).", ?_⟩
  decide +kernel

end OxDeAI.Sift
