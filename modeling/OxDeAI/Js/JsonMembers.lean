import OxDeAI.Js.JsonTree
import OxDeAI.Js.Value

/-! JSON texts with all their members. `JSON.parse` reads a text as its tree, each
object with the last member of each name. -/

namespace Js

/-- A JSON value as it is written, repeated members included. -/
abbrev JsonDocument := Json JsString JsNumber

mutual

def treeValue : ℕ → JsString → Option (JsonDocument × JsString)
  | 0, _ => none
  | fuel + 1, s =>
    match skipWhitespace s with
    | [] => none
    | u :: rest =>
      if u.val = 34 then (parseString rest).map (fun p => (.str p.1, p.2))
      else if u.val = 91 then
        match skipWhitespace rest with
        | [] => none
        | c :: tail =>
          if c.val = 93 then some (.arr [], tail)
          else (treeElements fuel (c :: tail)).map (fun p => (.arr p.1, p.2))
      else if u.val = 123 then
        match skipWhitespace rest with
        | [] => none
        | c :: tail =>
          if c.val = 125 then some (.obj [], tail)
          else (treeMembers fuel (c :: tail)).map (fun p => (.obj p.1, p.2))
      else if u.val = 110 then (stripPrefix? (js "null") (u :: rest)).map (fun r => (.null, r))
      else if u.val = 116 then (stripPrefix? (js "true") (u :: rest)).map (fun r => (.bool true, r))
      else if u.val = 102 then (stripPrefix? (js "false") (u :: rest)).map (fun r => (.bool false, r))
      else (parseNumber (u :: rest)).map (fun p => (.num p.1, p.2))

def treeElements : ℕ → JsString → Option (List JsonDocument × JsString)
  | 0, _ => none
  | fuel + 1, s =>
    match treeValue fuel s with
    | none => none
    | some (v, more) =>
      match skipWhitespace more with
      | [] => none
      | c :: tail =>
        if c.val = 93 then some ([v], tail)
        else if c.val = 44 then (treeElements fuel tail).map (fun p => (v :: p.1, p.2))
        else none

def treeMembers : ℕ → JsString → Option (List (JsString × JsonDocument) × JsString)
  | 0, _ => none
  | fuel + 1, s =>
    match skipWhitespace s with
    | [] => none
    | u :: rest =>
      if u.val = 34 then
        match parseString rest with
        | none => none
        | some (k, afterKey) =>
          match skipWhitespace afterKey with
          | [] => none
          | c :: value =>
            if c.val = 58 then
              match treeValue fuel value with
              | none => none
              | some (v, more) =>
                match skipWhitespace more with
                | [] => none
                | d :: tail =>
                  if d.val = 125 then some ([(k, v)], tail)
                  else if d.val = 44 then (treeMembers fuel tail).map (fun p => ((k, v) :: p.1, p.2))
                  else none
            else none
      else none

end

/-- The tree of a whole text; `none` is a syntax error. -/
def parseTree (s : JsString) : Option JsonDocument :=
  match treeValue (2 * s.length + 1) s with
  | some (t, rest) => if skipWhitespace rest = [] then some t else none
  | none => none

namespace Json

/-- The value `JSON.parse` makes of a document. -/
def read (t : JsonDocument) : JsValue := t.parsed id id

@[simp] theorem read_null : read .null = .null := rfl

@[simp] theorem read_bool (b : Bool) : read (.bool b) = .bool b := rfl

@[simp] theorem read_str (s : JsString) : read (.str s) = .str s := rfl

@[simp] theorem read_num (n : JsNumber) : read (.num n) = .num n := rfl

@[simp] theorem read_arr (xs : List JsonDocument) : read (.arr xs) = .arr (xs.map read) := by
  rw [read, parsed, parsedElements_eq_map]
  rfl

theorem read_obj (es : List (JsString × JsonDocument)) :
    read (.obj es) = .obj (objectOf (es.map (fun e => (e.1, e.2.read)))) := by
  rw [read, parsed, parsedMembers_eq_map]
  rfl

/-- The value of the last member of a name. -/
def lastMember (key : JsString) (es : List (JsString × JsonDocument)) : Option JsonDocument :=
  ownEntry key es.reverse

/-- Two members of one name in one object, at any depth. -/
def RepeatsKey (t : JsonDocument) : Prop :=
  ∃ es, Node t (.obj es) ∧ ¬ (es.map Prod.fst).Nodup

end Json

/-- One step of the parser keeps the rest and reads the tree. -/
theorem parse_eq_tree (fuel : ℕ) :
    (∀ s, parseValue fuel s = (treeValue fuel s).map (fun p => (p.1.read, p.2))) ∧
      (∀ s, parseElements fuel s = (treeElements fuel s).map (fun p => (p.1.map Json.read, p.2))) ∧
      ∀ s, parseMembers fuel s =
        (treeMembers fuel s).map (fun p => (p.1.map (fun e => (e.1, e.2.read)), p.2)) := by
  induction fuel with
  | zero => exact ⟨fun _ => rfl, fun _ => rfl, fun _ => rfl⟩
  | succ fuel ih =>
    obtain ⟨hvalue, helements, hmembers⟩ := ih
    refine ⟨fun s => ?_, fun s => ?_, fun s => ?_⟩
    · rw [parseValue, treeValue]
      cases skipWhitespace s with
      | nil => rfl
      | cons u rest =>
        dsimp only
        split_ifs
        · cases parseString rest <;> simp
        · cases skipWhitespace rest with
          | nil => rfl
          | cons c tail =>
            dsimp only
            split_ifs
            · rfl
            · rw [helements]
              cases treeElements fuel (c :: tail) <;> simp
        · cases skipWhitespace rest with
          | nil => rfl
          | cons c tail =>
            dsimp only
            split_ifs
            · rfl
            · rw [hmembers]
              cases treeMembers fuel (c :: tail) <;> simp [Json.read_obj]
        · cases stripPrefix? (js "null") (u :: rest) <;> simp
        · cases stripPrefix? (js "true") (u :: rest) <;> simp
        · cases stripPrefix? (js "false") (u :: rest) <;> simp
        · cases parseNumber (u :: rest) <;> simp
    · rw [parseElements, treeElements, hvalue]
      cases treeValue fuel s with
      | none => rfl
      | some p =>
        dsimp only [Option.map_some]
        cases skipWhitespace p.2 with
        | nil => rfl
        | cons c tail =>
          dsimp only
          split_ifs
          · rfl
          · rw [helements]
            cases treeElements fuel tail <;> simp
          · rfl
    · rw [parseMembers, treeMembers]
      cases skipWhitespace s with
      | nil => rfl
      | cons u rest =>
        dsimp only
        split_ifs
        · cases parseString rest with
          | none => rfl
          | some key =>
            dsimp only
            cases skipWhitespace key.2 with
            | nil => rfl
            | cons c value =>
              dsimp only
              split_ifs
              · rw [hvalue]
                cases treeValue fuel value with
                | none => rfl
                | some p =>
                  dsimp only [Option.map_some]
                  cases skipWhitespace p.2 with
                  | nil => rfl
                  | cons d tail =>
                    dsimp only
                    split_ifs
                    · rfl
                    · rw [hmembers]
                      cases treeMembers fuel tail <;> simp
                    · rfl
              · rfl
        · rfl

theorem parseJson_eq_read (s : JsString) : parseJson s = (parseTree s).map Json.read := by
  rw [parseJson, parseTree, (parse_eq_tree _).1]
  cases treeValue (2 * s.length + 1) s with
  | none => rfl
  | some p =>
    dsimp only [Option.map_some]
    split_ifs <;> rfl

theorem objectOf_append (es : List (JsString × JsValue)) (e : JsString × JsValue) :
    objectOf (es ++ [e]) = setEntry e.1 e.2 (objectOf es) := by
  rw [objectOf, List.foldl_append]
  rfl

theorem ownEntry_cons {α : Type*} (key : JsString) (e : JsString × α) (es : List (JsString × α)) :
    ownEntry key (e :: es) = if e.1 = key then some e.2 else ownEntry key es := rfl

/-- The last member of a name is the one that is read. -/
theorem ownEntry_objectOf (key : JsString) (es : List (JsString × JsValue)) :
    ownEntry key (objectOf es) = ownEntry key es.reverse := by
  induction es using List.reverseRecOn with
  | nil => rfl
  | append_singleton es e ih =>
    rw [objectOf_append, ownEntry_setEntry, ih, List.reverse_append, List.reverse_singleton, List.singleton_append,
      ownEntry_cons]
    by_cases hkey : key = e.1
    · rw [if_pos hkey, if_pos hkey.symm]
    · rw [if_neg hkey, if_neg (Ne.symm hkey)]

theorem mem_keys_objectOf (key : JsString) (es : List (JsString × JsValue)) :
    key ∈ (objectOf es).map Prod.fst ↔ key ∈ es.map Prod.fst := by
  rw [← ownEntry_isSome, ownEntry_objectOf, ownEntry_isSome, List.map_reverse, List.mem_reverse]

namespace Json

variable {es : List (JsString × JsonDocument)}

theorem ownEntry_read (key : JsString) :
    ownEntry key (read (.obj es)).entries = (lastMember key es).map read := by
  rw [read_obj, JsValue.entries, ownEntry_objectOf, ← List.map_reverse, ownEntry_map, lastMember]

theorem mem_keys_read (key : JsString) : key ∈ (read (.obj es)).entries.map Prod.fst ↔ key ∈ es.map Prod.fst := by
  rw [read_obj, JsValue.entries, mem_keys_objectOf, List.map_map]
  rfl

theorem field_read (key : JsString) :
    (read (.obj es)).field key = ((lastMember key es).map read).getD .undefined := by
  rw [JsValue.field, ownEntry_read]

theorem has_read (key : JsString) : (read (.obj es)).has key = (lastMember key es).isSome := by
  rw [JsValue.has, ownEntry_read, Option.isSome_map]

section

variable {t : JsonDocument}

theorem read_eq_str {s : JsString} : t.read = .str s ↔ t = .str s := by
  cases t <;> simp [read_obj]

theorem read_eq_num {n : JsNumber} : t.read = .num n ↔ t = .num n := by
  cases t <;> simp [read_obj]

theorem read_isRecord : t.read.isRecord = true ↔ ∃ es, t = .obj es := by
  cases t <;> simp [JsValue.isRecord, read_obj]

theorem read_isString : t.read.isString = true ↔ ∃ s, t = .str s := by
  cases t <;> simp [JsValue.isString, read_obj]

end

end Json

end Js
