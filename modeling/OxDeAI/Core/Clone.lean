import OxDeAI.Core.CanonicalFields
import OxDeAI.Js.Value

/-! `structuredClone`: functions and symbols throw, a class instance becomes a plain
object, and all other data is copied. -/

namespace OxDeAI

open Js

mutual

def isCloneable : JsValue → Bool
  | .function | .symbol => false
  | .arr xs => areCloneable xs
  | .obj es | .instance es => membersCloneable es
  | _ => true

def areCloneable : List JsValue → Bool
  | [] => true
  | x :: xs => isCloneable x && areCloneable xs

def membersCloneable : List (JsString × JsValue) → Bool
  | [] => true
  | (_, v) :: es => isCloneable v && membersCloneable es

end

mutual

def toPlain : JsValue → JsValue
  | .arr xs => .arr (plainElements xs)
  | .obj es | .instance es => .obj (plainMembers es)
  | v => v

def plainElements : List JsValue → List JsValue
  | [] => []
  | x :: xs => toPlain x :: plainElements xs

def plainMembers : List (JsString × JsValue) → List (JsString × JsValue)
  | [] => []
  | (k, v) :: es => (k, toPlain v) :: plainMembers es

end

/-- `none` when it throws. -/
def structuredClone (v : JsValue) : Option JsValue := if isCloneable v then some (toPlain v) else none

theorem areCloneable_iff {xs : List JsValue} :
    areCloneable xs = true ↔ ∀ x ∈ xs, isCloneable x = true := by
  induction xs with
  | nil => simp [areCloneable]
  | cons x xs ih => rw [areCloneable, Bool.and_eq_true, ih, List.forall_mem_cons]

theorem plainElements_eq_map (xs : List JsValue) : plainElements xs = xs.map toPlain := by
  induction xs with
  | nil => rfl
  | cons x xs ih => rw [plainElements, ih, List.map_cons]

theorem plainMembers_eq_map (es : List (JsString × JsValue)) :
    plainMembers es = es.map (fun e => (e.1, toPlain e.2)) := by
  induction es with
  | nil => rfl
  | cons e es ih => rw [plainMembers, ih, List.map_cons]

theorem areCloneable_plain {xs : List JsValue} (h : ∀ x ∈ xs, isCloneable (toPlain x) = isCloneable x) :
    areCloneable (plainElements xs) = areCloneable xs := by
  induction xs with
  | nil => rfl
  | cons x xs ih =>
    rw [plainElements, areCloneable, areCloneable, h x List.mem_cons_self,
      ih (fun y hy => h y (List.mem_cons_of_mem _ hy))]

theorem membersCloneable_plain {es : List (JsString × JsValue)}
    (h : ∀ e ∈ es, isCloneable (toPlain e.2) = isCloneable e.2) :
    membersCloneable (plainMembers es) = membersCloneable es := by
  induction es with
  | nil => rfl
  | cons e es ih =>
    rw [plainMembers, membersCloneable, membersCloneable, h e List.mem_cons_self,
      ih (fun y hy => h y (List.mem_cons_of_mem _ hy))]

theorem isCloneable_toPlain (v : JsValue) : isCloneable (toPlain v) = isCloneable v := by
  induction v using jsValue_induction with
  | arr xs ih => exact areCloneable_plain ih
  | obj es ih => exact membersCloneable_plain ih
  | inst es ih => exact membersCloneable_plain ih
  | _ => rfl

theorem plainMembers_plain {es : List (JsString × JsValue)}
    (h : ∀ e ∈ es, toPlain (toPlain e.2) = toPlain e.2) :
    plainMembers (plainMembers es) = plainMembers es := by
  rw [plainMembers_eq_map, plainMembers_eq_map, List.map_map]
  refine List.map_congr_left fun e he => ?_
  rw [Function.comp_apply, h e he]

theorem toPlain_toPlain (v : JsValue) : toPlain (toPlain v) = toPlain v := by
  induction v using jsValue_induction with
  | arr xs ih =>
    simp only [toPlain, plainElements_eq_map, List.map_map]
    congr 1
    exact List.map_congr_left fun x hx => ih x hx
  | obj es ih => rw [toPlain, toPlain, plainMembers_plain ih]
  | inst es ih => rw [toPlain, toPlain, plainMembers_plain ih]
  | _ => rfl

/-- A clone is its own clone. -/
theorem structuredClone_toPlain {v : JsValue} (h : isCloneable v = true) :
    structuredClone (toPlain v) = some (toPlain v) := by
  rw [structuredClone, isCloneable_toPlain, h, if_pos rfl, toPlain_toPlain]

section

variable {v : JsValue} {key : JsString}

@[simp] theorem isRecord_toPlain : (toPlain v).isRecord = v.isRecord := by
  cases v <;> rfl

theorem ownEntry_plainMembers (key : JsString) (es : List (JsString × JsValue)) :
    ownEntry key (plainMembers es) = (ownEntry key es).map toPlain := by
  induction es with
  | nil => rfl
  | cons e es ih =>
    obtain ⟨k, w⟩ := e
    rw [plainMembers, ownEntry, ownEntry]
    by_cases hk : k = key
    · rw [if_pos hk, if_pos hk, Option.map_some]
    · rw [if_neg hk, if_neg hk, ih]

theorem entries_toPlain (v : JsValue) : (toPlain v).entries = plainMembers v.entries := by
  cases v <;> rfl

@[simp] theorem field_toPlain : (toPlain v).field key = toPlain (v.field key) := by
  rw [JsValue.field, JsValue.field, entries_toPlain, ownEntry_plainMembers]
  cases ownEntry key v.entries <;> rfl

@[simp] theorem isText_toPlain {s : JsString} : (toPlain v).isText s = v.isText s := by
  cases v <;> rfl

@[simp] theorem hasText_toPlain : (toPlain v).hasText = v.hasText := by
  cases v <;> rfl

@[simp] theorem isString_toPlain : (toPlain v).isString = v.isString := by
  cases v <;> rfl

@[simp] theorem isUndefined_toPlain : (toPlain v).isUndefined = v.isUndefined := by
  cases v <;> rfl

@[simp] theorem isInteger_toPlain : (toPlain v).isInteger = v.isInteger := by
  cases v <;> rfl

@[simp] theorem text?_toPlain : (toPlain v).text? = v.text? := by
  cases v <;> rfl

@[simp] theorem number?_toPlain : (toPlain v).number? = v.number? := by
  cases v <;> rfl

end

section

variable {nfc : JsString → JsString}

theorem normalMembers_plain {es : List (JsString × JsValue)}
    (h : ∀ e ∈ es, normalForm nfc (toPlain e.2) = normalForm nfc e.2) :
    normalMembers nfc (plainMembers es) = normalMembers nfc es := by
  rw [normalMembers_eq_map, normalMembers_eq_map, plainMembers_eq_map, List.map_map]
  refine List.map_congr_left fun e he => ?_
  rw [Function.comp_apply, h e he]

theorem normalForm_toPlain (v : JsValue) : normalForm nfc (toPlain v) = normalForm nfc v := by
  induction v using jsValue_induction with
  | arr xs ih =>
    rw [toPlain, normalForm, normalForm, normalElements_eq_map, normalElements_eq_map,
      plainElements_eq_map, List.map_map]
    congr 1
    exact List.map_congr_left fun x hx => ih x hx
  | obj es ih => rw [toPlain, normalForm, normalForm, normalMembers_plain ih]
  | inst es ih => rw [toPlain, normalForm, normalForm, normalMembers_plain ih]
  | _ => rfl

theorem isTimestamp_toPlain (v : JsValue) : isTimestamp (toPlain v) = isTimestamp v := by
  cases v <;> rfl

theorem canonicalMembers_plainMembers {es : List (JsString × JsValue)} (h : CanonicalMembers nfc es) :
    CanonicalMembers nfc (plainMembers es) := by
  rw [plainMembers_eq_map]
  refine ⟨?_, ?_⟩
  · rw [List.map_map]
    exact h.nodup
  · intro e he hts
    obtain ⟨e', he', rfl⟩ := List.mem_map.mp he
    rw [isTimestamp_toPlain]
    exact h.timestamp e' he' hts

theorem canonical_toPlain {v : JsValue} (h : Canonical nfc v) : Canonical nfc (toPlain v) := by
  have hmem : ∀ {es : List (JsString × JsValue)}, (∀ e ∈ es, Canonical nfc (toPlain e.2)) →
      ∀ e ∈ plainMembers es, Canonical nfc e.2 := by
    intro es ih e he
    rw [plainMembers_eq_map] at he
    obtain ⟨e', he', rfl⟩ := List.mem_map.mp he
    exact ih e' he'
  induction h with
  | null => exact .null
  | bool b => exact .bool b
  | str s => exact .str s
  | int hz => exact .int hz
  | bigint z => exact .bigint z
  | arr _ ih =>
    rw [toPlain, plainElements_eq_map]
    refine .arr fun y hy => ?_
    obtain ⟨x, hx, rfl⟩ := List.mem_map.mp hy
    exact ih x hx
  | obj hm _ ih => exact .obj (canonicalMembers_plainMembers hm) (hmem ih)
  | inst hm _ ih => exact .obj (canonicalMembers_plainMembers hm) (hmem ih)

theorem canonicalMembers_of_plainMembers {es : List (JsString × JsValue)}
    (h : CanonicalMembers nfc (plainMembers es)) : CanonicalMembers nfc es := by
  rw [plainMembers_eq_map] at h
  constructor
  · have hnd := h.nodup
    rwa [List.map_map] at hnd
  · intro e he hts
    rw [← isTimestamp_toPlain]
    exact h.timestamp _ (List.mem_map_of_mem he) hts

/-- Only what is canonical itself has a canonical clone. -/
theorem canonical_of_toPlain {v : JsValue} (h : Canonical nfc (toPlain v)) : Canonical nfc v := by
  have hmem : ∀ {es : List (JsString × JsValue)},
      (∀ e ∈ es, Canonical nfc (toPlain e.2) → Canonical nfc e.2) →
      (∀ e ∈ plainMembers es, Canonical nfc e.2) → ∀ e ∈ es, Canonical nfc e.2 := by
    intro es ih hplain e he
    rw [plainMembers_eq_map] at hplain
    exact ih e he (hplain _ (List.mem_map_of_mem he))
  induction v using jsValue_induction with
  | arr xs ih =>
    rw [toPlain, plainElements_eq_map] at h
    cases h with
    | arr h => exact .arr fun x hx => ih x hx (h _ (List.mem_map_of_mem hx))
  | obj es ih =>
    cases h with
    | obj hm h => exact .obj (canonicalMembers_of_plainMembers hm) (hmem ih h)
  | inst es ih =>
    cases h with
    | obj hm h => exact .inst (canonicalMembers_of_plainMembers hm) (hmem ih h)
  | _ => exact h

theorem canonicalJson_toPlain {v : JsValue} {t : JsString} (h : canonicalJson nfc v = .ok t) :
    canonicalJson nfc (toPlain v) = .ok t := by
  obtain ⟨hc, ht⟩ := (canonicalizeToJson_ok v t).mp h
  exact (canonicalizeToJson_ok _ t).mpr ⟨canonical_toPlain hc, by rw [normalForm_toPlain, ht]⟩

theorem toPlain_present (fields : List (JsString × Option JsValue)) :
    toPlain (.obj (present fields)) = .obj (present (fields.map (fun f => (f.1, f.2.map toPlain)))) := by
  rw [toPlain, plainMembers_eq_map]
  congr 1
  induction fields with
  | nil => rfl
  | cons f fields ih =>
    obtain ⟨k, v⟩ := f
    cases v with
    | none => exact ih
    | some v => exact congrArg (List.cons (k, toPlain v)) ih

end

end OxDeAI
