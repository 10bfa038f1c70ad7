import OxDeAI.Js.SameRecord
import OxDeAI.Sdk.StateFile

/-! Readers of runtime values, and what they read of a value that was stored. -/

namespace OxDeAI

open Js

/-- What a runtime value is at a type, if it is of the type. -/
abbrev Reader (α : Type) := JsValue → Option α

namespace Reader

variable {α β : Type}

def text : Reader JsString := JsValue.text?

def flag : Reader Bool
  | .bool b => some b
  | _ => none

def number : Reader JsNumber
  | .num n => some n
  | _ => none

def amount : Reader ℤ
  | .bigint z => some z
  | _ => none

def member (key : JsString) (f : Reader α) : Reader α := fun v => f (v.field key)

def both (f : Reader α) (g : Reader β) : Reader (α × β) := fun v => (f v).bind (fun a => (g v).map (fun b => (a, b)))

def into (f : Reader α) (make : α → β) : Reader β := fun v => (f v).map make

def list (f : Reader α) : Reader (List α)
  | .arr xs => xs.mapM f
  | _ => none

def optional (f : Reader α) : Reader (Option α) := fun v => if v.isUndefined then some none else (f v).map some

def record (f : Reader α) : Reader (Record α) := fun v =>
  if v.isRecord then
    (v.entries.mapM (fun e => (f e.2).map (fun a => (e.1, a)))).bind (fun es =>
      if h : (es.map Prod.fst).Nodup then some ⟨es, h⟩ else none)
  else none

/-- Of a value whose members may all be left out. -/
def ofRecord (f : Reader α) : Reader α := fun v => if v.isRecord then f v else none

end Reader

/-- The member, where there is one. -/
def Within (key : JsString) (p : JsValue → Prop) (v : JsValue) : Prop := ∀ x, ownEntry key v.entries = some x → p x

/-- Every own property but `__proto__`. -/
def Each (p : JsValue → Prop) (v : JsValue) : Prop := ∀ k x, k ≠ protoKey → ownEntry k v.entries = some x → p x

def Items (p : JsValue → Prop) (v : JsValue) : Prop := ∀ xs, v = .arr xs → ∀ x ∈ xs, p x

def Defined (p : JsValue → Prop) (v : JsValue) : Prop := v ≠ .undefined ∧ p v

def FiniteNumber (v : JsValue) : Prop := ∀ n, v = .num n → n.isFinite = true

/-- The same keys with related values, but for `__proto__`, which the other lacks. -/
structure ButProto {α : Type} (R : α → α → Prop) (r r' : Record α) : Prop where
  own : ∀ k, k ≠ protoKey → Option.Rel R (r.own? k) (r'.own? k)
  proto : r'.own? protoKey = none

/-- A stored value is read with a result that is related in one way wherever there is one,
and in another exactly where something is kept. -/
structure Reloads (sourceText : JsValue → JsString) {α : Type} (read read' : Reader α) (W R : α → α → Prop)
    (kept : JsValue → Prop) : Prop where
  related : ∀ {v a a'}, IsValue v → read v = some a → read' (stored sourceText v) = some a' → W a a'
  kept_iff : ∀ {v a}, IsValue v → read v = some a →
    ((∃ a', read' (stored sourceText v) = some a' ∧ R a a') ↔ kept v)

section

variable {sourceText : JsValue → JsString} {α β : Type} {f f' : Reader α} {g g' : Reader β} {W R : α → α → Prop}
  {W' R' : β → β → Prop} {k k' : JsValue → Prop} {key : JsString} {v : JsValue} {es : List (JsString × JsValue)}

theorem IsValue.nodup (h : IsValue v) : (v.entries.map Prod.fst).Nodup := by
  cases h with
  | obj hnd _ => exact hnd
  | «instance» hnd _ => exact hnd
  | _ => exact List.nodup_nil

theorem IsValue.entry (h : IsValue v) {e : JsString × JsValue} (he : e ∈ v.entries) : IsValue e.2 := by
  cases h with
  | obj _ hall => exact hall e he
  | «instance» _ hall => exact hall e he
  | _ => cases he

theorem entries_stored (v : JsValue) :
    (stored sourceText v).entries = (keyOrder v.entries).map (fun e => (e.1, stored sourceText e.2)) := by
  cases v with
  | obj es => rw [stored, JsValue.entries, storedMembers_eq_map, keyOrder_map]; rfl
  | «instance» es => rw [stored, JsValue.entries, storedMembers_eq_map, keyOrder_map]; rfl
  | num n =>
    rw [stored]
    split <;> rfl
  | _ => rfl

theorem ownEntry_stored (h : IsValue v) (key : JsString) : ownEntry key (stored sourceText v).entries =
    if key = protoKey then none else (ownEntry key v.entries).map (stored sourceText) := by
  rw [entries_stored, ownEntry_map, ownEntry_keyOrder h.nodup]
  split <;> rfl

theorem stored_ne_undefined (v : JsValue) : (stored sourceText v).isUndefined = false := by
  cases v with
  | num n =>
    rw [stored]
    split <;> rfl
  | _ => rfl

theorem reloads_text : Reloads sourceText Reader.text Reader.text (· = ·) (· = ·) (fun _ => True) where
  related {v a a'} _ h h' := by
    cases v with
    | str s =>
      cases h
      cases h'
      rfl
    | _ => cases h
  kept_iff {v a} _ h := by
    cases v with
    | str s =>
      cases h
      exact ⟨fun _ => trivial, fun _ => ⟨_, rfl, rfl⟩⟩
    | _ => cases h

theorem reloads_flag : Reloads sourceText Reader.flag Reader.flag (· = ·) (· = ·) (fun _ => True) where
  related {v a a'} _ h h' := by
    cases v with
    | bool b =>
      cases h
      cases h'
      rfl
    | _ => cases h
  kept_iff {v a} _ h := by
    cases v with
    | bool b =>
      cases h
      exact ⟨fun _ => trivial, fun _ => ⟨_, rfl, rfl⟩⟩
    | _ => cases h

/-- A number that is not finite becomes null. -/
theorem reloads_number : Reloads sourceText Reader.number Reader.number (· = ·) (· = ·) FiniteNumber where
  related {v a a'} _ h h' := by
    cases v with
    | num n =>
      cases h
      rw [stored] at h'
      split at h'
      · cases h'
        rfl
      · cases h'
    | _ => cases h
  kept_iff {v a} _ h := by
    cases v with
    | num n =>
      cases h
      rw [stored]
      constructor
      · rintro ⟨a', ha', -⟩ n' hn'
        cases hn'
        split at ha'
        · assumption
        · cases ha'
      · intro hfinite
        rw [if_pos (hfinite _ rfl)]
        exact ⟨_, rfl, rfl⟩
    | _ => cases h

/-- A name that is present but undefined is read back as a text. -/
def Drift (o o' : Option JsString) : Prop := o = o' ∨ o = none

theorem reloads_name : Reloads sourceText (Reader.optional Reader.text) (Reader.optional Reader.text) Drift (· = ·)
    (fun v => v ≠ .undefined) where
  related {v a a'} _ h h' := by
    cases v with
    | str s =>
      cases h
      cases h'
      exact .inl rfl
    | undefined =>
      cases h
      exact .inr rfl
    | _ => cases h
  kept_iff {v a} _ h := by
    cases v with
    | str s =>
      cases h
      exact ⟨nofun, fun _ => ⟨some s, rfl, rfl⟩⟩
    | undefined =>
      cases h
      constructor
      · rintro ⟨a', ha', rfl⟩
        cases ha'
      · intro hne
        exact absurd rfl hne
    | _ => cases h

/-- Both parts are related. -/
def BothRel (W : α → α → Prop) (W' : β → β → Prop) (p q : α × β) : Prop := W p.1 q.1 ∧ W' p.2 q.2

theorem both_eq_some {p : α × β} : Reader.both f g v = some p ↔ f v = some p.1 ∧ g v = some p.2 := by
  obtain ⟨a, b⟩ := p
  simp only [Reader.both, Option.bind_eq_some_iff, Option.map_eq_some_iff, Prod.mk.injEq]
  constructor
  · rintro ⟨a', ha, b', hb, rfl, rfl⟩
    exact ⟨ha, hb⟩
  · rintro ⟨ha, hb⟩
    exact ⟨a, ha, b, hb, rfl, rfl⟩

theorem Reloads.both (hf : Reloads sourceText f f' W R k) (hg : Reloads sourceText g g' W' R' k') :
    Reloads sourceText (Reader.both f g) (Reader.both f' g') (BothRel W W') (BothRel R R') (fun v => k v ∧ k' v) where
  related hv h h' := by
    obtain ⟨ha, hb⟩ := both_eq_some.mp h
    obtain ⟨ha', hb'⟩ := both_eq_some.mp h'
    exact ⟨hf.related hv ha ha', hg.related hv hb hb'⟩
  kept_iff hv h := by
    obtain ⟨ha, hb⟩ := both_eq_some.mp h
    rw [← hf.kept_iff hv ha, ← hg.kept_iff hv hb]
    constructor
    · rintro ⟨p, hp, hr, hr'⟩
      obtain ⟨ha', hb'⟩ := both_eq_some.mp hp
      exact ⟨⟨p.1, ha', hr⟩, ⟨p.2, hb', hr'⟩⟩
    · rintro ⟨⟨a', ha', hr⟩, ⟨b', hb', hr'⟩⟩
      exact ⟨(a', b'), both_eq_some.mpr ⟨ha', hb'⟩, hr, hr'⟩

theorem Reloads.into {make : α → β} (hf : Reloads sourceText f f' W R k) (hW : ∀ a a', W a a' → W' (make a) (make a'))
    (hR : ∀ a a', R' (make a) (make a') ↔ R a a') :
    Reloads sourceText (Reader.into f make) (Reader.into f' make) W' R' k where
  related hv h h' := by
    obtain ⟨a, ha, rfl⟩ := Option.map_eq_some_iff.mp h
    obtain ⟨a', ha', rfl⟩ := Option.map_eq_some_iff.mp h'
    exact hW a a' (hf.related hv ha ha')
  kept_iff hv h := by
    obtain ⟨a, ha, rfl⟩ := Option.map_eq_some_iff.mp h
    rw [← hf.kept_iff hv ha]
    constructor
    · rintro ⟨b, hb, hr⟩
      obtain ⟨a', ha', rfl⟩ := Option.map_eq_some_iff.mp hb
      exact ⟨a', ha', (hR a a').mp hr⟩
    · rintro ⟨a', ha', hr⟩
      exact ⟨_, Option.map_eq_some_iff.mpr ⟨a', ha', rfl⟩, (hR a a').mpr hr⟩

/-- Nothing is lost where there is nothing. -/
def KeepsAbsence (f f' : Reader α) (W R : α → α → Prop) : Prop :=
  ∀ a, f .undefined = some a → f' .undefined = some a ∧ W a a ∧ R a a

theorem Reloads.member (hkey : key ≠ protoKey) (hf : Reloads sourceText f f' W R k) (habsent : KeepsAbsence f f' W R) :
    Reloads sourceText (Reader.member key f) (Reader.member key f') W R (Within key k) where
  related {v a a'} hv h h' := by
    have hown := @ownEntry_stored sourceText _ hv key
    rw [if_neg hkey] at hown
    rw [Reader.member, JsValue.field] at h h'
    rw [hown] at h'
    cases hx : ownEntry key v.entries with
    | none =>
      rw [hx] at h h'
      obtain ⟨hsame, hW, -⟩ := habsent a h
      have heq := hsame.symm.trans h'
      exact Option.some.inj heq ▸ hW
    | some x =>
      rw [hx] at h h'
      exact hf.related (hv.entry (ownEntry_mem hx)) h h'
  kept_iff {v a} hv h := by
    have hown := @ownEntry_stored sourceText _ hv key
    rw [if_neg hkey] at hown
    rw [Reader.member, JsValue.field] at h
    rw [Reader.member, JsValue.field, hown]
    cases hx : ownEntry key v.entries with
    | none =>
      rw [hx] at h
      obtain ⟨hsame, -, hR⟩ := habsent a h
      constructor
      · intro _ x hx'
        rw [hx] at hx'
        cases hx'
      · exact fun _ => ⟨a, hsame, hR⟩
    | some x =>
      rw [hx] at h
      have hiff := hf.kept_iff (hv.entry (ownEntry_mem hx)) h
      constructor
      · intro hread x' hx'
        rw [hx] at hx'
        cases hx'
        exact hiff.mp hread
      · intro hk
        exact hiff.mpr (hk x hx)

theorem keepsAbsence_of_none (h : f .undefined = none) : KeepsAbsence f f' W R := by
  intro a ha
  rw [h] at ha
  cases ha

theorem keepsAbsence_optional {W R : Option α → Option α → Prop} (hW : W none none) (hR : R none none) :
    KeepsAbsence (Reader.optional f) (Reader.optional f') W R := by
  intro a ha
  cases ha
  exact ⟨rfl, hW, hR⟩

/-- What is defined is stored as something that is not a text the reader takes. -/
theorem Reloads.optional (hf : Reloads sourceText f f' W R k) (htext : ∀ s, f' (.str s) = none) :
    Reloads sourceText (Reader.optional f) (Reader.optional f') (Option.Rel W) (Option.Rel R) (Defined k) where
  related {v o o'} hv h h' := by
    rw [Reader.optional] at h h'
    rw [stored_ne_undefined] at h'
    obtain ⟨a', ha', rfl⟩ := Option.map_eq_some_iff.mp h'
    by_cases hu : v.isUndefined = true
    · cases v with
      | undefined =>
        rw [stored, htext] at ha'
        cases ha'
      | _ => cases hu
    · rw [if_neg hu] at h
      obtain ⟨a, ha, rfl⟩ := Option.map_eq_some_iff.mp h
      exact .some (hf.related hv ha ha')
  kept_iff {v o} hv h := by
    rw [Reader.optional] at h
    rw [Reader.optional, stored_ne_undefined]
    by_cases hu : v.isUndefined = true
    · cases v with
      | undefined =>
        constructor
        · rintro ⟨o', ho', -⟩
          rw [stored, if_neg (by decide), htext] at ho'
          cases ho'
        · intro hdefined
          exact absurd rfl hdefined.1
      | _ => cases hu
    · have hne : v ≠ .undefined := by
        rintro rfl
        exact hu rfl
      rw [if_neg hu] at h
      obtain ⟨a, ha, rfl⟩ := Option.map_eq_some_iff.mp h
      rw [Defined, ← hf.kept_iff hv ha]
      constructor
      · rintro ⟨o', ho', hr⟩
        obtain ⟨a', ha', rfl⟩ := Option.map_eq_some_iff.mp ho'
        cases hr with
        | some hr => exact ⟨hne, a', ha', hr⟩
      · rintro ⟨-, a', ha', hr⟩
        exact ⟨some a', Option.map_eq_some_iff.mpr ⟨a', ha', rfl⟩, .some hr⟩

theorem mapM_cons_some {γ δ : Type} {h : γ → Option δ} {x : γ} {xs : List γ} {ys : List δ} :
    (x :: xs).mapM h = some ys ↔ ∃ y ys', h x = some y ∧ xs.mapM h = some ys' ∧ ys = y :: ys' := by
  rw [List.mapM_cons]
  cases hx : h x with
  | none => simp
  | some y =>
    cases hxs : xs.mapM h with
    | none => simp
    | some ys' => simp [eq_comm]

theorem mapM_stored {xs : List JsValue} (hf : Reloads sourceText f f' W R k) (hv : ∀ x ∈ xs, IsValue x) {as : List α}
    (h : xs.mapM f = some as) :
    (∀ as', (xs.map (stored sourceText)).mapM f' = some as' → List.Forall₂ W as as') ∧
      ((∃ as', (xs.map (stored sourceText)).mapM f' = some as' ∧ List.Forall₂ R as as') ↔ ∀ x ∈ xs, k x) := by
  induction xs generalizing as with
  | nil =>
    cases h
    constructor
    · intro as' h'
      cases h'
      exact .nil
    · exact ⟨fun _ => nofun, fun _ => ⟨[], rfl, .nil⟩⟩
  | cons x xs ih =>
    obtain ⟨a, rest, ha, hrest, rfl⟩ := mapM_cons_some.mp h
    obtain ⟨hrelated, hiff⟩ := ih (fun y hy => hv y (List.mem_cons_of_mem x hy)) hrest
    have hx := hv x List.mem_cons_self
    rw [List.map_cons]
    constructor
    · intro as' h'
      obtain ⟨a', rest', ha', hrest', rfl⟩ := mapM_cons_some.mp h'
      exact .cons (hf.related hx ha ha') (hrelated rest' hrest')
    · rw [List.forall_mem_cons, ← hiff, ← hf.kept_iff hx ha]
      constructor
      · rintro ⟨as', h', hr⟩
        obtain ⟨a', rest', ha', hrest', rfl⟩ := mapM_cons_some.mp h'
        cases hr with
        | cons hra hrr => exact ⟨⟨a', ha', hra⟩, ⟨rest', hrest', hrr⟩⟩
      · rintro ⟨⟨a', ha', hra⟩, ⟨rest', hrest', hrr⟩⟩
        exact ⟨a' :: rest', mapM_cons_some.mpr ⟨a', rest', ha', hrest', rfl⟩, .cons hra hrr⟩

theorem Reloads.list (hf : Reloads sourceText f f' W R k) :
    Reloads sourceText (Reader.list f) (Reader.list f') (List.Forall₂ W) (List.Forall₂ R) (Items k) where
  related {v a a'} hv h h' := by
    cases hv with
    | @arr xs hxs =>
      rw [stored, storedElements_eq_map] at h'
      exact (mapM_stored hf hxs h).1 a' h'
    | _ => cases h
  kept_iff {v a} hv h := by
    cases hv with
    | @arr xs hxs =>
      rw [stored, storedElements_eq_map]
      refine (mapM_stored hf hxs h).2.trans ?_
      constructor
      · intro hall xs' hxs'
        cases hxs'
        exact hall
      · exact fun hall => hall xs rfl
    | _ => cases h

/-- A record is read key by key. -/
theorem record_eq_some {r : Record α} : Reader.record f v = some r ↔
    v.isRecord = true ∧ List.Forall₂ (fun e e' => e'.1 = e.1 ∧ f e.2 = some e'.2) v.entries r.entries := by
  have hread : ∀ (es : List (JsString × JsValue)) (rs : List (JsString × α)),
      es.mapM (fun e => (f e.2).map (fun a => (e.1, a))) = some rs ↔
        List.Forall₂ (fun e e' => e'.1 = e.1 ∧ f e.2 = some e'.2) es rs := by
    intro es
    induction es with
    | nil => intro rs; simp [eq_comm]
    | cons e es ih =>
      intro rs
      rw [mapM_cons_some]
      constructor
      · rintro ⟨e', rs', he, hes, rfl⟩
        obtain ⟨a, ha, rfl⟩ := Option.map_eq_some_iff.mp he
        exact .cons ⟨rfl, ha⟩ ((ih rs').mp hes)
      · intro hall
        cases hall with
        | @cons _ e' _ rs' he hes =>
          obtain ⟨hkey, ha⟩ := he
          exact ⟨e', rs', Option.map_eq_some_iff.mpr ⟨e'.2, ha, Prod.ext hkey.symm rfl⟩, (ih rs').mpr hes, rfl⟩
  by_cases hr : v.isRecord = true
  · rw [Reader.record, if_pos hr, Option.bind_eq_some_iff]
    constructor
    · rintro ⟨rs, hrs, hrecord⟩
      split at hrecord
      · cases hrecord
        exact ⟨hr, (hread _ _).mp hrs⟩
      · cases hrecord
    · rintro ⟨-, hall⟩
      exact ⟨r.entries, (hread _ _).mpr hall, dif_pos r.nodup⟩
  · rw [Reader.record, if_neg hr]
    simp [hr]

/-- What the record has under a key is what the reader makes of the property. -/
theorem own?_of_record {r : Record α} (h : Reader.record f v = some r)
    (key : JsString) : (∃ x, ownEntry key v.entries = some x ∧ f x = r.own? key ∧ (r.own? key).isSome = true) ∨
      (ownEntry key v.entries = none ∧ r.own? key = none) := by
  obtain ⟨-, hall⟩ := record_eq_some.mp h
  rw [Record.own?]
  generalize r.entries = rs at hall
  generalize v.entries = es at hall
  induction hall with
  | nil => exact .inr ⟨rfl, rfl⟩
  | @cons e e' es rs he hes ih =>
    obtain ⟨hkey, ha⟩ := he
    by_cases hk : e.1 = key
    · left
      exact ⟨e.2, by simp [ownEntry, hk], by simp [ownEntry, hkey, hk, ha], by simp [ownEntry, hkey, hk]⟩
    · simpa [ownEntry, hk, hkey] using ih

theorem exists_record (hr : v.isRecord = true) (hnd : (v.entries.map Prod.fst).Nodup)
    (hall : ∀ e ∈ v.entries, ∃ a, f e.2 = some a) : ∃ r, Reader.record f v = some r := by
  have hread : ∀ es : List (JsString × JsValue), (∀ e ∈ es, ∃ a, f e.2 = some a) →
      ∃ rs : List (JsString × α), List.Forall₂ (fun e e' => e'.1 = e.1 ∧ f e.2 = some e'.2) es rs ∧
        rs.map Prod.fst = es.map Prod.fst := by
    intro es
    induction es with
    | nil => exact fun _ => ⟨[], .nil, rfl⟩
    | cons e es ih =>
      intro hes
      obtain ⟨a, ha⟩ := hes e List.mem_cons_self
      obtain ⟨rs, hrs, hkeys⟩ := ih (fun e' he' => hes e' (List.mem_cons_of_mem e he'))
      exact ⟨(e.1, a) :: rs, .cons ⟨rfl, ha⟩ hrs, by rw [List.map_cons, List.map_cons, hkeys]⟩
  obtain ⟨rs, hrs, hkeys⟩ := hread v.entries hall
  exact ⟨⟨rs, hkeys ▸ hnd⟩, record_eq_some.mpr ⟨hr, hrs⟩⟩

theorem nodup_stored (h : IsValue v) : ((stored sourceText v).entries.map Prod.fst).Nodup := by
  rw [entries_stored, List.map_map]
  exact nodup_keyOrder h.nodup

theorem isRecord_stored (h : v.isRecord = true) : (stored sourceText v).isRecord = true := by
  cases v <;> first | rfl | cases h

theorem Reloads.ofRecord (hf : Reloads sourceText f f' W R k) :
    Reloads sourceText (Reader.ofRecord f) (Reader.ofRecord f') W R k where
  related {v a a'} hv h h' := by
    rw [Reader.ofRecord] at h h'
    split at h
    · rename_i hr
      rw [if_pos (isRecord_stored hr)] at h'
      exact hf.related hv h h'
    · cases h
  kept_iff {v a} hv h := by
    rw [Reader.ofRecord] at h
    split at h
    · rename_i hr
      rw [Reader.ofRecord, if_pos (isRecord_stored hr)]
      exact hf.kept_iff hv h
    · cases h

/-- The values under one key, read before and after. -/
theorem own?_stored (hv : IsValue v) {r : Record α} {r' : Record β} {f : Reader α} {f' : Reader β}
    (h : Reader.record f v = some r) (h' : Reader.record f' (stored sourceText v) = some r') {key : JsString}
    (hkey : key ≠ protoKey) : (∃ x a a', ownEntry key v.entries = some x ∧ IsValue x ∧ f x = some a ∧
      f' (stored sourceText x) = some a' ∧ r.own? key = some a ∧ r'.own? key = some a') ∨
        (ownEntry key v.entries = none ∧ r.own? key = none ∧ r'.own? key = none) := by
  have hown := @ownEntry_stored sourceText _ hv key
  rw [if_neg hkey] at hown
  rcases own?_of_record h key with ⟨x, hx, hfx, hsome⟩ | ⟨hx, hnone⟩
  · left
    obtain ⟨a, ha⟩ := Option.isSome_iff_exists.mp hsome
    rw [hx, Option.map_some] at hown
    rcases own?_of_record h' key with ⟨y, hy, hfy, hsome'⟩ | ⟨hy, -⟩
    · obtain ⟨a', ha'⟩ := Option.isSome_iff_exists.mp hsome'
      rw [hown] at hy
      cases hy
      exact ⟨x, a, a', hx, hv.entry (ownEntry_mem hx), hfx.trans ha, hfy.trans ha', ha, ha'⟩
    · rw [hown] at hy
      cases hy
  · right
    rw [hx, Option.map_none] at hown
    rcases own?_of_record h' key with ⟨y, hy, -, -⟩ | ⟨-, hnone'⟩
    · rw [hown] at hy
      cases hy
    · exact ⟨hx, hnone, hnone'⟩

theorem own?_proto_stored (hv : IsValue v) {r' : Record α} (h' : Reader.record f' (stored sourceText v) = some r') :
    r'.own? protoKey = none := by
  have hown := @ownEntry_stored sourceText _ hv protoKey
  rw [if_pos rfl] at hown
  rcases own?_of_record h' protoKey with ⟨y, hy, -, -⟩ | ⟨-, hnone⟩
  · rw [hown] at hy
    cases hy
  · exact hnone

theorem Reloads.record (hf : Reloads sourceText f f' W R k) :
    Reloads sourceText (Reader.record f) (Reader.record f') (ButProto W) (ButProto R) (Each k) where
  related {v r r'} hv h h' := by
    refine ⟨fun key hkey => ?_, own?_proto_stored hv h'⟩
    rcases own?_stored hv h h' hkey with ⟨x, a, a', -, hx, ha, ha', hr, hr'⟩ | ⟨-, hr, hr'⟩
    · rw [hr, hr']
      exact .some (hf.related hx ha ha')
    · rw [hr, hr']
      exact .none
  kept_iff {v r} hv h := by
    constructor
    · rintro ⟨r', h', hrel⟩ key x hkey hx
      rcases own?_stored hv h h' hkey with ⟨y, a, a', hy, hyv, ha, ha', hr, hr'⟩ | ⟨hnone, -, -⟩
      · rw [hx] at hy
        cases hy
        have hR := hrel.own key hkey
        rw [hr, hr'] at hR
        cases hR with
        | some hR => exact (hf.kept_iff hyv ha).mp ⟨a', ha', hR⟩
      · rw [hx] at hnone
        cases hnone
    · intro hkept
      have hread : ∀ e ∈ v.entries, ∃ a, f e.2 = some a := by
        intro e he
        rcases own?_of_record h e.1 with ⟨x, hx, hfx, hsome⟩ | ⟨hnone, -⟩
        · obtain ⟨a, ha⟩ := Option.isSome_iff_exists.mp hsome
          have hsame : x = e.2 := Option.some.inj (hx.symm.trans (ownEntry_of_mem hv.nodup he))
          exact ⟨a, hsame ▸ hfx.trans ha⟩
        · rw [ownEntry_of_mem hv.nodup he] at hnone
          cases hnone
      have hkeep : ∀ key x a, key ≠ protoKey → ownEntry key v.entries = some x → f x = some a →
          ∃ a', f' (stored sourceText x) = some a' ∧ R a a' := by
        intro key x a hkey hx ha
        exact (hf.kept_iff (hv.entry (ownEntry_mem hx)) ha).mpr (hkept key x hkey hx)
      have hall : ∀ e ∈ (stored sourceText v).entries, ∃ a', f' e.2 = some a' := by
        intro e he
        rw [entries_stored] at he
        obtain ⟨e', he', rfl⟩ := List.mem_map.mp he
        obtain ⟨hmem, hproto⟩ := mem_keyOrder.mp he'
        obtain ⟨a, ha⟩ := hread e' hmem
        obtain ⟨a', ha', -⟩ := hkeep e'.1 e'.2 a hproto (ownEntry_of_mem hv.nodup hmem) ha
        exact ⟨a', ha'⟩
      obtain ⟨r', h'⟩ := exists_record (isRecord_stored (record_eq_some.mp h).1) (nodup_stored hv) hall
      refine ⟨r', h', fun key hkey => ?_, own?_proto_stored hv h'⟩
      rcases own?_stored hv h h' hkey with ⟨x, a, a', hx, -, ha, ha', hr, hr'⟩ | ⟨-, hr, hr'⟩
      · obtain ⟨a'', ha'', hR⟩ := hkeep key x a hkey hx ha
        rw [hr, hr', Option.some.inj (ha'.symm.trans ha'')]
        exact .some hR
      · rw [hr, hr']
        exact .none

/-- A bigint out of what the file has for it. -/
def Reader.viaBigInt (f : Reader α) : Reader α := fun x => (parseBigIntLike x).toOption.bind (fun z => f (.bigint z))

/-- A map whose values are read as bigints first. -/
def Reader.bigInts (f : Reader α) : Reader (Record α) := fun x => (mapRecordBigInt x).toOption.bind (Reader.record f)

/-- Parsing the values and reading the bigints is reading every value through its bigint. -/
theorem forall₂_viaBigInt {zs : List (JsString × ℤ)} {rs : List (JsString × α)}
    (h : List.Forall₂ (fun e z => z.1 = e.1 ∧ parseBigIntLike e.2 = .ok z.2) es zs) :
    List.Forall₂ (fun e e' => e'.1 = e.1 ∧ f e.2 = some e'.2) (zs.map (fun z => (z.1, JsValue.bigint z.2))) rs ↔
      List.Forall₂ (fun e e' => e'.1 = e.1 ∧ Reader.viaBigInt f e.2 = some e'.2) es rs := by
  induction h generalizing rs with
  | nil => cases rs <;> simp
  | @cons e z es zs hez hrest ih =>
    obtain ⟨hkey, hparse⟩ := hez
    have hvia : Reader.viaBigInt f e.2 = f (.bigint z.2) := by
      rw [Reader.viaBigInt, hparse]
      rfl
    cases rs with
    | nil => simp
    | cons r rs => rw [List.map_cons, List.forall₂_cons, List.forall₂_cons, ih, hkey, hvia]

theorem forall₂_of_mapM {es : List (JsString × JsValue)} {out : List (JsString × JsValue)}
    (h : es.mapM (fun e => (parseBigIntLike e.2).map (fun z => (e.1, JsValue.bigint z))) = .ok out) :
    ∃ zs : List (JsString × ℤ), out = zs.map (fun z => (z.1, JsValue.bigint z.2)) ∧
      List.Forall₂ (fun e z => z.1 = e.1 ∧ parseBigIntLike e.2 = .ok z.2) es zs := by
  induction es generalizing out with
  | nil =>
    cases h
    exact ⟨[], rfl, .nil⟩
  | cons e es ih =>
    obtain ⟨o, outs, ho, houts, rfl⟩ := mapM_cons_ok.mp h
    obtain ⟨z, hz, rfl⟩ := map_eq_ok.mp ho
    obtain ⟨zs, rfl, hzs⟩ := ih houts
    exact ⟨(e.1, z) :: zs, rfl, .cons ⟨rfl, hz⟩ hzs⟩

theorem mapM_of_viaBigInt {rs : List (JsString × α)}
    (h : List.Forall₂ (fun e e' => e'.1 = e.1 ∧ Reader.viaBigInt f e.2 = some e'.2) es rs) :
    ∃ out, es.mapM (fun e => (parseBigIntLike e.2).map (fun z => (e.1, JsValue.bigint z))) = .ok out := by
  apply mapM_returns.mpr
  induction h with
  | nil => exact nofun
  | @cons e e' es rs he hes ih =>
    refine List.forall_mem_cons.mpr ⟨?_, ih⟩
    have hvia := he.2
    rw [Reader.viaBigInt] at hvia
    cases hparse : parseBigIntLike e.2 with
    | error err =>
      rw [hparse] at hvia
      cases hvia
    | ok z => exact ⟨_, rfl⟩

/-- Without `__proto__` no property is dropped. -/
theorem bigInts_eq_some {r : Record α} (hr : v.isRecord = true) (hnd : (v.entries.map Prod.fst).Nodup)
    (hproto : ∀ e ∈ v.entries, e.1 ≠ protoKey) :
    Reader.bigInts f v = some r ↔ Reader.record (Reader.viaBigInt f) v = some r := by
  have hown : ownProperties v = v.entries := by
    cases v <;> first | rfl | cases hr
  have hlist : ∀ zs : List (JsString × ℤ),
      List.Forall₂ (fun e z => z.1 = e.1 ∧ parseBigIntLike e.2 = .ok z.2) v.entries zs →
        (Reader.record f (.obj ((zs.map (fun z => (z.1, JsValue.bigint z.2))).filter (fun e => e.1 ≠ protoKey))) = some r ↔
          Reader.record (Reader.viaBigInt f) v = some r) := by
    intro zs hzs
    have hkeys : (zs.map (fun z => (z.1, JsValue.bigint z.2))).map Prod.fst = v.entries.map Prod.fst := by
      have hsame : zs.map Prod.fst = v.entries.map Prod.fst := by
        clear hproto hnd hown
        generalize v.entries = es at hzs
        induction hzs with
        | nil => rfl
        | cons hez _ ih => rw [List.map_cons, List.map_cons, ih, hez.1]
      rw [← hsame, List.map_map]
      rfl
    have hfilter : (zs.map (fun z => (z.1, JsValue.bigint z.2))).filter (fun e => e.1 ≠ protoKey) =
        zs.map (fun z => (z.1, JsValue.bigint z.2)) := by
      apply List.filter_eq_self.mpr
      intro e he
      have hmem : e.1 ∈ v.entries.map Prod.fst := hkeys ▸ List.mem_map_of_mem he
      obtain ⟨e', he', hsame⟩ := List.mem_map.mp hmem
      simpa using hsame ▸ hproto e' he'
    rw [hfilter, record_eq_some, record_eq_some, and_iff_right hr]
    exact (and_iff_right rfl).trans (forall₂_viaBigInt hzs)
  rw [Reader.bigInts, mapRecordBigInt, hown]
  constructor
  · intro h
    obtain ⟨y, hy, hread⟩ := Option.bind_eq_some_iff.mp h
    cases hout : v.entries.mapM (fun e => (parseBigIntLike e.2).map (fun z => (e.1, JsValue.bigint z))) with
    | error err =>
      rw [hout] at hy
      cases hy
    | ok out =>
      obtain ⟨zs, rfl, hzs⟩ := forall₂_of_mapM hout
      rw [hout] at hy
      cases hy
      exact (hlist zs hzs).mp hread
  · intro h
    obtain ⟨out, hout⟩ := mapM_of_viaBigInt (record_eq_some.mp h).2
    obtain ⟨zs, rfl, hzs⟩ := forall₂_of_mapM hout
    rw [hout]
    exact (hlist zs hzs).mpr h

theorem Reloads.bigInts (hf : Reloads sourceText f (Reader.viaBigInt f') W R k) :
    Reloads sourceText (Reader.record f) (Reader.bigInts f') (ButProto W) (ButProto R) (Each k) := by
  have hrecord := hf.record
  have hsame : ∀ {v : JsValue} {r : Record α} {r' : Record α}, IsValue v → Reader.record f v = some r →
      (Reader.bigInts f' (stored sourceText v) = some r' ↔
        Reader.record (Reader.viaBigInt f') (stored sourceText v) = some r') := by
    intro v r r' hv h
    apply bigInts_eq_some (isRecord_stored (record_eq_some.mp h).1) (nodup_stored hv)
    intro e he
    rw [entries_stored] at he
    obtain ⟨e', he', rfl⟩ := List.mem_map.mp he
    exact (mem_keyOrder.mp he').2
  constructor
  · intro v r r' hv h h'
    exact hrecord.related hv h ((hsame hv h).mp h')
  · intro v r hv h
    simp only [hsame hv h]
    exact hrecord.kept_iff hv h

theorem reloads_amount : Reloads sourceText Reader.amount (Reader.viaBigInt Reader.amount) (· = ·) (· = ·)
    (fun _ => True) where
  related {v a a'} _ h h' := by
    cases v with
    | bigint z =>
      cases h
      rw [Reader.viaBigInt, parseBigIntLike_stored] at h'
      exact Option.some.inj h'
    | _ => cases h
  kept_iff {v a} _ h := by
    cases v with
    | bigint z =>
      cases h
      rw [Reader.viaBigInt, parseBigIntLike_stored]
      exact ⟨fun _ => trivial, fun _ => ⟨_, rfl, rfl⟩⟩
    | _ => cases h

/-- An undefined cap is no bigint. -/
theorem reloads_cap : Reloads sourceText (Reader.optional Reader.amount) (Reader.viaBigInt (Reader.optional Reader.amount))
    (· = ·) (· = ·) (fun v => v ≠ .undefined) where
  related {v a a'} _ h h' := by
    cases v with
    | bigint z =>
      cases h
      rw [Reader.viaBigInt, parseBigIntLike_stored] at h'
      exact Option.some.inj h'
    | undefined =>
      rw [Reader.viaBigInt, parseBigIntLike_undefined] at h'
      cases h'
    | _ => cases h
  kept_iff {v a} _ h := by
    cases v with
    | bigint z =>
      cases h
      rw [Reader.viaBigInt, parseBigIntLike_stored]
      exact ⟨nofun, fun _ => ⟨_, rfl, rfl⟩⟩
    | undefined =>
      rw [Reader.viaBigInt, parseBigIntLike_undefined]
      constructor
      · rintro ⟨a', ha', -⟩
        cases ha'
      · intro hne
        exact absurd rfl hne
    | _ => cases h

end

end OxDeAI
