import OxDeAI.Js.JsonRoundTrip
import OxDeAI.Js.SameRecord

/-! JSON values that are equal whatever the order of their members, and what is left to
tell when an order of the members is chosen in every object. -/

namespace Js

/-- Equal as JSON values: the order of the members does not count. -/
inductive JsonEq : JsValue → JsValue → Prop
  | same (v : JsValue) : JsonEq v v
  | arr {xs ys : List JsValue} (hlength : xs.length = ys.length)
      (h : ∀ (i : ℕ) x y, xs[i]? = some x → ys[i]? = some y → JsonEq x y) : JsonEq (.arr xs) (.arr ys)
  | obj {es fs : List (JsString × JsValue)} (hkeys : ∀ k, k ∈ es.map Prod.fst ↔ k ∈ fs.map Prod.fst)
      (h : ∀ k v w, ownEntry k es = some v → ownEntry k fs = some w → JsonEq v w) : JsonEq (.obj es) (.obj fs)

section

variable (order : List (JsString × JsValue) → List (JsString × JsValue))

mutual

/-- Every object of a value with its members in the given order. -/
def arranged : JsValue → JsValue
  | .arr xs => .arr (arrangedElements xs)
  | .obj es => .obj (order (arrangedMembers es))
  | .instance es => .instance (order (arrangedMembers es))
  | v => v

def arrangedElements : List JsValue → List JsValue
  | [] => []
  | x :: xs => arranged x :: arrangedElements xs

def arrangedMembers : List (JsString × JsValue) → List (JsString × JsValue)
  | [] => []
  | (k, v) :: es => (k, arranged v) :: arrangedMembers es

end

variable {order}

theorem arrangedElements_eq_map (xs : List JsValue) : arrangedElements order xs = xs.map (arranged order) := by
  induction xs with
  | nil => rfl
  | cons x xs ih => rw [arrangedElements, ih, List.map_cons]

theorem arrangedMembers_eq_map (es : List (JsString × JsValue)) :
    arrangedMembers order es = es.map (fun e => (e.1, arranged order e.2)) := by
  induction es with
  | nil => rfl
  | cons e es ih => rw [arrangedMembers, ih, List.map_cons]

theorem arranged_arr (xs : List JsValue) : arranged order (.arr xs) = .arr (xs.map (arranged order)) := by
  rw [arranged, arrangedElements_eq_map]

theorem arranged_obj (es : List (JsString × JsValue)) :
    arranged order (.obj es) = .obj (order (es.map (fun e => (e.1, arranged order e.2)))) := by
  rw [arranged, arrangedMembers_eq_map]

theorem nodup_arranged {es : List (JsString × JsValue)} (h : (es.map Prod.fst).Nodup) :
    ((es.map (fun e => (e.1, arranged order e.2))).map Prod.fst).Nodup := by
  simpa [List.map_map, Function.comp_def] using h

variable {N : JsNumber → Prop} {v w : JsValue}

/-- An order of the members drops none and adds none. -/
def Permutes (order : List (JsString × JsValue) → List (JsString × JsValue)) : Prop := ∀ es, (order es).Perm es

theorem JsonOver.arranged (hperm : Permutes order) (h : JsonOver N v) : JsonOver N (arranged order v) := by
  induction h with
  | null => exact .null
  | bool b => exact .bool b
  | str s => exact .str s
  | num hx => exact .num hx
  | arr _ ih =>
    rw [arranged_arr]
    refine .arr fun x hx => ?_
    obtain ⟨y, hy, rfl⟩ := List.mem_map.mp hx
    exact ih y hy
  | @obj es hnd _ ih =>
    rw [arranged_obj]
    refine .obj (((hperm _).map Prod.fst).nodup_iff.mpr (nodup_arranged hnd)) fun e he => ?_
    obtain ⟨f, hf, rfl⟩ := List.mem_map.mp ((hperm _).mem_iff.mp he)
    exact ih f hf

/-- Members that are permuted to one list belong to the same keys. -/
theorem ownEntry_of_arranged (hperm : Permutes order) {es fs : List (JsString × JsValue)} (hes : (es.map Prod.fst).Nodup)
    (heq : order (es.map (fun e => (e.1, Js.arranged order e.2))) = order (fs.map (fun e => (e.1, Js.arranged order e.2))))
    (k : JsString) : (ownEntry k es).map (Js.arranged order) = (ownEntry k fs).map (Js.arranged order) := by
  have hp := ((hperm (es.map (fun e => (e.1, Js.arranged order e.2)))).symm.trans (List.Perm.of_eq heq)).trans (hperm _)
  have hown := ownEntry_perm hp (nodup_arranged hes) k
  rwa [ownEntry_map, ownEntry_map] at hown

theorem jsonEq_obj {es fs : List (JsString × JsValue)} : JsonEq (.obj es) (.obj fs) ↔
    (∀ k, k ∈ es.map Prod.fst ↔ k ∈ fs.map Prod.fst) ∧
      ∀ k v w, ownEntry k es = some v → ownEntry k fs = some w → JsonEq v w := by
  constructor
  · intro h
    cases h with
    | same =>
      refine ⟨fun k => Iff.rfl, fun k v w hv hw => ?_⟩
      rw [hv, Option.some.injEq] at hw
      exact hw ▸ .same v
    | obj hkeys h => exact ⟨hkeys, h⟩
  · exact fun h => .obj h.1 h.2

/-- What two lists have under every key is the same up to a map that forgets some. -/
theorem ownEntry_map_eq_iff {β : Type} {es fs : List (JsString × JsValue)} {f : JsValue → β} :
    (∀ k, (ownEntry k es).map f = (ownEntry k fs).map f) ↔ (∀ k, k ∈ es.map Prod.fst ↔ k ∈ fs.map Prod.fst) ∧
      ∀ k v w, ownEntry k es = some v → ownEntry k fs = some w → f v = f w := by
  constructor
  · refine fun h => ⟨fun k => ?_, fun k v w hv hw => ?_⟩
    · rw [← ownEntry_isSome, ← ownEntry_isSome, ← Option.isSome_map (f := f), h k, Option.isSome_map]
    · have hk := h k
      rwa [hv, hw, Option.map_some, Option.map_some, Option.some.injEq] at hk
  · rintro ⟨hkeys, h⟩ k
    cases hx : ownEntry k es with
    | none =>
      have hnone : ownEntry k fs = none := by
        rw [ownEntry_eq_none] at hx ⊢
        exact fun hk => hx ((hkeys k).mpr hk)
      rw [hnone]
    | some x =>
      have hk : k ∈ es.map Prod.fst := ownEntry_isSome.mp (by rw [hx]; rfl)
      obtain ⟨y, hy⟩ := Option.isSome_iff_exists.mp (ownEntry_isSome.mpr ((hkeys k).mp hk))
      rw [hy, Option.map_some, Option.map_some, h k x y hx hy]

/-- In whatever order, the members tell the value. -/
theorem jsonEq_of_arranged (hperm : Permutes order) (hv : JsonOver N v) (hw : JsonOver N w)
    (heq : Js.arranged order v = Js.arranged order w) : JsonEq v w := by
  induction hv generalizing w with
  | null =>
    cases hw <;> simp [Js.arranged] at heq
    exact .same _
  | bool b =>
    cases hw <;> simp [Js.arranged] at heq
    exact heq ▸ .same _
  | str s =>
    cases hw <;> simp [Js.arranged] at heq
    exact heq ▸ .same _
  | num hx =>
    cases hw <;> simp [Js.arranged] at heq
    exact heq ▸ .same _
  | @arr xs hxs ih =>
    cases hw with
    | @arr ys hys =>
      rw [arranged_arr, arranged_arr, JsValue.arr.injEq] at heq
      have hlength : xs.length = ys.length := by simpa using congrArg List.length heq
      refine .arr hlength fun i x y hx hy => ?_
      have hi := congrArg (fun l : List JsValue => l[i]?) heq
      simp only [List.getElem?_map, hx, hy, Option.map_some, Option.some.injEq] at hi
      exact ih x (List.mem_of_getElem? hx) (hys y (List.mem_of_getElem? hy)) hi
    | _ => simp [Js.arranged] at heq
  | @obj es hnd hes ih =>
    cases hw with
    | @obj fs hnd' hfs =>
      rw [arranged_obj, arranged_obj, JsValue.obj.injEq] at heq
      obtain ⟨hkeys, hmembers⟩ := ownEntry_map_eq_iff.mp (ownEntry_of_arranged hperm hnd heq)
      refine .obj hkeys fun k v w hv hw => ?_
      exact ih (k, v) (ownEntry_mem hv) (hfs (k, w) (ownEntry_mem hw)) (hmembers k v w hv hw)
    | _ => simp [Js.arranged] at heq

/-- The members of two lists agree under every key. -/
theorem perm_of_ownEntry {es fs : List (JsString × JsValue)} (hes : (es.map Prod.fst).Nodup) (hfs : (fs.map Prod.fst).Nodup)
    (h : ∀ k, ownEntry k es = ownEntry k fs) : es.Perm fs := by
  have hsame : SameRecord (· = ·) (⟨es, hes⟩ : Record JsValue) ⟨fs, hfs⟩ := fun k => rel_eq.mpr (h k)
  exact hsame.entries_perm

/-- An order that looks at the keys alone forgets the order there was. -/
theorem arranged_of_jsonEq (horder : ∀ {es fs : List (JsString × JsValue)}, (es.map Prod.fst).Nodup → es.Perm fs →
    order es = order fs) (hv : JsonOver N v) (hw : JsonOver N w) (h : JsonEq v w) : Js.arranged order v = Js.arranged order w := by
  induction h with
  | same v => rfl
  | @arr xs ys hlength _ ih =>
    cases hv with
    | arr hxs =>
      cases hw with
      | arr hys =>
        rw [arranged_arr, arranged_arr]
        congr 1
        refine List.ext_getElem? fun i => ?_
        rw [List.getElem?_map, List.getElem?_map]
        rcases Nat.lt_or_ge i xs.length with hi | hi
        · have hx := List.getElem?_eq_getElem hi
          have hy := List.getElem?_eq_getElem (hlength ▸ hi)
          rw [hx, hy, Option.map_some, Option.map_some,
            ih i _ _ hx hy (hxs _ (List.mem_of_getElem? hx)) (hys _ (List.mem_of_getElem? hy))]
        · rw [List.getElem?_eq_none hi, List.getElem?_eq_none (hlength ▸ hi)]
  | @obj es fs hkeys _ ih =>
    cases hv with
    | obj hnd hes =>
      cases hw with
      | obj hnd' hfs =>
        rw [arranged_obj, arranged_obj]
        congr 1
        refine horder (nodup_arranged hnd) (perm_of_ownEntry (nodup_arranged hnd) (nodup_arranged hnd') fun k => ?_)
        rw [ownEntry_map, ownEntry_map]
        refine ownEntry_map_eq_iff.mpr ⟨hkeys, fun k x y hx hy => ?_⟩ k
        exact ih k x y hx hy (hes _ (ownEntry_mem hx)) (hfs _ (ownEntry_mem hy))

/-- Arranging anew forgets an arrangement. -/
theorem arranged_arranged {order' : List (JsString × JsValue) → List (JsString × JsValue)} (hperm : Permutes order')
    (horder : ∀ {es fs : List (JsString × JsValue)}, (es.map Prod.fst).Nodup → es.Perm fs → order es = order fs)
    (hv : JsonOver N v) : Js.arranged order (Js.arranged order' v) = Js.arranged order v := by
  induction hv with
  | null => rfl
  | bool b => rfl
  | str s => rfl
  | num hx => rfl
  | @arr xs _ ih =>
    rw [arranged_arr, arranged_arr, arranged_arr, List.map_map]
    congr 1
    exact List.map_congr_left ih
  | @obj es hnd _ ih =>
    rw [arranged_obj, arranged_obj, arranged_obj]
    congr 1
    have hinner : (es.map (fun e => (e.1, Js.arranged order' e.2))).map (fun e => (e.1, Js.arranged order e.2)) =
        es.map (fun e => (e.1, Js.arranged order e.2)) := by
      rw [List.map_map]
      exact List.map_congr_left fun e he => Prod.ext rfl (ih e he)
    have hp := (hperm (es.map (fun e => (e.1, Js.arranged order' e.2)))).map (fun e => (e.1, Js.arranged order e.2))
    rw [hinner] at hp
    exact (horder (nodup_arranged hnd) hp.symm).symm

end

end Js
