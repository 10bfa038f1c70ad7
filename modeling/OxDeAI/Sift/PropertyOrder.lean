import OxDeAI.Js.JsonEq
import OxDeAI.Lib.StableSort
import OxDeAI.Sift.KeyOrders

/-! The enumeration of own properties: it depends on the array indices as a set and on
the order of the others alone, and survives a write. -/

namespace OxDeAI

open Js

variable {β : Type} {es fs : List (JsString × β)}

theorem perm_propertyOrder (es : List (JsString × β)) : (propertyOrder es).Perm es := by
  have hsplit := List.filter_append_perm (fun e : JsString × β => (arrayIndex? e.1).isSome) es
  refine ((List.perm_insertionSort _ _).append_right _).trans (List.Perm.trans ?_ hsplit)
  simp

theorem mem_propertyOrder {e : JsString × β} : e ∈ propertyOrder es ↔ e ∈ es := (perm_propertyOrder es).mem_iff

theorem nodup_propertyOrder (h : (es.map Prod.fst).Nodup) : ((propertyOrder es).map Prod.fst).Nodup :=
  ((perm_propertyOrder es).map Prod.fst).nodup_iff.mpr h

/-- The names that are no array indices keep their order. -/
theorem propertyOrder_others (es : List (JsString × β)) :
    (propertyOrder es).filter (fun e => (arrayIndex? e.1).isNone) = es.filter (fun e => (arrayIndex? e.1).isNone) := by
  rw [propertyOrder, List.filter_append, List.filter_filter]
  have hindices : ((es.filter (fun e => (arrayIndex? e.1).isSome)).insertionSort
      (fun a b => (arrayIndex? a.1).getD 0 ≤ (arrayIndex? b.1).getD 0)).filter (fun e => (arrayIndex? e.1).isNone) = [] := by
    rw [List.filter_eq_nil_iff]
    intro e he
    have hindex := (List.mem_filter.mp ((List.mem_insertionSort _).mp he)).2
    simpa using Option.isSome_iff_ne_none.mp hindex
  rw [hindices, List.nil_append]
  exact List.filter_congr fun e _ => by simp

theorem propertyOrder_congr (hp : es.Perm fs) (hnodup : (es.map Prod.fst).Nodup)
    (hothers : es.filter (fun e => (arrayIndex? e.1).isNone) = fs.filter (fun e => (arrayIndex? e.1).isNone)) :
    propertyOrder es = propertyOrder fs := by
  rw [propertyOrder, propertyOrder, hothers]
  congr 1
  refine StableSort.insertionSort_eq_of_perm ⟨fun a _ b _ => le_total _ _, fun a _ b _ c _ => le_trans⟩ (hp.filter _) ?_
  intro a ha b hb hab hba
  obtain ⟨ha, hia⟩ := List.mem_filter.mp ha
  obtain ⟨hb, hib⟩ := List.mem_filter.mp hb
  obtain ⟨i, hi⟩ := Option.isSome_iff_exists.mp hia
  obtain ⟨j, hj⟩ := Option.isSome_iff_exists.mp hib
  simp only [hi, hj, Option.getD_some] at hab hba
  obtain rfl : i = j := le_antisymm hab hba
  exact List.inj_on_of_nodup_map hnodup ha hb (arrayIndex?_inj hi hj)

theorem propertyOrder_propertyOrder (h : (es.map Prod.fst).Nodup) : propertyOrder (propertyOrder es) = propertyOrder es :=
  propertyOrder_congr (perm_propertyOrder es) (nodup_propertyOrder h) (propertyOrder_others es)

/-- The values do not matter. -/
theorem propertyOrder_map {γ : Type} (f : JsString × β → γ) (es : List (JsString × β)) :
    propertyOrder (es.map (fun e => (e.1, f e))) = (propertyOrder es).map (fun e => (e.1, f e)) := by
  rw [propertyOrder, propertyOrder, List.map_append, List.filter_map, List.filter_map,
    ← List.map_insertionSort (f := fun e : JsString × β => (e.1, f e)) _ _ _ fun a _ b _ => Iff.rfl]
  rfl

theorem filter_setEntry (p : JsString → Bool) (k : JsString) (v : β) (es : List (JsString × β)) :
    (setEntry k v es).filter (fun e => p e.1) =
      if p k then setEntry k v (es.filter (fun e => p e.1)) else es.filter (fun e => p e.1) := by
  induction es with
  | nil => cases hp : p k <;> simp [setEntry, hp]
  | cons e es ih =>
    by_cases he : e.1 = k
    · subst he
      cases hp : p e.1 <;> simp [setEntry, hp]
    · cases hk : p k <;> cases hp : p e.1 <;> simp_all [setEntry]

/-- Without the old value, the new one stands anywhere. -/
theorem perm_setEntry {k : JsString} {v : β} (h : (es.map Prod.fst).Nodup) :
    (setEntry k v es).Perm ((k, v) :: es.filter (fun e => e.1 ≠ k)) := by
  induction es with
  | nil => exact .refl _
  | cons e es ih =>
    rw [List.map_cons, List.nodup_cons] at h
    by_cases he : e.1 = k
    · have hrest : es.filter (fun e => e.1 ≠ k) = es := by
        refine List.filter_eq_self.mpr fun f hf => ?_
        have hne : f.1 ≠ k := fun hfk => h.1 (he ▸ hfk ▸ List.mem_map_of_mem hf)
        simpa using hne
      simp only [setEntry, he, if_true]
      rw [List.filter_cons_of_neg (by simpa using he), hrest]
    · simp only [setEntry, he, if_false]
      rw [List.filter_cons_of_pos (by simpa using he)]
      exact ((ih h.2).cons e).trans (.swap _ _ _)

/-- It does not matter whether a property is written before or after the others are
put in order. -/
theorem propertyOrder_setEntry {k : JsString} {v : β} (h : (es.map Prod.fst).Nodup) :
    propertyOrder (setEntry k v (propertyOrder es)) = propertyOrder (setEntry k v es) := by
  have hordered := nodup_propertyOrder h
  refine propertyOrder_congr ?_ ?_ ?_
  · refine (perm_setEntry hordered).trans (List.Perm.trans ?_ (perm_setEntry h).symm)
    exact ((perm_propertyOrder es).filter _).cons _
  · rw [keys_setEntry]
    split
    · exact hordered
    · rename_i hk
      refine List.nodup_append.mpr ⟨hordered, List.nodup_singleton k, ?_⟩
      rintro a ha b hb rfl
      exact hk (List.mem_singleton.mp hb ▸ ha)
  · rw [filter_setEntry (fun key => (arrayIndex? key).isNone), filter_setEntry (fun key => (arrayIndex? key).isNone),
      propertyOrder_others]

/-- Sorting before the enumeration forgets the order of creation. -/
theorem siftOrder_eq_iff (h : (es.map Prod.fst).Nodup) : siftOrder es = siftOrder fs ↔ es.Perm fs := by
  constructor
  · exact fun heq => ((perm_siftOrder es).symm.trans (List.Perm.of_eq heq)).trans (perm_siftOrder fs)
  · intro hp
    have hsorted : sortedByUnits es = sortedByUnits fs := by
      refine StableSort.insertionSort_eq_of_perm ⟨fun a _ b _ => le_total _ _, fun a _ b _ c _ => le_trans⟩ hp ?_
      exact fun a ha b hb hab hba => List.inj_on_of_nodup_map h ha hb (le_antisymm hab hba)
    rw [siftOrder, siftOrder, hsorted]

/-- A value whose objects list their own properties as they are enumerated. -/
def enumerated (v : JsValue) : JsValue := arranged propertyOrder v

/-- Objects that stand in the same place enumerate their keys in the same order. -/
inductive SameKeyOrder : JsValue → JsValue → Prop
  | leaf {v w : JsValue} (harr : ∀ xs, v ≠ .arr xs) (hobj : ∀ es, v ≠ .obj es) : SameKeyOrder v w
  | arr {xs ys : List JsValue} (h : ∀ (i : ℕ) x y, xs[i]? = some x → ys[i]? = some y → SameKeyOrder x y) :
      SameKeyOrder (.arr xs) (.arr ys)
  | obj {es fs : List (JsString × JsValue)} (hkeys : (propertyOrder es).map Prod.fst = (propertyOrder fs).map Prod.fst)
      (h : ∀ k v w, ownEntry k es = some v → ownEntry k fs = some w → SameKeyOrder v w) : SameKeyOrder (.obj es) (.obj fs)

theorem eq_of_keys {es fs : List (JsString × β)} (hes : (es.map Prod.fst).Nodup) (hkeys : es.map Prod.fst = fs.map Prod.fst)
    (h : ∀ k, ownEntry k es = ownEntry k fs) : es = fs := by
  have hfs : (fs.map Prod.fst).Nodup := hkeys ▸ hes
  have hlength : es.length = fs.length := by simpa using congrArg List.length hkeys
  refine List.ext_getElem hlength fun i hi hj => ?_
  have hkey : es[i].1 = fs[i].1 := by
    have hi' := congrArg (fun l : List JsString => l[i]?) hkeys
    simpa [List.getElem?_eq_getElem hi, List.getElem?_eq_getElem hj] using hi'
  have hvalue := h es[i].1
  have hx : ownEntry es[i].1 es = some es[i].2 := ownEntry_of_mem hes (List.getElem_mem hi)
  have hy : ownEntry fs[i].1 fs = some fs[i].2 := ownEntry_of_mem hfs (List.getElem_mem hj)
  rw [hx, hkey, hy, Option.some.injEq] at hvalue
  exact Prod.ext hkey hvalue

theorem keys_enumerated (es : List (JsString × JsValue)) :
    (propertyOrder (es.map (fun e => (e.1, enumerated e.2)))).map Prod.fst = (propertyOrder es).map Prod.fst := by
  rw [propertyOrder_map (fun e => enumerated e.2), List.map_map]
  rfl

theorem ownEntry_propertyOrder {es : List (JsString × β)} (h : (es.map Prod.fst).Nodup) (k : JsString) :
    ownEntry k (propertyOrder es) = ownEntry k es :=
  ownEntry_perm (perm_propertyOrder es) (nodup_propertyOrder h) k

section

variable {N : JsNumber → Prop} {v w : JsValue}

theorem sameKeyOrder_of_enumerated (hv : JsonOver N v) (hw : JsonOver N w) (heq : enumerated v = enumerated w) :
    SameKeyOrder v w := by
  induction hv generalizing w with
  | null => exact .leaf nofun nofun
  | bool b => exact .leaf nofun nofun
  | str s => exact .leaf nofun nofun
  | num hx => exact .leaf nofun nofun
  | @arr xs hxs ih =>
    cases hw with
    | @arr ys hys =>
      rw [enumerated, enumerated, arranged_arr, arranged_arr, JsValue.arr.injEq] at heq
      refine .arr fun i x y hx hy => ?_
      have hi := congrArg (fun l : List JsValue => l[i]?) heq
      simp only [List.getElem?_map, hx, hy, Option.map_some, Option.some.injEq] at hi
      exact ih x (List.mem_of_getElem? hx) (hys y (List.mem_of_getElem? hy)) hi
    | _ => simp [enumerated, arranged] at heq
  | @obj es hnd hes ih =>
    cases hw with
    | @obj fs hnd' hfs =>
      rw [enumerated, enumerated, arranged_obj, arranged_obj, JsValue.obj.injEq] at heq
      have hkeys := congrArg (List.map Prod.fst) heq
      obtain ⟨-, hmembers⟩ := ownEntry_map_eq_iff.mp (ownEntry_of_arranged perm_propertyOrder hnd heq)
      refine .obj ((keys_enumerated es).symm.trans (hkeys.trans (keys_enumerated fs))) fun k v w hv hw => ?_
      exact ih (k, v) (ownEntry_mem hv) (hfs (k, w) (ownEntry_mem hw)) (hmembers k v w hv hw)
    | _ => simp [enumerated, arranged] at heq

theorem enumerated_of_sameKeyOrder (hv : JsonOver N v) (hw : JsonOver N w) (h : JsonEq v w) (horder : SameKeyOrder v w) :
    enumerated v = enumerated w := by
  induction h with
  | same v => rfl
  | @arr xs ys hlength _ ih =>
    cases hv with
    | arr hxs =>
      cases hw with
      | arr hys =>
        cases horder with
        | leaf harr _ => exact absurd rfl (harr xs)
        | arr helements =>
          rw [enumerated, enumerated, arranged_arr, arranged_arr]
          congr 1
          refine List.ext_getElem (by simpa using hlength) fun i hi hj => ?_
          rw [List.length_map] at hi hj
          have hx := List.getElem?_eq_getElem hi
          have hy := List.getElem?_eq_getElem hj
          rw [List.getElem_map, List.getElem_map]
          exact ih i _ _ hx hy (hxs _ (List.mem_of_getElem? hx)) (hys _ (List.mem_of_getElem? hy)) (helements i _ _ hx hy)
  | @obj es fs hkeys _ ih =>
    cases hv with
    | obj hnd hes =>
      cases hw with
      | obj hnd' hfs =>
        cases horder with
        | leaf _ hobj => exact absurd rfl (hobj es)
        | obj hkeyOrder hmembers =>
          rw [enumerated, enumerated, arranged_obj, arranged_obj]
          congr 1
          have hnodup : ∀ {gs : List (JsString × JsValue)}, (gs.map Prod.fst).Nodup →
              ((gs.map (fun e => (e.1, arranged propertyOrder e.2))).map Prod.fst).Nodup := fun h => nodup_arranged h
          refine eq_of_keys (nodup_propertyOrder (hnodup hnd)) ?_ fun k => ?_
          · exact (keys_enumerated es).trans (hkeyOrder.trans (keys_enumerated fs).symm)
          · rw [ownEntry_propertyOrder (hnodup hnd), ownEntry_propertyOrder (hnodup hnd'), ownEntry_map, ownEntry_map]
            refine ownEntry_map_eq_iff.mpr ⟨hkeys, fun k x y hx hy => ?_⟩ k
            exact ih k x y hx hy (hes _ (ownEntry_mem hx)) (hfs _ (ownEntry_mem hy)) (hmembers k x y hx hy)

/-- The enumerated values are equal when the values are, and their keys come in one order. -/
theorem enumerated_eq_iff (hv : JsonOver N v) (hw : JsonOver N w) :
    enumerated v = enumerated w ↔ JsonEq v w ∧ SameKeyOrder v w := by
  constructor
  · exact fun h => ⟨jsonEq_of_arranged perm_propertyOrder hv hw h, sameKeyOrder_of_enumerated hv hw h⟩
  · exact fun h => enumerated_of_sameKeyOrder hv hw h.1 h.2

end

end OxDeAI
