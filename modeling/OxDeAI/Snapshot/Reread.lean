import OxDeAI.Core.CanonicalInjective
import OxDeAI.Snapshot.CanonicalRecord
import OxDeAI.Snapshot.Deserialize

/-! Reading back, member by member, the object that a codec wrote for a record. -/

namespace OxDeAI

open Js

theorem record_ext {α : Type} {r s : Record α} (h : r.entries = s.entries) : r = s := by
  cases r
  cases s
  cases h
  rfl

namespace Filled

variable {α : Type}

theorem setObject_eq {r : Filled α} {key : JsString} {v : α} (h : key ≠ protoKey) :
    r.setObject key v = r.setPrimitive key v := by
  rw [setObject, setPrimitive, if_neg h, if_neg h]

theorem setPrimitive_ofRecord {r : Record α} {key : JsString} {v : α} (h : key ≠ protoKey) :
    (ofRecord r).setPrimitive key v = ofRecord (r.set key v) := by
  rw [setPrimitive, if_neg h]
  rfl

theorem entries_set_of_notMem {r : Record α} {key : JsString} {v : α} (h : key ∉ r.keys) :
    (r.set key v).entries = r.entries ++ [(key, v)] := setEntry_of_notMem h

theorem foldl_setPrimitive {members : List (JsString × α)} {r : Record α}
    (hnd : ((r.entries ++ members).map Prod.fst).Nodup) (hproto : ∀ e ∈ members, e.1 ≠ protoKey) :
    members.foldl (fun r e => r.setPrimitive e.1 e.2) (ofRecord r) = ofRecord ⟨r.entries ++ members, hnd⟩ := by
  induction members generalizing r with
  | nil =>
    rw [List.foldl_nil]
    congr 1
    exact record_ext (List.append_nil _).symm
  | cons e members ih =>
    have hfresh : e.1 ∉ r.keys := by
      rw [List.map_append, List.nodup_append] at hnd
      intro hmem
      exact hnd.2.2 _ hmem _ List.mem_cons_self rfl
    have hsplit : (r.set e.1 e.2).entries ++ members = r.entries ++ e :: members := by
      rw [entries_set_of_notMem hfresh, List.append_assoc]
      rfl
    rw [List.foldl_cons, setPrimitive_ofRecord (hproto e List.mem_cons_self),
      ih (by rw [hsplit]; exact hnd) fun e' he' => hproto e' (List.mem_cons_of_mem _ he')]
    exact congrArg ofRecord (record_ext hsplit)

theorem ofPrimitives_entries (r : Record α) (hproto : ∀ e ∈ r.entries, e.1 ≠ protoKey) :
    ofPrimitives r.entries = ofRecord r := foldl_setPrimitive (r := Record.empty) r.nodup hproto

theorem ofObjects_eq {members : List (JsString × α)} (hproto : ∀ e ∈ members, e.1 ≠ protoKey) :
    ofObjects members = ofPrimitives members := by
  rw [ofObjects, ofPrimitives]
  generalize (empty : Filled α) = r
  induction members generalizing r with
  | nil => rfl
  | cons e members ih =>
    rw [List.foldl_cons, List.foldl_cons, setObject_eq (hproto e List.mem_cons_self)]
    exact ih (fun e' he' => hproto e' (List.mem_cons_of_mem _ he')) _

theorem ofRecord_injective : Function.Injective (ofRecord : Record α → Filled α) :=
  fun _ _ h => congrArg own h

end Filled

section

variable {α : Type} {nfc : JsString → JsString}

theorem isTimestamp_of_normalForm {v : JsValue} (h : isTimestamp (normalForm nfc v) = true) : isTimestamp v = true := by
  cases v with
  | num n => exact h
  | _ => cases h

theorem canonicalMembers_of_normal {es : List (JsString × JsValue)} (hn : NfcLaws nfc)
    (hm : CanonicalMembers nfc (sortMembers (normalMembers nfc es))) : CanonicalMembers nfc es := by
  have hkeys : (sortMembers (normalMembers nfc es)).map Prod.fst = sortUtf8Lex (es.map fun e => nfc e.1) := by
    rw [keys_sortMembers, normalMembers_keys]
  have hnd : (es.map fun e => nfc e.1).Nodup := by
    rw [← nodup_sortUtf8Lex, ← hkeys]
    refine List.Nodup.of_map nfc ?_
    rw [List.map_map]
    exact hm.nodup
  refine ⟨hnd, fun e he hts => ?_⟩
  have hmem : (nfc e.1, normalForm nfc e.2) ∈ sortMembers (normalMembers nfc es) := by
    refine (mem_sortMembers (by rwa [normalMembers_keys])).mpr ?_
    rw [normalMembers_eq_map]
    exact List.mem_map.mpr ⟨e, he, rfl⟩
  exact isTimestamp_of_normalForm (hm.timestamp _ hmem (by rw [hn.idem]; exact hts))

theorem canonical_members_of_normal {es : List (JsString × JsValue)} (hn : NfcLaws nfc)
    (h : Canonical nfc (.obj (sortMembers (normalMembers nfc es)))) :
    CanonicalMembers nfc es ∧ ∀ e ∈ es, Canonical nfc (normalForm nfc e.2) := by
  cases h with
  | obj hm hv =>
    have hmembers := canonicalMembers_of_normal hn hm
    refine ⟨hmembers, fun e he => hv (nfc e.1, normalForm nfc e.2) ?_⟩
    refine (mem_sortMembers (by rw [normalMembers_keys]; exact hmembers.nodup)).mpr ?_
    rw [normalMembers_eq_map]
    exact List.mem_map.mpr ⟨e, he, rfl⟩

/-- What has a canonical normal form is canonical. -/
theorem canonical_of_normalForm (hn : NfcLaws nfc) {v : JsValue} (h : Canonical nfc (normalForm nfc v)) :
    Canonical nfc v := by
  induction v using jsValue_induction with
  | null => exact h
  | bool b => exact h
  | str s => exact .str s
  | num n => exact h
  | bigint z => exact .bigint z
  | undefined => exact h
  | function => exact h
  | symbol => exact h
  | arr xs ih =>
    rw [normalForm, normalElements_eq_map, canonical_arr, List.forall_mem_map] at h
    exact .arr fun x hx => ih x hx (h x hx)
  | obj es ih =>
    obtain ⟨hm, hv⟩ := canonical_members_of_normal hn h
    exact .obj hm fun e he => ih e he (hv e he)
  | inst es ih =>
    obtain ⟨hm, hv⟩ := canonical_members_of_normal hn h
    exact .inst hm fun e he => ih e he (hv e he)

structure NormalMembers (nfc : JsString → JsString) (M : List (JsString × JsValue)) : Prop where
  encodings : ((M.map Prod.fst).map utf8Encode).Nodup
  sorted : (M.map Prod.fst).Pairwise Utf8Le
  key : ∀ e ∈ M, nfc e.1 = e.1
  proto : ∀ e ∈ M, e.1 ≠ protoKey

variable {M : List (JsString × JsValue)}

theorem NormalMembers.nodup (hM : NormalMembers nfc M) : (M.map Prod.fst).Nodup := hM.encodings.of_map

theorem NormalMembers.sortMembers_eq (hM : NormalMembers nfc M) {L : List (JsString × JsValue)} (h : L.Perm M) :
    sortMembers L = M := by
  rw [← sortMembers_perm h.symm hM.encodings]
  exact sortMembers_eq_self hM.nodup hM.sorted

theorem perm_sortEntries (es : List (JsString × α)) : (sortEntries es).Perm es := List.perm_insertionSort _ _

variable {d : JsString → JsValue → Except JsError α} {es : List (JsString × α)}

theorem decodeMembers_ok : decodeMembers (.obj M) d = .ok es ↔
    List.Forall₂ (fun m e => m.1 = e.1 ∧ d m.1 m.2 = .ok e.2) (sortEntries M) es := by
  rw [decodeMembers, mapM_eq_ok]
  have hstep : ∀ (m : JsString × JsValue) (e : JsString × α),
      (d m.1 m.2).map (fun v => (m.1, v)) = .ok e ↔ m.1 = e.1 ∧ d m.1 m.2 = .ok e.2 := by
    intro m e
    rw [map_eq_ok]
    constructor
    · rintro ⟨x, hx, rfl⟩
      exact ⟨rfl, hx⟩
    · rintro ⟨hkey, hx⟩
      exact ⟨e.2, hx, Prod.ext hkey rfl⟩
  simp only [hstep]
  rfl

/-- The members as decoded make up a record. -/
structure Decoded (M : List (JsString × JsValue)) (d : JsString → JsValue → Except JsError α) (r : Record α) :
    Prop where
  keys : r.keys = sortKeys (M.map Prod.fst)
  proto : ∀ e ∈ r.entries, e.1 ≠ protoKey
  read : ∀ m ∈ M, ∃ x, r.own? m.1 = some x ∧ d m.1 m.2 = .ok x
  source : ∀ k x, r.own? k = some x → ∃ v, (k, v) ∈ M ∧ d k v = .ok x

theorem exists_mem_right {β γ : Type} {R : β → γ → Prop} {xs : List β} {ys : List γ} (h : List.Forall₂ R xs ys) {x : β}
    (hx : x ∈ xs) : ∃ y ∈ ys, R x y := exists_mem_of_forall₂ h.flip hx

theorem exists_decoded (hM : NormalMembers nfc M) (h : decodeMembers (.obj M) d = .ok es) :
    ∃ r : Record α, r.entries = es ∧ Decoded M d r := by
  have hforall := decodeMembers_ok.mp h
  have hkeys : es.map Prod.fst = (sortEntries M).map Prod.fst := by
    rw [← List.forall₂_eq_eq_eq, List.forall₂_map_left_iff, List.forall₂_map_right_iff]
    exact hforall.flip.imp fun _ _ h => h.1.symm
  have hnd : (es.map Prod.fst).Nodup := by
    rw [hkeys, ((perm_sortEntries M).map Prod.fst).nodup_iff]
    exact hM.nodup
  refine ⟨⟨es, hnd⟩, rfl, ?_, ?_, ?_, ?_⟩
  · rw [Record.keys, hkeys]
    exact List.map_insertionSort _ _ Prod.fst M fun _ _ _ _ => Iff.rfl
  · intro e he
    obtain ⟨m, hm, hkey, -⟩ := exists_mem_of_forall₂ hforall he
    rw [← hkey]
    exact hM.proto m (mem_sortEntries.mp hm)
  · intro m hm
    obtain ⟨e, he, hkey, hx⟩ := exists_mem_right hforall (mem_sortEntries.mpr hm)
    refine ⟨e.2, ?_, hx⟩
    rw [Record.own?_eq_some, hkey]
    exact he
  · intro k x hx
    obtain ⟨m, hm, hkey, hdecode⟩ := exists_mem_of_forall₂ hforall ((Record.own?_eq_some _).mp hx)
    obtain rfl := hkey
    exact ⟨m.2, mem_sortEntries.mp hm, hdecode⟩

theorem Decoded.filled {r : Record α} (h : Decoded M d r) : Filled.ofPrimitives r.entries = .ofRecord r :=
  Filled.ofPrimitives_entries r h.proto

theorem Decoded.filledObjects {r : Record α} (h : Decoded M d r) : Filled.ofObjects r.entries = .ofRecord r := by
  rw [Filled.ofObjects_eq h.proto, h.filled]

theorem Decoded.of_entries (hM : NormalMembers nfc M) {r : Record α}
    (h : decodeMembers (.obj M) d = .ok r.entries) : Decoded M d r := by
  obtain ⟨r', hr', hdecoded⟩ := exists_decoded hM h
  rwa [record_ext hr'] at hdecoded

theorem decodeMembers_map {β : Type} {f : α → β} {object : JsValue} :
    decodeMembers object (fun k v => (d k v).map f) =
      (decodeMembers object d).map (List.map (fun e => (e.1, f e.2))) := by
  rw [decodeMembers, decodeMembers]
  generalize sortEntries object.entries = es
  induction es with
  | nil => rfl
  | cons e es ih =>
    rw [List.mapM_cons, List.mapM_cons, ih]
    cases d e.1 e.2 with
    | error err => rfl
    | ok x =>
      cases es.mapM (fun e => (d e.1 e.2).map (fun v => (e.1, v))) <;> rfl

/-- The record that a codec assigns is the one that its members were decoded to. -/
theorem assigned_iff (hM : NormalMembers nfc M) {r : Record α} :
    (∃ es, decodeMembers (.obj M) d = .ok es ∧ Filled.ofPrimitives es = .ofRecord r) ↔
      decodeMembers (.obj M) d = .ok r.entries := by
  constructor
  · rintro ⟨es, hes, hr⟩
    obtain ⟨r', rfl, hdecoded⟩ := exists_decoded hM hes
    rw [hdecoded.filled] at hr
    rw [← Filled.ofRecord_injective hr]
    exact hes
  · intro h
    exact ⟨r.entries, h, (Decoded.of_entries hM h).filled⟩

theorem assignedObjects_iff (hM : NormalMembers nfc M) {r : Record α} :
    (∃ es, decodeMembers (.obj M) d = .ok es ∧ Filled.ofObjects es = .ofRecord r) ↔
      decodeMembers (.obj M) d = .ok r.entries := by
  rw [← assigned_iff hM]
  apply exists_congr
  intro es
  apply and_congr_right
  intro hes
  obtain ⟨r', rfl, hdecoded⟩ := exists_decoded hM hes
  rw [hdecoded.filledObjects, hdecoded.filled]

theorem mem_normalMembers {es : List (JsString × JsValue)} {m : JsString × JsValue} :
    m ∈ normalMembers nfc es ↔ ∃ e ∈ es, (nfc e.1, normalForm nfc e.2) = m := by
  rw [normalMembers_eq_map, List.mem_map]

theorem Decoded.mem_iff {r : Record α} (h : Decoded M d r) (hM : NormalMembers nfc M) {g : α → Option JsValue}
    {m : JsString × JsValue} : m ∈ normalMembers nfc ((recordMembers r g).filter (fun e => e.1 ≠ protoKey)) ↔
      ∃ x w, r.own? m.1 = some x ∧ g x = some w ∧ normalForm nfc w = m.2 := by
  rw [mem_normalMembers]
  constructor
  · rintro ⟨e, he, rfl⟩
    have hwritten := mem_writtenMembers.mp he
    have hproto : e.1 ≠ protoKey := of_decide_eq_true (List.mem_filter.mp he).2
    rw [written_of_ne hproto] at hwritten
    obtain ⟨x, hx, hw⟩ := Option.bind_eq_some_iff.mp hwritten
    obtain ⟨v, hv, -⟩ := h.source e.1 x hx
    have hkey : nfc e.1 = e.1 := hM.key (e.1, v) hv
    rw [hkey]
    exact ⟨x, e.2, hx, hw, rfl⟩
  · rintro ⟨x, w, hx, hw, hm⟩
    obtain ⟨v, hv, -⟩ := h.source m.1 x hx
    refine ⟨(m.1, w), mem_writtenMembers.mpr ?_, Prod.ext (hM.key (m.1, v) hv) hm⟩
    rw [written_of_ne (hM.proto _ hv), hx]
    exact hw

theorem Decoded.nodup_normalMembers {r : Record α} (h : Decoded M d r) (hM : NormalMembers nfc M)
    {g : α → Option JsValue} :
    (normalMembers nfc ((recordMembers r g).filter (fun e => e.1 ≠ protoKey))).Nodup := by
  have hkeys : (((recordMembers r g).filter (fun e => e.1 ≠ protoKey)).map Prod.fst).Nodup :=
    nodup_recordMembers.sublist (List.filter_sublist.map Prod.fst)
  refine List.Nodup.of_map Prod.fst ?_
  rw [normalMembers_keys]
  have hsame : ∀ e ∈ (recordMembers r g).filter (fun e => e.1 ≠ protoKey), nfc e.1 = e.1 := by
    intro e he
    have hmem : (nfc e.1, normalForm nfc e.2) ∈
        normalMembers nfc ((recordMembers r g).filter (fun e => e.1 ≠ protoKey)) := mem_normalMembers.mpr ⟨e, he, rfl⟩
    have hwritten := mem_writtenMembers.mp he
    have hproto : e.1 ≠ protoKey := of_decide_eq_true (List.mem_filter.mp he).2
    rw [written_of_ne hproto] at hwritten
    obtain ⟨x, hx, -⟩ := Option.bind_eq_some_iff.mp hwritten
    obtain ⟨v, hv, -⟩ := h.source e.1 x hx
    exact hM.key (e.1, v) hv
  rw [List.map_congr_left hsame]
  exact hkeys

/-- The record is written as it was read exactly when every value is. -/
theorem Decoded.rewritten_iff {r : Record α} (h : Decoded M d r) (hM : NormalMembers nfc M)
    {g : α → Option JsValue} : normalForm nfc (buildObject (recordMembers r g)) = .obj M ↔
      ∀ m ∈ M, ∀ x, r.own? m.1 = some x → (g x).map (normalForm nfc) = some m.2 := by
  rw [buildObject, normalForm, JsValue.obj.injEq]
  constructor
  · intro heq m hm x hx
    rw [← heq] at hm
    obtain ⟨x', w, hx', hw, hm⟩ := (h.mem_iff hM).mp (mem_of_mem_sortMembers hm)
    obtain rfl := Option.some.inj (hx.symm.trans hx')
    rw [hw, Option.map_some, hm]
  · intro hall
    apply hM.sortMembers_eq
    apply (List.perm_ext_iff_of_nodup (h.nodup_normalMembers hM) hM.nodup.of_map).mpr
    intro m
    rw [h.mem_iff hM]
    constructor
    · rintro ⟨x, w, hx, hw, hm⟩
      obtain ⟨v, hv, -⟩ := h.source m.1 x hx
      have hvalue := hall (m.1, v) hv x hx
      rw [hw, Option.map_some, hm] at hvalue
      have hsame : (m.1, v) = m := Prod.ext rfl (Option.some.inj hvalue).symm
      rwa [hsame] at hv
    · intro hm
      obtain ⟨x, hx, -⟩ := h.read m hm
      obtain ⟨w, hw, hvalue⟩ := Option.map_eq_some_iff.mp (hall m hm x hx)
      exact ⟨x, w, hx, hw, hvalue⟩

section

variable {β : Type} {r₀ : Record β} {g₀ : β → Option JsValue}

/-- The members of the normal form of what a codec writes. -/
def recordForm (nfc : JsString → JsString) (r : Record β) (g : β → Option JsValue) : List (JsString × JsValue) :=
  sortMembers (normalMembers nfc ((recordMembers r g).filter (fun e => e.1 ≠ protoKey)))

theorem normalForm_recordForm : normalForm nfc (buildObject (recordMembers r₀ g₀)) = .obj (recordForm nfc r₀ g₀) := rfl

theorem mem_recordForm (h : CanonicalRecord nfc r₀ g₀) {m : JsString × JsValue} : m ∈ recordForm nfc r₀ g₀ ↔
    ∃ k v, written r₀ g₀ k = some v ∧ (nfc k, normalForm nfc v) = m := by
  have hcanonical : CanonicalMembers nfc ((recordMembers r₀ g₀).filter (fun e => e.1 ≠ protoKey)) := by
    have hobject := canonical_record.mpr h
    cases hobject with
    | obj hm _ => exact hm
  rw [recordForm, mem_sortMembers (by rw [normalMembers_keys]; exact hcanonical.nodup), mem_normalMembers]
  constructor
  · rintro ⟨e, he, hm⟩
    exact ⟨e.1, e.2, mem_writtenMembers.mp he, hm⟩
  · rintro ⟨k, v, hw, hm⟩
    exact ⟨(k, v), mem_writtenMembers.mpr hw, hm⟩

theorem normalMembers_recordForm (hn : NfcLaws nfc) (hproto : ∀ k, nfc k = protoKey → k = protoKey)
    (h : CanonicalRecord nfc r₀ g₀) (hd : DistinctEncodings nfc (buildObject (recordMembers r₀ g₀))) :
    NormalMembers nfc (recordForm nfc r₀ g₀) := by
  have hkeys : (recordForm nfc r₀ g₀).map Prod.fst =
      sortUtf8Lex (((recordMembers r₀ g₀).filter (fun e => e.1 ≠ protoKey)).map fun e => nfc e.1) := by
    rw [recordForm, keys_sortMembers, normalMembers_keys]
  constructor
  · cases hd with
    | leaf _ hobj => exact absurd rfl (hobj _)
    | obj hnd _ =>
      have hperm : (sortUtf8Lex (((recordMembers r₀ g₀).filter (fun e => e.1 ≠ protoKey)).map fun e => nfc e.1)).Perm
          (((recordMembers r₀ g₀).filter (fun e => e.1 ≠ protoKey)).map fun e => nfc e.1) :=
        List.perm_insertionSort _ _
      rw [hkeys, (hperm.map utf8Encode).nodup_iff, List.map_map]
      exact hnd
  · rw [hkeys]
    exact pairwise_sortUtf8Lex _
  · intro m hm
    obtain ⟨k, v, -, rfl⟩ := (mem_recordForm h).mp hm
    exact hn.idem k
  · intro m hm
    obtain ⟨k, v, hw, rfl⟩ := (mem_recordForm h).mp hm
    intro hkey
    rw [hproto k hkey, written, if_pos rfl] at hw
    cases hw

/-- A record is read and written again as it was exactly when every member is. -/
theorem rereads_record (hM : NormalMembers nfc (recordForm nfc r₀ g₀)) (h : CanonicalRecord nfc r₀ g₀)
    {g : α → Option JsValue} :
    (∃ r : Record α, decodeMembers (.obj (recordForm nfc r₀ g₀)) d = .ok r.entries ∧
      normalForm nfc (buildObject (recordMembers r g)) = .obj (recordForm nfc r₀ g₀)) ↔
    ∀ k v, written r₀ g₀ k = some v → ∃ x, d (nfc k) (normalForm nfc v) = .ok x ∧
      (g x).map (normalForm nfc) = some (normalForm nfc v) := by
  constructor
  · rintro ⟨r, hread, heq⟩ k v hw
    have hr := Decoded.of_entries hM hread
    have hmem := (mem_recordForm h).mpr ⟨k, v, hw, rfl⟩
    obtain ⟨x, hx, hdecode⟩ := hr.read _ hmem
    exact ⟨x, hdecode, (hr.rewritten_iff hM).mp heq _ hmem x hx⟩
  · intro hall
    have hreturns : ∃ es, decodeMembers (.obj (recordForm nfc r₀ g₀)) d = .ok es := by
      rw [decodeMembers, mapM_returns]
      intro m hm
      obtain ⟨k, v, hw, rfl⟩ := (mem_recordForm h).mp (mem_sortEntries.mp hm)
      obtain ⟨x, hx, -⟩ := hall k v hw
      exact map_returns.mpr ⟨x, hx⟩
    obtain ⟨es, hes⟩ := hreturns
    obtain ⟨r, rfl, hr⟩ := exists_decoded hM hes
    refine ⟨r, hes, (hr.rewritten_iff hM).mpr ?_⟩
    intro m hm x hx
    obtain ⟨k, v, hw, rfl⟩ := (mem_recordForm h).mp hm
    obtain ⟨x', hx', hvalue⟩ := hall k v hw
    obtain ⟨x'', hx'', hdecode⟩ := hr.read _ hm
    obtain rfl := Option.some.inj (hx.symm.trans hx'')
    obtain rfl := Except.ok.inj (hdecode.symm.trans hx')
    exact hvalue

end

end

end OxDeAI
