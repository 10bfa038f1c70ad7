import OxDeAI.Core.Framing
import OxDeAI.Core.CanonicalInjective
import OxDeAI.Audit.Acceptance

/-! The head of an accepted list of events determines the list: no event can be
removed, inserted, moved or changed under one head. -/

namespace OxDeAI

open Js Run

section

variable (nfc : JsString → JsString)

mutual

/-- A value with its strings in normal form. -/
def normalTexts : JsValue → JsValue
  | .str s => .str (nfc s)
  | .arr xs => .arr (normalTextElements xs)
  | .obj es => .obj (normalTextMembers es)
  | .instance es => .instance (normalTextMembers es)
  | v => v

def normalTextElements : List JsValue → List JsValue
  | [] => []
  | x :: xs => normalTexts x :: normalTextElements xs

def normalTextMembers : List (JsString × JsValue) → List (JsString × JsValue)
  | [] => []
  | (k, v) :: es => (k, normalTexts v) :: normalTextMembers es

end

/-- The same fields with the same values, up to the normal form of strings. -/
def SameEvent (event event' : JsValue) : Prop :=
  ∀ key, (ownEntry key event.entries).map (normalTexts nfc) =
    (ownEntry key event'.entries).map (normalTexts nfc)

/-- What the schema lets an event hold. -/
inductive EventField : JsValue → Prop
  | text (s : JsString) : EventField (.str s)
  | number (n : JsNumber) : EventField (.num n)
  | texts {xs : List JsValue} (h : ∀ x ∈ xs, x.isString = true) : EventField (.arr xs)

end

theorem normalTextElements_eq_map (nfc : JsString → JsString) (xs : List JsValue) :
    normalTextElements nfc xs = xs.map (normalTexts nfc) := by
  induction xs with
  | nil => rfl
  | cons x xs ih => rw [normalTextElements, ih, List.map_cons]

theorem EventField.normalForm_eq {nfc : JsString → JsString} {v : JsValue} (h : EventField v) :
    normalForm nfc v = normalTexts nfc v := by
  cases h with
  | text s => rfl
  | number n => rfl
  | texts h =>
    rw [normalForm, normalTexts, normalElements_eq_map, normalTextElements_eq_map]
    congr 1
    apply List.map_congr_left
    intro x hx
    cases x with
    | str s => rfl
    | _ => cases h _ hx

theorem EventField.normalForm_ne_null {nfc : JsString → JsString} {v : JsValue} (h : EventField v) :
    normalForm nfc v ≠ .null := by
  cases h <;> simp [normalForm]

section

variable {value : JsValue} {field type key : JsString}

theorem nonEmptyString_eq_nil (h : nonEmptyString value field = []) : EventField (value.field field) := by
  rw [nonEmptyString, issueUnless_eq_nil, JsValue.hasText_iff] at h
  obtain ⟨s, -, hs⟩ := h
  rw [hs]
  exact .text s

theorem anyString_eq_nil (h : anyString value field = []) : EventField (value.field field) := by
  rw [anyString, issueUnless_eq_nil] at h
  cases hv : value.field field with
  | str s => exact .text s
  | _ =>
    rw [hv] at h
    cases h

theorem stringArrayField_eq_nil (h : stringArrayField value field = []) : EventField (value.field field) := by
  rw [stringArrayField, issueUnless_eq_nil] at h
  cases hv : value.field field with
  | arr xs =>
    rw [hv, List.all_eq_true] at h
    exact .texts h
  | _ =>
    rw [hv] at h
    cases h

theorem isText_eventField (h : value.isText field = true) : EventField value := by
  rw [JsValue.isText_iff.mp h]
  exact .text field

theorem intNonNegative_eventField (h : intNonNegative value = true) : EventField value := by
  cases value with
  | num n => exact .number n
  | _ => cases h

/-- An event of a known type has no other fields, and those of its type. -/
theorem eventTypeIssues_eq_nil (h : eventTypeIssues value type = []) :
    (∀ e ∈ value.entries, e.1 ∈ eventKeys type) ∧ ∀ k ∈ eventFields type, EventField (value.field k) := by
  unfold eventTypeIssues at h
  unfold eventFields
  split at h
  · rename_i ht
    simp only [List.append_eq_nil_iff, pushAdditional_eq_nil] at h
    simp only [ht, if_true, List.forall_mem_cons, List.not_mem_nil, false_implies, implies_true, and_true]
    exact ⟨ht ▸ h.2, nonEmptyString_eq_nil h.1.1, anyString_eq_nil h.1.2⟩
  · rename_i h₁
    rw [if_neg h₁]
    split at h
    · rename_i ht
      simp only [List.append_eq_nil_iff, pushAdditional_eq_nil, issueUnless_eq_nil, Bool.or_eq_true] at h
      obtain ⟨⟨⟨⟨hhash, hdecision⟩, hreasons⟩, hversion⟩, hkeys⟩ := h
      simp only [ht, if_true, List.forall_mem_cons, List.not_mem_nil, false_implies, implies_true, and_true]
      exact ⟨ht ▸ hkeys, nonEmptyString_eq_nil hhash, hdecision.elim isText_eventField isText_eventField,
        stringArrayField_eq_nil hreasons, anyString_eq_nil hversion⟩
    · rename_i h₂
      rw [if_neg h₂]
      split at h
      · rename_i ht
        simp only [List.append_eq_nil_iff, pushAdditional_eq_nil, issueUnless_eq_nil] at h
        obtain ⟨⟨⟨hid, hhash⟩, hexpires⟩, hkeys⟩ := h
        simp only [ht, if_true, List.forall_mem_cons, List.not_mem_nil, false_implies, implies_true, and_true]
        exact ⟨ht ▸ hkeys, nonEmptyString_eq_nil hid, nonEmptyString_eq_nil hhash,
          intNonNegative_eventField hexpires⟩
      · rename_i h₃
        rw [if_neg h₃]
        split at h
        · rename_i ht
          simp only [List.append_eq_nil_iff, pushAdditional_eq_nil] at h
          simp only [ht, if_true, List.forall_mem_cons, List.not_mem_nil, false_implies, implies_true, and_true]
          exact ⟨ht ▸ h.2, nonEmptyString_eq_nil h.1.1, anyString_eq_nil h.1.2⟩
        · rename_i h₄
          rw [if_neg h₄]
          split at h
          · rw [List.append_eq_nil_iff, pushAdditional_eq_nil] at h
            rw [List.forall_mem_singleton]
            exact ⟨h.2, nonEmptyString_eq_nil h.1⟩
          · cases h

theorem isAscii_eventKeys (type : JsString) : (eventKeys type).all isAscii = true := by
  unfold eventKeys eventFields
  rw [List.cons_append, List.all_cons, List.all_append]
  split_ifs <;> decide

theorem field_of_ownEntry {v : JsValue} (h : ownEntry key value.entries = some v) : value.field key = v := by
  rw [JsValue.field, h]
  rfl

/-- Every field of a valid event. -/
theorem validateAuditEventJson_field (h : validateAuditEventJson value = []) {v : JsValue}
    (hv : ownEntry key value.entries = some v) : isAscii key = true ∧ EventField v := by
  obtain ⟨-, ⟨type, htype⟩, ⟨t, ht⟩, hpolicy⟩ := validateAuditEventJson_eq_nil h
  have hissues : eventTypeIssues value type = [] := by
    unfold validateAuditEventJson at h
    split at h
    · cases h
    · simp only [htype, sortedIssues_eq_nil, List.append_eq_nil_iff] at h
      exact h.2
  obtain ⟨hkeys, hfields⟩ := eventTypeIssues_eq_nil hissues
  have hmem := hkeys _ (ownEntry_mem hv)
  refine ⟨List.all_eq_true.mp (isAscii_eventKeys type) _ hmem, ?_⟩
  rw [← field_of_ownEntry hv]
  simp only [eventKeys, List.cons_append, List.mem_cons, List.mem_append, List.not_mem_nil, or_false] at hmem
  rcases hmem with hkey | hfield | hkey | hkey
  · rw [hkey, htype]
    exact .text type
  · exact hfields _ hfield
  · rw [hkey, ht]
    exact .number _
  · have hhas : value.has (js "policyId") = true := by
      rw [JsValue.has, ← hkey, hv]
      rfl
    obtain ⟨p, hp⟩ := hpolicy hhas
    rw [hkey, hp]
    exact .text p

end
section

variable {nfc : JsString → JsString} {event event' : JsValue}

/-- The members of a canonical object under ASCII keys. -/
theorem ownEntry_normalForm (hn : NfcLaws nfc) {es : List (JsString × JsValue)} (hc : Canonical nfc (.obj es))
    (hascii : ∀ e ∈ es, isAscii e.1 = true) (key : JsString) :
    ownEntry key (normalForm nfc (.obj es)).entries = (ownEntry key es).map (normalForm nfc) := by
  cases hc with
  | obj hm _ =>
    have hplain : normalMembers nfc es = es.map (fun e => (e.1, normalForm nfc e.2)) := by
      rw [normalMembers_eq_map]
      apply List.map_congr_left
      intro e he
      rw [hn.ascii _ (hascii e he)]
    have hnd : ((normalMembers nfc es).map Prod.fst).Nodup := by
      rw [normalMembers_keys]
      exact hm.nodup
    rw [normalForm, JsValue.entries, ownEntry_sortMembers hnd, hplain, ownEntry_map]

/-- The policy of an event as it is hashed. -/
theorem ownEntry_canonicalEntry (hv : validateAuditEventJson event = []) (key : JsString) :
    ownEntry key (canonicalEntry event).entries =
      if key = js "policyId" then some ((ownEntry key event.entries).getD .null)
      else ownEntry key event.entries := by
  rw [canonicalEntry, JsValue.spreadSet, JsValue.entries, ownEntry_setEntry]
  by_cases hk : key = js "policyId"
  · rw [if_pos hk, if_pos hk, hk]
    cases hp : ownEntry (js "policyId") event.entries with
    | none => simp [JsValue.field, hp, JsValue.isNullish]
    | some v =>
      rw [field_of_ownEntry hp]
      cases (validateAuditEventJson_field hv hp).2 <;> rfl
  · rw [if_neg hk, if_neg hk]

theorem isAscii_canonicalEntry (hv : validateAuditEventJson event = []) :
    ∀ e ∈ (canonicalEntry event).entries, isAscii e.1 = true := by
  intro e he
  have hsome : (ownEntry e.1 (canonicalEntry event).entries).isSome = true :=
    ownEntry_isSome.mpr (List.mem_map_of_mem he)
  rw [ownEntry_canonicalEntry hv] at hsome
  by_cases hk : e.1 = js "policyId"
  · rw [hk]
    decide
  · rw [if_neg hk, Option.isSome_iff_exists] at hsome
    obtain ⟨v, hown⟩ := hsome
    exact (validateAuditEventJson_field hv hown).1

/-- Valid events that are hashed as the same text are the same event. -/
theorem sameEvent_of_normalForm_eq (hn : NfcLaws nfc) (hv : validateAuditEventJson event = [])
    (hv' : validateAuditEventJson event' = []) (hc : Canonical nfc (canonicalEntry event))
    (hc' : Canonical nfc (canonicalEntry event'))
    (h : normalForm nfc (canonicalEntry event) = normalForm nfc (canonicalEntry event')) :
    SameEvent nfc event event' := by
  intro key
  have hown := ownEntry_normalForm hn hc (isAscii_canonicalEntry hv) key
  have hown' := ownEntry_normalForm hn hc' (isAscii_canonicalEntry hv') key
  have hfields : ∀ {ev : JsValue}, validateAuditEventJson ev = [] →
      (ownEntry key ev.entries).map (normalForm nfc) = (ownEntry key ev.entries).map (normalTexts nfc) := by
    intro ev hev
    cases hk : ownEntry key ev.entries with
    | none => rfl
    | some v => exact congrArg some (validateAuditEventJson_field hev hk).2.normalForm_eq
  have heq : (ownEntry key (canonicalEntry event).entries).map (normalForm nfc) =
      (ownEntry key (canonicalEntry event').entries).map (normalForm nfc) := by
    have hown₂ : _ = Option.map (normalForm nfc) (ownEntry key (canonicalEntry event).entries) := hown
    have hown₂' : _ = Option.map (normalForm nfc) (ownEntry key (canonicalEntry event').entries) := hown'
    rw [← hown₂, ← hown₂']
    exact congrArg (fun v => ownEntry key v.entries) h
  rw [ownEntry_canonicalEntry hv, ownEntry_canonicalEntry hv'] at heq
  rw [← hfields hv, ← hfields hv']
  by_cases hk : key = js "policyId"
  · rw [if_pos hk, if_pos hk, Option.map_some, Option.map_some, Option.some.injEq] at heq
    -- an absent policy is hashed as null, which no policy is
    cases hp : ownEntry key event.entries with
    | none =>
      cases hp' : ownEntry key event'.entries with
      | none => rfl
      | some v =>
        rw [hp, hp'] at heq
        exact absurd heq.symm (validateAuditEventJson_field hv' hp').2.normalForm_ne_null
    | some v =>
      cases hp' : ownEntry key event'.entries with
      | none =>
        rw [hp, hp'] at heq
        exact absurd heq (validateAuditEventJson_field hv hp).2.normalForm_ne_null
      | some v' =>
        rw [hp, hp'] at heq
        exact congrArg some heq
  · rw [if_neg hk, if_neg hk] at heq
    exact heq

end

section

variable {P : Platform}

theorem isLine_hex {s : JsString} (h : s.all isHexUnit = true) : isLine s = true := by
  rw [isLine, Bool.and_eq_true]
  refine ⟨isAscii_of_hex h, ?_⟩
  rw [List.all_eq_true] at h ⊢
  intro u hu
  have := h u hu
  simp only [isHexUnit, Bool.or_eq_true, Bool.and_eq_true, decide_eq_true_eq] at this ⊢
  omega

/-- The hash of a link tells the head before it and the event. -/
theorem acceptedLink_inj (hP : PlatformLaws P) {a b h : JsString} {event event' : JsValue}
    (ha : a.all isHexUnit = true) (hb : b.all isHexUnit = true) (hl : AcceptedLink P a event h)
    (hl' : AcceptedLink P b event' h) : a = b ∧ SameEvent P.nfc event event' := by
  obtain ⟨hv, hh⟩ := hl
  obtain ⟨hv', hh'⟩ := hl'
  obtain ⟨text, ht, rfl⟩ := map_eq_ok.mp hh
  obtain ⟨text', ht', heq⟩ := map_eq_ok.mp hh'
  obtain ⟨rfl, hbytes⟩ := framed_inj (isLine_hex ha) (isLine_hex hb) (hP.injective heq.symm)
  obtain ⟨hc, rfl⟩ := (canonicalizeToJson_ok _ _).mp ht
  obtain ⟨hc', rfl⟩ := (canonicalizeToJson_ok _ _).mp ht'
  refine ⟨rfl, sameEvent_of_normalForm_eq hP.nfc hv hv' hc hc' ?_⟩
  have hj := isJson_normalForm hc
  have hj' := isJson_normalForm hc'
  exact jsonText_inj hj hj' (utf8Encode_inj (wellFormed_jsonText hj) (wellFormed_jsonText hj') hbytes)

/-- No link leads back to the seed. -/
theorem acceptedLink_ne_genesis (hP : PlatformLaws P) (a : JsString) (event : JsValue) :
    ¬ AcceptedLink P a event (auditGenesisHash P) := by
  rintro ⟨-, hh⟩
  obtain ⟨text, -, heq⟩ := map_eq_ok.mp hh
  exact framed_ne (by decide) (hP.injective heq)

theorem acceptedLink_hex (hP : PlatformLaws P) {a h : JsString} {event : JsValue} (hl : AcceptedLink P a event h) :
    h.all isHexUnit = true := by
  obtain ⟨text, -, rfl⟩ := map_eq_ok.mp hl.2
  exact (hP.hex _).1

/-- Lists of events that the verifier finds neither malformed nor without a hash have
one head only when they hold the same events in the same order. -/
theorem audit_head_determines (hP : PlatformLaws P) (events events' : List JsValue)
    (opts opts' : VerifyAuditOptions)
    (h : Unbroken (verifyAuditEvents P (.arr events) opts).violations)
    (h' : Unbroken (verifyAuditEvents P (.arr events') opts').violations)
    (hhead : (verifyAuditEvents P (.arr events) opts).auditHeadHash =
      (verifyAuditEvents P (.arr events') opts').auditHeadHash) :
    events.length = events'.length ∧ List.Forall₂ (SameEvent P.nfc) events events' := by
  obtain ⟨head, hh, hrun⟩ := verifyAuditEvents_accepted h
  obtain ⟨head', hh', hrun'⟩ := verifyAuditEvents_accepted h'
  rw [hh, hh', Option.some.injEq] at hhead
  subst hhead
  have hsame : List.Forall₂ (SameEvent P.nfc) events events' := by
    refine hrun.determined (fun head => head.all isHexUnit = true) hrun' (hP.hex _).1
      (fun a ev b _ hl => acceptedLink_hex hP hl) (fun a ev _ => acceptedLink_ne_genesis hP a ev) ?_
    intro a b ev ev' h ha hb hl hl'
    exact acceptedLink_inj hP ha hb hl hl'
  exact ⟨hsame.length_eq, hsame⟩

end

/-- An event whose agent is a letter, and the same with the Kelvin sign for it. -/
def letterEvent : JsValue := (AuditEvent.intentReceived (js "00") (js "K") (.int 1000) (js "p")).value

def kelvinEvent : JsValue := (AuditEvent.intentReceived (js "00") [unit 8490] (.int 1000) (js "p")).value

theorem chainHash_kelvinEvent (prev : JsString) : ∃ head, chainHash samplePlatform prev letterEvent = .ok head ∧
    chainHash samplePlatform prev kelvinEvent = .ok head := by
  have hc : Canonical samplePlatform.nfc (canonicalEntry letterEvent) := (isCanonical_iff _).mp (by decide)
  have hc' : Canonical samplePlatform.nfc (canonicalEntry kelvinEvent) := (isCanonical_iff _).mp (by decide)
  have hnormal : normalForm samplePlatform.nfc (canonicalEntry kelvinEvent) =
      normalForm samplePlatform.nfc (canonicalEntry letterEvent) := rfl
  refine ⟨_, map_eq_ok.mpr ⟨_, canonicalJson_ok hc, rfl⟩, map_eq_ok.mpr ⟨_, canonicalJson_ok hc', ?_⟩⟩
  rw [hnormal]

theorem cleanEvents_singleton {event : JsValue} {head : JsString} (hv : validateAuditEventJson event = [])
    (hp : event.field (js "policyId") = .str (js "p"))
    (h : chainHash samplePlatform (auditGenesisHash samplePlatform) event = .ok head) :
    CleanEvents samplePlatform (js "p") [event] head := by
  refine ⟨by decide, ?_, ?_, List.pairwise_singleton _ _, headFrom_cons.mpr ⟨head, h, rfl⟩⟩
  · rwa [List.forall_mem_singleton]
  · rwa [List.forall_mem_singleton]

/-- Two accepted lists with one head, whose events differ in normalization. -/
theorem audit_head_determines_sample : letterEvent ≠ kelvinEvent ∧
    List.Forall₂ (SameEvent samplePlatform.nfc) [letterEvent] [kelvinEvent] := by
  obtain ⟨head, hletter, hkelvin⟩ := chainHash_kelvinEvent (auditGenesisHash samplePlatform)
  have hclean := cleanEvents_singleton (by decide) rfl hletter
  have hclean' := cleanEvents_singleton (by decide) rfl hkelvin
  have hhead : (verifyAuditEvents samplePlatform (.arr [letterEvent]) {}).auditHeadHash =
      (verifyAuditEvents samplePlatform (.arr [kelvinEvent]) {}).auditHeadHash := by
    rw [hclean.auditHeadHash (.inr rfl), hclean'.auditHeadHash (.inr rfl)]
  have hne : letterEvent ≠ kelvinEvent := by
    intro h
    have hagent := congrArg (fun event => (event.field (js "agent_id")).isText (js "K")) h
    exact absurd hagent (by decide)
  exact ⟨hne, (audit_head_determines samplePlatform_laws _ _ {} {} (hclean.unbroken (.inr rfl))
    (hclean'.unbroken (.inr rfl)) hhead).2⟩

end OxDeAI
