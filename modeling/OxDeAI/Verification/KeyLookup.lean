import OxDeAI.Crypto.Keys
import OxDeAI.Lib.FirstMatch

/-! Key lookup when the sets are listed in another order, and the keys inside them. -/

namespace OxDeAI

open Js FirstMatch

/-- The same set with its keys in another order. -/
structure SameKeys (ks ks' : KeySet) : Prop where
  issuer : ks'.issuer = ks.issuer
  version : ks'.version = ks.version
  keys : ks.keys.Perm ks'.keys

/-- The sets in another order, each with its keys in another order. -/
def Reordered (sets sets' : List KeySet) : Prop := ∃ mid, sets.Perm mid ∧ List.Forall₂ SameKeys mid sets'

def isOfIssuer (issuer : JsValue) (ks : KeySet) : Bool := issuer.isText ks.issuer

def isNamed (kid : JsString) (alg : SigningAlg) (key : KeySetKey) : Bool := key.kid = kid ∧ key.alg = alg

section

variable {sets sets' : List KeySet} {ks ks' : KeySet} {issuer : JsValue} {kid : JsString}
  {alg : SigningAlg} {key? : Option KeySetKey}

theorem SameKeys.refl (ks : KeySet) : SameKeys ks ks := ⟨rfl, rfl, List.Perm.refl _⟩

theorem forall₂_sameKeys_refl (sets : List KeySet) : List.Forall₂ SameKeys sets sets :=
  List.forall₂_same.mpr fun ks _ => SameKeys.refl ks

theorem Reordered.isEmpty_eq (h : Reordered sets sets') : sets'.isEmpty = sets.isEmpty := by
  obtain ⟨mid, hp, hf⟩ := h
  rw [hp.isEmpty_eq]
  cases hf with
  | nil => rfl
  | cons _ _ => rfl

theorem Reordered.exists_left (h : Reordered sets sets') (hks : ks' ∈ sets') :
    ∃ ks ∈ sets, SameKeys ks ks' := by
  obtain ⟨mid, hp, hf⟩ := h
  obtain ⟨ks, hmem, hsame⟩ := exists_mem_of_forall₂ hf hks
  exact ⟨ks, hp.mem_iff.mpr hmem, hsame⟩

theorem Reordered.exists_right (h : Reordered sets sets') (hks : ks ∈ sets) :
    ∃ ks' ∈ sets', SameKeys ks ks' := by
  obtain ⟨mid, hp, hf⟩ := h
  obtain ⟨ks', hmem, hsame⟩ := exists_mem_of_forall₂ hf.flip (hp.mem_iff.mp hks)
  exact ⟨ks', hmem, hsame⟩

theorem SameKeys.isOfIssuer_eq (h : SameKeys ks ks') : isOfIssuer issuer ks' = isOfIssuer issuer ks := by
  rw [isOfIssuer, isOfIssuer, h.issuer]

/-- A key some order makes the lookup return, or `none` when some order makes it
return nothing. -/
def CandidateKey (sets : List KeySet) (issuer : JsValue) (kid : JsString) (alg : SigningAlg)
    (key? : Option KeySetKey) : Prop :=
  (∃ ks ∈ sets, isOfIssuer issuer ks = true ∧ Possible (isNamed kid alg) ks.keys key?) ∨
    ((∀ ks ∈ sets, isOfIssuer issuer ks = false) ∧ key? = none)

theorem findKeyInKeySets_of_set (h : sets.find? (isOfIssuer issuer) = some ks) :
    findKeyInKeySets sets issuer kid alg = ks.keys.find? (isNamed kid alg) := by
  have h' : sets.find? (fun ks => issuer.isText ks.issuer) = some ks := h
  rw [findKeyInKeySets, h']
  rfl

theorem findKeyInKeySets_of_none (h : sets.find? (isOfIssuer issuer) = none) :
    findKeyInKeySets sets issuer kid alg = none := by
  have h' : sets.find? (fun ks => issuer.isText ks.issuer) = none := h
  rw [findKeyInKeySets, h']

theorem candidateKey_find (sets : List KeySet) (issuer : JsValue) (kid : JsString) (alg : SigningAlg) :
    CandidateKey sets issuer kid alg (findKeyInKeySets sets issuer kid alg) := by
  have hset := possible_find? (isOfIssuer issuer) sets
  cases hf : sets.find? (isOfIssuer issuer) with
  | none =>
    rw [hf] at hset
    exact .inr ⟨hset, findKeyInKeySets_of_none hf⟩
  | some ks =>
    rw [hf] at hset
    rw [findKeyInKeySets_of_set hf]
    exact .inl ⟨ks, hset.1, hset.2, possible_find? _ _⟩

theorem CandidateKey.reordered (h : CandidateKey sets' issuer kid alg key?) (hr : Reordered sets sets') :
    CandidateKey sets issuer kid alg key? := by
  rcases h with ⟨ks', hks', hiss, hkey⟩ | ⟨hnone, rfl⟩
  · obtain ⟨ks, hks, hsame⟩ := hr.exists_left hks'
    refine .inl ⟨ks, hks, ?_, hkey.perm hsame.keys.symm⟩
    rw [← hsame.isOfIssuer_eq]
    exact hiss
  · refine .inr ⟨fun ks hks => ?_, rfl⟩
    obtain ⟨ks', hks', hsame⟩ := hr.exists_right hks
    rw [← hsame.isOfIssuer_eq]
    exact hnone ks' hks'

/-- Every candidate is what the lookup returns in some order. -/
theorem exists_reordered_find (h : CandidateKey sets issuer kid alg key?) :
    ∃ sets', Reordered sets sets' ∧ findKeyInKeySets sets' issuer kid alg = key? := by
  rcases h with ⟨ks, hks, hiss, hkey⟩ | ⟨hnone, rfl⟩
  · -- the keys of this set in an order that gives the candidate, then the set to the front
    obtain ⟨keys, hperm, hfind⟩ := exists_perm_find? hkey
    obtain ⟨s, t, rfl⟩ := List.append_of_mem hks
    refine ⟨{ ks with keys := keys } :: (s ++ t), ⟨ks :: (s ++ t), List.perm_middle, ?_⟩, ?_⟩
    · exact .cons ⟨rfl, rfl, hperm⟩ (forall₂_sameKeys_refl _)
    · have hfirst : ({ ks with keys := keys } :: (s ++ t)).find? (isOfIssuer issuer) =
          some { ks with keys := keys } := List.find?_cons_of_pos hiss
      rw [findKeyInKeySets_of_set hfirst]
      exact hfind
  · refine ⟨sets, ⟨sets, List.Perm.refl _, forall₂_sameKeys_refl _⟩, findKeyInKeySets_of_none ?_⟩
    refine List.find?_eq_none.mpr fun ks hks => ?_
    simp [hnone ks hks]

/-- An entry of this name that is trusted for the issuer. -/
def MatchingEntry (sets : List KeySet) (issuer : JsValue) (kid : JsString) (alg : SigningAlg)
    (key : KeySetKey) : Prop :=
  ∃ ks ∈ sets, isOfIssuer issuer ks = true ∧ key ∈ ks.keys ∧ isNamed kid alg key = true

/-- Two distinct entries match. -/
def AmbiguousKey (sets : List KeySet) (issuer : JsValue) (kid : JsString) (alg : SigningAlg) : Prop :=
  ∃ k k', k ≠ k' ∧ MatchingEntry sets issuer kid alg k ∧ MatchingEntry sets issuer kid alg k'

theorem AmbiguousKey.ne_nil (h : AmbiguousKey sets issuer kid alg) : sets ≠ [] := by
  obtain ⟨k, k', -, ⟨ks, hks, -⟩, -⟩ := h
  rintro rfl
  cases hks

end

end OxDeAI
