import Mathlib.Tactic

/-! Logs of admitted entries, each under a key: a new entry is admitted at or above
the current mark of its key, and becomes that mark. -/

namespace HighWater

variable {ε κ β : Type*} [Preorder β] {key : ε → κ} {mark : ε → β} {log : List ε} {e : ε}
  {current current' : κ → Option β}

/-- The marks of a key never fall along the log. -/
def Rising (key : ε → κ) (mark : ε → β) (log : List ε) : Prop :=
  log.Pairwise (fun a b => key a = key b → mark a ≤ mark b)

/-- The current marks are at or above everything in the log. -/
def Tops (key : ε → κ) (mark : ε → β) (log : List ε) (current : κ → Option β) : Prop :=
  ∀ a ∈ log, ∃ m, current (key a) = some m ∧ mark a ≤ m

/-- Nothing current is above the entry. -/
def Admits (current : κ → Option β) (k : κ) (m : β) : Prop := ∀ c, current k = some c → c ≤ m

theorem admits_none {k : κ} {m : β} (h : current k = none) : Admits current k m := by
  intro c hc
  rw [h] at hc
  cases hc

theorem admits_some {k : κ} {m c : β} (h : current k = some c) (hle : c ≤ m) : Admits current k m := by
  intro c' hc'
  rw [h] at hc'
  obtain rfl := Option.some.inj hc'
  exact hle

theorem rising_nil : Rising key mark [] := List.Pairwise.nil

theorem tops_nil : Tops key mark [] current := by
  intro a ha
  cases ha

/-- What was logged under the key of an admitted entry is not above it. -/
theorem Tops.le (h : Tops key mark log current) (hadmits : Admits current (key e) (mark e)) {a : ε}
    (ha : a ∈ log) (hkey : key a = key e) : mark a ≤ mark e := by
  obtain ⟨m, hm, hle⟩ := h a ha
  rw [hkey] at hm
  exact le_trans hle (hadmits m hm)

theorem Rising.admit (h : Rising key mark log) (htops : Tops key mark log current)
    (hadmits : Admits current (key e) (mark e)) : Rising key mark (log ++ [e]) := by
  apply List.pairwise_append.mpr
  refine ⟨h, List.pairwise_singleton _ _, ?_⟩
  intro a ha b hb hkey
  obtain rfl := List.mem_singleton.mp hb
  exact htops.le hadmits ha hkey

theorem Tops.admit (h : Tops key mark log current) (hadmits : Admits current (key e) (mark e))
    (hself : current' (key e) = some (mark e)) (hrest : ∀ k, k ≠ key e → current' k = current k) :
    Tops key mark (log ++ [e]) current' := by
  intro a ha
  rcases List.mem_append.mp ha with ha | ha
  · by_cases hkey : key a = key e
    · refine ⟨mark e, ?_, h.le hadmits ha hkey⟩
      rw [hkey, hself]
    · obtain ⟨m, hm, hle⟩ := h a ha
      refine ⟨m, ?_, hle⟩
      rw [hrest _ hkey, hm]
  · obtain rfl := List.mem_singleton.mp ha
    exact ⟨mark a, hself, le_refl _⟩

end HighWater
