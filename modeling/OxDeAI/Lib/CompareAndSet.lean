import Mathlib.Data.Set.Insert

/-! A cell whose value is replaced only under the version it was read with, and whose
versions are never reused: what a writer read is what it replaces. -/

namespace Versioned

/-- The versions given out so far are kept with the cell. -/
structure Cell (σ ν : Type*) where
  value : σ
  version : ν
  issued : Set ν
  current : version ∈ issued

section

variable {σ ν : Type*} {c d : Cell σ ν} {value next : σ} {version : ν}

/-- The cell is given a new value under its present version, and a new version. -/
structure Cell.Replaces (c : Cell σ ν) (version : ν) (next : σ) (d : Cell σ ν) : Prop where
  found : version = c.version
  value : d.value = next
  fresh : d.version ∉ c.issued
  issued : d.issued = insert d.version c.issued

/-- The value was read with this version, now or earlier. -/
structure Cell.Read (c : Cell σ ν) (value : σ) (version : ν) : Prop where
  issued : version ∈ c.issued
  current : version = c.version → value = c.value

theorem Cell.read_now (c : Cell σ ν) : c.Read c.value c.version := ⟨c.current, fun _ => rfl⟩

/-- A replacement brings no old version back. -/
theorem Cell.Read.replaces {replaced : ν} (h : c.Read value version) (hd : c.Replaces replaced next d) :
    d.Read value version := by
  refine ⟨?_, fun hversion => ?_⟩
  · rw [hd.issued]
    exact Set.mem_insert_of_mem _ h.issued
  · rw [hversion] at h
    exact absurd h.issued hd.fresh

/-- What is replaced is what was read. -/
theorem Cell.Read.replaced (h : c.Read value version) (hd : c.Replaces version next d) : value = c.value :=
  h.current hd.found

end

end Versioned
