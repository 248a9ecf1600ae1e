import Mathlib

/-!
# Reordering a numbered stream

A receiver that releases a numbered stream in order has, after the arrivals of a set of positions,
released everything below the first missing one.  `firstMissing arrived` is that position; it depends
on the set alone, not on the order of the arrivals or on repetitions.
-/

namespace Fluvora.Reorder

/-- The first position that has not arrived. -/
noncomputable def firstMissing (arrived : Set ℕ) : ℕ := sInf {n | n ∉ arrived}

variable {arrived : Set ℕ}

theorem mem_of_lt_firstMissing {n : ℕ} (h : n < firstMissing arrived) : n ∈ arrived := by
  by_contra hmissing
  exact Nat.notMem_of_lt_sInf h hmissing

theorem firstMissing_le {n : ℕ} (h : n ∉ arrived) : firstMissing arrived ≤ n :=
  Nat.sInf_le h

/-- If some position is missing, the first missing one is. -/
theorem firstMissing_notMem {n : ℕ} (h : n ∉ arrived) : firstMissing arrived ∉ arrived :=
  Nat.sInf_mem (s := {n | n ∉ arrived}) ⟨n, h⟩

/-- Everything below it has arrived, and it has not. -/
theorem firstMissing_eq {n : ℕ} (hbelow : ∀ i < n, i ∈ arrived) (hmissing : n ∉ arrived) :
    firstMissing arrived = n := by
  refine le_antisymm (firstMissing_le hmissing) ?_
  by_contra hlt
  exact firstMissing_notMem hmissing (hbelow _ (by omega))

/-- More arrivals never move it back. -/
theorem firstMissing_mono {later : Set ℕ} (h : arrived ⊆ later) {n : ℕ} (hmissing : n ∉ later) :
    firstMissing arrived ≤ firstMissing later :=
  firstMissing_le fun hmem => firstMissing_notMem hmissing (h hmem)

end Fluvora.Reorder
