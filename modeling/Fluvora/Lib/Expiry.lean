import Fluvora.Lib.Maps

/-!
# Tables whose entries expire

An entry of such a table has a deadline, entries that are past it are purged now and then, and a
new entry may replace one under the same key.  A history lists every entry that was ever put in,
as key, value and deadline.  `Reflects` says that the table is what the history leaves at a time:
it holds only what was put in, and every entry that is not past its deadline is still there, or
has been renewed.  `exists_live_iff` reads the table through the history.
-/

open Std (ExtTreeMap TransOrd LawfulEqOrd)

namespace Fluvora.Expiry

variable {κ α β : Type} [Ord κ] [TransOrd κ]

/-- Entries past their deadline leave the table. -/
def purge (deadline : α → ℕ) (now : ℕ) (table : ExtTreeMap κ α) : ExtTreeMap κ α :=
  table.filter fun _ entry => now < deadline entry

section

variable {deadline : α → ℕ} {value : α → β} {table : ExtTreeMap κ α} {now later : ℕ}
  {history : List (κ × β × ℕ)} {k : κ} {entry : α}

/-- The table is what the history leaves at a time. -/
structure Reflects (deadline : α → ℕ) (value : α → β) (history : List (κ × β × ℕ)) (now : ℕ)
    (table : ExtTreeMap κ α) : Prop where
  recorded : ∀ (k : κ) (entry : α), table[k]? = some entry →
    (k, value entry, deadline entry) ∈ history
  kept : ∀ (k : κ) (b : β) (d : ℕ), (k, b, d) ∈ history → now < d →
    ∃ entry, table[k]? = some entry ∧ value entry = b ∧ d ≤ deadline entry

theorem reflects_empty (now : ℕ) :
    Reflects deadline value [] now (∅ : ExtTreeMap κ α) := by
  refine ⟨?_, ?_⟩
  · intro k entry h
    simp at h
  · intro k b d h
    cases h

/-- Time passes. -/
theorem Reflects.wait (h : Reflects deadline value history now table) (hle : now ≤ later) :
    Reflects deadline value history later table :=
  ⟨h.recorded, fun k b d hd hlive => h.kept k b d hd (lt_of_le_of_lt hle hlive)⟩

variable [LawfulEqOrd κ]

theorem getElem?_purge_eq_some :
    (purge deadline now table)[k]? = some entry ↔ table[k]? = some entry ∧ now < deadline entry := by
  rw [purge, ExtTreeMap.getElem?_filter', Option.filter_eq_some_iff, decide_eq_true_eq]

theorem mem_of_mem_purge (h : k ∈ purge deadline now table) : k ∈ table := by
  obtain ⟨entry, hentry⟩ := Maps.mem_iff_exists.mp h
  exact Maps.mem_of_getElem? (getElem?_purge_eq_some.mp hentry).1

theorem size_purge_le : (purge deadline now table).size ≤ table.size :=
  Maps.size_le_of_subset fun _ => mem_of_mem_purge

theorem Reflects.purge (h : Reflects deadline value history now table) (hle : now ≤ later) :
    Reflects deadline value history later (Expiry.purge deadline later table) := by
  refine ⟨?_, ?_⟩
  · intro k entry hentry
    exact h.recorded k entry (getElem?_purge_eq_some.mp hentry).1
  · intro k b d hd hlive
    obtain ⟨entry, hentry, hvalue, hdeadline⟩ := (h.wait hle).kept k b d hd hlive
    exact ⟨entry, getElem?_purge_eq_some.mpr ⟨hentry, lt_of_lt_of_le hlive hdeadline⟩, hvalue,
      hdeadline⟩

/-- A new entry may replace one with its value that does not last longer. -/
theorem Reflects.insert (h : Reflects deadline value history now table) (k : κ) (entry : α)
    (hreplaced : ∀ old, table[k]? = some old →
      value old = value entry ∧ deadline old ≤ deadline entry) :
    Reflects deadline value (history ++ [(k, value entry, deadline entry)]) now
      (table.insert k entry) := by
  refine ⟨?_, ?_⟩
  · intro j found hfound
    rw [List.mem_append]
    by_cases hj : k = j
    · subst hj
      rw [ExtTreeMap.getElem?_insert_self] at hfound
      cases hfound
      exact .inr (List.mem_singleton_self _)
    · rw [Maps.getElem?_insert_of_ne hj] at hfound
      exact .inl (h.recorded j found hfound)
  · intro j b d hd hlive
    rcases List.mem_append.mp hd with hd | hd
    · obtain ⟨old, hold, hvalue, hdeadline⟩ := h.kept j b d hd hlive
      by_cases hj : k = j
      · subst hj
        obtain ⟨hsame, hlonger⟩ := hreplaced old hold
        exact ⟨entry, ExtTreeMap.getElem?_insert_self, hsame.symm.trans hvalue,
          hdeadline.trans hlonger⟩
      · exact ⟨old, by rwa [Maps.getElem?_insert_of_ne hj], hvalue, hdeadline⟩
    · rw [List.mem_singleton] at hd
      cases hd
      exact ⟨entry, ExtTreeMap.getElem?_insert_self, rfl, le_rfl⟩

/-- A table read at a later time shows exactly what the history has put in under a deadline that is
still ahead. -/
theorem Reflects.exists_live_iff (h : Reflects deadline value history now table)
    (hle : now ≤ later) (k : κ) (b : β) :
    (∃ entry, (Expiry.purge deadline later table)[k]? = some entry ∧ value entry = b) ↔
      ∃ d, (k, b, d) ∈ history ∧ later < d := by
  constructor
  · rintro ⟨entry, hentry, rfl⟩
    obtain ⟨hstored, hlive⟩ := getElem?_purge_eq_some.mp hentry
    exact ⟨deadline entry, h.recorded k entry hstored, hlive⟩
  · rintro ⟨d, hd, hlive⟩
    obtain ⟨entry, hentry, hvalue, -⟩ := (h.purge hle).kept k b d hd hlive
    exact ⟨entry, hentry, hvalue⟩

end

end Fluvora.Expiry
