import Mathlib

/-!
# Finite maps

Facts about `ExtTreeMap` over a key type whose order decides equality: membership through lookup,
updates that change nothing, and sizes compared through the keys.
-/

open Std (ExtTreeMap TransOrd LawfulEqOrd)

namespace Fluvora.Maps

/-- The order of 128-bit identifiers. -/
instance transOrdId : TransOrd (BitVec 128) := inferInstance

instance lawfulEqOrdId : LawfulEqOrd (BitVec 128) := inferInstance

variable {κ α β : Type} [Ord κ] [TransOrd κ]

theorem mem_iff_exists {m : ExtTreeMap κ α} {k : κ} : k ∈ m ↔ ∃ a, m[k]? = some a := by
  rw [ExtTreeMap.mem_iff_isSome_getElem?, Option.isSome_iff_exists]

theorem not_mem_iff {m : ExtTreeMap κ α} {k : κ} : k ∉ m ↔ m[k]? = none := by
  rw [ExtTreeMap.mem_iff_isSome_getElem?, Option.not_isSome_iff_eq_none]

theorem mem_of_getElem? {m : ExtTreeMap κ α} {k : κ} {a : α} (h : m[k]? = some a) : k ∈ m :=
  mem_iff_exists.mpr ⟨a, h⟩

theorem nodup_keys (m : ExtTreeMap κ α) : m.keys.Nodup := by
  refine (ExtTreeMap.distinct_keys (t := m)).imp fun hne => ?_
  rintro rfl
  exact hne Std.compare_self

variable [LawfulEqOrd κ]

theorem getElem?_insert_of_ne {m : ExtTreeMap κ α} {k j : κ} {a : α} (h : k ≠ j) :
    (m.insert k a)[j]? = m[j]? := by
  rw [ExtTreeMap.getElem?_insert, if_neg]
  exact fun hkj => h (Std.LawfulEqCmp.eq_of_compare hkj)

/-- Inserting twice under one key keeps the second value. -/
theorem insert_insert_self (m : ExtTreeMap κ α) (k : κ) (a b : α) :
    (m.insert k a).insert k b = m.insert k b := by
  refine ExtTreeMap.ext_getElem? fun {j} => ?_
  simp only [ExtTreeMap.getElem?_insert]
  split_ifs <;> rfl

/-- Inserting the value that a key has already. -/
theorem insert_of_getElem? {m : ExtTreeMap κ α} {k : κ} {a : α} (h : m[k]? = some a) :
    m.insert k a = m := by
  refine ExtTreeMap.ext_getElem? fun {j} => ?_
  rw [ExtTreeMap.getElem?_insert]
  split_ifs with hj
  · rw [← Std.LawfulEqCmp.eq_of_compare hj, h]
  · rfl

/-- Inserting under a key that is taken changes nothing. -/
theorem insertIfNew_of_mem {m : ExtTreeMap κ α} {k : κ} {a : α} (h : k ∈ m) :
    m.insertIfNew k a = m := by
  refine ExtTreeMap.ext_getElem? fun {j} => ?_
  rw [ExtTreeMap.getElem?_insertIfNew, if_neg]
  exact fun hne => hne.2 h

/-- Inserting under a free key is an insertion. -/
theorem insertIfNew_of_not_mem {m : ExtTreeMap κ α} {k : κ} {a : α} (h : k ∉ m) :
    m.insertIfNew k a = m.insert k a := by
  refine ExtTreeMap.ext_getElem? fun {j} => ?_
  rw [ExtTreeMap.getElem?_insertIfNew, ExtTreeMap.getElem?_insert]
  by_cases hj : compare k j = .eq
  · rw [if_pos ⟨hj, h⟩, if_pos hj]
  · rw [if_neg fun hne => hj hne.1, if_neg hj]

/-- Erasing a free key changes nothing. -/
theorem erase_of_not_mem {m : ExtTreeMap κ α} {k : κ} (h : k ∉ m) : m.erase k = m := by
  refine ExtTreeMap.ext_getElem? fun {j} => ?_
  rw [ExtTreeMap.getElem?_erase]
  by_cases hj : compare k j = .eq
  · rw [if_pos hj, ← Std.LawfulEqCmp.eq_of_compare hj, not_mem_iff.mp h]
  · rw [if_neg hj]

/-- Erasing a key undoes what was inserted under it. -/
theorem erase_insert (m : ExtTreeMap κ α) (k : κ) (a : α) : (m.insert k a).erase k = m.erase k := by
  refine ExtTreeMap.ext_getElem? fun {j} => ?_
  rw [ExtTreeMap.getElem?_erase, ExtTreeMap.getElem?_erase, ExtTreeMap.getElem?_insert]
  split_ifs <;> rfl

/-- Maps with the same keys have the same size. -/
theorem size_eq_of_mem_iff {m : ExtTreeMap κ α} {n : ExtTreeMap κ β} (h : ∀ k, k ∈ m ↔ k ∈ n) :
    m.size = n.size := by
  have hkeys : m.map (fun _ _ => ()) = n.map (fun _ _ => ()) := by
    refine ExtTreeMap.ext_getElem? fun {k} => ?_
    rw [ExtTreeMap.getElem?_map, ExtTreeMap.getElem?_map]
    have := h k
    rw [mem_iff_exists, mem_iff_exists] at this
    rcases hm : m[k]? with _ | a <;> rcases hn : n[k]? with _ | b <;> simp_all
  calc m.size = (m.map fun _ _ => ()).size := ExtTreeMap.size_map.symm
    _ = (n.map fun _ _ => ()).size := by rw [hkeys]
    _ = n.size := ExtTreeMap.size_map

/-- A map whose keys inject into the naturals below `bound` has at most `bound` entries. -/
theorem size_le_of_forall_mem {m : ExtTreeMap κ α} (f : κ → ℕ)
    (hf : ∀ k ∈ m, ∀ j ∈ m, f k = f j → k = j) {bound : ℕ} (h : ∀ k ∈ m, f k < bound) :
    m.size ≤ bound := by
  have hnodup : (m.keys.map f).Nodup := by
    refine List.Nodup.map_on ?_ (nodup_keys m)
    intro k hk j hj
    exact hf k (ExtTreeMap.mem_keys.mp hk) j (ExtTreeMap.mem_keys.mp hj)
  have hsub : (m.keys.map f) ⊆ List.range bound := by
    intro n hn
    obtain ⟨k, hk, rfl⟩ := List.mem_map.mp hn
    exact List.mem_range.mpr (h k (ExtTreeMap.mem_keys.mp hk))
  have hlen := (hnodup.subperm hsub).length_le
  rwa [List.length_map, ExtTreeMap.length_keys, List.length_range] at hlen

/-- A map has at most as many entries as another one and a list of keys cover. -/
theorem size_le_add_of_mem {m : ExtTreeMap κ α} {n : ExtTreeMap κ β} {keys : List κ}
    (h : ∀ k ∈ m, k ∈ n ∨ k ∈ keys) : m.size ≤ n.size + keys.length := by
  have hsub : m.keys ⊆ n.keys ++ keys := by
    intro k hk
    rw [List.mem_append, ExtTreeMap.mem_keys]
    exact h k (ExtTreeMap.mem_keys.mp hk)
  have hlen := ((nodup_keys m).subperm hsub).length_le
  rwa [List.length_append, ExtTreeMap.length_keys, ExtTreeMap.length_keys] at hlen

/-- A map whose keys are keys of another one is not larger. -/
theorem size_le_of_subset {m : ExtTreeMap κ α} {n : ExtTreeMap κ β} (h : ∀ k ∈ m, k ∈ n) :
    m.size ≤ n.size := by
  have hcovered : ∀ k ∈ m, k ∈ n ∨ k ∈ ([] : List κ) := fun k hk => .inl (h k hk)
  exact size_le_add_of_mem hcovered

theorem getElem?_erase_of_ne {m : ExtTreeMap κ α} {k j : κ} (h : k ≠ j) :
    (m.erase k)[j]? = m[j]? := by
  rw [ExtTreeMap.getElem?_erase, if_neg]
  exact fun hkj => h (Std.LawfulEqCmp.eq_of_compare hkj)

theorem getElem?_erase_eq_some {m : ExtTreeMap κ α} {k j : κ} {a : α} :
    (m.erase k)[j]? = some a ↔ k ≠ j ∧ m[j]? = some a := by
  by_cases h : k = j
  · subst h
    simp
  · simp [getElem?_erase_of_ne h, h]

theorem mem_insert_iff {m : ExtTreeMap κ α} {k j : κ} {a : α} : j ∈ m.insert k a ↔ k = j ∨ j ∈ m := by
  rw [ExtTreeMap.mem_insert, Std.compare_eq_iff_eq]

theorem getElem?_insert_eq_some {m : ExtTreeMap κ α} {k j : κ} {a b : α} :
    (m.insert k a)[j]? = some b ↔ k = j ∧ a = b ∨ k ≠ j ∧ m[j]? = some b := by
  by_cases h : k = j
  · subst h
    simp
  · simp [getElem?_insert_of_ne h, h]

theorem getElem?_filter_eq_some {m : ExtTreeMap κ α} {f : κ → α → Bool} {k : κ} {a : α} :
    (m.filter f)[k]? = some a ↔ m[k]? = some a ∧ f k a = true := by
  rw [ExtTreeMap.getElem?_filter', Option.filter_eq_some_iff]

/-- What is looked up after a list of entries with different keys has been inserted. -/
theorem getElem?_foldl_insert {xs : List β} {key : β → κ} (value : β → α)
    (hnodup : (xs.map key).Nodup) (m : ExtTreeMap κ α) (k : κ) (a : α) :
    (xs.foldl (fun m x => m.insert (key x) (value x)) m)[k]? = some a ↔
      (∃ x ∈ xs, key x = k ∧ value x = a) ∨ (m[k]? = some a ∧ ∀ x ∈ xs, key x ≠ k) := by
  induction xs generalizing m with
  | nil => simp
  | cons x xs ih =>
    rw [List.map_cons, List.nodup_cons] at hnodup
    rw [List.foldl_cons, ih hnodup.2]
    by_cases hx : key x = k
    · subst hx
      have hfresh : ∀ y ∈ xs, key y ≠ key x := by
        intro y hy hyx
        exact hnodup.1 (List.mem_map.mpr ⟨y, hy, hyx⟩)
      rw [ExtTreeMap.getElem?_insert_self]
      constructor
      · rintro (⟨y, hy, hkey, -⟩ | ⟨hvalue, -⟩)
        · exact absurd hkey (hfresh y hy)
        · exact .inl ⟨x, by simp, rfl, by simpa using hvalue⟩
      · rintro (⟨y, hy, hkey, hvalue⟩ | ⟨-, hne⟩)
        · rcases List.mem_cons.mp hy with rfl | hy
          · exact .inr ⟨by rw [hvalue], hfresh⟩
          · exact absurd hkey (hfresh y hy)
        · exact absurd rfl (hne x (by simp))
    · rw [getElem?_insert_of_ne hx]
      simp [hx]

theorem getElem?_foldl_erase (xs : List β) (key : β → κ) (m : ExtTreeMap κ α) (k : κ) (a : α) :
    (xs.foldl (fun m x => m.erase (key x)) m)[k]? = some a ↔
      m[k]? = some a ∧ ∀ x ∈ xs, key x ≠ k := by
  induction xs generalizing m with
  | nil => simp
  | cons x xs ih =>
    rw [List.foldl_cons, ih]
    by_cases hx : key x = k
    · subst hx
      simp
    · rw [getElem?_erase_of_ne hx]
      simp [hx]

end Fluvora.Maps
