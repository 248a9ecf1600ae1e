import Mathlib

/-!
# Hash maps as their entries

A hash map promises nothing about the order in which it iterates.  Here it is the list of its entries
in some order, with no key twice.  Look-ups are read through `mem_toList`, and the number of entries
with a property through `count_of_get?` and `count_insert`, which say what one key adds to it.
-/

namespace Fluvora

/-- The entries of a map, in the order in which it iterates over them. -/
structure Entries (κ α : Type) where
  toList : List (κ × α)
  distinct : (toList.map Prod.fst).Nodup

namespace Entries

variable {κ α : Type}

theorem distinct_filter (m : Entries κ α) (keep : κ × α → Bool) :
    ((m.toList.filter keep).map Prod.fst).Nodup :=
  m.distinct.sublist (List.filter_sublist.map _)

def empty : Entries κ α := ⟨[], List.nodup_nil⟩

def size (m : Entries κ α) : ℕ := m.toList.length

/-- The number of entries with a property. -/
def count (m : Entries κ α) (p : κ → α → Bool) : ℕ := m.toList.countP fun entry => p entry.1 entry.2

theorem size_eq_count (m : Entries κ α) : m.size = m.count fun _ _ => true := by
  unfold size count
  rw [List.countP_true]

/-- What the entries come to together. -/
def total {M : Type} [AddCommMonoid M] (m : Entries κ α) (f : κ → α → M) : M :=
  (m.toList.map fun entry => f entry.1 entry.2).sum

/-- The entries that are kept, in their order. -/
def retain (m : Entries κ α) (keep : κ → α → Bool) : Entries κ α :=
  ⟨m.toList.filter fun entry => keep entry.1 entry.2, m.distinct_filter _⟩

variable [DecidableEq κ]

instance decidableEq [DecidableEq α] : DecidableEq (Entries κ α) := fun m n =>
  decidable_of_iff (m.toList = n.toList) ⟨fun h => by cases m; cases n; cases h; rfl, fun h => h ▸ rfl⟩

def get? (m : Entries κ α) (k : κ) : Option α :=
  (m.toList.find? fun entry => entry.1 = k).map Prod.snd

def erase (m : Entries κ α) (k : κ) : Entries κ α := m.retain fun j _ => j ≠ k

theorem distinct_insert (m : Entries κ α) (k : κ) (a : α) :
    (((k, a) :: (m.erase k).toList).map Prod.fst).Nodup := by
  rw [List.map_cons, List.nodup_cons]
  refine ⟨?_, (m.erase k).distinct⟩
  rw [List.mem_map]
  rintro ⟨entry, hentry, hkey⟩
  have hkept := (List.mem_filter.mp hentry).2
  simp [hkey] at hkept

/-- A new entry, or a new value for the key. -/
def insert (m : Entries κ α) (k : κ) (a : α) : Entries κ α :=
  ⟨(k, a) :: (m.erase k).toList, m.distinct_insert k a⟩

variable {m : Entries κ α} {k j : κ} {a b : α}

/-! ## Look-ups -/

theorem mem_toList : (k, a) ∈ m.toList ↔ m.get? k = some a := by
  obtain ⟨entries, hdistinct⟩ := m
  unfold get?
  dsimp only
  induction entries with
  | nil => simp
  | cons entry entries ih =>
    rw [List.map_cons, List.nodup_cons] at hdistinct
    rw [List.mem_cons, List.find?_cons]
    by_cases hkey : entry.1 = k
    · have hrest : (k, a) ∉ entries := by
        intro hmem
        exact hdistinct.1 (hkey ▸ List.mem_map_of_mem (f := Prod.fst) hmem)
      simp only [hkey, decide_true, Option.map_some, Option.some.injEq, hrest, or_false]
      rw [← hkey, Prod.ext_iff]
      simp [eq_comm]
    · have hne : (k, a) ≠ entry := fun heq => hkey (by rw [← heq])
      simp only [hkey, decide_false, hne, false_or]
      exact ih hdistinct.2

theorem get?_eq_none : m.get? k = none ↔ ∀ a, (k, a) ∉ m.toList := by
  rw [Option.eq_none_iff_forall_ne_some]
  exact forall_congr' fun a => not_congr mem_toList.symm

@[simp]
theorem get?_empty : (empty : Entries κ α).get? k = none := rfl

theorem get?_retain_eq_some {keep : κ → α → Bool} :
    (m.retain keep).get? k = some a ↔ m.get? k = some a ∧ keep k a = true := by
  rw [← mem_toList, ← mem_toList, retain, List.mem_filter]

theorem get?_erase_eq_some : (m.erase k).get? j = some a ↔ j ≠ k ∧ m.get? j = some a := by
  rw [erase, get?_retain_eq_some, decide_eq_true_eq, and_comm]

@[simp]
theorem get?_erase_self : (m.erase k).get? k = none := by
  rw [Option.eq_none_iff_forall_ne_some]
  intro a h
  exact (get?_erase_eq_some.mp h).1 rfl

theorem get?_erase_of_ne (h : j ≠ k) : (m.erase k).get? j = m.get? j := by
  apply Option.ext
  intro a
  rw [get?_erase_eq_some, and_iff_right h]

@[simp]
theorem get?_insert_self : (m.insert k a).get? k = some a := by
  rw [← mem_toList]
  exact List.mem_cons_self

theorem get?_insert_of_ne (h : j ≠ k) : (m.insert k a).get? j = m.get? j := by
  have hfind : (m.insert k a).get? j = (m.erase k).get? j := by
    unfold get? insert
    rw [List.find?_cons_of_neg (by simpa using Ne.symm h)]
  rw [hfind, get?_erase_of_ne h]

theorem get?_insert_eq_some :
    (m.insert k a).get? j = some b ↔ j = k ∧ a = b ∨ j ≠ k ∧ m.get? j = some b := by
  by_cases h : j = k
  · subst h
    simp
  · simp [get?_insert_of_ne h, h]

theorem erase_of_get?_eq_none (h : m.get? k = none) : m.erase k = m := by
  have hkept : ∀ entry ∈ m.toList, decide (entry.1 ≠ k) = true := by
    intro entry hentry
    rw [decide_eq_true_eq]
    rintro rfl
    exact get?_eq_none.mp h entry.2 hentry
  obtain ⟨entries, hdistinct⟩ := m
  simp only [erase, retain, mk.injEq]
  exact List.filter_eq_self.mpr hkept

theorem erase_insert_self : (m.insert k a).erase k = m.erase k := by
  simp only [erase, insert, retain, mk.injEq]
  rw [List.filter_cons_of_neg (by simp), List.filter_filter]
  simp only [Bool.and_self]

/-- An entry, and what is left without it. -/
theorem perm_of_get? (h : m.get? k = some a) : m.toList.Perm ((k, a) :: (m.erase k).toList) := by
  obtain ⟨entries, hdistinct⟩ := m
  unfold get? at h
  unfold erase retain
  dsimp only at h ⊢
  induction entries with
  | nil => simp at h
  | cons entry entries ih =>
    rw [List.map_cons, List.nodup_cons] at hdistinct
    rw [List.find?_cons] at h
    rw [List.filter_cons]
    by_cases hkey : entry.1 = k
    · have hrest : ∀ other ∈ entries, decide (other.1 ≠ k) = true := by
        intro other hother
        rw [decide_eq_true_eq, ← hkey]
        rintro heq
        exact hdistinct.1 (heq ▸ List.mem_map_of_mem (f := Prod.fst) hother)
      simp only [hkey, decide_true, Option.map_some, Option.some.injEq] at h
      have hentry : entry = (k, a) := Prod.ext hkey h
      rw [if_neg (by simp [hkey]), List.filter_eq_self.mpr hrest, hentry]
    · simp only [hkey, decide_false] at h
      rw [if_pos (by simp [hkey])]
      exact ((ih hdistinct.2 h).cons entry).trans (List.Perm.swap _ _ _)

/-! ## Numbers of entries -/

variable {p q : κ → α → Bool}

theorem count_insert :
    (m.insert k a).count p = (m.erase k).count p + if p k a = true then 1 else 0 := by
  unfold count insert
  rw [List.countP_cons]

/-- An entry is one of those with the property, besides what is left without it. -/
theorem count_of_get? (h : m.get? k = some a) :
    m.count p = (m.erase k).count p + if p k a = true then 1 else 0 := by
  unfold count
  rw [(perm_of_get? h).countP_eq, List.countP_cons]

theorem count_erase_of_get?_eq_none (h : m.get? k = none) : (m.erase k).count p = m.count p := by
  rw [erase_of_get?_eq_none h]

theorem count_retain_le {keep : κ → α → Bool} : (m.retain keep).count p ≤ m.count p :=
  List.filter_sublist.countP_le

/-- Entries that are not kept and have not the property are not missed. -/
theorem count_retain {keep : κ → α → Bool}
    (h : ∀ k a, m.get? k = some a → p k a = true → keep k a = true) :
    (m.retain keep).count p = m.count p := by
  unfold count retain
  rw [List.countP_filter]
  refine List.countP_congr fun entry hentry => ?_
  have hkept := h entry.1 entry.2 (mem_toList.mp hentry)
  simp only [Bool.and_eq_true, and_iff_left_iff_imp]
  exact hkept

/-! ## Totals -/

section

variable {M : Type} [AddCommMonoid M] {f : κ → α → M}

theorem total_insert : (m.insert k a).total f = f k a + (m.erase k).total f := by
  unfold total insert
  rw [List.map_cons, List.sum_cons]

theorem total_of_get? (h : m.get? k = some a) : m.total f = f k a + (m.erase k).total f := by
  unfold total
  rw [((perm_of_get? h).map _).sum_eq, List.map_cons, List.sum_cons]

end

end Entries

end Fluvora
