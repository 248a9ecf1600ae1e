import Mathlib

/-!
# Bounded histories

An idempotency history is a set of keys together with the queue of their arrival: a new key joins
both, and when the queue outgrows its limit the oldest keys leave both.  `History.Tracks` is the
invariant that ties the two together, and `tracks_remember` says that remembering a key keeps it.
The queue holds the newest keys (`order_remember`), so keys that the set lets pass are `Spaced`.
-/

open Std (ExtTreeMap ExtTreeSet TransOrd LawfulEqOrd)

namespace Fluvora.History

variable {α : Type} [Ord α] [TransOrd α]

/-- Drop the oldest keys until the queue is within the limit. -/
def evict (limit : ℕ) : ExtTreeSet α → List α → ExtTreeSet α × List α
  | seen, [] => (seen, [])
  | seen, expired :: order =>
      if limit < (expired :: order).length then evict limit (seen.erase expired) order
      else (seen, expired :: order)

/-- Record a key, unless it is known, and keep the history within its limit. -/
def remember (limit : ℕ) (seen : ExtTreeSet α) (order : List α) (key : α) :
    ExtTreeSet α × List α :=
  if key ∈ seen then evict limit seen order
  else evict limit (seen.insert key) (order ++ [key])

/-- The set holds exactly the queued keys, each queued once. -/
structure Aligned (seen : ExtTreeSet α) (order : List α) : Prop where
  nodup : order.Nodup
  mem_iff : ∀ key, key ∈ seen ↔ key ∈ order

/-- An aligned history within its limit. -/
structure Tracks (limit : ℕ) (seen : ExtTreeSet α) (order : List α) : Prop
    extends Aligned seen order where
  bounded : order.length ≤ limit

theorem tracks_empty (limit : ℕ) : Tracks limit (∅ : ExtTreeSet α) [] where
  nodup := List.nodup_nil
  mem_iff key := by simp
  bounded := Nat.zero_le _

/-- A queue within its limit is left alone. -/
theorem evict_of_le {limit : ℕ} (seen : ExtTreeSet α) {order : List α} (h : order.length ≤ limit) :
    evict limit seen order = (seen, order) := by
  cases order with
  | nil => rfl
  | cons expired order => rw [evict, if_neg (by omega)]

theorem evict_suffix (limit : ℕ) (seen : ExtTreeSet α) (order : List α) :
    (evict limit seen order).2 <:+ order := by
  induction order generalizing seen with
  | nil => exact List.suffix_rfl
  | cons expired order ih =>
    rw [evict]
    split_ifs
    · exact (ih _).trans (List.suffix_cons _ _)
    · exact List.suffix_rfl

theorem length_evict_le (limit : ℕ) (seen : ExtTreeSet α) (order : List α) :
    (evict limit seen order).2.length ≤ limit := by
  induction order generalizing seen with
  | nil => exact Nat.zero_le _
  | cons expired order ih =>
    rw [evict]
    split_ifs with h
    · exact ih _
    · exact Nat.not_lt.1 h

/-- Eviction only shortens a queue that is over the limit, and then to the limit exactly. -/
theorem min_le_length_evict (limit : ℕ) (seen : ExtTreeSet α) (order : List α) :
    min limit order.length ≤ (evict limit seen order).2.length := by
  induction order generalizing seen with
  | nil => simp
  | cons expired order ih =>
    rw [evict]
    split_ifs with h
    · have := ih (seen.erase expired)
      simp only [List.length_cons] at h ⊢
      omega
    · exact min_le_right _ _

/-- The newest keys are kept. -/
theorem order_evict (limit : ℕ) (seen : ExtTreeSet α) (order : List α) :
    (evict limit seen order).2 = order.rtake limit := by
  induction order generalizing seen with
  | nil => simp [evict]
  | cons expired order ih =>
    rw [evict]
    split_ifs with h
    · rw [List.length_cons] at h
      rw [ih, List.rtake, List.rtake, List.length_cons,
        show order.length + 1 - limit = order.length - limit + 1 by omega, List.drop_succ_cons]
    · rw [List.rtake, Nat.sub_eq_zero_of_le (Nat.not_lt.mp h), List.drop_zero]

/-- If the queue holds the newest of all keys, it does so with a new one. -/
theorem order_remember {limit : ℕ} {seen : ExtTreeSet α} {keys : List α} {key : α}
    (fresh : key ∉ seen) :
    (remember limit seen (keys.rtake limit) key).2 = (keys ++ [key]).rtake limit := by
  rw [remember, if_neg fresh, order_evict]
  simp only [List.rtake, List.length_append, List.length_drop, List.length_singleton]
  rcases Nat.lt_or_ge keys.length limit with hlt | hge
  · rw [show keys.length - limit = 0 by omega, List.drop_zero]
    rfl
  · rw [List.drop_append, List.drop_append, List.drop_drop, List.length_drop]
    congr 2 <;> omega

/-- A key comes again only behind more than `limit` later ones. -/
def Spaced (limit : ℕ) (keys : List α) : Prop :=
  ∀ i j key, i < j → keys[i]? = some key → keys[j]? = some key → i + limit < j

omit [Ord α] [TransOrd α] in
theorem spaced_append {limit : ℕ} {keys : List α} {key : α} (h : Spaced limit keys)
    (fresh : key ∉ keys.rtake limit) : Spaced limit (keys ++ [key]) := by
  intro i j a hij hi hj
  have hj' : j < (keys ++ [key]).length := (List.getElem?_eq_some_iff.mp hj).1
  rw [List.length_append, List.length_singleton] at hj'
  rw [List.getElem?_append_left (by omega)] at hi
  rcases Nat.lt_or_ge j keys.length with hlt | hge
  · rw [List.getElem?_append_left hlt] at hj
    exact h i j a hij hi hj
  · have hlast : j = keys.length := by omega
    rw [hlast, List.getElem?_concat_length, Option.some.injEq] at hj
    by_contra hnear
    apply fresh
    rw [hj, List.rtake, List.mem_iff_getElem?]
    refine ⟨i - (keys.length - limit), ?_⟩
    rw [List.getElem?_drop, ← hi]
    congr 1
    omega

theorem mem_of_mem_remember {limit : ℕ} {seen : ExtTreeSet α} {order : List α} {key other : α}
    (h : other ∈ (remember limit seen order key).2) : other ∈ order ∨ other = key := by
  unfold remember at h
  split_ifs at h
  · exact Or.inl ((evict_suffix _ _ _).subset h)
  · have := (evict_suffix _ _ _).subset h
    simpa using this

/-- Right after a key is remembered the queue is not empty, provided it was not before or the key
is new. -/
theorem remember_ne_nil {limit : ℕ} (pos : 0 < limit) {seen : ExtTreeSet α} {order : List α}
    (key : α) (h : key ∈ seen → order ≠ []) : (remember limit seen order key).2 ≠ [] := by
  unfold remember
  split_ifs with known
  · have := min_le_length_evict limit seen order
    have := List.length_pos_iff.2 (h known)
    apply List.ne_nil_of_length_pos
    omega
  · have := min_le_length_evict limit (seen.insert key) (order ++ [key])
    rw [List.length_append, List.length_singleton] at this
    apply List.ne_nil_of_length_pos
    omega

section Lawful

variable [LawfulEqOrd α]

theorem aligned_evict (limit : ℕ) {seen : ExtTreeSet α} {order : List α}
    (h : Aligned seen order) :
    Aligned (evict limit seen order).1 (evict limit seen order).2 := by
  induction order generalizing seen with
  | nil => exact h
  | cons expired order ih =>
    rw [evict]
    split_ifs
    · apply ih
      obtain ⟨fresh, nodup⟩ := List.nodup_cons.1 h.nodup
      refine ⟨nodup, fun key => ?_⟩
      rw [ExtTreeSet.mem_erase, Ne, Std.compare_eq_iff_eq, h.mem_iff, List.mem_cons]
      constructor
      · rintro ⟨ne, rfl | mem⟩
        · exact absurd rfl ne
        · exact mem
      · intro mem
        exact ⟨fun e => fresh (e ▸ mem), Or.inr mem⟩
    · exact h

theorem aligned_insert {seen : ExtTreeSet α} {order : List α} (h : Aligned seen order) {key : α}
    (fresh : key ∉ seen) : Aligned (seen.insert key) (order ++ [key]) where
  nodup := by
    rw [h.mem_iff] at fresh
    rw [List.nodup_append]
    refine ⟨h.nodup, List.nodup_singleton key, ?_⟩
    rintro a ha b hb rfl
    exact fresh (List.mem_singleton.1 hb ▸ ha)
  mem_iff other := by
    rw [ExtTreeSet.mem_insert, Std.compare_eq_iff_eq, h.mem_iff, List.mem_append,
      List.mem_singleton, or_comm, eq_comm]

/-- Remembering a key keeps the set and the queue aligned and bounded. -/
theorem tracks_remember {limit : ℕ} {seen : ExtTreeSet α} {order : List α}
    (h : Tracks limit seen order) (key : α) :
    Tracks limit (remember limit seen order key).1 (remember limit seen order key).2 := by
  unfold remember
  split_ifs with known
  · exact ⟨aligned_evict limit h.toAligned, length_evict_le _ _ _⟩
  · exact ⟨aligned_evict limit (aligned_insert h.toAligned known), length_evict_le _ _ _⟩

/-- The set is determined by the queue. -/
theorem Aligned.eq_ofList {seen : ExtTreeSet α} {order : List α} (h : Aligned seen order) :
    seen = ExtTreeSet.ofList order compare := by
  classical
  apply ExtTreeSet.ext_mem
  intro key
  rw [h.mem_iff, ExtTreeSet.mem_ofList]
  simp

theorem Aligned.size_ofList {seen : ExtTreeSet α} {order : List α} (h : Aligned seen order) :
    (ExtTreeSet.ofList order compare).size = order.length := by
  apply ExtTreeSet.size_ofList
  simp only [Std.compare_eq_iff_eq]
  exact h.nodup

end Lawful

end Fluvora.History
