import Mathlib

/-!
# Bounded broadcast channels

A receiver of a broadcast channel gets what is sent after it has subscribed, one value after the other.
The channel keeps the last `capacity` values; a receiver that is further behind is told so, and goes on
with the oldest of them.

`Follows` is the invariant of a reader that gives on what it finds above its cursor.  The log is in
ascending order; up to the cursor the reader has given everything that is wanted, and what it has passed
by is not above the cursor.
-/

namespace Fluvora.Broadcast

variable {α : Type}

inductive Received (α : Type)
  | value (a : α)
  | lagged (missed : ℕ)

/-- What a receiver gets next, and its position after that. -/
def receive (capacity : ℕ) (sent : List α) (position : ℕ) : Option (Received α × ℕ) :=
  if position + capacity < sent.length then
    some (.lagged (sent.length - capacity - position), sent.length - capacity)
  else sent[position]?.map fun a => (.value a, position + 1)

theorem receive_eq_value {capacity position next : ℕ} {sent : List α} {a : α}
    (h : receive capacity sent position = some (.value a, next)) :
    sent[position]? = some a ∧ next = position + 1 := by
  unfold receive at h
  split_ifs at h with hbehind
  · cases h
  · obtain ⟨b, hget, heq⟩ := Option.map_eq_some_iff.mp h
    cases heq
    exact ⟨hget, rfl⟩

theorem receive_eq_lagged {capacity position missed next : ℕ} {sent : List α}
    (h : receive capacity sent position = some (.lagged missed, next)) :
    next = position + missed ∧ next ≤ sent.length := by
  unfold receive at h
  split_ifs at h with hbehind
  · cases h
    omega
  · obtain ⟨b, hget, heq⟩ := Option.map_eq_some_iff.mp h
    cases heq

/-! ## Following a log -/

structure Follows (key : α → ℕ) (wanted : α → Bool) (log : List α) (position cursor : ℕ)
    (given : List α) : Prop where
  given_eq : given = log.filter fun a => wanted a && key a ≤ cursor
  passed : ∀ a ∈ log.take position, wanted a = true → key a ≤ cursor

variable {key : α → ℕ} {wanted : α → Bool} {log given : List α} {position cursor : ℕ} {a : α}

/-- The reader starts with everything that is wanted. -/
theorem Follows.start (hgiven : given = log.filter wanted)
    (hcursor : ∀ a ∈ given, key a ≤ cursor) : Follows key wanted log position cursor given := by
  have hbelow : ∀ a ∈ log, wanted a = true → key a ≤ cursor := fun a ha hwanted =>
    hcursor a (hgiven ▸ List.mem_filter.mpr ⟨ha, hwanted⟩)
  refine ⟨?_, fun a ha => hbelow a (List.mem_of_mem_take ha)⟩
  rw [hgiven]
  refine List.filter_congr fun a ha => ?_
  by_cases hwanted : wanted a = true
  · simp [hwanted, hbelow a ha hwanted]
  · simp [hwanted]

theorem take_succ_eq (hget : log[position]? = some a) :
    log.take (position + 1) = log.take position ++ [a] := by
  rw [List.take_add_one, hget]
  rfl

/-- What is not wanted, or was given before, is passed by. -/
theorem Follows.skip (h : Follows key wanted log position cursor given)
    (hget : log[position]? = some a) (hcursor : wanted a = true → key a ≤ cursor) :
    Follows key wanted log (position + 1) cursor given := by
  refine ⟨h.given_eq, fun b hb hwanted => ?_⟩
  rw [take_succ_eq hget, List.mem_append, List.mem_singleton] at hb
  rcases hb with hb | rfl
  · exact h.passed b hb hwanted
  · exact hcursor hwanted

/-- What is above the cursor moves it, and is given on if it is wanted. -/
theorem Follows.advance (h : Follows key wanted log position cursor given)
    (hascending : log.Pairwise fun a b => key a < key b) (hget : log[position]? = some a)
    (hcursor : cursor < key a) :
    Follows key wanted log (position + 1) (key a)
      (given ++ if wanted a = true then [a] else []) := by
  have hsplit : log = log.take position ++ a :: log.drop (position + 1) := by
    obtain ⟨hlt, rfl⟩ := List.getElem?_eq_some_iff.mp hget
    rw [← List.drop_eq_getElem_cons hlt, List.take_append_drop]
  rw [hsplit, List.pairwise_append, List.pairwise_cons] at hascending
  obtain ⟨-, ⟨hrest, -⟩, hbefore⟩ := hascending
  have hpassed : (log.take position).filter (fun b => wanted b && key b ≤ key a) =
      (log.take position).filter fun b => wanted b && key b ≤ cursor := by
    refine List.filter_congr fun b hb => ?_
    have hlt := hbefore b hb a List.mem_cons_self
    have hread := h.passed b hb
    cases hwanted : wanted b with
    | false => rfl
    | true => simp [hlt.le, hread hwanted]
  have hlater : ∀ bound ≤ key a,
      (log.drop (position + 1)).filter (fun b => wanted b && key b ≤ bound) = [] := by
    intro bound hbound
    rw [List.filter_eq_nil_iff]
    intro b hb
    have hlt := hrest b hb
    simp only [Bool.and_eq_true, decide_eq_true_eq]
    omega
  refine ⟨?_, fun b hb hwanted => ?_⟩
  · have hgiven := h.given_eq
    rw [hsplit, List.filter_append, List.filter_cons_of_neg (by simp; omega),
      hlater cursor hcursor.le, List.append_nil] at hgiven
    rw [hsplit, List.filter_append, List.filter_cons, hlater (key a) le_rfl, hpassed, hgiven]
    simp
  · rw [take_succ_eq hget, List.mem_append, List.mem_singleton] at hb
    rcases hb with hb | rfl
    · exact (hbefore b hb a List.mem_cons_self).le
    · exact le_rfl

/-- The log may grow above the cursor. -/
theorem Follows.append (h : Follows key wanted log position cursor given)
    (hposition : position ≤ log.length) (hcursor : cursor < key a) :
    Follows key wanted (log ++ [a]) position cursor given := by
  refine ⟨?_, ?_⟩
  · rw [List.filter_append, List.filter_cons_of_neg (by simp; omega), List.filter_nil,
      List.append_nil]
    exact h.given_eq
  · rw [List.take_append_of_le_length hposition]
    exact h.passed

end Fluvora.Broadcast
