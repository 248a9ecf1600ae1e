import Mathlib

/-!
# Calls on their way

A system that interleaves requests keeps them in a list, by the order in which they were made: a new
one is appended, and one that takes a step is overwritten.  The file says what is found at a place of
such a list afterwards.
-/

namespace Fluvora.Calls

variable {α : Type} {calls : List α} {i k : ℕ} {a b : α}

theorem getElem?_append_singleton :
    (calls ++ [a])[i]? = some b ↔ calls[i]? = some b ∨ i = calls.length ∧ b = a := by
  rw [List.getElem?_append]
  split_ifs with hlt
  · simp [hlt.ne]
  · rw [List.getElem?_singleton, List.getElem?_eq_none (Nat.not_lt.mp hlt)]
    split_ifs with hzero
    · have hi : i = calls.length := by omega
      simp [hi, eq_comm]
    · have hi : i ≠ calls.length := by omega
      simp [hi]

theorem getElem?_set (h : calls[k]? = some a) :
    (calls.set k b)[i]? = if i = k then some b else calls[i]? := by
  obtain ⟨hlt, -⟩ := List.getElem?_eq_some_iff.mp h
  rw [List.getElem?_set]
  by_cases heq : k = i
  · simp [heq, heq ▸ hlt]
  · simp [heq, Ne.symm heq]

theorem getElem?_set_self (h : calls[k]? = some a) : (calls.set k b)[k]? = some b := by
  rw [getElem?_set h, if_pos rfl]

theorem getElem?_set_of_ne (h : i ≠ k) : (calls.set k b)[i]? = calls[i]? :=
  List.getElem?_set_ne h.symm

/-- A place of the list is the one that was overwritten, or it is as before. -/
theorem getElem?_set_eq_some {c : α} (h : (calls.set k b)[i]? = some c) :
    i = k ∧ c = b ∨ i ≠ k ∧ calls[i]? = some c := by
  by_cases heq : i = k
  · subst heq
    rw [List.getElem?_set] at h
    simp only [if_true] at h
    split_ifs at h
    exact .inl ⟨rfl, (Option.some.inj h).symm⟩
  · rw [getElem?_set_of_ne heq] at h
    exact .inr ⟨heq, h⟩

/-- Every other element of the list is still there. -/
theorem mem_set_of_mem (h : calls[k]? = some a) {c : α} (hmem : c ∈ calls) (hne : c ≠ a) :
    c ∈ calls.set k b := by
  obtain ⟨i, hi⟩ := List.getElem?_of_mem hmem
  have hik : i ≠ k := by
    rintro rfl
    rw [h] at hi
    exact hne (Option.some.inj hi).symm
  exact List.mem_of_getElem? (by rw [getElem?_set_of_ne hik, hi])

theorem modify_eq_set (h : calls[k]? = some a) (f : α → α) : calls.modify k f = calls.set k (f a) := by
  refine List.ext_getElem? fun i => ?_
  rw [List.getElem?_modify, getElem?_set h]
  by_cases heq : k = i
  · subst heq
    simp [h]
  · simp [heq, Ne.symm heq]

theorem modify_set_comm (h : i ≠ k) (f : α → α) :
    (calls.set k b).modify i f = (calls.modify i f).set k b := by
  refine List.ext_getElem? fun j => ?_
  rw [List.getElem?_modify, List.getElem?_set, List.getElem?_set, List.getElem?_modify,
    List.length_modify]
  by_cases hk : k = j
  · subst hk
    simp [h]
  · simp [hk]

theorem set_self (h : calls[k]? = some a) : calls.set k a = calls := by
  refine List.ext_getElem? fun i => ?_
  rw [getElem?_set h]
  split_ifs with heq
  · rw [heq, h]
  · rfl

end Fluvora.Calls
