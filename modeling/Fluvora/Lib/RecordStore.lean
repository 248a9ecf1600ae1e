import Mathlib.Data.List.Basic

/-!
# A record and its snapshots

A record in memory that is stored as a snapshot with a number whenever it changes.  A restart restores
the newest snapshot that is accepted, and accepting may change a record.  `Recorded` says what a step
is to do with the two: nothing, or a newer record in both; `InSync` is what such steps keep.
-/

namespace Fluvora.RecordStore

variable {R : Type} (accept : R → Option R) (number : R → ℕ)

/-- The newest snapshot that is accepted; the newest is the first one. -/
def restore (snapshots : List R) : Option R := snapshots.findSome? accept

/-- The record in memory is the one that would be restored, and no snapshot is newer. -/
structure InSync (memory : Option R) (snapshots : List R) : Prop where
  restored : memory = restore accept snapshots
  accepted : ∀ record, memory = some record → accept record = some record
  newest : ∀ record, memory = some record → ∀ snapshot ∈ snapshots, number snapshot ≤ number record
  fresh : memory = none → snapshots = []

/-- Nothing has changed, or there is a newer record with its snapshot; older ones may be pruned. -/
inductive Recorded (memory : Option R) (snapshots : List R) : Option R → List R → Prop
  | unchanged : Recorded memory snapshots memory snapshots
  | stored (next : R) (count : ℕ) (hcount : count ≠ 0) (haccept : accept next = some next)
      (hnewer : ∀ record, memory = some record → number record ≤ number next) :
      Recorded memory snapshots (some next) ((next :: snapshots).take count)

variable {accept number} {memory memory' : Option R} {snapshots snapshots' : List R}

theorem inSync_nil : InSync accept number none [] :=
  ⟨rfl, nofun, nofun, fun _ => rfl⟩

theorem restore_cons_self {record : R} (haccept : accept record = some record) (snapshots : List R) :
    restore accept (record :: snapshots) = some record := by
  unfold restore
  rw [List.findSome?_cons, haccept]

theorem InSync.recorded (h : InSync accept number memory snapshots)
    (hrecorded : Recorded accept number memory snapshots memory' snapshots') :
    InSync accept number memory' snapshots' := by
  cases hrecorded with
  | unchanged => exact h
  | stored next count hcount haccept hnewer =>
    obtain ⟨count, rfl⟩ := Nat.exists_eq_succ_of_ne_zero hcount
    refine ⟨?_, ?_, ?_, nofun⟩
    · rw [List.take_succ_cons, restore_cons_self haccept]
    · rintro record ⟨⟩
      exact haccept
    · rintro record ⟨⟩ snapshot hsnapshot
      rw [List.take_succ_cons, List.mem_cons] at hsnapshot
      rcases hsnapshot with rfl | hsnapshot
      · exact Nat.le_refl _
      have hold := List.mem_of_mem_take hsnapshot
      cases hmemory : memory with
      | none =>
        rw [h.fresh hmemory] at hold
        cases hold
      | some record => exact Nat.le_trans (h.newest record hmemory snapshot hold) (hnewer record hmemory)

end Fluvora.RecordStore
