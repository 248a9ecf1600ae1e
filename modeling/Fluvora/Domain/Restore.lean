import Fluvora.Domain.Invariants

/-!
# Restoring a room

Both ways back from storage give the live room again.  Replaying the emitted events repeats the
very updates the live room made (`restore_run`).  A snapshot drops the sets that the queues
determine and lists the maps; for a well-formed room every check of `restoreSnapshot` passes and
the maps and sets are rebuilt exactly (`restoreSnapshot_snapshot`).
-/

open Std (ExtTreeMap ExtTreeSet)

namespace Fluvora.Domain.Room

/-! ## From the event stream -/

/-- Replaying the events of a run from the room it started in reaches the room it ended in. -/
theorem replay_emittedAll (room : Room) (requests : List Request) :
    room.replay (room.emittedAll requests) = .ok (room.run requests) := by
  induction requests generalizing room with
  | nil => rfl
  | cons request requests ih =>
    obtain ⟨same, silent⟩ | ⟨kind, -, applied, emitted⟩ := step_cases room request
    · rw [emittedAll, silent, List.nil_append, run_cons, same]
      exact ih room
    · rw [emittedAll, emitted, List.singleton_append, replay, if_neg (by simp [eventOf]),
        ← applied, ih, run_cons]

/-- The emitted events, the creation first, restore the live room. -/
theorem restore_run (id : RoomId) (mode : RoomMode) (host : UserId) (policy : RoomPolicy)
    (commandId : CommandId) (timestampMillis : UInt64) (requests : List Request) :
    let created := create id mode host policy commandId timestampMillis
    restore id mode policy (created.2 :: created.1.emittedAll requests) =
      .ok (created.1.run requests) := by
  intro created
  have first : created.2.kind = .created host mode := rfl
  have next : created.2.sequence = (empty id mode policy).sequence + 1 := rfl
  simp only [restore, List.head?_cons, first, beq_self_eq_true, if_true]
  rw [replay, if_neg (by simp [next])]
  exact replay_emittedAll created.1 requests

/-! ## From a snapshot -/

theorem ofList_toList_members (members : ExtTreeMap UserId MemberRole) :
    ExtTreeMap.ofList members.toList compare = members := by
  apply ExtTreeMap.ext_getElem?
  intro user
  rcases found : members[user]? with _ | role
  · apply ExtTreeMap.getElem?_ofList_of_contains_eq_false
    rw [ExtTreeMap.map_fst_toList_eq_keys]
    simp only [List.contains_eq_mem, decide_eq_false_iff_not, ExtTreeMap.mem_keys]
    rw [ExtTreeMap.mem_iff_isSome_getElem?, found]
    decide
  · exact ExtTreeMap.getElem?_ofList_of_mem (by simp) ExtTreeMap.distinct_keys_toList
      (ExtTreeMap.mem_toList_iff_getElem?_eq_some.2 found)

theorem ofList_toList_publishers (publishers : ExtTreeSet UserId) :
    ExtTreeSet.ofList publishers.toList compare = publishers := by
  apply ExtTreeSet.ext_mem
  intro user
  rw [ExtTreeSet.mem_ofList]
  simp

/-- A unique host is the only entry with the host role. -/
theorem length_filter_host {host : UserId} {members : ExtTreeMap UserId MemberRole}
    (h : ∀ user, members[user]? = some MemberRole.host ↔ user = host) :
    (members.toList.filter (·.2 == MemberRole.host)).length = 1 := by
  have nodup : members.toList.Nodup := by
    apply List.Pairwise.imp _ ExtTreeMap.distinct_keys_toList
    rintro a b different rfl
    exact different (by simp)
  have mem : (host, MemberRole.host) ∈ members.toList :=
    ExtTreeMap.mem_toList_iff_getElem?_eq_some.2 ((h host).2 rfl)
  rw [← List.countP_eq_length_filter, ← List.count_eq_one_of_mem nodup mem, List.count]
  apply List.countP_congr
  rintro ⟨user, role⟩ listed
  have found := ExtTreeMap.mem_toList_iff_getElem?_eq_some.1 listed
  simp only [beq_iff_eq, Prod.mk.injEq]
  constructor
  · rintro rfl
    exact ⟨(h user).1 found, rfl⟩
  · exact fun both => both.2

section Snapshot

variable {host : UserId} {room : Room} (h : room.WellFormed host)

theorem memberMap_snapshot (room : Room) : room.snapshot.memberMap = room.members :=
  ofList_toList_members room.members

theorem publisherSet_snapshot (room : Room) : room.snapshot.publisherSet = room.publishers :=
  ofList_toList_publishers room.publishers

include h

theorem historiesValid_snapshot : room.snapshot.historiesValid = true := by
  have commands := h.commands
  have gifts := h.gifts
  simp only [RoomSnapshot.historiesValid, RoomSnapshot.processedCommands,
    RoomSnapshot.giftTransactions, snapshot, commands.size_ofList, gifts.size_ofList,
    beq_self_eq_true, Bool.and_eq_true, Bool.not_eq_true', List.all_eq_true, and_true]
  exact ⟨⟨⟨List.isEmpty_eq_false_iff.2 h.commands_ne_nil, decide_eq_true commands.bounded⟩,
    decide_eq_true gifts.bounded⟩, h.gifts_valid⟩

theorem membershipValid_snapshot : room.snapshot.membershipValid = true := by
  have nonempty : room.members.isEmpty = false := by
    rw [Bool.eq_false_iff, Ne, ExtTreeMap.isEmpty_iff]
    intro nobody
    have := (h.host_iff host).2 rfl
    rw [nobody] at this
    simp at this
  simp only [RoomSnapshot.membershipValid, memberMap_snapshot, length_filter_host h.host_iff,
    nonempty, Bool.and_eq_true, beq_iff_eq, decide_eq_true_eq]
  exact ⟨⟨⟨rfl, ExtTreeMap.length_toList.symm⟩, h.members_le⟩, trivial⟩

theorem publishersValid_snapshot : room.snapshot.publishersValid = true := by
  simp only [RoomSnapshot.publishersValid, memberMap_snapshot, publisherSet_snapshot,
    Bool.and_eq_true, beq_iff_eq, decide_eq_true_eq, List.all_eq_true, Bool.or_eq_true,
    Bool.not_eq_true']
  refine ⟨⟨⟨ExtTreeSet.length_toList.symm, h.publishers_le⟩, fun user publishing => ?_⟩, ?_⟩
  · obtain ⟨role, found, allowed⟩ := h.publishers_allowed user (ExtTreeSet.mem_toList.1 publishing)
    rw [found]
    exact allowed
  · rcases ended : room.ended with _ | _
    · exact Or.inl ended
    · right
      rw [h.ended_silent ended]
      rfl

/-- A well-formed room within the policy bounds survives its own snapshot. -/
theorem restoreSnapshot_snapshot (valid : room.policy.valid = true) :
    restoreSnapshot room.snapshot = .ok room := by
  have sequence : (room.sequence == 0) = false := by simpa using h.sequence_ne_zero
  have policy : room.snapshot.policy.valid = true := valid
  rw [restoreSnapshot, if_neg]
  · rw [memberMap_snapshot, publisherSet_snapshot]
    have commands : room.snapshot.processedCommands = room.processedCommands :=
      h.commands.eq_ofList.symm
    have gifts : room.snapshot.giftTransactions = room.giftTransactions := h.gifts.eq_ofList.symm
    rw [commands, gifts]
    rfl
  · simp only [policy, historiesValid_snapshot h, membershipValid_snapshot h,
      publishersValid_snapshot h]
    simp only [snapshot, sequence]
    decide

end Snapshot

/-- A room reached from its creation under a policy within the bounds is restored from its
snapshot exactly, so every later request gets the same answer from both. -/
theorem restoreSnapshot_run (id : RoomId) (mode : RoomMode) (host : UserId) (policy : RoomPolicy)
    (valid : policy.valid = true) (commandId : CommandId) (timestampMillis : UInt64)
    (requests : List Request) :
    let room := (create id mode host policy commandId timestampMillis).1.run requests
    ∃ restored, restoreSnapshot room.snapshot = .ok restored ∧ restored = room ∧
      ∀ more, restored.outcomes more = room.outcomes more := by
  intro room
  have wellFormed : room.WellFormed host :=
    wellFormed_run (wellFormed_create id mode host (one_le_maxMembers valid) _ _) requests
  have identity := sameIdentity_run (create id mode host policy commandId timestampMillis).1
    requests
  refine ⟨room, restoreSnapshot_snapshot wellFormed ?_, rfl, fun _ => rfl⟩
  rw [show room.policy = policy from identity.2.2]
  exact valid

/-- A room with the default policy, one guest and one publisher is restored from its snapshot. -/
theorem restoreSnapshot_run_default :
    RoomPolicy.default.valid = true ∧
      ∃ restored, restoreSnapshot ((create 1 .live 10 .default 1 100).1.run
        [⟨2, 101, .join 20⟩, ⟨3, 102, .startPublishing 10⟩]).snapshot = .ok restored :=
  ⟨by decide, (restoreSnapshot_run 1 .live 10 .default (by decide) 1 100 _).imp fun _ h => h.1⟩

end Fluvora.Domain.Room
