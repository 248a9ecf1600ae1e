import Fluvora.ApiServer.Restart

/-!
# Remembering side effects

`remember_side_effect` of `crates/services/api-server` on both backends.  With PostgreSQL the database
is asked first and the room changes only behind its answer, which nothing can refuse any more.  With
files the room is changed in place, then its snapshot is written, and nothing takes the change back if
that fails: the error is reported, and the next attempt finds the side effect remembered and succeeds
without a snapshot.

The transaction of `mark_side_effect` is an input, its answer and what becomes of the lock behind it.
-/

open Std (ExtTreeMap ExtTreeSet)

namespace Fluvora.ApiServer

open Domain

/-- Where rooms are persisted, with what the environment does during the call. -/
inductive Backend
  | files (io : FileIo)
  | postgres (marked : Except ApiError Unit) (locked : Except ApiError Unit)

def ApiState.install (state : ApiState) (roomId : RoomId) (managed : ManagedRoom) : ApiState :=
  { state with rooms := state.rooms.insert roomId managed }

theorem getElem?_install (state : ApiState) (roomId : RoomId) (managed : ManagedRoom) :
    (state.install roomId managed).rooms[roomId]? = some managed :=
  ExtTreeMap.getElem?_insert_self

/-- Records a side effect without a revision of its own. -/
def rememberBoundedSideEffect (managed : ManagedRoom) (commandId : CommandId) : ManagedRoom :=
  if commandId ∈ managed.sideEffectCommands then pruneSideEffects managed
  else pruneSideEffects { managed with
    sideEffectCommands := managed.sideEffectCommands.insert commandId
    sideEffectOrder := managed.sideEffectOrder ++ [commandId] }

/-- The branch of `remember_side_effect` for PostgreSQL. -/
def rememberMarkedSideEffect (marked locked : Except ApiError Unit) (roomId : RoomId)
    (commandId : CommandId) : Fallible ApiState ApiError Unit := do
  Fallible.ofExcept marked
  Fallible.ofExcept locked
  let state ← Fallible.get
  let managed ← Fallible.ofOption state.rooms[roomId]? roomNotFound
  Fallible.set
    { state with rooms := state.rooms.insert roomId (rememberBoundedSideEffect managed commandId) }

section

variable (toVec : PersistedRoom → List UInt8)

def rememberSideEffectWith (backend : Backend) (roomId : RoomId) (commandId : CommandId) :
    Fallible ApiState ApiError Unit :=
  match backend with
  | .files io => rememberSideEffect toVec io roomId commandId
  | .postgres marked locked => rememberMarkedSideEffect marked locked roomId commandId

/-- The room with the side effect, before its revision is advanced. -/
def ManagedRoom.noted (managed : ManagedRoom) (commandId : CommandId) : ManagedRoom :=
  { managed with
    sideEffectCommands := managed.sideEffectCommands.insert commandId
    sideEffectOrder := managed.sideEffectOrder ++ [commandId] }

/-- The room that is written to a snapshot. -/
def ManagedRoom.advanced (managed : ManagedRoom) (commandId : CommandId) (revision : UInt64) :
    ManagedRoom :=
  pruneSideEffects { managed.noted commandId with persistenceRevision := revision }

/-- The snapshot of a room can be written: it is within the limit, and either the file exists with
the same bytes or the file system makes it. -/
def CanPersist (io : FileIo) (directory : Directory) (roomId : RoomId) (managed : ManagedRoom) :
    Prop :=
  (toVec (persistedRoom roomId managed)).length ≤ maxRoomSnapshotBytes ∧
    match (directory.snapshots roomId)[managed.persistenceRevision]? with
    | some existing => existing = toVec (persistedRoom roomId managed)
    | none => (io.opens && io.writes && io.renames) = true

/-- The files backend is to note a new side effect of a room, and cannot: there is no revision left,
or no snapshot can be written. -/
def CannotNote (state : ApiState) (backend : Backend) (roomId : RoomId) (commandId : CommandId) :
    Prop :=
  ∃ io managed, backend = .files io ∧ state.rooms[roomId]? = some managed ∧
    commandId ∉ managed.sideEffectCommands ∧
    ∀ revision, checkedSucc managed.persistenceRevision = some revision →
      ¬CanPersist toVec io state.directory roomId (managed.advanced commandId revision)

variable {toVec} {state : ApiState} {io : FileIo} {roomId : RoomId} {commandId : CommandId}

/-! ## Writing a snapshot -/

theorem persistManagedRoom_isOk_iff {managed : ManagedRoom} :
    ((persistManagedRoom toVec io roomId managed).run state).1 = .ok () ↔
      CanPersist toVec io state.directory roomId managed := by
  unfold persistManagedRoom CanPersist
  dsimp only
  rw [Fallible.run_ensure_bind]
  split_ifs with hlength
  · rw [Fallible.run_get_bind]
    cases hexisting : (state.directory.snapshots roomId)[managed.persistenceRevision]? with
    | some existing =>
      dsimp only
      rw [Fallible.run_ensure]
      split_ifs with hsame
      · simp [hlength, hsame.2]
      · rw [iff_false_left (by simp)]
        rintro ⟨-, rfl⟩
        exact hsame ⟨hlength, rfl⟩
    | none =>
      dsimp only
      rw [Fallible.run_ensure_bind]
      split_ifs with hio
      · simp [hlength, hio]
      · simp [hlength, hio]
  · simp [hlength]

/-! ## The two backends -/

theorem checkedSucc_ne (n : UInt64) : checkedSucc n ≠ some n := by
  unfold checkedSucc
  split_ifs
  · simp
  · simp

/-- A new side effect is in the room before anything can fail. -/
theorem rememberSideEffect_fresh {managed : ManagedRoom} (hroom : state.rooms[roomId]? = some managed)
    (hfresh : commandId ∉ managed.sideEffectCommands) :
    (rememberSideEffect toVec io roomId commandId).run state =
      match checkedSucc managed.persistenceRevision with
      | none => (.error revisionExhausted, state.install roomId (managed.noted commandId))
      | some revision =>
          (persistManagedRoom toVec io roomId (managed.advanced commandId revision)).run
            ((state.install roomId (managed.noted commandId)).install roomId
              (managed.advanced commandId revision)) := by
  unfold rememberSideEffect
  rw [Fallible.run_get_bind, Fallible.run_ofOption_bind, hroom]
  dsimp only
  rw [if_neg hfresh, Fallible.run_modify_bind, Fallible.run_ofOption_bind]
  cases checkedSucc managed.persistenceRevision with
  | none => rfl
  | some revision => rfl

/-- If the side effect cannot be noted, the call fails and the room has it. -/
theorem rememberSideEffect_of_cannotNote
    (h : CannotNote toVec state (.files io) roomId commandId) :
    ∃ error after, (rememberSideEffect toVec io roomId commandId).run state = (.error error, after) ∧
      after.rooms ≠ state.rooms := by
  obtain ⟨_, managed, hbackend, hroom, hfresh, hpersist⟩ := h
  cases hbackend
  rw [rememberSideEffect_fresh hroom hfresh]
  rcases hrevision : checkedSucc managed.persistenceRevision with _ | revision
  · refine ⟨_, _, rfl, fun hsame => hfresh ?_⟩
    have hnoted := getElem?_install state roomId (managed.noted commandId)
    rw [hsame, hroom, Option.some.injEq] at hnoted
    rw [hnoted]
    exact ExtTreeSet.mem_insert_self
  · have hfails := hpersist revision hrevision
    have hisOk := @persistManagedRoom_isOk_iff toVec ((state.install roomId
      (managed.noted commandId)).install roomId (managed.advanced commandId revision)) io roomId
      (managed.advanced commandId revision)
    dsimp only
    rcases hrun : (persistManagedRoom toVec io roomId (managed.advanced commandId revision)).run
      ((state.install roomId (managed.noted commandId)).install roomId
        (managed.advanced commandId revision)) with ⟨error | _, after⟩
    · refine ⟨error, after, rfl, fun hsame => ?_⟩
      have hrooms := persistManagedRoom_rooms toVec hrun
      have hadvanced := getElem?_install (state.install roomId (managed.noted commandId)) roomId
        (managed.advanced commandId revision)
      rw [← hrooms, hsame, hroom, Option.some.injEq] at hadvanced
      -- the revision tells the two rooms apart
      have hnext : managed.persistenceRevision = revision :=
        congrArg ManagedRoom.persistenceRevision hadvanced
      rw [hnext] at hrevision
      exact checkedSucc_ne revision hrevision
    · rw [hrun] at hisOk
      exact absurd (hisOk.mp rfl) hfails

/-- Any other call on files that fails has found no room. -/
theorem rememberSideEffect_error {error : ApiError} {after : ApiState}
    (hnote : ¬CannotNote toVec state (.files io) roomId commandId)
    (h : (rememberSideEffect toVec io roomId commandId).run state = (.error error, after)) :
    after.rooms = state.rooms := by
  cases hroom : state.rooms[roomId]? with
  | none =>
    unfold rememberSideEffect at h
    rw [Fallible.run_get_bind, Fallible.run_ofOption_bind, hroom] at h
    rw [← (Prod.mk.inj h).2]
  | some managed =>
    by_cases hknown : commandId ∈ managed.sideEffectCommands
    · unfold rememberSideEffect at h
      rw [Fallible.run_get_bind, Fallible.run_ofOption_bind, hroom] at h
      dsimp only at h
      rw [if_pos hknown] at h
      cases h
    · refine absurd ⟨io, managed, rfl, hroom, hknown, fun revision hrevision hpersist => ?_⟩ hnote
      rw [rememberSideEffect_fresh hroom hknown, hrevision] at h
      dsimp only at h
      have hisOk := @persistManagedRoom_isOk_iff toVec ((state.install roomId
        (managed.noted commandId)).install roomId (managed.advanced commandId revision)) io roomId
        (managed.advanced commandId revision)
      rw [h] at hisOk
      cases hisOk.mpr hpersist

/-- With PostgreSQL nothing fails behind the change. -/
theorem rememberMarkedSideEffect_error {marked locked : Except ApiError Unit} {error : ApiError}
    {after : ApiState}
    (h : (rememberMarkedSideEffect marked locked roomId commandId).run state =
      (.error error, after)) : after = state := by
  unfold rememberMarkedSideEffect at h
  rw [Fallible.run_ofExcept_bind] at h
  cases marked with
  | error => exact (Prod.mk.inj h).2.symm
  | ok =>
    dsimp only at h
    rw [Fallible.run_ofExcept_bind] at h
    cases locked with
    | error => exact (Prod.mk.inj h).2.symm
    | ok =>
      dsimp only at h
      rw [Fallible.run_get_bind, Fallible.run_ofOption_bind] at h
      cases hroom : state.rooms[roomId]? with
      | none =>
        rw [hroom] at h
        exact (Prod.mk.inj h).2.symm
      | some managed =>
        rw [hroom] at h
        cases h

end

/-- A call that fails leaves the rooms as they are, exactly if it is not one on files for a side
effect that is new to its room and cannot be noted there. -/
theorem rememberSideEffect_atomic_iff (toVec : PersistedRoom → List UInt8) (backend : Backend)
    (roomId : RoomId) (commandId : CommandId) (state : ApiState) :
    (∀ error after, (rememberSideEffectWith toVec backend roomId commandId).run state =
        (.error error, after) → after.rooms = state.rooms) ↔
      ¬CannotNote toVec state backend roomId commandId := by
  cases backend with
  | files io =>
    constructor
    · intro hatomic hnote
      obtain ⟨error, after, hrun, hchanged⟩ := rememberSideEffect_of_cannotNote hnote
      exact hchanged (hatomic error after hrun)
    · intro hnote error after hrun
      exact rememberSideEffect_error hnote hrun
  | postgres marked locked =>
    constructor
    · rintro - ⟨io, managed, hbackend, -⟩
      cases hbackend
    · intro _ error after hrun
      rw [rememberMarkedSideEffect_error hrun]

/-- A file system on which nothing is written. -/
def fullIo : FileIo := ⟨true, false, true, fun _ => true⟩

/-- A side effect whose snapshot is not written is remembered all the same, so that the next attempt
succeeds and still writes none. -/
theorem rememberSideEffect_keeps_failed :
    let first := (rememberSideEffectWith (hostOnlyJson 10) (.files fullIo) 1 7).run sampleCreated.2
    let second := (rememberSideEffectWith (hostOnlyJson 10) (.files goodIo) 1 7).run first.2
    first.1 = .error stateIoError ∧
      (sampleCreated.2.rooms[(1 : RoomId)]?.map ManagedRoom.sideEffectOrder) = some [] ∧
      (first.2.rooms[(1 : RoomId)]?.map ManagedRoom.sideEffectOrder) = some [7] ∧
      second.1 = .ok () ∧
      (second.2.directory[(1 : RoomId)]?.map (·.keys)) =
        (sampleCreated.2.directory[(1 : RoomId)]?.map (·.keys)) := by
  decide +kernel

end Fluvora.ApiServer
