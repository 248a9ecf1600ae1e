import Fluvora.Domain.Room

/-!
# Room persistence of the API server

The files backend of `crates/services/api-server`: a managed room is the aggregate together with
the history of remembered side effects and a persistence revision, and every successful change
writes a snapshot file named by the room and the revision.  `createRoom`, `executeRoomCommand` and
`rememberSideEffect` follow the handlers below their HTTP and token layer; `managedFromPersisted`
is the restore path that a restart takes for each snapshot file.

`serde_json::to_vec` is the parameter `toVec`, and what the file system does during one call is a
`FileIo`.  The cached signals of a managed room are not persisted and no function here reads them,
so they are left out.
-/

open Std (ExtTreeMap ExtTreeSet)

namespace Fluvora.ApiServer

open Domain

def maxRoomSnapshotBytes : ℕ := 32 * 1024 * 1024

def sideEffectHistoryLimit : ℕ := 4096

structure ApiError where
  status : ℕ
  code : String
  message : String
deriving DecidableEq

def roomNotFound : ApiError := ⟨404, "room_not_found", "room does not exist"⟩

def domainError (error : RoomError) : ApiError := ⟨409, "room_command_rejected", error.display⟩

def stateIoError : ApiError :=
  ⟨507, "state_persistence_failed", "API state persistence failed"⟩

def corruptSnapshot (message : String) : ApiError := ⟨503, "corrupt_room_snapshot", message⟩

def revisionExhausted : ApiError :=
  ⟨503, "persistence_revision_exhausted", "room persistence revision exhausted"⟩

structure ManagedRoom where
  room : Room
  creationEvent : RoomEvent
  persistenceRevision : UInt64
  sideEffectCommands : ExtTreeSet CommandId
  sideEffectOrder : List CommandId
deriving DecidableEq

structure PersistedRoom where
  roomId : RoomId
  mode : RoomMode
  policy : RoomPolicy
  events : List RoomEvent
  state : Option RoomSnapshot
  creation : Option RoomEvent
  persistenceRevision : UInt64
  sideEffectOrder : List CommandId
deriving DecidableEq

/-- The stored creation event, or the first event of a legacy stream. -/
def PersistedRoom.creationEvent (persisted : PersistedRoom) : Option RoomEvent :=
  persisted.creation <|> persisted.events.head?

def persistedRoom (roomId : RoomId) (managed : ManagedRoom) : PersistedRoom where
  roomId := roomId
  mode := managed.room.mode
  policy := managed.room.policy
  events := []
  state := some managed.room.snapshot
  creation := some managed.creationEvent
  persistenceRevision := managed.persistenceRevision
  sideEffectOrder := managed.sideEffectOrder

/-- The creation event names the room's mode and its host, and is the first of the stream. -/
def validCreation (room : Room) (event : RoomEvent) : Bool :=
  match event.kind with
  | .created host mode =>
      event.sequence == 1 && mode == room.mode && room.members[host]? == some .host
  | _ => false

/-- Rebuilds a managed room from what a snapshot file holds. -/
def managedFromPersisted (persisted : PersistedRoom) : Except ApiError ManagedRoom :=
  if sideEffectHistoryLimit < persisted.sideEffectOrder.length ||
      (ExtTreeSet.ofList persisted.sideEffectOrder compare).size !=
        persisted.sideEffectOrder.length then
    .error (corruptSnapshot "room side-effect history is unbounded or contains duplicates")
  else
    match persisted.creationEvent with
    | none => .error (corruptSnapshot "room snapshot has no creation event")
    | some creationEvent =>
        let restored := match persisted.state with
          | some snapshot => Room.restoreSnapshot snapshot
          | none => Room.restore persisted.roomId persisted.mode persisted.policy persisted.events
        match restored with
        | .error error =>
            .error (corruptSnapshot s!"room state cannot be restored: {error.display}")
        | .ok room =>
            if room.id != persisted.roomId || room.mode != persisted.mode ||
                room.policy != persisted.policy ||
                room.sequence != persisted.persistenceRevision ||
                !validCreation room creationEvent then
              .error (corruptSnapshot "room state and persisted metadata disagree")
            else
              .ok {
                room
                creationEvent
                persistenceRevision := persisted.persistenceRevision
                sideEffectCommands := .ofList persisted.sideEffectOrder compare
                sideEffectOrder := persisted.sideEffectOrder }

/-! ## Snapshot files -/

/-- Snapshot files by room and revision: `snapshot_file_name` prints both injectively. -/
abbrev Directory := ExtTreeMap RoomId (ExtTreeMap UInt64 (List UInt8))

def Directory.snapshots (directory : Directory) (roomId : RoomId) :
    ExtTreeMap UInt64 (List UInt8) :=
  directory[roomId]?.getD ∅

/-- What the file system does during one call. -/
structure FileIo where
  opens : Bool
  writes : Bool
  renames : Bool
  removes : UInt64 → Bool

/-- Deletes all but the two newest snapshots up to the current revision; a file that cannot be
removed stays. -/
def pruneRoomSnapshots (io : FileIo) (directory : Directory) (roomId : RoomId)
    (currentRevision : UInt64) : Directory :=
  let snapshots := directory.snapshots roomId
  let stale := ((snapshots.keys.filter (· ≤ currentRevision)).reverse.drop 2).filter io.removes
  directory.insert roomId (stale.foldl (fun files revision => files.erase revision) snapshots)

/-- The in-memory rooms and the snapshot directory. -/
structure ApiState where
  rooms : ExtTreeMap RoomId ManagedRoom
  roomCreations : ExtTreeMap CommandId RoomId
  directory : Directory

section Handlers

variable (toVec : PersistedRoom → List UInt8)

def persistManagedRoom (io : FileIo) (roomId : RoomId) (managed : ManagedRoom) :
    Fallible ApiState ApiError Unit := do
  let bytes := toVec (persistedRoom roomId managed)
  Fallible.ensure (bytes.length ≤ maxRoomSnapshotBytes)
    ⟨507, "room_snapshot_too_large", "room snapshot exceeds 32 MiB"⟩
  let state ← Fallible.get
  match (state.directory.snapshots roomId)[managed.persistenceRevision]? with
  | some existing =>
      Fallible.ensure (existing.length ≤ maxRoomSnapshotBytes ∧ existing = bytes)
        ⟨500, "room_snapshot_revision_conflict",
          "room snapshot revision already contains different data"⟩
  | none =>
      Fallible.ensure (io.opens && io.writes && io.renames) stateIoError
      let files := (state.directory.snapshots roomId).insert managed.persistenceRevision bytes
      let directory := pruneRoomSnapshots io (state.directory.insert roomId files) roomId
        managed.persistenceRevision
      Fallible.set { state with directory }

/-- What `create_room` reads from its request, its token and its environment. -/
structure CreateRoom where
  subject : UserId
  mode : RoomMode
  maxMembers : Option ℕ
  maxPublishers : Option ℕ
  commandId : CommandId
  roomId : RoomId
  now : UInt64

/-- The default policy with the requested limits clamped into their ranges. -/
def CreateRoom.policy (request : CreateRoom) : RoomPolicy :=
  { RoomPolicy.default with
    maxMembers := match request.maxMembers with
      | some requested => max 2 (min requested 100000)
      | none => RoomPolicy.default.maxMembers
    maxPublishers := match request.maxPublishers with
      | some requested => max 1 (min requested 1024)
      | none => RoomPolicy.default.maxPublishers }

/-- The room a creation puts under management. -/
def CreateRoom.managed (request : CreateRoom) : ManagedRoom :=
  let created := Room.create request.roomId request.mode request.subject request.policy
    request.commandId request.now
  { room := created.1
    creationEvent := created.2
    persistenceRevision := 1
    sideEffectCommands := ∅
    sideEffectOrder := [] }

/-- Creates a room, or finds the one its creation command made, and says which. -/
def createRoom (io : FileIo) (request : CreateRoom) : Fallible ApiState ApiError RoomId := do
  let state ← Fallible.get
  match state.roomCreations[request.commandId]? with
  | some roomId => do
      Fallible.ensure (roomId ∈ state.rooms) roomNotFound
      pure roomId
  | none => do
      persistManagedRoom toVec io request.roomId request.managed
      Fallible.modify fun state =>
        { state with
          rooms := state.rooms.insert request.roomId request.managed
          roomCreations := state.roomCreations.insert request.commandId request.roomId }
      pure request.roomId

structure CommandResponse where
  sequence : UInt64
  duplicate : Bool

/-- Runs one command on a clone of the room and installs the clone once it is persisted.  The
retry loop of the source repeats only after a revision conflict, which the files backend cannot
report: it compares the candidate's revision with the one it was just advanced from. -/
def executeRoomCommand (io : FileIo) (roomId : RoomId) (commandId : CommandId) (now : UInt64)
    (command : RoomCommand) : Fallible ApiState ApiError CommandResponse := do
  let state ← Fallible.get
  let candidate ← Fallible.ofOption state.rooms[roomId]? roomNotFound
  match (Room.execute commandId now command).run candidate.room with
  | (.error error, _) => Fallible.fail (domainError error)
  | (.ok .duplicate, _) => pure ⟨candidate.room.sequence, true⟩
  | (.ok (.applied event), room) => do
      let revision ← Fallible.ofOption (checkedSucc candidate.persistenceRevision)
        revisionExhausted
      let candidate := { candidate with room, persistenceRevision := revision }
      persistManagedRoom toVec io roomId candidate
      Fallible.modify fun state => { state with rooms := state.rooms.insert roomId candidate }
      pure ⟨event.sequence, false⟩

/-- Drops the oldest side effects until the history is within its limit. -/
def pruneSideEffects (managed : ManagedRoom) : ManagedRoom :=
  let history := History.evict sideEffectHistoryLimit managed.sideEffectCommands
    managed.sideEffectOrder
  { managed with sideEffectCommands := history.1, sideEffectOrder := history.2 }

/-- Records a side effect in the room itself, then persists the room.  The room is written in
place, so a failure after the first write leaves it changed. -/
def rememberSideEffect (io : FileIo) (roomId : RoomId) (commandId : CommandId) :
    Fallible ApiState ApiError Unit := do
  let state ← Fallible.get
  let managed ← Fallible.ofOption state.rooms[roomId]? roomNotFound
  let install := fun managed : ManagedRoom =>
    Fallible.modify fun state : ApiState =>
      { state with rooms := state.rooms.insert roomId managed }
  if commandId ∈ managed.sideEffectCommands then
    install (pruneSideEffects managed)
  else do
    let noted := { managed with
      sideEffectCommands := managed.sideEffectCommands.insert commandId
      sideEffectOrder := managed.sideEffectOrder ++ [commandId] }
    install noted
    let revision ← Fallible.ofOption (checkedSucc managed.persistenceRevision) revisionExhausted
    let advanced := pruneSideEffects { noted with persistenceRevision := revision }
    install advanced
    persistManagedRoom toVec io roomId advanced

end Handlers

end Fluvora.ApiServer
