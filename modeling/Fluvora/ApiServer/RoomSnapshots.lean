import Fluvora.ApiServer.Persistence
import Fluvora.Lib.Snapshots

/-!
# Snapshot files of rooms

`load_rooms` and `persist_managed_room` of `crates/services/api-server` on the files of one room, in a
directory that may also hold entries that cannot be read.  `persistManagedRoom_eq` connects this
model with `persistManagedRoom` of `Fluvora.ApiServer.Persistence`, whose directories hold readable
files only.
-/

open Std (ExtTreeMap)

namespace Fluvora.ApiServer

open Domain Fallible Snapshots

/-- How a room is kept in files: `toVec` and `fromSlice` are `serde_json`; `load_rooms` wants the room
and the revision of the file name in the file, and an aggregate that can be rebuilt. -/
def roomFormat (toVec : PersistedRoom → List UInt8)
    (fromSlice : List UInt8 → Option PersistedRoom) (roomId : RoomId) :
    Format PersistedRoom ApiError where
  limit := maxRoomSnapshotBytes
  revision := PersistedRoom.persistenceRevision
  encode := toVec
  accept revision bytes := (fromSlice bytes).filter fun persisted =>
    persisted.roomId = roomId ∧ persisted.persistenceRevision = revision ∧
      (managedFromPersisted persisted).isOk
  revision_of_accept h := by
    simp only [Option.filter_eq_some_iff, decide_eq_true_eq] at h
    exact h.2.2.1
  tooLarge := ⟨507, "room_snapshot_too_large", "room snapshot exceeds 32 MiB"⟩
  conflict := ⟨500, "room_snapshot_revision_conflict",
    "room snapshot revision already contains different data"⟩
  ioError := stateIoError

variable (toVec : PersistedRoom → List UInt8) (fromSlice : List UInt8 → Option PersistedRoom)
  (roomId : RoomId)

/-- The newest room that `load_rooms` accepts among the files of one room. -/
def loadRoom (listing : Listing) (files : Files) : Option PersistedRoom :=
  (roomFormat toVec fromSlice roomId).load listing files

/-- `persist_managed_room`; whatever exists under the file name is in its way. -/
def persistRoomFile (io : Io) (persisted : PersistedRoom) : Fallible Files ApiError Unit :=
  (roomFormat toVec fromSlice roomId).persistOnce File.present io persisted

/-! ## Directories of readable files -/

def FileIo.toIo (io : FileIo) : Io := ⟨io.opens, io.writes, io.renames, io.removes⟩

/-- The files of a room in a directory. -/
def Directory.files (directory : Directory) (roomId : RoomId) : Files :=
  (directory.snapshots roomId).map fun _ bytes => .regular bytes

theorem snapshots_insert (directory : Directory) (files : ExtTreeMap UInt64 (List UInt8)) :
    Directory.snapshots (directory.insert roomId files) roomId = files := by
  unfold Directory.snapshots
  rw [ExtTreeMap.getElem?_insert_self, Option.getD_some]

theorem map_insert_regular (files : ExtTreeMap UInt64 (List UInt8)) (revision : UInt64)
    (bytes : List UInt8) :
    (files.insert revision bytes).map (fun _ bytes => File.regular bytes) =
      (files.map fun _ bytes => File.regular bytes).insert revision (.regular bytes) := by
  refine ExtTreeMap.ext_getElem? fun {other} => ?_
  simp only [ExtTreeMap.getElem?_map, ExtTreeMap.getElem?_insert]
  split_ifs <;> rfl

theorem map_foldl_erase (stale : List UInt64) (files : ExtTreeMap UInt64 (List UInt8)) :
    (stale.foldl (fun files revision => files.erase revision) files).map
        (fun _ bytes => File.regular bytes) =
      stale.foldl (fun files revision => files.erase revision)
        (files.map fun _ bytes => File.regular bytes) := by
  induction stale generalizing files with
  | nil => rfl
  | cons revision stale ih =>
    rw [List.foldl_cons, List.foldl_cons, ih]
    congr 1
    refine ExtTreeMap.ext_getElem? fun {other} => ?_
    simp only [ExtTreeMap.getElem?_map, ExtTreeMap.getElem?_erase]
    split_ifs <;> rfl

theorem files_pruneRoomSnapshots (io : FileIo) (directory : Directory) (currentRevision : UInt64) :
    (pruneRoomSnapshots io directory roomId currentRevision).files roomId =
      prune io.toIo currentRevision (directory.files roomId) := by
  unfold pruneRoomSnapshots prune Directory.files
  dsimp only
  rw [snapshots_insert, map_foldl_erase, ExtTreeMap.keys_map]
  rfl

/-- On readable files, persisting a room does what `persistManagedRoom` does to its directory. -/
theorem persistManagedRoom_eq (io : FileIo) (managed : ManagedRoom) (state : ApiState) :
    (persistRoomFile toVec fromSlice roomId io.toIo (persistedRoom roomId managed)).run
        (state.directory.files roomId) =
      (((persistManagedRoom toVec io roomId managed).run state).1,
        ((persistManagedRoom toVec io roomId managed).run state).2.directory.files roomId) := by
  have htarget : (state.directory.files roomId)[(persistedRoom roomId
      managed).persistenceRevision]? =
        (state.directory.snapshots roomId)[managed.persistenceRevision]?.map .regular :=
    ExtTreeMap.getElem?_map
  unfold persistRoomFile persistManagedRoom
  rw [Format.persistOnce_run, run_ensure_bind]
  by_cases hfits : (toVec (persistedRoom roomId managed)).length ≤ maxRoomSnapshotBytes
  swap
  · have hlarge : (roomFormat toVec fromSlice roomId).limit <
        ((roomFormat toVec fromSlice roomId).encode (persistedRoom roomId managed)).length :=
      Nat.lt_of_not_le hfits
    rw [if_neg hfits, if_pos hlarge]
    rfl
  have hsmall : ¬(roomFormat toVec fromSlice roomId).limit <
      ((roomFormat toVec fromSlice roomId).encode (persistedRoom roomId managed)).length :=
    Nat.not_lt.mpr hfits
  rw [if_pos hfits, if_neg hsmall, run_get_bind, roomFormat, htarget]
  cases (state.directory.snapshots roomId)[managed.persistenceRevision]? with
  | some existing =>
    dsimp only [Option.map_some, Option.any_some, File.present, Option.bind_some, File.read]
    rw [run_ensure]
    by_cases hexisting : existing.length ≤ maxRoomSnapshotBytes
    · simp only [hexisting, if_true, Option.some.injEq, true_and]
      split_ifs <;> rfl
    · simp [hexisting]
  | none =>
    dsimp only [Option.map_none, Option.any_none]
    simp only [Bool.false_eq_true, if_false]
    rw [run_ensure_bind]
    by_cases hio : (io.opens && io.writes && io.renames) = true
    · have hio' : (io.toIo.opens && io.toIo.writes && io.toIo.renames) = true := hio
      rw [if_pos hio, if_pos hio']
      dsimp only [run_set]
      rw [files_pruneRoomSnapshots, Directory.files, Directory.files, snapshots_insert,
        map_insert_regular]
      rfl
    · have hio' : ¬(io.toIo.opens && io.toIo.writes && io.toIo.renames) = true := hio
      rw [if_neg hio, if_neg hio']

end Fluvora.ApiServer
