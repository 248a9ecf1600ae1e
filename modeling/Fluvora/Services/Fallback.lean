import Fluvora.ApiServer.RoomSnapshots
import Fluvora.MediaGateway.Metadata
import Fluvora.MediaWorker.AssignmentState

/-!
# After a fall-back to an older snapshot

The three kinds of snapshot stores: rooms of the API server, assets and live streams of the media
gateway, fences of the media worker.  When the newest file of a value is rejected, a load falls back
to the revision before, and the next change has the revision of the rejected file again.  It is
stored, so that a later load returns it, exactly when the rejected file is not in the way of the
writer (`recovers_iff`): for rooms and fences every file is that exists, for the gateway every file
that can be read.
-/

open Std (ExtTreeMap)

namespace Fluvora.Services

open ApiServer MediaGateway MediaWorker Snapshots Domain

/-- `serde_json` on a type of values. -/
structure Serde (ν : Type) where
  toVec : ν → List UInt8
  fromSlice : List UInt8 → Option ν

/-- A snapshot store with the files of one value. -/
inductive SnapshotStore : Type 1
  | room (serde : Serde PersistedRoom) (roomId : RoomId)
  | asset (β : Type) (serde : Serde (Record β)) (validate : β → Option β) (fileId : String)
  | liveStream (β : Type) (serde : Serde (Record β)) (validate : β → Option β) (fileId : String)
  | fences (serde : Serde FenceSnapshot)

namespace SnapshotStore

def Value : SnapshotStore → Type
  | room _ _ => PersistedRoom
  | asset β _ _ _ => Record β
  | liveStream β _ _ _ => Record β
  | fences _ => FenceSnapshot

def format : (store : SnapshotStore) → Format store.Value ApiError
  | room serde roomId => roomFormat serde.toVec serde.fromSlice roomId
  | asset _ serde validate fileId => metadataFormat serde.toVec serde.fromSlice validate fileId
  | liveStream _ serde validate fileId => metadataFormat serde.toVec serde.fromSlice validate fileId
  | fences serde => fenceFormat serde.toVec serde.fromSlice

/-- What a load finds. -/
def load (listing : Listing) (files : Files) : (store : SnapshotStore) → Option store.Value
  | room serde roomId => loadRoom serde.toVec serde.fromSlice roomId listing files
  | asset _ serde validate fileId =>
      loadAsset serde.toVec serde.fromSlice validate fileId listing files
  | liveStream _ serde validate fileId =>
      loadLiveStream serde.toVec serde.fromSlice validate fileId listing files
  | fences serde => some (loadFenceSnapshot serde.toVec serde.fromSlice listing files)

/-- The writer of a store. -/
def persist (io : Io) : (store : SnapshotStore) → store.Value → Fallible Files ApiError Unit
  | room serde roomId => persistRoomFile serde.toVec serde.fromSlice roomId io
  | asset _ serde validate _ => persistAsset serde.toVec serde.fromSlice validate io
  | liveStream _ serde validate _ => persistLiveStream serde.toVec serde.fromSlice validate io
  | fences serde => persistFenceSnapshot serde.toVec serde.fromSlice io

/-- The files that are in the way of a writer. -/
def occupied : SnapshotStore → File → Bool
  | room _ _ => File.present
  | asset _ _ _ _ => isReadable
  | liveStream _ _ _ _ => isReadable
  | fences _ => File.present

/-- The value belongs to the identifier whose files these are. -/
def Owns : (store : SnapshotStore) → store.Value → Prop
  | room _ roomId => fun persisted => persisted.roomId = roomId
  | asset _ _ _ fileId => fun managed => managed.id = fileId
  | liveStream _ _ _ fileId => fun persisted => persisted.id = fileId
  | fences _ => fun _ => True

/-- The newest file is rejected, a load falls back to `loaded`, and `next` is one revision on. -/
structure FallsBack (store : SnapshotStore) (listing : Listing) (files : Files) (file : File)
    (loaded next : store.Value) : Prop where
  rejected : store.format.Rejected files (store.format.revision next) file
  falls : store.load listing files = some loaded
  advances : checkedSucc (store.format.revision loaded) = some (store.format.revision next)
  owns : store.Owns next

/-- The change is stored, and a later load returns it. -/
def Recovers (store : SnapshotStore) (listing : Listing) (io : Io) (files : Files)
    (next : store.Value) : Prop :=
  ∃ files', (store.persist io next).run files = (.ok (), files') ∧
    store.load listing files' = some next

/-- The gateway writes the record to the files of its own identifier. -/
theorem persistMetadata_recovers_iff {β : Type} {toVec : Record β → List UInt8}
    {fromSlice : List UInt8 → Option (Record β)} {validate : β → Option β} {fileId : String}
    {listing : Listing} {io : Io} {files : Files} {file : File} {next : Record β}
    (hrejected : (metadataFormat toVec fromSlice validate fileId).Rejected files next.revision file)
    (hid : next.id = fileId) (hio : (io.opens && io.writes && io.renames) = true) :
    Format.Recovers ((metadataFormat toVec fromSlice validate fileId).load listing)
        (persistMetadata toVec fromSlice validate io) files next ↔
      isReadable file = false ∧ (metadataFormat toVec fromSlice validate fileId).Loadable next := by
  subst hid
  exact Format.persistAlways_recovers_iff hrejected hio

theorem ne_zero_of_checkedSucc {n m : UInt64} (h : checkedSucc n = some m) : m ≠ 0 := by
  unfold checkedSucc at h
  split_ifs at h with hlt
  rw [← Option.some.inj h]
  intro hzero
  have hsum := congrArg UInt64.toNat hzero
  rw [UInt64.toNat_add, UInt64.toNat_one, Nat.mod_eq_of_lt hlt] at hsum
  exact Nat.succ_ne_zero _ hsum

/-- Fences that a change has made are not the empty ones from which the loader starts. -/
theorem persistFenceSnapshot_recovers_iff {toVec : FenceSnapshot → List UInt8}
    {fromSlice : List UInt8 → Option FenceSnapshot} {listing : Listing} {io : Io} {files : Files}
    {file : File} {next : FenceSnapshot}
    (hrejected : (fenceFormat toVec fromSlice).Rejected files next.revision file)
    (hnext : next.revision ≠ 0) (hio : (io.opens && io.writes && io.renames) = true) :
    Format.Recovers (fun files => some (loadFenceSnapshot toVec fromSlice listing files))
        (persistFenceSnapshot toVec fromSlice io) files next ↔
      file.present = false ∧ (fenceFormat toVec fromSlice).Loadable next := by
  have hempty : FenceSnapshot.empty ≠ next := fun heq => hnext (heq ▸ rfl)
  refine Iff.trans ?_ (@Format.persistOnce_recovers_iff _ _ _ listing _ _ _ _ _ hrejected hio)
  refine exists_congr fun files' => and_congr_right fun _ => ?_
  dsimp only
  rw [loadFenceSnapshot_eq]
  cases (fenceFormat toVec fromSlice).load listing files' with
  | none => simp [hempty]
  | some found => rfl

/-- After a fall-back, and without input or output errors, the next change is stored and found again
if and only if the rejected file is not in the way and the change is within the size limit and passes
the checks of the loader. -/
theorem recovers_iff (store : SnapshotStore) {listing : Listing} {io : Io}
    (hio : (io.opens && io.writes && io.renames) = true) {files : Files} {file : File}
    {loaded next : store.Value} (h : store.FallsBack listing files file loaded next) :
    store.Recovers listing io files next ↔
      store.occupied file = false ∧ store.format.Loadable next := by
  cases store with
  | room serde roomId => exact Format.persistOnce_recovers_iff h.rejected hio
  | asset β serde validate fileId =>
    exact persistMetadata_recovers_iff h.rejected h.owns hio
  | liveStream β serde validate fileId =>
    exact persistMetadata_recovers_iff h.rejected h.owns hio
  | fences serde =>
    exact persistFenceSnapshot_recovers_iff h.rejected (ne_zero_of_checkedSucc h.advances) hio

/-! ## A corrupt file of fences -/

/-- `serde_json::to_vec` on fences. -/
def Sample.fenceJson (snapshot : FenceSnapshot) : List UInt8 :=
  let record := fun entry : String × FenceRecord =>
    "\"" ++ entry.1 ++ "\":\x7b\"generation\":" ++ toString entry.2.generation ++
      ",\"job_key\":\"" ++ entry.2.jobKey ++ "\"\x7d"
  asBytes ("\x7b\"revision\":" ++ toString snapshot.revision ++ ",\"records\":\x7b" ++
    ",".intercalate (snapshot.records.toList.map record) ++ "\x7d\x7d")

/-- The fences of revision `generation`, when a worker has accepted that generation of an asset. -/
def Sample.accepted (generation : UInt64) : FenceSnapshot :=
  ⟨generation, (∅ : ExtTreeMap String FenceRecord).insert "vod:asset" ⟨generation, "job"⟩⟩

/-- `serde_json` on the first two revisions; nothing else is a snapshot. -/
def Sample.serde : Serde FenceSnapshot where
  toVec := Sample.fenceJson
  fromSlice bytes :=
    if bytes = Sample.fenceJson (Sample.accepted 1) then some (Sample.accepted 1)
    else if bytes = Sample.fenceJson (Sample.accepted 2) then some (Sample.accepted 2)
    else none

/-- The file of the second revision is no longer JSON. -/
def Sample.corrupt : File := .regular (asBytes "\x7bnot-json")

def Sample.files : Files :=
  ((∅ : Files).insert 1 (.regular (Sample.fenceJson (Sample.accepted 1)))).insert 2 Sample.corrupt

def Sample.listing : Listing where
  entries files := files.toList
  mem_entries := mem_toList_files

def Sample.io : Io := ⟨true, true, true, fun _ => true⟩

theorem sample_fallsBack :
    (fences Sample.serde).FallsBack Sample.listing Sample.files Sample.corrupt (Sample.accepted 1)
      (Sample.accepted 2) where
  rejected :=
    { stored := by decide
      newest := by
        intro other hother
        have hkeys : Sample.files.keys.all (· ≤ 2) = true := by decide
        exact of_decide_eq_true (List.all_eq_true.mp hkeys other (ExtTreeMap.mem_keys.mpr hother))
      rejected := by decide }
  falls := by
    have hload : loadFenceSnapshot Sample.serde.toVec Sample.serde.fromSlice Sample.listing
        Sample.files = Sample.accepted 1 := by
      decide
    exact congrArg some hload
  advances := by decide
  owns := trivial

/-- A load falls back to the first revision; then no change can be stored any more. -/
theorem not_recovers_corrupt_fences :
    (fences Sample.serde).FallsBack Sample.listing Sample.files Sample.corrupt (Sample.accepted 1)
      (Sample.accepted 2) ∧
    (fences Sample.serde).format.Loadable (Sample.accepted 2) ∧
    ¬(fences Sample.serde).Recovers Sample.listing Sample.io Sample.files (Sample.accepted 2) := by
  have haccept : (fenceFormat Sample.serde.toVec Sample.serde.fromSlice).accept 2
      (Sample.fenceJson (Sample.accepted 2)) = some (Sample.accepted 2) := by
    decide
  refine ⟨sample_fallsBack, ⟨by decide, haccept⟩, ?_⟩
  rintro ⟨files', hrun, -⟩
  have hresult : ((persistFenceSnapshot Sample.serde.toVec Sample.serde.fromSlice Sample.io
      (Sample.accepted 2)).run Sample.files).1.isOk = false := by
    decide
  have hrun : (persistFenceSnapshot Sample.serde.toVec Sample.serde.fromSlice Sample.io
      (Sample.accepted 2)).run Sample.files = (.ok (), files') := hrun
  rw [hrun] at hresult
  cases hresult

theorem recovers_iff_sample :
    (fences Sample.serde).Recovers Sample.listing Sample.io Sample.files (Sample.accepted 2) ↔
      (fences Sample.serde).occupied Sample.corrupt = false ∧
        (fences Sample.serde).format.Loadable (Sample.accepted 2) :=
  recovers_iff (fences Sample.serde) rfl sample_fallsBack

end SnapshotStore

end Fluvora.Services
