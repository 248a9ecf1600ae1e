import Fluvora.ApiServer.Persistence
import Fluvora.Lib.Identifiers
import Fluvora.Lib.Snapshots

/-!
# Metadata files of the media gateway

The snapshot files of assets and live streams in `crates/services/media-gateway`, for one identifier.
A record is its identifier, its revision and a content; what `validate_loaded_asset` and
`validate_loaded_live` check beyond identifier and revision, and the normalised worker endpoint that
they leave, is the parameter `validate`.
-/

namespace Fluvora.MediaGateway

open ApiServer (ApiError)
open Snapshots

def maxMetadataBytes : ℕ := 32 * 1024 * 1024

/-- A `ManagedAsset` or `PersistedLiveStream`. -/
structure Record (β : Type) where
  id : String
  revision : UInt64
  content : β
deriving DecidableEq

variable {β : Type}

/-- How records are kept in the files of an identifier; `toVec` and `fromSlice` are `serde_json`. -/
def metadataFormat (toVec : Record β → List UInt8) (fromSlice : List UInt8 → Option (Record β))
    (validate : β → Option β) (fileId : String) : Format (Record β) ApiError where
  limit := maxMetadataBytes
  revision := Record.revision
  encode := toVec
  accept fileRevision bytes := do
    let managed ← (fromSlice bytes).filter fun managed =>
      isIdentifier fileId ∧ managed.id = fileId ∧ managed.revision = fileRevision ∧
        managed.revision ≠ 0
    let content ← validate managed.content
    return { managed with content }
  revision_of_accept h := by
    obtain ⟨managed, hmanaged, h⟩ := Option.bind_eq_some_iff.mp h
    obtain ⟨content, -, h⟩ := Option.bind_eq_some_iff.mp h
    cases h
    simp only [Option.filter_eq_some_iff, decide_eq_true_eq] at hmanaged
    exact hmanaged.2.2.2.1
  tooLarge := ⟨507, "metadata_too_large", "media metadata snapshot exceeds 32 MiB"⟩
  conflict := ⟨500, "metadata_revision_conflict",
    "media metadata revision already contains different data"⟩
  ioError := ⟨500, "storage_error", "media storage operation failed"⟩

/-- Only a file that `read_bounded_metadata` can read is in the way of `persist_json`. -/
def isReadable (file : File) : Bool := (file.read maxMetadataBytes).isSome

section

variable (toVec : Record β → List UInt8) (fromSlice : List UInt8 → Option (Record β))
  (validate : β → Option β)

/-- `persist_json`, then `prune_snapshots`. -/
def persistMetadata (io : Io) (managed : Record β) : Fallible Files ApiError Unit :=
  (metadataFormat toVec fromSlice validate managed.id).persistAlways isReadable io managed

def persistAsset (io : Io) (managed : Record β) : Fallible Files ApiError Unit :=
  persistMetadata toVec fromSlice validate io managed

def persistLiveStream (io : Io) (persisted : Record β) : Fallible Files ApiError Unit :=
  persistMetadata toVec fromSlice validate io persisted

/-- The newest asset that `load_assets` accepts among the files of an identifier. -/
def loadAsset (fileId : String) (listing : Listing) (files : Files) : Option (Record β) :=
  (metadataFormat toVec fromSlice validate fileId).load listing files

/-- The newest stream that `load_live_streams` accepts among the files of an identifier. -/
def loadLiveStream (fileId : String) (listing : Listing) (files : Files) : Option (Record β) :=
  (metadataFormat toVec fromSlice validate fileId).load listing files

end

end Fluvora.MediaGateway
