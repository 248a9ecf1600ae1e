import Fluvora.ApiServer.Persistence
import Fluvora.Lib.Identifiers
import Fluvora.Lib.Snapshots

/-!
# Fence files of the media worker

`load_assignment_registry` and `persist_fence_snapshot` of `crates/services/media-worker`: the
generations that a worker has accepted, kept in one file for each revision.
-/

open Std (ExtTreeMap)

namespace Fluvora.MediaWorker

open ApiServer (ApiError)
open Snapshots

def maxFenceSnapshotBytes : ℕ := 4 * 1024 * 1024

structure FenceRecord where
  generation : UInt64
  jobKey : String
deriving DecidableEq

structure FenceSnapshot where
  revision : UInt64
  records : ExtTreeMap String FenceRecord
deriving DecidableEq

def FenceSnapshot.empty : FenceSnapshot := ⟨0, ∅⟩

/-- A key is a kind and an identifier with a colon between them. -/
def isFenceKey (key : String) : Bool :=
  let kind := key.toList.takeWhile (· ≠ ':')
  let rest := key.toList.dropWhile (· ≠ ':')
  rest ≠ [] ∧ (String.ofList kind = "vod" ∨ String.ofList kind = "live" ∨
    String.ofList kind = "realtime") ∧ isIdentifier (String.ofList (rest.drop 1))

def validFenceSnapshot (snapshot : FenceSnapshot) (fileRevision : UInt64) : Bool :=
  snapshot.revision = fileRevision ∧ snapshot.records.size ≤ 50000 ∧
    snapshot.records.toList.all fun entry =>
      isFenceKey entry.1 ∧ isIdentifier entry.2.jobKey ∧ 0 < entry.2.generation

/-- How fences are kept in files; `toVec` and `fromSlice` are `serde_json`. -/
def fenceFormat (toVec : FenceSnapshot → List UInt8)
    (fromSlice : List UInt8 → Option FenceSnapshot) : Format FenceSnapshot ApiError where
  limit := maxFenceSnapshotBytes
  revision := FenceSnapshot.revision
  encode := toVec
  accept fileRevision bytes := (fromSlice bytes).filter fun candidate =>
    0 < fileRevision ∧ validFenceSnapshot candidate fileRevision
  revision_of_accept h := by
    simp only [Option.filter_eq_some_iff, validFenceSnapshot, decide_eq_true_eq] at h
    exact h.2.2.1
  tooLarge := ⟨507, "assignment_state_too_large", "worker assignment fence state exceeds 4 MiB"⟩
  conflict := ⟨500, "assignment_revision_conflict",
    "worker assignment revision already contains different data"⟩
  ioError := ⟨507, "assignment_state_io_error", "worker assignment state could not be persisted"⟩

variable (toVec : FenceSnapshot → List UInt8) (fromSlice : List UInt8 → Option FenceSnapshot)

/-- The newest fences that the loader accepts, or none at all. -/
def loadFenceSnapshot (listing : Listing) (files : Files) : FenceSnapshot :=
  ((listing.entries files).filterMap (fenceFormat toVec fromSlice).candidate).foldl
    (fun snapshot candidate =>
      if snapshot.revision < candidate.revision then candidate else snapshot) .empty

/-- `persist_fence_snapshot`; whatever exists under the file name is in its way. -/
def persistFenceSnapshot (io : Io) (snapshot : FenceSnapshot) : Fallible Files ApiError Unit :=
  (fenceFormat toVec fromSlice).persistOnce File.present io snapshot

/-- The loader starts from the empty snapshot, whose revision is below that of every file. -/
theorem loadFenceSnapshot_eq (listing : Listing) (files : Files) :
    loadFenceSnapshot toVec fromSlice listing files =
      ((fenceFormat toVec fromSlice).load listing files).getD .empty := by
  have hfold (candidates : List FenceSnapshot) (current : Option FenceSnapshot)
      (hpositive : ∀ candidate ∈ candidates, 0 < candidate.revision) :
      candidates.foldl (fun snapshot candidate =>
          if snapshot.revision < candidate.revision then candidate else snapshot)
          (current.getD .empty) =
        (candidates.foldl (fenceFormat toVec fromSlice).newer current).getD .empty := by
    induction candidates generalizing current with
    | nil => rfl
    | cons candidate candidates ih =>
      rw [List.foldl_cons, List.foldl_cons, ← ih _ fun other hother =>
        hpositive other (List.mem_cons_of_mem _ hother)]
      congr 1
      have hcandidate := hpositive candidate List.mem_cons_self
      unfold Format.newer
      cases current with
      | none =>
        rw [Option.getD_none, if_pos (show FenceSnapshot.empty.revision < candidate.revision from
          hcandidate)]
        rfl
      | some snapshot =>
        by_cases hnewer : snapshot.revision < candidate.revision
        · simp [fenceFormat, hnewer]
        · simp [fenceFormat, hnewer]
  unfold loadFenceSnapshot Format.load
  refine hfold _ none ?_
  intro candidate hcandidate
  obtain ⟨⟨number, file⟩, -, hcandidate⟩ := List.mem_filterMap.mp hcandidate
  obtain ⟨bytes, -, haccept⟩ := Option.bind_eq_some_iff.mp hcandidate
  simp only [fenceFormat, Option.filter_eq_some_iff, validFenceSnapshot, decide_eq_true_eq]
    at haccept
  rw [haccept.2.2.1]
  exact haccept.2.1

end Fluvora.MediaWorker
