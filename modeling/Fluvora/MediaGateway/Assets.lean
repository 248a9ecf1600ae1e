import Fluvora.ApiServer.Persistence
import Fluvora.Lib.Results
import Fluvora.MediaPipeline.Asset

/-!
# Assets of the media gateway

What `crates/services/media-gateway` keeps of a VOD asset: the record in memory, the snapshots on disk,
newest first, and the source file into which the chunks of an upload go.  `restoreAsset` is what
`load_assets` makes of the snapshots.  The handlers change the record in memory step by step, so they are
`Fallible` computations over an `AssetSlot`; what the disk answers is an input.
-/

namespace Fluvora.MediaGateway

open ApiServer (ApiError)
open Domain Fallible MediaPipeline

structure RenditionRequest where
  width : UInt16
  height : UInt16
  videoBitrateBps : UInt64
  audioBitrateBps : UInt32
deriving DecidableEq

structure VodJobSpec where
  segmentDurationMillis : UInt32
  renditions : List RenditionRequest
deriving DecidableEq

structure ManagedAsset where
  asset : VodAsset
  jobId : Option UInt64
  revision : UInt64
  createdAtMillis : UInt64
  updatedAtMillis : UInt64
  workerEndpoint : Option String
  placementGeneration : Option UInt64
  jobSpec : Option VodJobSpec
deriving DecidableEq

/-! ## Errors -/

def conflict (message : String) : ApiError := ⟨409, "state_conflict", message⟩

def unprocessable (message : String) : ApiError := ⟨422, "invalid_request", message⟩

def assetNotFound : ApiError := ⟨404, "asset_not_found", "unknown VOD asset"⟩

def payloadTooLarge (limit : ℕ) : ApiError :=
  ⟨413, "payload_too_large", s!"request body exceeds {limit} bytes"⟩

def revisionExhausted : ApiError :=
  ⟨507, "metadata_revision_exhausted", "media metadata revision exhausted"⟩

def metadataRevisionConflict : ApiError :=
  ⟨500, "metadata_revision_conflict", "media metadata revision already contains different data"⟩

def storageError : ApiError := ⟨500, "storage_error", "media storage operation failed"⟩

/-- The name of the error with its data, which is what is displayed of it. -/
def debugText : PipelineError → String
  | .invalidSegment field => s!"InvalidSegment(\"{field}\")"
  | .invalidUri => "InvalidUri"
  | .invalidWindow => "InvalidWindow"
  | .playlistEnded => "PlaylistEnded"
  | .unexpectedSequence expected actual =>
      s!"UnexpectedSequence \x7b expected: {expected}, actual: {actual} \x7d"
  | .sequenceExhausted => "SequenceExhausted"
  | .invalidIdentifier => "InvalidIdentifier"
  | .invalidAssetTransition => "InvalidAssetTransition"
  | .uploadRegression => "UploadRegression"
  | .uploadSizeMismatch => "UploadSizeMismatch"
  | .outputRegression => "OutputRegression"
  | .invalidDuration => "InvalidDuration"
  | .invalidFailureReason => "InvalidFailureReason"
  | .versionExhausted => "VersionExhausted"

def pipelineError (error : PipelineError) : ApiError :=
  ⟨422, "media_pipeline_error", debugText error⟩

/-! ## Loading -/

def isRendition (rendition : RenditionRequest) : Bool :=
  16 ≤ rendition.width && 16 ≤ rendition.height && rendition.width ≤ 7680 &&
    rendition.height ≤ 4320 && rendition.width % 2 = 0 && rendition.height % 2 = 0 &&
    50000 ≤ rendition.videoBitrateBps && rendition.videoBitrateBps ≤ 100000000 &&
    16000 ≤ rendition.audioBitrateBps && rendition.audioBitrateBps ≤ 1000000

def validateRenditionLadder (renditions : List RenditionRequest) (allowEmpty : Bool) :
    Except ApiError Unit :=
  if 8 < renditions.length || (!allowEmpty && renditions.isEmpty) then
    .error (unprocessable "rendition ladder must contain 1..=8 outputs")
  else if renditions.all isRendition then .ok ()
  else .error (unprocessable "rendition dimensions or bitrates are outside supported bounds")

def isTranscoding : AssetState → Bool
  | .transcoding _ => true
  | _ => false

def isJobSpec (spec : VodJobSpec) : Bool :=
  1000 ≤ spec.segmentDurationMillis && spec.segmentDurationMillis ≤ 10000 &&
    (validateRenditionLadder spec.renditions false).isOk

section

variable (normalizeHttpOrigin : String → Option String)

def normalizeWorkerEndpoint : Option String → Option (Option String)
  | some endpoint => (normalizeHttpOrigin endpoint).map some
  | none => some none

/-- An asset that is loaded has its endpoint normalised. -/
def validateLoadedAsset (managed : ManagedAsset) : Option ManagedAsset := do
  guard (managed.revision ≠ 0)
  guard (managed.asset.validate = .ok ())
  guard (managed.createdAtMillis ≤ managed.updatedAtMillis)
  let workerEndpoint ← normalizeWorkerEndpoint normalizeHttpOrigin managed.workerEndpoint
  guard (managed.jobId.isNone ∨ workerEndpoint.isSome ∧ managed.placementGeneration.isSome)
  guard (workerEndpoint.isSome = managed.placementGeneration.isSome)
  guard (managed.jobSpec.all isJobSpec)
  guard (isTranscoding managed.asset.state = false ∨ managed.jobSpec.isSome)
  return { managed with workerEndpoint }

/-- The newest snapshot that is accepted. -/
def restoreAsset (snapshots : List ManagedAsset) : Option ManagedAsset :=
  snapshots.findSome? (validateLoadedAsset normalizeHttpOrigin)

variable {normalizeHttpOrigin}

/-- Loading only changes the endpoint. -/
theorem eq_of_validateLoadedAsset {managed loaded : ManagedAsset}
    (h : validateLoadedAsset normalizeHttpOrigin managed = some loaded) :
    loaded = { managed with workerEndpoint := loaded.workerEndpoint } := by
  unfold validateLoadedAsset at h
  simp only [Option.bind_eq_bind, Option.bind_eq_some_iff] at h
  obtain ⟨-, -, -, -, -, -, workerEndpoint, -, -, -, -, -, -, -, -, -, h⟩ := h
  cases h
  rfl

theorem asset_of_validateLoadedAsset {managed loaded : ManagedAsset}
    (h : validateLoadedAsset normalizeHttpOrigin managed = some loaded) :
    loaded.asset = managed.asset := by
  rw [eq_of_validateLoadedAsset h]

/-- A record that is placed on a worker is accepted if its data are in order. -/
theorem validateLoadedAsset_isSome_iff {managed : ManagedAsset} {endpoint : String}
    {generation : UInt64} {spec : VodJobSpec} (hendpoint : managed.workerEndpoint = some endpoint)
    (hgeneration : managed.placementGeneration = some generation)
    (hspec : managed.jobSpec = some spec) (hjob : isJobSpec spec = true) :
    (validateLoadedAsset normalizeHttpOrigin managed).isSome ↔
      managed.revision ≠ 0 ∧ managed.asset.validate = .ok () ∧
        managed.createdAtMillis ≤ managed.updatedAtMillis ∧
        (normalizeHttpOrigin endpoint).isSome := by
  unfold validateLoadedAsset normalizeWorkerEndpoint
  rw [hendpoint, hgeneration, hspec]
  by_cases hrevision : managed.revision = 0
  · simp [guard, hrevision]
  by_cases hasset : managed.asset.validate = .ok ()
  swap
  · simp [guard, hasset]
  by_cases htimes : managed.createdAtMillis ≤ managed.updatedAtMillis
  swap
  · simp [guard, htimes]
  cases hnormalized : normalizeHttpOrigin endpoint with
  | none => simp [guard, hnormalized]
  | some origin => simp [guard, hrevision, hasset, htimes, hnormalized, hjob]

end

/-! ## An asset in memory and on disk -/

structure AssetSlot where
  memory : Option ManagedAsset
  snapshots : List ManagedAsset
  source : List UInt8

/-- Whether a snapshot can be stored, and how many of the old ones are not pruned. -/
structure PersistIo where
  stores : Bool
  kept : ℕ

/-- `persist_asset`: a revision that is there already is not written again. -/
def AssetSlot.persistAsset (managed : ManagedAsset) (io : PersistIo) :
    Fallible AssetSlot ApiError Unit := do
  let slot ← get
  match slot.snapshots.find? fun existing => existing.revision = managed.revision with
  | some existing => ensure (existing = managed) metadataRevisionConflict
  | none => do
      ensure io.stores storageError
      set { slot with snapshots := (managed :: slot.snapshots).take (2 + io.kept) }

def getAsset : Fallible AssetSlot ApiError ManagedAsset := do
  let slot ← get
  ofOption slot.memory assetNotFound

def setAsset (managed : ManagedAsset) : Fallible AssetSlot ApiError Unit :=
  modify fun slot => { slot with memory := some managed }

/-- An operation on the asset of the record in memory. -/
def applyOperation (operation : AssetOperation) : Fallible AssetSlot ApiError Unit := do
  let managed ← getAsset
  let (result, asset) := operation.apply.run managed.asset
  setAsset { managed with asset }
  ofExcept (result.mapError pipelineError)

/-- The next revision of the record in memory, which is then stored. -/
def persistRevision (change : ManagedAsset → ManagedAsset) (now : UInt64) (io : PersistIo) :
    Fallible AssetSlot ApiError Unit := do
  let managed ← getAsset
  let revision ← ofOption (checkedSucc managed.revision) revisionExhausted
  let managed := change { managed with revision, updatedAtMillis := now }
  setAsset managed
  AssetSlot.persistAsset managed io

theorem getAsset_bind {β : Type} {slot : AssetSlot} {managed : ManagedAsset}
    (hmemory : slot.memory = some managed) (f : ManagedAsset → Fallible AssetSlot ApiError β) :
    (getAsset >>= f).run slot = (f managed).run slot := by
  unfold getAsset
  rw [run_bind, run_get_bind, hmemory]
  rfl

theorem applyOperation_run {slot : AssetSlot} {managed : ManagedAsset}
    (hmemory : slot.memory = some managed) (operation : AssetOperation) :
    (applyOperation operation).run slot =
      (((operation.apply.run managed.asset).1).mapError pipelineError, { slot with
        memory := some { managed with asset := (operation.apply.run managed.asset).2 } }) := by
  unfold applyOperation
  rw [getAsset_bind hmemory]
  rfl

theorem toNat_succ {n : UInt64} (h : n.toNat + 1 < 2 ^ 64) : (n + 1).toNat = n.toNat + 1 := by
  rw [UInt64.toNat_add, UInt64.toNat_one, Nat.mod_eq_of_lt h]

/-- An operation that is a move, in front of other steps. -/
theorem applyOperation_bind {slot : AssetSlot} {managed : ManagedAsset}
    {operation : AssetOperation} {state : AssetState}
    (hmemory : slot.memory = some managed) (hmoves : Moves managed.asset.state operation state)
    (m : Fallible AssetSlot ApiError Unit) :
    (do applyOperation operation; m : Fallible AssetSlot ApiError Unit).run slot =
      if managed.asset.version.toNat + 1 < 2 ^ 64 then
        m.run { slot with memory := some { managed with
          asset := { managed.asset with version := managed.asset.version + 1, state } } }
      else (.error (pipelineError .versionExhausted), slot) := by
  rw [run_bind, applyOperation_run hmemory, run_of_moves hmoves, run_transition_eq]
  split_ifs
  · rfl
  · rw [← hmemory]
    rfl

theorem AssetSlot.persistAsset_run (slot : AssetSlot) (managed : ManagedAsset) (io : PersistIo) :
    ∃ snapshots, ((AssetSlot.persistAsset managed io).run slot).2 = { slot with snapshots } ∧
      snapshots.Sublist (managed :: slot.snapshots) := by
  unfold AssetSlot.persistAsset
  rw [run_get_bind]
  split
  · rw [run_ensure]
    exact ⟨slot.snapshots, rfl, List.sublist_cons_self _ _⟩
  · rw [run_ensure_bind]
    split_ifs
    · exact ⟨_, rfl, List.take_sublist _ _⟩
    · exact ⟨slot.snapshots, rfl, List.sublist_cons_self _ _⟩

/-- The next revision of an asset is in memory, whether it can be stored or not. -/
theorem persistRevision_run {slot : AssetSlot} {managed : ManagedAsset}
    (hmemory : slot.memory = some managed) (now : UInt64) (io : PersistIo) :
    ∃ managed' snapshots, ((persistRevision id now io).run slot).2 =
        { slot with memory := some managed', snapshots } ∧
      managed'.asset = managed.asset ∧ snapshots.Sublist (managed' :: slot.snapshots) := by
  unfold persistRevision
  rw [getAsset_bind hmemory, run_ofOption_bind]
  cases checkedSucc managed.revision with
  | none =>
    refine ⟨managed, slot.snapshots, ?_, rfl, List.sublist_cons_self _ _⟩
    rw [← hmemory]
  | some revision =>
    obtain ⟨snapshots, hrun, hsublist⟩ := AssetSlot.persistAsset_run
      { slot with memory := some { managed with revision, updatedAtMillis := now } }
      { managed with revision, updatedAtMillis := now } io
    exact ⟨_, snapshots, hrun, rfl, hsublist⟩

/-- The next revision of an asset whose snapshots are older. -/
theorem persistRevision_eq {slot : AssetSlot} {managed : ManagedAsset}
    (hmemory : slot.memory = some managed)
    (hfresh : ∀ snapshot ∈ slot.snapshots, snapshot.revision ≤ managed.revision)
    {change : ManagedAsset → ManagedAsset} (hchange : ∀ other, (change other).revision = other.revision)
    (now : UInt64) (io : PersistIo) :
    (persistRevision change now io).run slot =
      if managed.revision.toNat + 1 < 2 ^ 64 then
        let next := change { managed with revision := managed.revision + 1, updatedAtMillis := now }
        if io.stores then (.ok (), ⟨some next, (next :: slot.snapshots).take (2 + io.kept),
          slot.source⟩)
        else (.error storageError, ⟨some next, slot.snapshots, slot.source⟩)
      else (.error revisionExhausted, slot) := by
  unfold persistRevision checkedSucc
  rw [getAsset_bind hmemory, run_ofOption_bind]
  by_cases hrevision : managed.revision.toNat + 1 < 2 ^ 64
  swap
  · rw [if_neg hrevision, if_neg hrevision]
  · rw [if_pos hrevision, if_pos hrevision]
    dsimp only
    generalize hnext : change { managed with
      revision := managed.revision + 1, updatedAtMillis := now } = next
    have hnumber : next.revision = managed.revision + 1 := by rw [← hnext, hchange]
    have hnone : (slot.snapshots.find? fun existing => existing.revision = next.revision) = none := by
      rw [List.find?_eq_none]
      intro snapshot hsnapshot heq
      have hle := UInt64.le_iff_toNat_le.mp (hfresh snapshot hsnapshot)
      have hsame := congrArg UInt64.toNat ((of_decide_eq_true heq).trans hnumber)
      rw [UInt64.toNat_add, UInt64.toNat_one, Nat.mod_eq_of_lt hrevision] at hsame
      omega
    have hpersist : (AssetSlot.persistAsset next io).run { slot with memory := some next } =
        if io.stores then (.ok (), ⟨some next, (next :: slot.snapshots).take (2 + io.kept),
          slot.source⟩)
        else (.error storageError, ⟨some next, slot.snapshots, slot.source⟩) := by
      unfold AssetSlot.persistAsset
      rw [run_get_bind]
      dsimp only
      rw [hnone]
      dsimp only
      rw [run_ensure_bind]
      rfl
    exact hpersist

end Fluvora.MediaGateway
