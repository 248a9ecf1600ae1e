import Fluvora.MediaGateway.Uploads
import Fluvora.MediaGateway.VodJobs
import Fluvora.MediaPipeline.Lifecycle

/-!
# Completing an asset

`complete_asset` of the media gateway, which may fail or crash between any two of its steps, and the
restart after it: `load_assets`, then `resume_worker_monitors`.  The asset is stored in transcoding
before its job is submitted and once more when the identifier of the job is known.

`tracked_iff` tells when an asset is left in transcoding that nobody monitors.
-/

namespace Fluvora.MediaGateway

open ApiServer (ApiError)
open Domain Fallible MediaPipeline

structure ServicePlacement where
  endpoint : String
  generation : UInt64

structure CompleteAssetRequest where
  sourceBytes : UInt64
  jobSpec : VodJobSpec

/-- Where the process may stop. -/
inductive CrashPoint
  | published
  | placed
  | recorded
  | prepared
  | rejected
  | submitted
  | jobRecorded
deriving DecidableEq

/-- What a call meets: results of the object store, the control store and the worker, clocks and disks. -/
structure CompleteIo where
  crash : Option CrashPoint
  published : Except ApiError Unit
  placement : Except ApiError ServicePlacement
  recordNow : UInt64
  recordPersist : PersistIo
  directory : Bool
  submitted : Except ApiError UInt64
  failNow : UInt64
  failPersist : PersistIo
  jobNow : UInt64
  jobPersist : PersistIo

/-- The error of a call that the process does not return from. -/
def crashed : ApiError := ⟨0, "crashed", "the process has stopped"⟩

def invalidSegmentDuration : ApiError :=
  unprocessable "VOD segment duration must be between 1000 and 10000 milliseconds"

def validateVodJobRequest (spec : VodJobSpec) : Except ApiError Unit := do
  if 1000 ≤ spec.segmentDurationMillis ∧ spec.segmentDurationMillis ≤ 10000 then .ok ()
  else .error invalidSegmentDuration
  validateRenditionLadder spec.renditions false

namespace CompleteIo

/-- The process goes on unless it stops here. -/
def pass (io : CompleteIo) (point : CrashPoint) : Fallible AssetSlot ApiError Unit :=
  ensure (io.crash ≠ some point) crashed

end CompleteIo

/-- The worker that the asset is placed on, and what is to be done there. -/
def placeOn (placement : ServicePlacement) (spec : VodJobSpec) (managed : ManagedAsset) :
    ManagedAsset :=
  { managed with
    workerEndpoint := some placement.endpoint
    placementGeneration := some placement.generation
    jobSpec := some spec }

/-- The asset is stored in transcoding, with the worker that it is placed on. -/
def recordTranscoding (request : CompleteAssetRequest) (placement : ServicePlacement) (now : UInt64)
    (io : PersistIo) : Fallible AssetSlot ApiError Unit := do
  applyOperation (.completeUpload request.sourceBytes)
  applyOperation .startProbe
  applyOperation .startTranscode
  persistRevision (placeOn placement request.jobSpec) now io

/-- The identifier of the job is stored. -/
def recordJob (jobId : UInt64) (now : UInt64) (io : PersistIo) : Fallible AssetSlot ApiError Unit := do
  let managed ← getAsset
  setAsset { managed with jobId := some jobId }
  persistRevision id now io

/-- The error of a step is logged, and what follows goes on. -/
def attempt (m : Fallible AssetSlot ApiError Unit) : Fallible AssetSlot ApiError Unit :=
  fun slot => (.ok (), (m.run slot).2)

/-- The job is submitted, and its identifier or its failure is stored. -/
def submitRecorded (io : CompleteIo) : Fallible AssetSlot ApiError UInt64 := do
  io.pass .recorded
  ensure io.directory storageError
  io.pass .prepared
  match io.submitted with
  | .error error => do
      io.pass .rejected
      attempt (markAssetFailed error.message io.failNow io.failPersist)
      fail error
  | .ok jobId => do
      io.pass .submitted
      recordJob jobId io.jobNow io.jobPersist
      io.pass .jobRecorded
      return jobId

def completeAsset (request : CompleteAssetRequest) (io : CompleteIo) :
    Fallible AssetSlot ApiError UInt64 := do
  ofExcept (validateVodJobRequest request.jobSpec)
  checkSource request.sourceBytes
  ofExcept io.published
  io.pass .published
  let placement ← ofExcept io.placement
  io.pass .placed
  recordTranscoding request placement io.recordNow io.recordPersist
  submitRecorded io

/-! ## A restart -/

/-- The job for which `resume_worker_monitors` starts a monitor. -/
def resumeWorkerMonitor (managed : ManagedAsset) : Option UInt64 :=
  if managed.asset.state = .probing ∨ isTranscoding managed.asset.state then managed.jobId else none

section

variable (normalizeHttpOrigin : String → Option String)

/-- A restart that finds the asset so leaves it monitored, if it is still to be processed. -/
def Monitored (managed : ManagedAsset) : Prop :=
  managed.asset.state = .probing ∨ isTranscoding managed.asset.state →
    (resumeWorkerMonitor managed).isSome

/-- After a restart from these snapshots the asset is monitored, if it is still to be processed. -/
def Tracked (snapshots : List ManagedAsset) : Prop :=
  ∀ managed, restoreAsset normalizeHttpOrigin snapshots = some managed → Monitored managed

/-- The asset is stored in transcoding, so that it is found there after a restart. -/
def Records (slot : AssetSlot) (managed : ManagedAsset) (request : CompleteAssetRequest)
    (io : CompleteIo) : Prop :=
  validateVodJobRequest request.jobSpec = .ok () ∧
    ((checkSource request.sourceBytes).run slot).1 = .ok () ∧ io.published = .ok () ∧
    io.crash ≠ some .published ∧ io.crash ≠ some .placed ∧
    (∃ placement, io.placement = .ok placement ∧
      (normalizeHttpOrigin placement.endpoint).isSome) ∧
    managed.asset.version.toNat + 3 < 2 ^ 64 ∧ managed.revision.toNat + 1 < 2 ^ 64 ∧
    io.recordPersist.stores = true ∧ managed.createdAtMillis ≤ io.recordNow

/-- Its job, or its failure, is stored after that. -/
def Recovers (managed : ManagedAsset) (io : CompleteIo) : Prop :=
  io.crash ≠ some .recorded ∧ io.directory = true ∧ io.crash ≠ some .prepared ∧
    managed.revision.toNat + 2 < 2 ^ 64 ∧
    match io.submitted with
    | .ok _ => io.crash ≠ some .submitted ∧ io.jobPersist.stores = true ∧
        managed.createdAtMillis ≤ io.jobNow
    | .error error => io.crash ≠ some .rejected ∧
        isFailureReason (failureReason error.message) = true ∧
        managed.asset.version.toNat + 4 < 2 ^ 64 ∧ io.failPersist.stores = true ∧
        managed.createdAtMillis ≤ io.failNow

end

/-! ## What a call leaves on disk -/

section

variable {slot : AssetSlot} {managed : ManagedAsset} {request : CompleteAssetRequest}

/-- The record in transcoding. -/
def ManagedAsset.transcoding (managed : ManagedAsset) (request : CompleteAssetRequest)
    (placement : ServicePlacement) (now : UInt64) : ManagedAsset :=
  { managed with
    asset := { managed.asset with
      version := managed.asset.version + 1 + 1 + 1, state := .transcoding 0 }
    revision := managed.revision + 1
    updatedAtMillis := now
    workerEndpoint := some placement.endpoint
    placementGeneration := some placement.generation
    jobSpec := some request.jobSpec }

theorem recordTranscoding_run (hmemory : slot.memory = some managed)
    (hstate : managed.asset.state = .uploading request.sourceBytes) (hbytes : request.sourceBytes ≠ 0)
    (hfresh : ∀ snapshot ∈ slot.snapshots, snapshot.revision ≤ managed.revision)
    (placement : ServicePlacement) (now : UInt64) (io : PersistIo) :
    (managed.asset.version.toNat + 3 < 2 ^ 64 ∧ managed.revision.toNat + 1 < 2 ^ 64 ∧
        io.stores = true ∧ (recordTranscoding request placement now io).run slot =
          (.ok (), ⟨some (managed.transcoding request placement now),
            (managed.transcoding request placement now :: slot.snapshots).take (2 + io.kept),
            slot.source⟩)) ∨
      (¬ (managed.asset.version.toNat + 3 < 2 ^ 64 ∧ managed.revision.toNat + 1 < 2 ^ 64 ∧
        io.stores = true) ∧ ∃ error memory,
          (recordTranscoding request placement now io).run slot =
            (.error error, { slot with memory })) := by
  have hcomplete : Moves managed.asset.state (.completeUpload request.sourceBytes)
      (.uploaded request.sourceBytes) := by
    rw [hstate]
    exact .complete hbytes
  unfold recordTranscoding
  rw [applyOperation_bind hmemory hcomplete]
  by_cases hone : managed.asset.version.toNat + 1 < 2 ^ 64
  swap
  · rw [if_neg hone]
    exact .inr ⟨fun h => by omega, _, slot.memory, rfl⟩
  rw [if_pos hone, applyOperation_bind rfl .probe]
  dsimp only
  rw [toNat_succ hone]
  by_cases htwo : managed.asset.version.toNat + 1 + 1 < 2 ^ 64
  swap
  · rw [if_neg htwo]
    exact .inr ⟨fun h => by omega, _, _, rfl⟩
  have htwo' : (managed.asset.version + 1).toNat + 1 < 2 ^ 64 := by rwa [toNat_succ hone]
  rw [if_pos htwo, applyOperation_bind rfl .transcode]
  dsimp only
  rw [toNat_succ htwo', toNat_succ hone]
  by_cases hthree : managed.asset.version.toNat + 1 + 1 + 1 < 2 ^ 64
  swap
  · rw [if_neg hthree]
    exact .inr ⟨fun h => by omega, _, _, rfl⟩
  have hpersist := fun moved (hrevision : moved.revision = managed.revision) =>
    @persistRevision_eq { slot with memory := some moved } moved rfl (by rwa [hrevision])
      (placeOn placement request.jobSpec) (fun _ => rfl) now io
  rw [if_pos hthree, hpersist { managed with asset := { managed.asset with
    version := managed.asset.version + 1 + 1 + 1, state := .transcoding 0 } } rfl]
  dsimp only
  split_ifs with hrevision hstores
  · exact .inl ⟨hthree, hrevision, hstores, rfl⟩
  · exact .inr ⟨fun h => hstores h.2.2, _, _, rfl⟩
  · exact .inr ⟨fun h => hrevision h.2.1, _, _, rfl⟩

end

/-! ## What the job leaves on disk -/

section

variable {slot : AssetSlot} {recorded : ManagedAsset}

/-- The record with its job. -/
def ManagedAsset.withJob (recorded : ManagedAsset) (jobId now : UInt64) : ManagedAsset :=
  { recorded with jobId := some jobId, revision := recorded.revision + 1, updatedAtMillis := now }

/-- The record of a failure. -/
def ManagedAsset.withFailure (recorded : ManagedAsset) (reason : String) (now : UInt64) :
    ManagedAsset :=
  { recorded with
    asset := { recorded.asset with
      version := recorded.asset.version + 1, state := .failed (failureReason reason) true }
    revision := recorded.revision + 1
    updatedAtMillis := now }

theorem recordJob_snapshots (hmemory : slot.memory = some recorded)
    (hfresh : ∀ snapshot ∈ slot.snapshots, snapshot.revision ≤ recorded.revision)
    (jobId now : UInt64) (io : PersistIo) :
    ((recordJob jobId now io).run slot).2.snapshots =
      if recorded.revision.toNat + 1 < 2 ^ 64 ∧ io.stores = true then
        (recorded.withJob jobId now :: slot.snapshots).take (2 + io.kept)
      else slot.snapshots := by
  have hpersist := @persistRevision_eq
    { slot with memory := some { recorded with jobId := some jobId } }
    { recorded with jobId := some jobId } rfl hfresh id (fun _ => rfl) now io
  unfold recordJob
  rw [getAsset_bind hmemory]
  change ((persistRevision id now io).run { slot with memory := some { recorded with
    jobId := some jobId } }).2.snapshots = _
  rw [hpersist]
  dsimp only
  by_cases hrevision : recorded.revision.toNat + 1 < 2 ^ 64
  · rw [if_pos hrevision]
    by_cases hstores : io.stores = true
    · rw [if_pos hstores, if_pos ⟨hrevision, hstores⟩]
      rfl
    · rw [if_neg hstores, if_neg fun h => hstores h.2]
  · rw [if_neg hrevision, if_neg fun h => hrevision h.1]

theorem markAssetFailed_snapshots (hmemory : slot.memory = some recorded)
    (hstate : recorded.asset.state = .transcoding 0)
    (hfresh : ∀ snapshot ∈ slot.snapshots, snapshot.revision ≤ recorded.revision)
    (reason : String) (now : UInt64) (io : PersistIo) :
    ((markAssetFailed reason now io).run slot).2.snapshots =
      if isFailureReason (failureReason reason) = true ∧
          recorded.asset.version.toNat + 1 < 2 ^ 64 ∧ recorded.revision.toNat + 1 < 2 ^ 64 ∧
          io.stores = true then
        (recorded.withFailure reason now :: slot.snapshots).take (2 + io.kept)
      else slot.snapshots := by
  by_cases hreason : isFailureReason (failureReason reason) = true
  swap
  · rw [if_neg fun h => hreason h.1]
    have hrejected := mt (fail_isOk_iff hstate (failureReason reason) true).mp fun h => hreason h.1
    unfold markAssetFailed
    rw [run_bind, applyOperation_run hmemory]
    cases hrun : ((AssetOperation.fail (failureReason reason) true).apply.run recorded.asset).1 with
    | ok => exact absurd hrun hrejected
    | error error => rfl
  have hmoves : Moves recorded.asset.state (.fail (failureReason reason) true)
      (.failed (failureReason reason) true) := by
    rw [hstate]
    exact .fail (by simp) hreason
  have hpersist := fun moved (hrevision : moved.revision = recorded.revision) =>
    @persistRevision_eq { slot with memory := some moved } moved rfl (by rwa [hrevision]) id
      (fun _ => rfl) now io
  unfold markAssetFailed
  rw [applyOperation_bind hmemory hmoves]
  by_cases hversion : recorded.asset.version.toNat + 1 < 2 ^ 64
  swap
  · rw [if_neg hversion, if_neg fun h => hversion h.2.1]
  rw [if_pos hversion, hpersist { recorded with asset := { recorded.asset with
    version := recorded.asset.version + 1, state := .failed (failureReason reason) true } } rfl]
  dsimp only
  by_cases hrevision : recorded.revision.toNat + 1 < 2 ^ 64
  · rw [if_pos hrevision]
    by_cases hstores : io.stores = true
    · rw [if_pos hstores, if_pos ⟨hreason, hversion, hrevision, hstores⟩]
      rfl
    · rw [if_neg hstores, if_neg fun h => hstores h.2.2.2]
  · rw [if_neg hrevision, if_neg fun h => hrevision h.2.2.1]

end

/-! ## What a restart makes of it -/

section

variable {normalizeHttpOrigin : String → Option String}

theorem monitored_of_validateLoadedAsset {managed loaded : ManagedAsset}
    (h : validateLoadedAsset normalizeHttpOrigin managed = some loaded) :
    Monitored loaded ↔ Monitored managed := by
  rw [eq_of_validateLoadedAsset h]
  exact Iff.rfl

/-- Snapshots behind the newest that is accepted are not looked at. -/
theorem tracked_cons_iff {managed : ManagedAsset} {snapshots : List ManagedAsset} :
    Tracked normalizeHttpOrigin (managed :: snapshots) ↔
      if (validateLoadedAsset normalizeHttpOrigin managed).isSome then Monitored managed
      else Tracked normalizeHttpOrigin snapshots := by
  unfold Tracked restoreAsset
  rw [List.findSome?_cons]
  cases haccepted : validateLoadedAsset normalizeHttpOrigin managed with
  | none => simp
  | some loaded =>
    rw [← monitored_of_validateLoadedAsset haccepted]
    simp

theorem tracked_take {snapshots : List ManagedAsset} (h : Tracked normalizeHttpOrigin snapshots)
    (count : ℕ) : Tracked normalizeHttpOrigin (snapshots.take count) := by
  intro managed hmanaged
  refine h managed ?_
  unfold restoreAsset at hmanaged ⊢
  rw [← List.take_append_drop count snapshots, List.findSome?_append, hmanaged]
  rfl

/-- A record that is not monitored does no harm only if it is not accepted. -/
theorem tracked_recorded_iff {recorded : ManagedAsset} {snapshots : List ManagedAsset}
    (hrecorded : ¬ Monitored recorded) (hsnapshots : Tracked normalizeHttpOrigin snapshots) :
    Tracked normalizeHttpOrigin (recorded :: snapshots) ↔
      ¬ (validateLoadedAsset normalizeHttpOrigin recorded).isSome := by
  rw [tracked_cons_iff]
  split_ifs with haccepted
  · exact iff_of_false hrecorded (not_not_intro haccepted)
  · exact iff_of_true hsnapshots haccepted

theorem tracked_resolved_iff {recorded resolved : ManagedAsset} {snapshots : List ManagedAsset}
    (hrecorded : ¬ Monitored recorded) (hresolved : Monitored resolved)
    (hsnapshots : Tracked normalizeHttpOrigin snapshots) (count : ℕ) :
    Tracked normalizeHttpOrigin ((resolved :: recorded :: snapshots).take (2 + count)) ↔
      (validateLoadedAsset normalizeHttpOrigin resolved).isSome ∨
        ¬ (validateLoadedAsset normalizeHttpOrigin recorded).isSome := by
  have htake : (resolved :: recorded :: snapshots).take (2 + count) =
      resolved :: recorded :: snapshots.take count := by
    rw [Nat.add_comm]
    rfl
  rw [htake, tracked_cons_iff]
  split_ifs with haccepted
  · exact iff_of_true hresolved (.inl haccepted)
  · rw [tracked_recorded_iff hrecorded (tracked_take hsnapshots count)]
    exact (or_iff_right haccepted).symm

/-! ### The record in transcoding, and the one after it -/

variable {managed : ManagedAsset} {request : CompleteAssetRequest}

theorem isJobSpec_of_validateVodJobRequest {spec : VodJobSpec}
    (h : validateVodJobRequest spec = .ok ()) : isJobSpec spec = true := by
  unfold validateVodJobRequest at h
  unfold isJobSpec
  by_cases hduration : 1000 ≤ spec.segmentDurationMillis ∧ spec.segmentDurationMillis ≤ 10000
  · rw [if_pos hduration, Results.bind_ok] at h
    dsimp only at h
    rw [h]
    simp [hduration, Except.isOk, Except.toBool]
  · rw [if_neg hduration] at h
    cases h

/-- A record that is made of the one in transcoding is accepted unless the clock went back. -/
theorem accepted_iff {record : ManagedAsset} {placement : ServicePlacement}
    (hspec : validateVodJobRequest request.jobSpec = .ok ())
    (hendpoint : record.workerEndpoint = some placement.endpoint)
    (hgeneration : record.placementGeneration = some placement.generation)
    (hjobSpec : record.jobSpec = some request.jobSpec) (hrevision : record.revision.toNat ≠ 0)
    (hasset : record.asset.validate = .ok ()) :
    (validateLoadedAsset normalizeHttpOrigin record).isSome ↔
      record.createdAtMillis ≤ record.updatedAtMillis ∧
        (normalizeHttpOrigin placement.endpoint).isSome := by
  rw [validateLoadedAsset_isSome_iff hendpoint hgeneration hjobSpec
    (isJobSpec_of_validateVodJobRequest hspec)]
  refine ⟨fun h => ⟨h.2.2.1, h.2.2.2⟩, fun h => ⟨?_, hasset, h.1, h.2⟩⟩
  rintro hzero
  exact hrevision (by rw [hzero]; rfl)

/-- The version of an asset that is uploading has room for the moves to transcoding. -/
theorem validate_moved {asset : VodAsset} {version : UInt64} {state : AssetState}
    (hvalid : asset.validate = .ok ()) (hstate : state ≠ .created) (horder : state.InOrder)
    (hversion : state.least ≤ version.toNat) :
    ({ asset with version, state } : VodAsset).validate = .ok () := by
  obtain ⟨hid, htenant, -⟩ := validate_eq_ok_iff.mp hvalid
  exact validate_eq_ok_iff.mpr ⟨hid, htenant, horder, fun h => absurd h hstate, hversion⟩

theorem and_or_not_and_iff {p q r : Prop} : p ∧ r ∨ ¬ (q ∧ r) ↔ ¬ (r ∧ q) ∨ p := by tauto

/-- What the steps after the record in transcoding make of it. -/
theorem tracked_submitRecorded_iff {slot : AssetSlot} {managed recorded : ManagedAsset}
    {request : CompleteAssetRequest} {placement : ServicePlacement} {now : UInt64}
    {snapshots : List ManagedAsset} {io : CompleteIo}
    (hrecorded : recorded = managed.transcoding request placement now)
    (hmemory : slot.memory = some recorded) (hslot : slot.snapshots = recorded :: snapshots)
    (hvalid : managed.asset.validate = .ok ()) (hjob : managed.jobId = none)
    (hspec : validateVodJobRequest request.jobSpec = .ok ())
    (huploading : 2 ≤ managed.asset.version.toNat)
    (hversion : managed.asset.version.toNat + 3 < 2 ^ 64)
    (hrevision : managed.revision.toNat + 1 < 2 ^ 64)
    (hfresh : ∀ snapshot ∈ slot.snapshots, snapshot.revision ≤ recorded.revision)
    (hsnapshots : Tracked normalizeHttpOrigin snapshots) :
    Tracked normalizeHttpOrigin ((submitRecorded io).run slot).2.snapshots ↔
      ¬ ((normalizeHttpOrigin placement.endpoint).isSome ∧ managed.createdAtMillis ≤ now) ∨
        Recovers managed io := by
  have hone : recorded.revision.toNat = managed.revision.toNat + 1 := by
    rw [hrecorded]
    exact toNat_succ hrevision
  have hthree : recorded.asset.version.toNat = managed.asset.version.toNat + 3 := by
    rw [hrecorded]
    change (managed.asset.version + 1 + 1 + 1).toNat = _
    have h1 := toNat_succ (show managed.asset.version.toNat + 1 < 2 ^ 64 by omega)
    have h2 := toNat_succ (show (managed.asset.version + 1).toNat + 1 < 2 ^ 64 by omega)
    have h3 := toNat_succ (show (managed.asset.version + 1 + 1).toNat + 1 < 2 ^ 64 by omega)
    omega
  have hstate : recorded.asset.state = .transcoding 0 := by rw [hrecorded]; rfl
  have hunmonitored : ¬ Monitored recorded := by
    rw [hrecorded]
    intro h
    have hmonitor := h (.inr rfl)
    change (if _ ∨ _ then managed.jobId else none).isSome = true at hmonitor
    rw [if_pos (.inr rfl), hjob] at hmonitor
    cases hmonitor
  have hasset : recorded.asset.validate = .ok () := by
    have hleast : 5 ≤ recorded.asset.version.toNat := by omega
    rw [hrecorded] at hleast ⊢
    exact validate_moved hvalid (fun h => by cases h) trivial hleast
  have hplaced : ∀ record : ManagedAsset, record.workerEndpoint = recorded.workerEndpoint →
      record.placementGeneration = recorded.placementGeneration →
      record.jobSpec = recorded.jobSpec → record.createdAtMillis = recorded.createdAtMillis →
      record.revision.toNat ≠ 0 → record.asset.validate = .ok () →
      ((validateLoadedAsset normalizeHttpOrigin record).isSome ↔
        managed.createdAtMillis ≤ record.updatedAtMillis ∧
          (normalizeHttpOrigin placement.endpoint).isSome) := by
    intro record hendpoint hgeneration hjobSpec hcreated hnonzero hloads
    rw [hrecorded] at hendpoint hgeneration hjobSpec hcreated
    rw [accepted_iff hspec hendpoint hgeneration hjobSpec hnonzero hloads, hcreated]
    rfl
  have haccepted : (validateLoadedAsset normalizeHttpOrigin recorded).isSome ↔
      managed.createdAtMillis ≤ now ∧ (normalizeHttpOrigin placement.endpoint).isSome := by
    have hloads := hplaced recorded rfl rfl rfl rfl (by omega) hasset
    rw [hrecorded] at hloads ⊢
    exact hloads
  -- Nothing is stored any more.
  have hleft : ¬ Recovers managed io → (Tracked normalizeHttpOrigin slot.snapshots ↔
      ¬ ((normalizeHttpOrigin placement.endpoint).isSome ∧ managed.createdAtMillis ≤ now) ∨
        Recovers managed io) := by
    intro hnot
    rw [hslot, tracked_recorded_iff hunmonitored hsnapshots, haccepted, or_iff_left hnot, and_comm]
  -- A record that needs no monitor, or has one, is stored on top.
  have htop : ∀ resolved time count, Monitored resolved →
      ((validateLoadedAsset normalizeHttpOrigin resolved).isSome ↔
        managed.createdAtMillis ≤ time ∧ (normalizeHttpOrigin placement.endpoint).isSome) →
      (Recovers managed io ↔ managed.createdAtMillis ≤ time) →
      (Tracked normalizeHttpOrigin ((resolved :: slot.snapshots).take (2 + count)) ↔
        ¬ ((normalizeHttpOrigin placement.endpoint).isSome ∧ managed.createdAtMillis ≤ now) ∨
          Recovers managed io) := by
    intro resolved time count hresolved hloads hrecovers
    rw [hslot, tracked_resolved_iff hunmonitored hresolved hsnapshots, hloads, haccepted, hrecovers]
    exact and_or_not_and_iff
  unfold submitRecorded CompleteIo.pass
  rw [run_ensure_bind]
  split_ifs with hcrash
  swap
  · exact hleft fun h => hcrash h.1
  rw [run_ensure_bind]
  split_ifs with hdirectory
  swap
  · exact hleft fun h => hdirectory h.2.1
  rw [run_ensure_bind]
  split_ifs with hprepared
  swap
  · exact hleft fun h => hprepared h.2.2.1
  cases hsubmitted : io.submitted with
  | error error =>
    dsimp only
    rw [run_ensure_bind]
    split_ifs with hrejected
    swap
    · refine hleft fun h => ?_
      have hfailure := h.2.2.2.2
      rw [hsubmitted] at hfailure
      exact hrejected hfailure.1
    change Tracked normalizeHttpOrigin
      ((markAssetFailed error.message io.failNow io.failPersist).run slot).2.snapshots ↔ _
    rw [markAssetFailed_snapshots hmemory hstate hfresh]
    split_ifs with hfailed
    · obtain ⟨hreason, hnext, hsecond, hstores⟩ := hfailed
      have hunneeded : Monitored (recorded.withFailure error.message io.failNow) := by
        rintro (hprobing | htranscoding)
        · cases hprobing
        · cases htranscoding
      have hnumbered : (recorded.withFailure error.message io.failNow).revision.toNat =
          recorded.revision.toNat + 1 := toNat_succ hsecond
      have hloads := hplaced (recorded.withFailure error.message io.failNow) rfl rfl rfl rfl
        (by omega) (validate_moved hasset (fun h => by cases h) hreason (by
          rw [toNat_succ hnext]
          change 2 ≤ _
          omega))
      refine htop _ io.failNow _ hunneeded hloads ?_
      unfold Recovers
      rw [hsubmitted]
      exact ⟨fun h => h.2.2.2.2.2.2.2.2, fun h => ⟨hcrash, hdirectory, hprepared, by omega, hrejected,
        hreason, by omega, hstores, h⟩⟩
    · refine hleft fun h => hfailed ?_
      obtain ⟨-, -, -, hsecond, hfailure⟩ := h
      rw [hsubmitted] at hfailure
      exact ⟨hfailure.2.1, by omega, by omega, hfailure.2.2.2.1⟩
  | ok jobId =>
    dsimp only
    rw [run_ensure_bind]
    split_ifs with hlost
    swap
    · refine hleft fun h => ?_
      have hstored := h.2.2.2.2
      rw [hsubmitted] at hstored
      exact hlost hstored.1
    have hdone : ((do
        recordJob jobId io.jobNow io.jobPersist
        ensure (io.crash ≠ some .jobRecorded) crashed
        return jobId : Fallible AssetSlot ApiError UInt64).run slot).2 =
          ((recordJob jobId io.jobNow io.jobPersist).run slot).2 := by
      rw [run_bind]
      cases hrun : (recordJob jobId io.jobNow io.jobPersist).run slot with
      | mk result after =>
        cases result with
        | error error => rfl
        | ok =>
          dsimp only
          rw [run_ensure_bind]
          split_ifs <;> rfl
    rw [hdone, recordJob_snapshots hmemory hfresh]
    split_ifs with hrecordedJob
    · obtain ⟨hsecond, hstores⟩ := hrecordedJob
      have hmonitored : Monitored (recorded.withJob jobId io.jobNow) := by
        intro hactive
        unfold resumeWorkerMonitor
        rw [if_pos hactive]
        rfl
      have hnumbered : (recorded.withJob jobId io.jobNow).revision.toNat =
          recorded.revision.toNat + 1 := toNat_succ hsecond
      have hloads := hplaced (recorded.withJob jobId io.jobNow) rfl rfl rfl rfl (by omega) hasset
      refine htop _ io.jobNow _ hmonitored hloads ?_
      unfold Recovers
      rw [hsubmitted]
      exact ⟨fun h => h.2.2.2.2.2.2, fun h => ⟨hcrash, hdirectory, hprepared, by omega, hlost,
        hstores, h⟩⟩
    · refine hleft fun h => hrecordedJob ?_
      obtain ⟨-, -, -, hsecond, hstored⟩ := h
      rw [hsubmitted] at hstored
      exact ⟨by omega, hstored.2.1⟩

/-- After a call that may stop or fail anywhere, a restart leaves the asset monitored, or not in need
of it, exactly if the record in transcoding was not stored or was followed by its job or its failure. -/
theorem tracked_iff (normalizeHttpOrigin : String → Option String) {slot : AssetSlot}
    {managed : ManagedAsset} (hmemory : slot.memory = some managed)
    (hvalid : managed.asset.validate = .ok ()) (hjob : managed.jobId = none)
    (hfresh : ∀ snapshot ∈ slot.snapshots, snapshot.revision ≤ managed.revision)
    (hbefore : Tracked normalizeHttpOrigin slot.snapshots) (request : CompleteAssetRequest)
    (io : CompleteIo) :
    Tracked normalizeHttpOrigin ((completeAsset request io).run slot).2.snapshots ↔
      ¬ (Records normalizeHttpOrigin slot managed request io ∧ ¬ Recovers managed io) := by
  unfold completeAsset CompleteIo.pass
  rw [run_ofExcept_bind]
  cases hspec : validateVodJobRequest request.jobSpec with
  | error error =>
    refine iff_of_true hbefore fun h => ?_
    have hrequest := h.1.1
    rw [hspec] at hrequest
    cases hrequest
  | ok =>
  dsimp only
  rw [run_bind]
  have hkept := checkSource_state slot request.sourceBytes
  cases hsource : (checkSource request.sourceBytes).run slot with
  | mk result after =>
  rw [hsource] at hkept
  dsimp only at hkept
  obtain rfl := hkept.symm
  cases result with
  | error error =>
    refine iff_of_true hbefore fun h => ?_
    have hchecked := h.1.2.1
    rw [hsource] at hchecked
    cases hchecked
  | ok =>
  have hchecked := (checkSource_eq_ok_iff hmemory request.sourceBytes).mp (by rw [hsource])
  dsimp only
  rw [run_ofExcept_bind]
  cases hpublished : io.published with
  | error error =>
    refine iff_of_true hbefore fun h => ?_
    have hstored := h.1.2.2.1
    rw [hpublished] at hstored
    cases hstored
  | ok =>
  dsimp only
  rw [run_ensure_bind]
  split_ifs with hfirst
  swap
  · exact iff_of_true hbefore fun h => hfirst h.1.2.2.2.1
  rw [run_ofExcept_bind]
  cases hplacement : io.placement with
  | error error =>
    refine iff_of_true hbefore fun h => ?_
    obtain ⟨placement, hplaced, -⟩ := h.1.2.2.2.2.2.1
    rw [hplacement] at hplaced
    cases hplaced
  | ok placement =>
  dsimp only
  rw [run_ensure_bind]
  split_ifs with hsecond
  swap
  · exact iff_of_true hbefore fun h => hsecond h.1.2.2.2.2.1
  rw [run_bind]
  rcases recordTranscoding_run hmemory hchecked.1 hchecked.2.1 hfresh placement io.recordNow
    io.recordPersist with ⟨hversion, hrevision, hstores, hrun⟩ | ⟨hnot, error, memory, hrun⟩
  · rw [hrun]
    dsimp only
    have hnext := toNat_succ hrevision
    have hfresh' : ∀ snapshot ∈ (managed.transcoding request placement io.recordNow ::
        slot.snapshots).take (2 + io.recordPersist.kept),
          snapshot.revision ≤ (managed.transcoding request placement io.recordNow).revision := by
      intro snapshot hsnapshot
      rcases List.mem_cons.mp (List.mem_of_mem_take hsnapshot) with rfl | hold
      · exact UInt64.le_refl _
      · have hle := UInt64.le_iff_toNat_le.mp (hfresh snapshot hold)
        rw [UInt64.le_iff_toNat_le]
        change _ ≤ (managed.revision + 1).toNat
        omega
    have htake : (managed.transcoding request placement io.recordNow :: slot.snapshots).take
        (2 + io.recordPersist.kept) = managed.transcoding request placement io.recordNow ::
          slot.snapshots.take (1 + io.recordPersist.kept) := by
      rw [Nat.add_comm, Nat.add_comm 1]
      rfl
    have huploading : 2 ≤ managed.asset.version.toNat := by
      obtain ⟨-, -, -, -, hleast⟩ := validate_eq_ok_iff.mp hvalid
      rw [hchecked.1] at hleast
      exact hleast
    have hrecords : Records normalizeHttpOrigin slot managed request io ↔
        (normalizeHttpOrigin placement.endpoint).isSome ∧ managed.createdAtMillis ≤ io.recordNow := by
      constructor
      · rintro ⟨-, -, -, -, -, ⟨placement', hplaced, horigin⟩, -, -, -, hclock⟩
        cases hplacement.symm.trans hplaced
        exact ⟨horigin, hclock⟩
      · rintro ⟨horigin, hclock⟩
        exact ⟨hspec, by rw [hsource], hpublished, hfirst, hsecond, ⟨placement, hplacement, horigin⟩,
          hversion, hrevision, hstores, hclock⟩
    rw [hrecords, not_and_not_right, imp_iff_not_or]
    exact tracked_submitRecorded_iff rfl rfl htake hvalid hjob hspec huploading hversion hrevision
      hfresh' (tracked_take hbefore _)
  · rw [hrun]
    refine iff_of_true hbefore fun h => hnot ?_
    obtain ⟨-, -, -, -, -, -, hversion, hrevision, hstores, -⟩ := h.1
    exact ⟨hversion, hrevision, hstores⟩

end

/-! ## A crash before the job is known -/

namespace MovieCompletion

def uploaded : ManagedAsset :=
  ⟨⟨"movie", "tenant", 2, .uploading 2⟩, none, 2, 1000, 2000, none, none, none⟩

def slot : AssetSlot := ⟨some uploaded, [uploaded], [1, 2]⟩

def request : CompleteAssetRequest := ⟨2, ⟨6000, [⟨1280, 720, 3000000, 128000⟩]⟩⟩

/-- Everything is answered, and the process stops at a point. -/
def io (crash : Option CrashPoint) : CompleteIo :=
  ⟨crash, .ok (), .ok ⟨"http://worker:8090", 1⟩, 3000, ⟨true, 0⟩, true, .ok 7, 3001, ⟨true, 0⟩, 3002,
    ⟨true, 0⟩⟩

theorem tracked_uploaded : Tracked some slot.snapshots := by
  intro managed hmanaged hactive
  have hstate : (restoreAsset some slot.snapshots).map (·.asset.state) = some (.uploading 2) := by
    decide
  rw [hmanaged] at hstate
  rcases hactive with hprobing | htranscoding
  · simp [hprobing] at hstate
  · have hasset : managed.asset.state = .uploading 2 := Option.some.inj hstate
    rw [hasset] at htranscoding
    cases htranscoding

theorem tracked_completed :
    Tracked some ((completeAsset request (io none)).run slot).2.snapshots ↔
      ¬ (Records some slot uploaded request (io none) ∧ ¬ Recovers uploaded (io none)) :=
  tracked_iff some rfl (by decide) rfl (by decide) tracked_uploaded request (io none)

/-- The record in transcoding is stored, and the process stops before the job is submitted. -/
theorem not_tracked_recorded :
    ¬ Tracked some ((completeAsset request (io (some .recorded))).run slot).2.snapshots := by
  intro h
  have hrestored : (restoreAsset some ((completeAsset request (io (some .recorded))).run
      slot).2.snapshots).map (fun managed => (managed.asset.state, managed.jobId)) =
        some (.transcoding 0, none) := by decide
  obtain ⟨managed, hmanaged, hfields⟩ := Option.map_eq_some_iff.mp hrestored
  obtain ⟨hstate, hjob⟩ := Prod.mk.inj hfields
  have hmonitored := h managed hmanaged (.inr (by rw [hstate]; rfl))
  unfold resumeWorkerMonitor at hmonitored
  rw [hjob, ite_self] at hmonitored
  cases hmonitored

end MovieCompletion

end Fluvora.MediaGateway
