import Fluvora.Lib.RecordStore
import Fluvora.MediaGateway.Completion

/-!
# The asset handlers, section by section

The parts of the gateway's asset handlers that change a record, each of which runs under the lock on
the assets, so that other handlers can run in between.  What a handler learns outside of them, from a
worker, the control store or the object store, is an input of the section that uses it.

`AssetSlot.records_section` tells which of them leave the record in memory as it would be restored: the
checks in front of the first change may fail, but nothing after it.
-/

namespace Fluvora.MediaGateway

open ApiServer (ApiError)
open Domain Fallible MediaPipeline

def createAsset (assetId tenantId : String) (directory : Bool) (now : UInt64) (io : PersistIo) :
    Fallible AssetSlot ApiError Unit := do
  let asset ← ofExcept ((VodAsset.create assetId tenantId).mapError pipelineError)
  let slot ← get
  ensure slot.memory.isNone (conflict "asset already exists")
  ensure directory storageError
  let managed : ManagedAsset := ⟨asset, none, 1, now, now, none, none, none⟩
  AssetSlot.persistAsset managed io
  setAsset managed

/-- The first section of `delete_asset_storage`. -/
def startDeleteAsset (now : UInt64) (io : PersistIo) : Fallible AssetSlot ApiError Unit := do
  let managed ← getAsset
  match managed.asset.state with
  | .probing | .transcoding _ => fail (conflict "an active media job cannot be deleted")
  | .deleting | .deleted => return ()
  | _ => do
      applyOperation .startDelete
      persistRevision id now io

/-- Its second section, once the objects and the directories are removed. -/
def finishDeleteAsset (now : UInt64) (io : PersistIo) : Fallible AssetSlot ApiError Unit := do
  let managed ← getAsset
  match managed.asset.state with
  | .deleting => do
      applyOperation .finishDelete
      let managed ← getAsset
      setAsset { managed with jobId := none }
      persistRevision id now io
  | _ => return ()

/-- The end of `restart_vod_job`. -/
def recordVodFailover (jobId : UInt64) (placement : ServicePlacement) (now : UInt64) (io : PersistIo) :
    Fallible AssetSlot ApiError Unit := do
  let managed ← getAsset
  setAsset { managed with
    jobId := some jobId
    workerEndpoint := some placement.endpoint
    placementGeneration := some placement.generation
    updatedAtMillis := now }
  persistRevision id now io

inductive AssetSection
  | create (tenantId : String) (directory : Bool) (now : UInt64) (io : PersistIo)
  | uploadSourceChunk (offset : UInt64) (bytes : List UInt8) (now : UInt64) (io : ChunkIo)
  | recordTranscoding (request : CompleteAssetRequest) (placement : ServicePlacement) (now : UInt64)
      (io : PersistIo)
  | recordJob (jobId now : UInt64) (io : PersistIo)
  | markAssetFailed (reason : String) (now : UInt64) (io : PersistIo)
  | finalizeVodSuccess (playlist : Option String) (publication : Except String Unit) (now : UInt64)
      (io : PersistIo)
  | recordVodFailover (jobId : UInt64) (placement : ServicePlacement) (now : UInt64) (io : PersistIo)
  | startDelete (now : UInt64) (io : PersistIo)
  | finishDelete (now : UInt64) (io : PersistIo)

def ManagedAsset.isPlaced (managed : ManagedAsset) : Bool := managed.workerEndpoint.isSome

namespace AssetSection

section

variable (sumMillis : List String → Option UInt64) (assetId : String)

/-- A request to complete an asset is checked before anything else, and its job is recorded only by a
handler that has recorded the placement. -/
def run : AssetSection → Fallible AssetSlot ApiError Unit
  | .create tenantId directory now io => createAsset assetId tenantId directory now io
  | .uploadSourceChunk offset bytes now io => MediaGateway.uploadSourceChunk offset bytes now io
  | .recordTranscoding request placement now io => do
      ofExcept (validateVodJobRequest request.jobSpec)
      MediaGateway.recordTranscoding request placement now io
  | .recordJob jobId now io => do
      let managed ← getAsset
      if managed.isPlaced then MediaGateway.recordJob jobId now io else return ()
  | .markAssetFailed reason now io => MediaGateway.markAssetFailed reason now io
  | .finalizeVodSuccess playlist publication now io =>
      MediaGateway.finalizeVodSuccess sumMillis playlist publication now io
  | .recordVodFailover jobId placement now io => MediaGateway.recordVodFailover jobId placement now io
  | .startDelete now io => startDeleteAsset now io
  | .finishDelete now io => finishDeleteAsset now io

end

/-! ## Which sections change a record, and what they need then -/

/-- The operation is a move of the lifecycle, and there is a next version. -/
def CanMove (asset : VodAsset) (operation : AssetOperation) : Prop :=
  (∃ state, Moves asset.state operation state) ∧ asset.version.toNat + 1 < 2 ^ 64

/-- The checks in front of the first change succeed. -/
def Changes (sumMillis : List String → Option UInt64) (managed : ManagedAsset) : AssetSection → Prop
  | .create _ _ _ _ => False
  | .uploadSourceChunk offset bytes _ io =>
      bytes.length ≤ maxUploadChunkBytes ∧ bytes ≠ [] ∧
        expectedOffset managed.asset.state = some offset ∧ io.opens = true ∧ io.cut = none ∧
        io.syncs = true ∧ offset.toNat + bytes.length < 2 ^ 64 ∧
        managed.asset.version.toNat + 1 < 2 ^ 64
  | .recordTranscoding request _ _ _ =>
      validateVodJobRequest request.jobSpec = .ok () ∧
        CanMove managed.asset (.completeUpload request.sourceBytes)
  | .recordJob _ _ _ => managed.isPlaced = true
  | .markAssetFailed reason _ _ => CanMove managed.asset (.fail (failureReason reason) true)
  | .finalizeVodSuccess playlist (.ok ()) _ _ =>
      CanMove managed.asset (.markReady "master.m3u8" (readyDuration sumMillis playlist))
  | .finalizeVodSuccess _ (.error error) _ _ =>
      CanMove managed.asset (.fail (failureReason (publicationFailed error)) true)
  | .recordVodFailover _ _ _ _ => True
  | .startDelete _ _ =>
      managed.asset.state ≠ .probing ∧ isTranscoding managed.asset.state = false ∧
        CanMove managed.asset .startDelete
  | .finishDelete _ _ => CanMove managed.asset .finishDelete

/-- There is a next revision, it is stored, and the clock has not gone back behind the creation. -/
def Persists (managed : ManagedAsset) (now : UInt64) (io : PersistIo) : Prop :=
  managed.revision.toNat + 1 < 2 ^ 64 ∧ managed.createdAtMillis ≤ now ∧ io.stores = true

section

variable (normalizeHttpOrigin : String → Option String)

/-- A placement that is loaded as it is stored. -/
def IsNormal (placement : ServicePlacement) : Prop :=
  normalizeHttpOrigin placement.endpoint = some placement.endpoint

/-- Nothing fails after the first change, and the snapshot is accepted. -/
def Completes (managed : ManagedAsset) : AssetSection → Prop
  | .create _ _ _ _ => True
  | .uploadSourceChunk _ _ now io => Persists managed now io.persist
  | .recordTranscoding _ placement now io =>
      managed.asset.version.toNat + 3 < 2 ^ 64 ∧ IsNormal normalizeHttpOrigin placement ∧
        Persists managed now io
  | .recordVodFailover _ placement now io =>
      IsNormal normalizeHttpOrigin placement ∧ Persists managed now io
  | .recordJob _ now io | .markAssetFailed _ now io | .finalizeVodSuccess _ _ now io
  | .startDelete now io | .finishDelete now io => Persists managed now io

/-- A section that changes the record completes. -/
def InStep (sumMillis : List String → Option UInt64) (slot : AssetSlot) (part : AssetSection) : Prop :=
  ∀ managed, slot.memory = some managed → part.Changes sumMillis managed →
    part.Completes normalizeHttpOrigin managed

end

end AssetSection

/-! ## Records that are accepted -/

section

variable (normalizeHttpOrigin : String → Option String)

/-- What `validateLoadedAsset` asks of a record that it does not change, but for its revision and
its times. -/
structure ManagedAsset.InOrder (managed : ManagedAsset) : Prop where
  valid : managed.asset.validate = .ok ()
  endpoint : normalizeWorkerEndpoint normalizeHttpOrigin managed.workerEndpoint =
    some managed.workerEndpoint
  job : managed.jobId.isNone ∨
    managed.workerEndpoint.isSome ∧ managed.placementGeneration.isSome
  paired : managed.workerEndpoint.isSome = managed.placementGeneration.isSome
  spec : managed.jobSpec.all isJobSpec = true
  transcoding : isTranscoding managed.asset.state = false ∨ managed.jobSpec.isSome

variable {normalizeHttpOrigin} {managed : ManagedAsset}

theorem guard_bind_eq_some_iff {α : Type} {p : Prop} [Decidable p] {m : Option α} {a : α} :
    (do guard p; m : Option α) = some a ↔ p ∧ m = some a := by
  unfold guard
  split_ifs with hp <;> simp [hp]

theorem validateLoadedAsset_eq_self_iff :
    validateLoadedAsset normalizeHttpOrigin managed = some managed ↔
      managed.revision ≠ 0 ∧ managed.createdAtMillis ≤ managed.updatedAtMillis ∧
        managed.InOrder normalizeHttpOrigin := by
  unfold validateLoadedAsset
  rw [guard_bind_eq_some_iff, guard_bind_eq_some_iff, guard_bind_eq_some_iff]
  constructor
  · rintro ⟨hrevision, hvalid, htimes, h⟩
    obtain ⟨endpoint, hendpoint, h⟩ := Option.bind_eq_some_iff.mp h
    rw [guard_bind_eq_some_iff, guard_bind_eq_some_iff, guard_bind_eq_some_iff,
      guard_bind_eq_some_iff] at h
    obtain ⟨hjob, hpaired, hspec, htranscoding, h⟩ := h
    have hsame : endpoint = managed.workerEndpoint :=
      congrArg ManagedAsset.workerEndpoint (Option.some.inj h)
    rw [hsame] at hendpoint hjob hpaired
    exact ⟨hrevision, htimes, hvalid, hendpoint, hjob, hpaired, hspec, htranscoding⟩
  · rintro ⟨hrevision, htimes, horder⟩
    refine ⟨hrevision, horder.valid, htimes, Option.bind_eq_some_iff.mpr
      ⟨managed.workerEndpoint, horder.endpoint, ?_⟩⟩
    rw [guard_bind_eq_some_iff, guard_bind_eq_some_iff, guard_bind_eq_some_iff,
      guard_bind_eq_some_iff]
    exact ⟨horder.job, horder.paired, horder.spec, horder.transcoding, rfl⟩

theorem ne_zero_of_toNat {number : UInt64} {previous : ℕ} (h : number.toNat = previous + 1) :
    number ≠ 0 := by
  rintro rfl
  cases h

/-- A move other than a retry leaves an asset that is accepted. -/
theorem validate_of_moves {asset : VodAsset} {operation : AssetOperation} {version : UInt64}
    {state : AssetState} (hvalid : asset.validate = .ok ())
    (hmoves : Moves asset.state operation state) (hretry : operation ≠ .startTranscode)
    (hversion : version.toNat = asset.version.toNat + 1) :
    ({ asset with version, state } : VodAsset).validate = .ok () := by
  obtain ⟨-, -, horder, -, hleast⟩ := validate_eq_ok_iff.mp hvalid
  obtain ⟨id, tenantId, old, before⟩ := asset
  dsimp only at horder hleast hmoves hversion
  cases hmoves with
  | upload => exact validate_moved hvalid (by simp) trivial (by simp_all [AssetState.least])
  | resume => exact validate_moved hvalid (by simp) trivial (by simp_all [AssetState.least]; omega)
  | complete hbytes => exact validate_moved hvalid (by simp) hbytes (by simp_all [AssetState.least])
  | probe => exact validate_moved hvalid (by simp) trivial (by simp_all [AssetState.least])
  | transcode => exact absurd rfl hretry
  | retry => exact absurd rfl hretry
  | advance =>
    exact validate_moved hvalid (by simp) trivial (by simp_all [AssetState.least]; omega)
  | publish huri hduration =>
    exact validate_moved hvalid (by simp) ⟨huri, hduration⟩ (by simp_all [AssetState.least])
  | fail _ hreason =>
    have hpos := AssetState.least_pos before
    exact validate_moved hvalid (by simp) hreason (by simp_all [AssetState.least]; omega)
  | startDelete =>
    have hpos := AssetState.least_pos before
    exact validate_moved hvalid (by simp) trivial (by simp_all [AssetState.least]; omega)
  | finishDelete => exact validate_moved hvalid (by simp) trivial (by simp_all [AssetState.least])

/-- Only `startTranscode` and progress lead to transcoding. -/
theorem isTranscoding_of_moves {before state : AssetState} {operation : AssetOperation}
    (hmoves : Moves before operation state) (hretry : operation ≠ .startTranscode)
    (hstate : isTranscoding state = true) : isTranscoding before = true := by
  cases hmoves with
  | transcode => exact absurd rfl hretry
  | retry => exact absurd rfl hretry
  | advance => rfl
  | _ => cases hstate

theorem normalizeWorkerEndpoint_of_isNormal {placement : ServicePlacement}
    (hnormal : AssetSection.IsNormal normalizeHttpOrigin placement) :
    normalizeWorkerEndpoint normalizeHttpOrigin (some placement.endpoint) =
      some (some placement.endpoint) := by
  unfold AssetSection.IsNormal at hnormal
  unfold normalizeWorkerEndpoint
  dsimp only
  rw [hnormal]
  rfl

/-- The record in transcoding is accepted if the request was. -/
theorem ManagedAsset.InOrder.recorded {request : CompleteAssetRequest}
    {placement : ServicePlacement} (h : managed.InOrder normalizeHttpOrigin)
    (hstate : managed.asset.state = .uploading request.sourceBytes)
    (hspec : validateVodJobRequest request.jobSpec = .ok ())
    (hnormal : AssetSection.IsNormal normalizeHttpOrigin placement)
    (hversion : managed.asset.version.toNat + 3 < 2 ^ 64) (now : UInt64) :
    (managed.transcoding request placement now).InOrder normalizeHttpOrigin := by
  refine ⟨validate_moved h.valid (by simp) trivial ?_, normalizeWorkerEndpoint_of_isNormal hnormal,
    .inr ⟨rfl, rfl⟩, rfl, isJobSpec_of_validateVodJobRequest hspec, .inr rfl⟩
  obtain ⟨-, -, -, -, hleast⟩ := validate_eq_ok_iff.mp h.valid
  rw [hstate] at hleast
  have h1 := toNat_succ (show managed.asset.version.toNat + 1 < 2 ^ 64 by omega)
  have h2 := toNat_succ (show (managed.asset.version + 1).toNat + 1 < 2 ^ 64 by omega)
  have h3 := toNat_succ (show (managed.asset.version + 1 + 1).toNat + 1 < 2 ^ 64 by omega)
  dsimp only [AssetState.least] at hleast ⊢
  omega

/-- A new asset is accepted and not in transcoding. -/
theorem validate_create {id tenantId : String} {asset : VodAsset}
    (h : VodAsset.create id tenantId = .ok asset) :
    asset.validate = .ok () ∧ isTranscoding asset.state = false := by
  have hcreated := Lifecycle.reached_create h
  refine ⟨hcreated.valid, ?_⟩
  have hafter := hcreated.afterUpload
  dsimp only at hafter
  cases hstate : asset.state with
  | transcoding outputs =>
    rw [hstate] at hafter
    cases hafter trivial
  | _ => rfl

theorem ManagedAsset.InOrder.moved {operation : AssetOperation} {version : UInt64}
    {state : AssetState} (h : managed.InOrder normalizeHttpOrigin)
    (hmoves : Moves managed.asset.state operation state) (hretry : operation ≠ .startTranscode)
    (hversion : version.toNat = managed.asset.version.toNat + 1) :
    ({ managed with asset := { managed.asset with version, state } } : ManagedAsset).InOrder
      normalizeHttpOrigin := by
  refine ⟨validate_of_moves h.valid hmoves hretry hversion, h.endpoint, h.job, h.paired, h.spec, ?_⟩
  rcases h.transcoding with hbefore | hspec
  · left
    by_contra hstate
    rw [Bool.not_eq_false] at hstate
    rw [isTranscoding_of_moves hmoves hretry hstate] at hbefore
    cases hbefore
  · exact .inr hspec

end

/-! ## Sections that record what they change -/

namespace AssetSlot

section

variable (normalizeHttpOrigin : String → Option String)

/-- What holds of an asset as long as every section that changes it completes. -/
abbrev Synced (slot : AssetSlot) : Prop :=
  RecordStore.InSync (validateLoadedAsset normalizeHttpOrigin) (fun managed => managed.revision.toNat)
    slot.memory slot.snapshots

/-- Nothing has changed, or a newer record is in memory and on disk. -/
abbrev Records (slot slot' : AssetSlot) : Prop :=
  RecordStore.Recorded (validateLoadedAsset normalizeHttpOrigin) (fun managed => managed.revision.toNat)
    slot.memory slot.snapshots slot'.memory slot'.snapshots

end

variable {normalizeHttpOrigin : String → Option String} {slot : AssetSlot} {managed : ManagedAsset}

theorem Synced.inOrder (hsynced : slot.Synced normalizeHttpOrigin)
    (hmemory : slot.memory = some managed) :
    managed.revision ≠ 0 ∧ managed.createdAtMillis ≤ managed.updatedAtMillis ∧
      managed.InOrder normalizeHttpOrigin :=
  validateLoadedAsset_eq_self_iff.mp (hsynced.accepted managed hmemory)

theorem Synced.older (hsynced : slot.Synced normalizeHttpOrigin)
    (hmemory : slot.memory = some managed) :
    ∀ snapshot ∈ slot.snapshots, snapshot.revision ≤ managed.revision :=
  fun snapshot hsnapshot => UInt64.le_iff_toNat_le.mpr
    (hsynced.newest managed hmemory snapshot hsnapshot)

/-- The next revision of a record that has been changed in memory. -/
theorem records_persistRevision (hsynced : slot.Synced normalizeHttpOrigin)
    (hmemory : slot.memory = some managed) {changed : ManagedAsset}
    (hrevision : changed.revision = managed.revision)
    (hcreated : changed.createdAtMillis = managed.createdAtMillis)
    {change : ManagedAsset → ManagedAsset} (hchange : ∀ other,
      (change other).revision = other.revision ∧
      (change other).createdAtMillis = other.createdAtMillis ∧
      (change other).updatedAtMillis = other.updatedAtMillis)
    (now : UInt64) (io : PersistIo) (hpersists : AssetSection.Persists managed now io)
    (horder : ∀ revision, (change { changed with revision, updatedAtMillis := now }).InOrder
      normalizeHttpOrigin) (source : List UInt8) :
    slot.Records normalizeHttpOrigin
      ((persistRevision change now io).run ⟨some changed, slot.snapshots, source⟩).2 := by
  obtain ⟨hroom, hclock, hstores⟩ := hpersists
  rw [persistRevision_eq rfl (by rw [hrevision]; exact hsynced.older hmemory)
    (fun other => (hchange other).1) now io]
  rw [hrevision, if_pos hroom]
  dsimp only
  rw [if_pos hstores]
  have hnext := hchange { changed with revision := managed.revision + 1, updatedAtMillis := now }
  have hnumber := toNat_succ hroom
  refine .stored _ (2 + io.kept) (by omega) ?_ ?_
  · rw [validateLoadedAsset_eq_self_iff, hnext.1, hnext.2.1, hnext.2.2]
    refine ⟨?_, ?_, horder _⟩
    · exact ne_zero_of_toNat hnumber
    · rw [hcreated]
      exact hclock
  · intro record hrecord
    cases hmemory.symm.trans hrecord
    rw [hnext.1]
    dsimp only
    omega

theorem getAsset_run_none (hmemory : slot.memory = none) :
    getAsset.run slot = (.error assetNotFound, slot) := by
  unfold getAsset
  rw [run_get_bind, hmemory]
  rfl

theorem records_getAsset_bind {α : Type} {f : ManagedAsset → Fallible AssetSlot ApiError α}
    (hf : ∀ managed, slot.memory = some managed →
      slot.Records normalizeHttpOrigin ((f managed).run slot).2) :
    slot.Records normalizeHttpOrigin ((getAsset >>= f).run slot).2 := by
  cases hmemory : slot.memory with
  | none =>
    rw [run_bind, getAsset_run_none hmemory]
    exact .unchanged
  | some managed =>
    rw [getAsset_bind hmemory]
    exact hf managed hmemory

/-- A rejected operation changes nothing; after a move something is left to do. -/
theorem records_applyOperation_bind {operation : AssetOperation}
    {m : Fallible AssetSlot ApiError Unit}
    (hm : ∀ managed version state, slot.memory = some managed →
      Moves managed.asset.state operation state → checkedSucc managed.asset.version = some version →
      slot.Records normalizeHttpOrigin (m.run { slot with
        memory := some { managed with asset := { managed.asset with version, state } } }).2) :
    slot.Records normalizeHttpOrigin ((do applyOperation operation; m : Fallible AssetSlot ApiError
      Unit).run slot).2 := by
  cases hmemory : slot.memory with
  | none =>
    unfold applyOperation
    rw [run_bind, run_bind, getAsset_run_none hmemory]
    exact .unchanged
  | some managed =>
    have happlies := run_apply operation managed.asset
    rw [run_bind, applyOperation_run hmemory]
    generalize operation.apply.run managed.asset = result at happlies
    cases happlies with
    | rejected error =>
      dsimp only [Except.mapError]
      rw [← hmemory]
      exact .unchanged
    | accepted hmoves hversion => exact hm managed _ _ hmemory hmoves hversion

/-- A move other than a retry, whose revision is stored. -/
theorem records_move (hsynced : slot.Synced normalizeHttpOrigin) {operation : AssetOperation}
    (hretry : operation ≠ .startTranscode) (now : UInt64) (io : PersistIo)
    (hpersists : ∀ managed, slot.memory = some managed →
      AssetSection.CanMove managed.asset operation → AssetSection.Persists managed now io) :
    slot.Records normalizeHttpOrigin ((do
      applyOperation operation
      persistRevision id now io : Fallible AssetSlot ApiError Unit).run slot).2 := by
  refine records_applyOperation_bind fun managed version state hmemory hmoves hversion => ?_
  have hnumber := Lifecycle.toNat_of_checkedSucc hversion
  have hroom : managed.asset.version.toNat + 1 < 2 ^ 64 := by
    rw [← hnumber]
    exact version.toNat_lt
  obtain ⟨hvalid, hendpoint, hjob, hpaired, hspec, htranscoding⟩ :=
    (hsynced.inOrder hmemory).2.2.moved hmoves hretry hnumber
  exact @records_persistRevision normalizeHttpOrigin slot managed hsynced hmemory
    { managed with asset := { managed.asset with version, state } } rfl rfl id
    (fun _ => ⟨rfl, rfl, rfl⟩) now io (hpersists managed hmemory ⟨⟨state, hmoves⟩, hroom⟩)
    (fun _ => ⟨hvalid, hendpoint, hjob, hpaired, hspec, htranscoding⟩) slot.source

/-! ### One lemma for each section -/

section

variable {sumMillis : List String → Option UInt64} (hsynced : slot.Synced normalizeHttpOrigin)

include hsynced

theorem records_createAsset (assetId tenantId : String) (directory : Bool) (now : UInt64)
    (io : PersistIo) :
    slot.Records normalizeHttpOrigin ((createAsset assetId tenantId directory now io).run slot).2 := by
  unfold createAsset
  refine run_ofExcept_bind_invariant .unchanged fun asset hasset => ?_
  rw [run_get_bind]
  refine run_ensure_bind_invariant .unchanged fun hmemory => ?_
  refine run_ensure_bind_invariant .unchanged fun _ => ?_
  rw [Option.isNone_iff_eq_none] at hmemory
  have hvalid : asset.validate = .ok () ∧ isTranscoding asset.state = false := by
    cases hcreate : VodAsset.create assetId tenantId with
    | error error =>
      rw [hcreate] at hasset
      cases hasset
    | ok created =>
      rw [hcreate] at hasset
      cases hasset
      exact validate_create hcreate
  have hfind : (slot.snapshots.find? fun existing => existing.revision = 1) = none := by
    rw [hsynced.fresh hmemory]
    rfl
  unfold AssetSlot.persistAsset
  rw [run_bind, run_get_bind]
  dsimp only
  rw [hfind]
  dsimp only
  rw [run_ensure_bind]
  split_ifs with hstores
  · refine RecordStore.Recorded.stored (ManagedAsset.mk asset none 1 now now none none none)
      (2 + io.kept) (by omega) ?_ ?_
    · exact validateLoadedAsset_eq_self_iff.mpr
        ⟨by simp, UInt64.le_refl _, hvalid.1, rfl, .inl rfl, rfl, rfl, .inl hvalid.2⟩
    · exact fun record hrecord => absurd (hmemory.symm.trans hrecord) nofun
  · exact .unchanged

theorem records_uploadSourceChunk (offset : UInt64) (bytes : List UInt8) (now : UInt64)
    (io : ChunkIo) (hstep : AssetSection.InStep normalizeHttpOrigin sumMillis slot
      (.uploadSourceChunk offset bytes now io)) :
    slot.Records normalizeHttpOrigin ((uploadSourceChunk offset bytes now io).run slot).2 := by
  unfold uploadSourceChunk
  refine run_ensure_bind_invariant .unchanged fun hlength => ?_
  refine run_ensure_bind_invariant .unchanged fun hbytes => ?_
  refine records_getAsset_bind fun managed hmemory => ?_
  rw [run_ofOption_bind]
  cases hexpected : expectedOffset managed.asset.state with
  | none => exact .unchanged
  | some expected =>
  refine run_ensure_bind_invariant .unchanged fun hoffset => ?_
  subst hoffset
  refine run_ensure_bind_invariant .unchanged fun hopens => ?_
  cases hcut : io.cut with
  | some length => exact .unchanged
  | none =>
  dsimp only
  unfold appendSource
  rw [run_modify_bind]
  refine run_ensure_bind_invariant .unchanged fun hsyncs => ?_
  rw [run_ofOption_bind]
  cases hreceived : MediaStore.checkedAdd offset (.ofNat bytes.length) with
  | none => exact .unchanged
  | some received =>
  refine @records_move normalizeHttpOrigin { slot with source := slot.source ++ bytes } hsynced _
    (by simp) now io.persist fun managed' hmemory' hmove => ?_
  cases hmemory.symm.trans hmemory'
  have hbounded : bytes.length < 2 ^ 64 := lt_of_le_of_lt hlength (by decide)
  have hsum : offset.toNat + bytes.length < 2 ^ 64 := by
    unfold MediaStore.checkedAdd at hreceived
    rw [UInt64.toNat_ofNat', Nat.mod_eq_of_lt hbounded] at hreceived
    split_ifs at hreceived with hsum
    exact hsum
  exact hstep managed hmemory ⟨hlength, hbytes, hexpected, hopens, hcut, hsyncs, hsum, hmove.2⟩

theorem records_recordTranscoding (request : CompleteAssetRequest) (placement : ServicePlacement)
    (now : UInt64) (io : PersistIo) (hstep : AssetSection.InStep normalizeHttpOrigin sumMillis slot
      (.recordTranscoding request placement now io))
    (hspec : validateVodJobRequest request.jobSpec = .ok ()) :
    slot.Records normalizeHttpOrigin ((recordTranscoding request placement now io).run slot).2 := by
  cases hmemory : slot.memory with
  | none =>
    unfold recordTranscoding
    exact records_applyOperation_bind fun managed _ _ hmemory' =>
      absurd (hmemory.symm.trans hmemory') nofun
  | some managed =>
  by_cases hmove : AssetSection.CanMove managed.asset (.completeUpload request.sourceBytes)
  swap
  · unfold recordTranscoding
    refine records_applyOperation_bind fun managed' version state hmemory' hmoves hversion => ?_
    cases hmemory.symm.trans hmemory'
    have hnumber := Lifecycle.toNat_of_checkedSucc hversion
    exact absurd ⟨⟨state, hmoves⟩, hnumber ▸ version.toNat_lt⟩ hmove
  obtain ⟨hthree, hnormal, hroom, hclock, hstores⟩ := hstep managed hmemory ⟨hspec, hmove⟩
  obtain ⟨⟨state, hmoves⟩, -⟩ := hmove
  obtain ⟨hstate, hbytes⟩ : managed.asset.state = .uploading request.sourceBytes ∧
      request.sourceBytes ≠ 0 := by
    generalize managed.asset.state = before at hmoves
    cases hmoves with
    | complete hbytes => exact ⟨rfl, hbytes⟩
  have horder := (hsynced.inOrder hmemory).2.2
  have hnumber : (managed.transcoding request placement now).revision.toNat =
      managed.revision.toNat + 1 := toNat_succ hroom
  rcases recordTranscoding_run hmemory hstate hbytes (hsynced.older hmemory) placement now io with
    ⟨-, -, -, hrun⟩ | ⟨hnot, -⟩
  · rw [hrun]
    refine RecordStore.Recorded.stored (managed.transcoding request placement now) (2 + io.kept)
      (by omega) ?_ ?_
    · exact validateLoadedAsset_eq_self_iff.mpr ⟨ne_zero_of_toNat hnumber, hclock,
        horder.recorded hstate hspec hnormal hthree now⟩
    · intro record hrecord
      cases hmemory.symm.trans hrecord
      exact hnumber ▸ Nat.le_succ _
  · exact absurd ⟨hthree, hroom, hstores⟩ hnot

theorem records_recordJob (jobId now : UInt64) (io : PersistIo)
    (hmemory : slot.memory = some managed) (hplaced : managed.isPlaced = true)
    (hpersists : AssetSection.Persists managed now io) :
    slot.Records normalizeHttpOrigin ((recordJob jobId now io).run slot).2 := by
  obtain ⟨hvalid, hendpoint, -, hpaired, hspec, htranscoding⟩ := (hsynced.inOrder hmemory).2.2
  unfold recordJob
  rw [getAsset_bind hmemory]
  have hgeneration : managed.placementGeneration.isSome := hpaired ▸ hplaced
  exact @records_persistRevision normalizeHttpOrigin slot managed hsynced hmemory
    { managed with jobId := some jobId } rfl rfl id (fun _ => ⟨rfl, rfl, rfl⟩) now io hpersists
    (fun _ => ⟨hvalid, hendpoint, .inr ⟨hplaced, hgeneration⟩, hpaired, hspec, htranscoding⟩)
    slot.source

theorem records_recordVodFailover (jobId : UInt64) (placement : ServicePlacement) (now : UInt64)
    (io : PersistIo) (hmemory : slot.memory = some managed)
    (hnormal : AssetSection.IsNormal normalizeHttpOrigin placement)
    (hpersists : AssetSection.Persists managed now io) :
    slot.Records normalizeHttpOrigin ((recordVodFailover jobId placement now io).run slot).2 := by
  obtain ⟨hvalid, -, -, -, hspec, htranscoding⟩ := (hsynced.inOrder hmemory).2.2
  have hendpoint := normalizeWorkerEndpoint_of_isNormal hnormal
  unfold recordVodFailover
  rw [getAsset_bind hmemory]
  exact @records_persistRevision normalizeHttpOrigin slot managed hsynced hmemory
    { managed with
      jobId := some jobId
      workerEndpoint := some placement.endpoint
      placementGeneration := some placement.generation
      updatedAtMillis := now } rfl rfl id (fun _ => ⟨rfl, rfl, rfl⟩) now io hpersists
    (fun _ => ⟨hvalid, hendpoint, .inr ⟨rfl, rfl⟩, rfl, hspec, htranscoding⟩) slot.source

theorem records_startDeleteAsset (now : UInt64) (io : PersistIo)
    (hstep : AssetSection.InStep normalizeHttpOrigin sumMillis slot (.startDelete now io)) :
    slot.Records normalizeHttpOrigin ((startDeleteAsset now io).run slot).2 := by
  unfold startDeleteAsset
  refine records_getAsset_bind fun managed hmemory => ?_
  have hmove : managed.asset.state ≠ .probing → isTranscoding managed.asset.state = false →
      slot.Records normalizeHttpOrigin ((do
        applyOperation .startDelete
        persistRevision id now io : Fallible AssetSlot ApiError Unit).run slot).2 := by
    intro hprobing htranscoding
    refine records_move hsynced (by simp) now io fun managed' hmemory' hcan => ?_
    cases hmemory.symm.trans hmemory'
    exact hstep managed hmemory ⟨hprobing, htranscoding, hcan⟩
  cases hstate : managed.asset.state with
  | probing => exact .unchanged
  | transcoding => exact .unchanged
  | deleting => exact .unchanged
  | deleted => exact .unchanged
  | _ =>
    rw [hstate] at hmove
    exact hmove (by simp) rfl

theorem records_finishDeleteAsset (now : UInt64) (io : PersistIo)
    (hstep : AssetSection.InStep normalizeHttpOrigin sumMillis slot (.finishDelete now io)) :
    slot.Records normalizeHttpOrigin ((finishDeleteAsset now io).run slot).2 := by
  unfold finishDeleteAsset
  refine records_getAsset_bind fun managed hmemory => ?_
  cases hstate : managed.asset.state with
  | deleting =>
    refine records_applyOperation_bind fun managed' version state hmemory' hmoves hversion => ?_
    cases hmemory.symm.trans hmemory'
    have hnumber := Lifecycle.toNat_of_checkedSucc hversion
    have hroom : managed.asset.version.toNat + 1 < 2 ^ 64 := hnumber ▸ version.toNat_lt
    obtain ⟨hvalid, hendpoint, -, hpaired, hspec, htranscoding⟩ :=
      (hsynced.inOrder hmemory).2.2.moved hmoves (by simp) hnumber
    exact @records_persistRevision normalizeHttpOrigin slot managed hsynced hmemory
      { managed with asset := { managed.asset with version, state }, jobId := none } rfl rfl id
      (fun _ => ⟨rfl, rfl, rfl⟩) now io (hstep managed hmemory ⟨⟨state, hmoves⟩, hroom⟩)
      (fun _ => ⟨hvalid, hendpoint, .inl rfl, hpaired, hspec, htranscoding⟩) slot.source
  | _ => exact .unchanged

theorem records_section (assetId : String) (part : AssetSection)
    (hstep : part.InStep normalizeHttpOrigin sumMillis slot) :
    slot.Records normalizeHttpOrigin ((part.run sumMillis assetId).run slot).2 := by
  cases part with
  | create tenantId directory now io =>
    exact records_createAsset hsynced assetId tenantId directory now io
  | uploadSourceChunk offset bytes now io =>
    exact records_uploadSourceChunk hsynced offset bytes now io hstep
  | recordTranscoding request placement now io =>
    refine run_ofExcept_bind_invariant .unchanged fun _ hspec => ?_
    exact records_recordTranscoding hsynced request placement now io hstep hspec
  | recordJob jobId now io =>
    refine records_getAsset_bind fun managed hmemory => ?_
    by_cases hplaced : managed.isPlaced = true
    · rw [if_pos hplaced]
      exact records_recordJob hsynced jobId now io hmemory hplaced (hstep managed hmemory hplaced)
    · rw [if_neg hplaced]
      exact .unchanged
  | markAssetFailed reason now io => exact records_move hsynced (by simp) now io hstep
  | finalizeVodSuccess playlist publication now io =>
    cases publication with
    | ok => exact records_move hsynced (by simp) now io hstep
    | error error => exact records_move hsynced (by simp) now io hstep
  | recordVodFailover jobId placement now io =>
    cases hmemory : slot.memory with
    | none =>
      refine records_getAsset_bind fun managed hmemory' => ?_
      exact absurd (hmemory.symm.trans hmemory') nofun
    | some managed =>
      obtain ⟨hnormal, hpersists⟩ := hstep managed hmemory trivial
      exact records_recordVodFailover hsynced jobId placement now io hmemory hnormal hpersists
  | startDelete now io => exact records_startDeleteAsset hsynced now io hstep
  | finishDelete now io => exact records_finishDeleteAsset hsynced now io hstep

end

end AssetSlot

end Fluvora.MediaGateway
