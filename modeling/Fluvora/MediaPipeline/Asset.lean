import Fluvora.Domain.Room
import Fluvora.Lib.Fallible
import Fluvora.Lib.Identifiers
import Fluvora.Lib.Results

/-!
# VOD assets

The aggregate `VodAsset` of `crates/media/media-pipeline`: its lifecycle, its operations, and the
check of what a service has read back from disk.  An operation takes the asset by mutable reference,
so it is a `Fallible` computation over it.

`run_apply` says once what an operation can do: it fails and changes nothing, or it makes a move that
`Moves` allows and raises the version by one.
-/

namespace Fluvora.MediaPipeline

open Domain

inductive PipelineError
  | invalidSegment (field : String)
  | invalidUri
  | invalidWindow
  | playlistEnded
  | unexpectedSequence (expected actual : UInt64)
  | sequenceExhausted
  | invalidIdentifier
  | invalidAssetTransition
  | uploadRegression
  | uploadSizeMismatch
  | outputRegression
  | invalidDuration
  | invalidFailureReason
  | versionExhausted
deriving DecidableEq

inductive AssetState
  | created
  | uploading (receivedBytes : UInt64)
  | uploaded (sourceBytes : UInt64)
  | probing
  | transcoding (completedOutputs : UInt16)
  | ready (manifestUri : String) (durationMillis : UInt64)
  | failed (reason : String) (retryable : Bool)
  | deleting
  | deleted
deriving DecidableEq

structure VodAsset where
  id : String
  tenantId : String
  version : UInt64
  state : AssetState
deriving DecidableEq

def validateIdentifier (value : String) : Except PipelineError Unit :=
  if isIdentifier value then .ok () else .error .invalidIdentifier

/-- The path is not absolute and has no parent component. -/
def validateRelativeUri (uri : String) : Except PipelineError Unit :=
  if uri.isEmpty || 1024 < uri.utf8ByteSize || uri.toList.any ("\\\r\n?#".toList.contains ·) then
    .error .invalidUri
  else if uri.toList.head? = some '/' || (uri.toList.splitOn '/').contains "..".toList then
    .error .invalidUri
  else .ok ()

def isFailureReason (reason : String) : Bool :=
  !reason.isEmpty && reason.utf8ByteSize ≤ 1024

namespace VodAsset

/-! ## Operations -/

def create (id tenantId : String) : Except PipelineError VodAsset := do
  validateIdentifier id
  validateIdentifier tenantId
  return { id, tenantId, version := 1, state := .created }

def transition (state : AssetState) : Fallible VodAsset PipelineError Unit := do
  let asset ← Fallible.get
  let version ← Fallible.ofOption (checkedSucc asset.version) .versionExhausted
  Fallible.set { asset with version, state }

def uploadProgress (receivedBytes : UInt64) : Fallible VodAsset PipelineError Unit := do
  let asset ← Fallible.get
  let previous ← match asset.state with
    | .created => pure 0
    | .uploading receivedBytes => pure receivedBytes
    | _ => Fallible.fail .invalidAssetTransition
  Fallible.ensure (previous ≤ receivedBytes) .uploadRegression
  transition (.uploading receivedBytes)

def completeUpload (sourceBytes : UInt64) : Fallible VodAsset PipelineError Unit := do
  match (← Fallible.get).state with
  | .uploading receivedBytes =>
      Fallible.ensure (sourceBytes ≠ 0 ∧ sourceBytes = receivedBytes) .uploadSizeMismatch
      transition (.uploaded sourceBytes)
  | _ => Fallible.fail .invalidAssetTransition

def startProbe : Fallible VodAsset PipelineError Unit := do
  match (← Fallible.get).state with
  | .uploaded _ => transition .probing
  | _ => Fallible.fail .invalidAssetTransition

def startTranscode : Fallible VodAsset PipelineError Unit := do
  match (← Fallible.get).state with
  | .probing => transition (.transcoding 0)
  | .failed _ true => transition (.transcoding 0)
  | _ => Fallible.fail .invalidAssetTransition

def setCompletedOutputs (count : UInt16) : Fallible VodAsset PipelineError Unit := do
  match (← Fallible.get).state with
  | .transcoding completedOutputs =>
      Fallible.ensure (completedOutputs ≤ count) .outputRegression
      transition (.transcoding count)
  | _ => Fallible.fail .invalidAssetTransition

def markReady (manifestUri : String) (durationMillis : UInt64) :
    Fallible VodAsset PipelineError Unit := do
  match (← Fallible.get).state with
  | .transcoding _ =>
      Fallible.ofExcept (validateRelativeUri manifestUri)
      Fallible.ensure (durationMillis ≠ 0) .invalidDuration
      transition (.ready manifestUri durationMillis)
  | _ => Fallible.fail .invalidAssetTransition

def fail (reason : String) (retryable : Bool) : Fallible VodAsset PipelineError Unit := do
  let asset ← Fallible.get
  Fallible.ensure (asset.state ≠ .deleting ∧ asset.state ≠ .deleted) .invalidAssetTransition
  Fallible.ensure (isFailureReason reason) .invalidFailureReason
  transition (.failed reason retryable)

def startDelete : Fallible VodAsset PipelineError Unit := do
  let asset ← Fallible.get
  Fallible.ensure (asset.state ≠ .deleting ∧ asset.state ≠ .deleted) .invalidAssetTransition
  transition .deleting

def finishDelete : Fallible VodAsset PipelineError Unit := do
  let asset ← Fallible.get
  Fallible.ensure (asset.state = .deleting) .invalidAssetTransition
  transition .deleted

/-! ## The check of a loaded asset -/

/-- The least version with which the state can be reached, if the state's own data are in order. -/
def minimumVersion (asset : VodAsset) : Except PipelineError UInt64 :=
  match asset.state with
  | .created => if asset.version ≠ 1 then .error .invalidAssetTransition else .ok 1
  | .uploading _ | .deleting => .ok 2
  | .uploaded sourceBytes => if sourceBytes = 0 then .error .uploadSizeMismatch else .ok 3
  | .probing => .ok 4
  | .transcoding _ => .ok 5
  | .ready manifestUri durationMillis => do
      validateRelativeUri manifestUri
      if durationMillis = 0 then .error .invalidDuration else .ok 6
  | .failed reason _ => if isFailureReason reason then .ok 2 else .error .invalidFailureReason
  | .deleted => .ok 3

def validate (asset : VodAsset) : Except PipelineError Unit := do
  validateIdentifier asset.id
  validateIdentifier asset.tenantId
  let minimumVersion ← asset.minimumVersion
  if asset.version < minimumVersion then .error .invalidAssetTransition else .ok ()

end VodAsset

/-! ## What an operation does -/

inductive AssetOperation
  | uploadProgress (receivedBytes : UInt64)
  | completeUpload (sourceBytes : UInt64)
  | startProbe
  | startTranscode
  | setCompletedOutputs (count : UInt16)
  | markReady (manifestUri : String) (durationMillis : UInt64)
  | fail (reason : String) (retryable : Bool)
  | startDelete
  | finishDelete

def AssetOperation.apply : AssetOperation → Fallible VodAsset PipelineError Unit
  | .uploadProgress receivedBytes => VodAsset.uploadProgress receivedBytes
  | .completeUpload sourceBytes => VodAsset.completeUpload sourceBytes
  | .startProbe => VodAsset.startProbe
  | .startTranscode => VodAsset.startTranscode
  | .setCompletedOutputs count => VodAsset.setCompletedOutputs count
  | .markReady manifestUri durationMillis => VodAsset.markReady manifestUri durationMillis
  | .fail reason retryable => VodAsset.fail reason retryable
  | .startDelete => VodAsset.startDelete
  | .finishDelete => VodAsset.finishDelete

/-- The moves of the lifecycle. -/
inductive Moves : AssetState → AssetOperation → AssetState → Prop
  | upload {receivedBytes} : Moves .created (.uploadProgress receivedBytes) (.uploading receivedBytes)
  | resume {previous receivedBytes} (hprevious : previous ≤ receivedBytes) :
      Moves (.uploading previous) (.uploadProgress receivedBytes) (.uploading receivedBytes)
  | complete {sourceBytes} (hbytes : sourceBytes ≠ 0) :
      Moves (.uploading sourceBytes) (.completeUpload sourceBytes) (.uploaded sourceBytes)
  | probe {sourceBytes} : Moves (.uploaded sourceBytes) .startProbe .probing
  | transcode : Moves .probing .startTranscode (.transcoding 0)
  | retry {reason} : Moves (.failed reason true) .startTranscode (.transcoding 0)
  | advance {completedOutputs count} (hcount : completedOutputs ≤ count) :
      Moves (.transcoding completedOutputs) (.setCompletedOutputs count) (.transcoding count)
  | publish {completedOutputs manifestUri durationMillis}
      (huri : validateRelativeUri manifestUri = .ok ()) (hduration : durationMillis ≠ 0) :
      Moves (.transcoding completedOutputs) (.markReady manifestUri durationMillis)
        (.ready manifestUri durationMillis)
  | fail {state reason retryable} (hstate : state ≠ .deleting ∧ state ≠ .deleted)
      (hreason : isFailureReason reason = true) :
      Moves state (.fail reason retryable) (.failed reason retryable)
  | startDelete {state} (hstate : state ≠ .deleting ∧ state ≠ .deleted) :
      Moves state .startDelete .deleting
  | finishDelete : Moves .deleting .finishDelete .deleted

/-- What an operation does to an asset. -/
inductive Applies (asset : VodAsset) (operation : AssetOperation) :
    Except PipelineError Unit × VodAsset → Prop
  | rejected (error : PipelineError) : Applies asset operation (.error error, asset)
  | accepted {version : UInt64} {state : AssetState}
      (hmoves : Moves asset.state operation state)
      (hversion : checkedSucc asset.version = some version) :
      Applies asset operation (.ok (), { asset with version, state })

theorem run_transition {asset : VodAsset} {operation : AssetOperation} {state : AssetState}
    (hmoves : Moves asset.state operation state) :
    Applies asset operation ((VodAsset.transition state).run asset) := by
  unfold VodAsset.transition
  rw [Fallible.run_get_bind, Fallible.run_ofOption_bind]
  cases hversion : checkedSucc asset.version with
  | none => exact .rejected .versionExhausted
  | some version => exact .accepted hmoves hversion

theorem run_apply (operation : AssetOperation) (asset : VodAsset) :
    Applies asset operation (operation.apply.run asset) := by
  obtain ⟨id, tenantId, version, state⟩ := asset
  cases operation with
  | uploadProgress receivedBytes =>
    unfold AssetOperation.apply VodAsset.uploadProgress
    dsimp only
    rw [Fallible.run_get_bind]
    cases state with
    | created =>
      rw [Fallible.run_pure_bind, Fallible.run_ensure_bind, if_pos UInt64.zero_le]
      exact run_transition .upload
    | uploading previous =>
      rw [Fallible.run_pure_bind, Fallible.run_ensure_bind]
      split_ifs with hprevious
      · exact run_transition (.resume hprevious)
      · exact .rejected _
    | _ => exact .rejected _
  | completeUpload sourceBytes =>
    unfold AssetOperation.apply VodAsset.completeUpload
    dsimp only
    rw [Fallible.run_get_bind]
    cases state with
    | uploading receivedBytes =>
      dsimp only
      rw [Fallible.run_ensure_bind]
      split_ifs with hbytes
      · obtain ⟨hbytes, rfl⟩ := hbytes
        exact run_transition (.complete hbytes)
      · exact .rejected _
    | _ => exact .rejected _
  | startProbe =>
    unfold AssetOperation.apply VodAsset.startProbe
    dsimp only
    rw [Fallible.run_get_bind]
    cases state with
    | uploaded sourceBytes => exact run_transition .probe
    | _ => exact .rejected _
  | startTranscode =>
    unfold AssetOperation.apply VodAsset.startTranscode
    dsimp only
    rw [Fallible.run_get_bind]
    cases state with
    | probing => exact run_transition .transcode
    | failed reason retryable =>
      cases retryable with
      | true => exact run_transition .retry
      | false => exact .rejected _
    | _ => exact .rejected _
  | setCompletedOutputs count =>
    unfold AssetOperation.apply VodAsset.setCompletedOutputs
    dsimp only
    rw [Fallible.run_get_bind]
    cases state with
    | transcoding completedOutputs =>
      dsimp only
      rw [Fallible.run_ensure_bind]
      split_ifs with hcount
      · exact run_transition (.advance hcount)
      · exact .rejected _
    | _ => exact .rejected _
  | markReady manifestUri durationMillis =>
    unfold AssetOperation.apply VodAsset.markReady
    dsimp only
    rw [Fallible.run_get_bind]
    cases state with
    | transcoding completedOutputs =>
      dsimp only
      rw [Fallible.run_ofExcept_bind]
      cases huri : validateRelativeUri manifestUri with
      | error error => exact .rejected _
      | ok =>
        dsimp only
        rw [Fallible.run_ensure_bind]
        split_ifs with hduration
        · exact run_transition (.publish huri hduration)
        · exact .rejected _
    | _ => exact .rejected _
  | fail reason retryable =>
    unfold AssetOperation.apply VodAsset.fail
    dsimp only
    rw [Fallible.run_get_bind, Fallible.run_ensure_bind]
    split_ifs with hstate
    · rw [Fallible.run_ensure_bind]
      split_ifs with hreason
      · exact run_transition (.fail hstate hreason)
      · exact .rejected _
    · exact .rejected _
  | startDelete =>
    unfold AssetOperation.apply VodAsset.startDelete
    dsimp only
    rw [Fallible.run_get_bind, Fallible.run_ensure_bind]
    split_ifs with hstate
    · exact run_transition (.startDelete hstate)
    · exact .rejected _
  | finishDelete =>
    unfold AssetOperation.apply VodAsset.finishDelete
    dsimp only
    rw [Fallible.run_get_bind, Fallible.run_ensure_bind]
    split_ifs with hstate
    · subst hstate
      exact run_transition .finishDelete
    · exact .rejected _

/-- A move that is allowed only needs a next version. -/
theorem run_of_moves {asset : VodAsset} {operation : AssetOperation} {state : AssetState}
    (h : Moves asset.state operation state) :
    operation.apply.run asset = (VodAsset.transition state).run asset := by
  obtain ⟨id, tenantId, version, before⟩ := asset
  dsimp only at h
  cases h with
  | upload =>
    unfold AssetOperation.apply VodAsset.uploadProgress
    dsimp only
    rw [Fallible.run_get_bind, Fallible.run_pure_bind, Fallible.run_ensure_bind,
      if_pos UInt64.zero_le]
  | resume hprevious =>
    unfold AssetOperation.apply VodAsset.uploadProgress
    dsimp only
    rw [Fallible.run_get_bind, Fallible.run_pure_bind, Fallible.run_ensure_bind, if_pos hprevious]
  | complete hbytes =>
    unfold AssetOperation.apply VodAsset.completeUpload
    dsimp only
    rw [Fallible.run_get_bind, Fallible.run_ensure_bind, if_pos ⟨hbytes, rfl⟩]
  | probe => rfl
  | transcode => rfl
  | retry => rfl
  | advance hcount =>
    unfold AssetOperation.apply VodAsset.setCompletedOutputs
    dsimp only
    rw [Fallible.run_get_bind, Fallible.run_ensure_bind, if_pos hcount]
  | publish huri hduration =>
    unfold AssetOperation.apply VodAsset.markReady
    dsimp only
    rw [Fallible.run_get_bind, Fallible.run_ofExcept_bind, huri]
    dsimp only
    rw [Fallible.run_ensure_bind, if_pos hduration]
  | fail hstate hreason =>
    unfold AssetOperation.apply VodAsset.fail
    dsimp only
    rw [Fallible.run_get_bind, Fallible.run_ensure_bind, if_pos hstate, Fallible.run_ensure_bind,
      if_pos hreason]
  | startDelete hstate =>
    unfold AssetOperation.apply VodAsset.startDelete
    dsimp only
    rw [Fallible.run_get_bind, Fallible.run_ensure_bind, if_pos hstate]
  | finishDelete => rfl

theorem run_transition_eq (asset : VodAsset) (state : AssetState) :
    (VodAsset.transition state).run asset =
      if asset.version.toNat + 1 < 2 ^ 64 then
        (.ok (), { asset with version := asset.version + 1, state })
      else (.error .versionExhausted, asset) := by
  unfold VodAsset.transition checkedSucc
  rw [Fallible.run_get_bind, Fallible.run_ofOption_bind]
  split_ifs <;> rfl

/-- An operation is accepted if it is a move of the lifecycle and there is a next version. -/
theorem isOk_apply_iff {asset : VodAsset} {operation : AssetOperation} :
    (operation.apply.run asset).1 = .ok () ↔
      (∃ state, Moves asset.state operation state) ∧ asset.version.toNat + 1 < 2 ^ 64 := by
  constructor
  · intro h
    have happlies := run_apply operation asset
    generalize hrun : operation.apply.run asset = result at happlies h
    cases happlies with
    | rejected error => cases h
    | @accepted version state hmoves hversion =>
      refine ⟨⟨state, hmoves⟩, ?_⟩
      unfold checkedSucc at hversion
      split_ifs at hversion with hlt
      exact hlt
  · rintro ⟨⟨state, hmoves⟩, hversion⟩
    rw [run_of_moves hmoves, run_transition_eq, if_pos hversion]

end Fluvora.MediaPipeline
