import Fluvora.MediaGateway.Assets

/-!
# Finished VOD jobs

What the gateway's monitor makes of a job that it observes on a worker: `finalize_vod_success` for one
that succeeded, `mark_asset_failed` for one that failed, nothing for any other.

`settled_iff` tells when an asset in transcoding is moved on.
-/

namespace Fluvora.MediaGateway

open ApiServer (ApiError)
open Domain Fallible MediaPipeline

structure WorkerJob where
  state : String
  reason : Option String

/-! ## The duration of a playlist -/

/-- `str::lines`, but for an empty line at the end. -/
def playlistLines (playlist : String) : List (List Char) :=
  (playlist.toList.splitOn '\n').map fun line =>
    if line.getLast? = some '\r' then line.dropLast else line

/-- What stands behind the tag in the lines that have it, without commas at the end. -/
def extinfValues (playlist : String) : List String :=
  (playlistLines playlist).filterMap fun line =>
    if "#EXTINF:".toList.isPrefixOf line then
      some (String.ofList ((line.drop "#EXTINF:".length).reverse.dropWhile (· = ',')).reverse)
    else none

section

-- The sum of the values that are numbers of seconds, as milliseconds if it is a duration; it is a sum
-- of floating point numbers.
variable (sumMillis : List String → Option UInt64)

def playlistDurationMillis (playlist : String) : Option UInt64 := sumMillis (extinfValues playlist)

/-! ## The end of a job -/

/-- The duration with which an asset becomes ready; the playlist may be unreadable. -/
def readyDuration (playlist : Option String) : UInt64 :=
  (playlist.bind (playlistDurationMillis sumMillis)).getD 1

def failureReason (reason : String) : String := String.ofList (reason.toList.take 1024)

def markAssetFailed (reason : String) (now : UInt64) (io : PersistIo) :
    Fallible AssetSlot ApiError Unit := do
  applyOperation (.fail (failureReason reason) true)
  persistRevision id now io

def publicationFailed (error : String) : String := s!"object publication failed: {error}"

/-- The publication of the output may fail with the text of an error. -/
def finalizeVodSuccess (playlist : Option String) (publication : Except String Unit) (now : UInt64)
    (io : PersistIo) : Fallible AssetSlot ApiError Unit :=
  match publication with
  | .error error => markAssetFailed (publicationFailed error) now io
  | .ok () => do
      applyOperation (.markReady "master.m3u8" (readyDuration sumMillis playlist))
      persistRevision id now io

/-- What the monitor does with an observed job; errors are logged. -/
def observeJob (job : WorkerJob) (playlist : Option String) (publication : Except String Unit)
    (now : UInt64) (io : PersistIo) (slot : AssetSlot) : AssetSlot :=
  if job.state = "succeeded" then
    ((finalizeVodSuccess sumMillis playlist publication now io).run slot).2
  else if job.state = "failed" then
    ((markAssetFailed (job.reason.getD "media worker failed") now io).run slot).2
  else slot

end

/-! ## What becomes of an asset in transcoding -/

/-- The asset is ready or has failed. -/
def Settled (slot : AssetSlot) : Prop :=
  ∃ managed, slot.memory = some managed ∧
    ((∃ uri duration, managed.asset.state = .ready uri duration) ∨
      ∃ reason retryable, managed.asset.state = .failed reason retryable)

section

variable {asset : VodAsset} {outputs : UInt16}

theorem markReady_isOk_iff (hstate : asset.state = .transcoding outputs) (uri : String)
    (duration : UInt64) :
    ((AssetOperation.apply (.markReady uri duration)).run asset).1 = .ok () ↔
      validateRelativeUri uri = .ok () ∧ duration ≠ 0 ∧ asset.version.toNat + 1 < 2 ^ 64 := by
  rw [isOk_apply_iff, hstate, ← and_assoc]
  refine and_congr_left fun _ => ⟨?_, fun h => ⟨_, .publish h.1 h.2⟩⟩
  rintro ⟨state, hmoves⟩
  cases hmoves with
  | publish huri hduration => exact ⟨huri, hduration⟩

theorem fail_isOk_iff (hstate : asset.state = .transcoding outputs) (reason : String)
    (retryable : Bool) :
    ((AssetOperation.apply (.fail reason retryable)).run asset).1 = .ok () ↔
      isFailureReason reason = true ∧ asset.version.toNat + 1 < 2 ^ 64 := by
  rw [isOk_apply_iff, hstate]
  refine and_congr_left fun _ => ⟨?_, fun h => ⟨_, .fail (by simp) h⟩⟩
  rintro ⟨state, hmoves⟩
  cases hmoves with
  | fail hstate hreason => exact hreason

end

/-- The asset is moved on exactly if the operation that ends the job is accepted. -/
theorem settled_iff_isOk {slot : AssetSlot} {managed : ManagedAsset} {outputs : UInt16}
    (hmemory : slot.memory = some managed) (hstate : managed.asset.state = .transcoding outputs)
    {operation : AssetOperation}
    (hend : ∀ state, Moves (.transcoding outputs) operation state →
      (∃ uri duration, state = .ready uri duration) ∨
        ∃ reason retryable, state = .failed reason retryable)
    (now : UInt64) (io : PersistIo) :
    Settled ((do
      applyOperation operation
      persistRevision id now io : Fallible AssetSlot ApiError Unit).run slot).2 ↔
        (operation.apply.run managed.asset).1 = .ok () := by
  have happlies := run_apply operation managed.asset
  rw [run_bind, applyOperation_run hmemory]
  generalize operation.apply.run managed.asset = result at happlies
  cases happlies with
  | rejected error =>
    refine iff_of_false ?_ nofun
    rintro ⟨managed', hmanaged', hsettled⟩
    cases hmanaged'
    dsimp only at hsettled
    rw [hstate] at hsettled
    rcases hsettled with ⟨_, _, hready⟩ | ⟨_, _, hfailed⟩
    · cases hready
    · cases hfailed
  | @accepted version state hmoves hversion =>
    refine iff_of_true ?_ rfl
    obtain ⟨managed', snapshots, hrun, hasset, -⟩ := @persistRevision_run
      { slot with memory := some { managed with asset := { managed.asset with version, state } } }
      { managed with asset := { managed.asset with version, state } } rfl now io
    rw [hstate] at hmoves
    refine ⟨managed', ?_, ?_⟩
    · exact congrArg AssetSlot.memory hrun
    · rw [hasset]
      exact hend state hmoves

theorem moves_markReady {outputs : UInt16} {uri : String} {duration : UInt64} {state : AssetState}
    (h : Moves (.transcoding outputs) (.markReady uri duration) state) :
    (∃ uri duration, state = .ready uri duration) ∨
      ∃ reason retryable, state = .failed reason retryable := by
  cases h
  exact .inl ⟨_, _, rfl⟩

theorem moves_fail {outputs : UInt16} {reason : String} {retryable : Bool} {state : AssetState}
    (h : Moves (.transcoding outputs) (.fail reason retryable) state) :
    (∃ uri duration, state = .ready uri duration) ∨
      ∃ reason retryable, state = .failed reason retryable := by
  cases h
  exact .inr ⟨_, _, rfl⟩

section

variable (sumMillis : List String → Option UInt64)

/-- The job has ended, its durations do not add up to zero, and the reason of a failure can be kept. -/
def Finishes (job : WorkerJob) (playlist : Option String) (publication : Except String Unit) : Prop :=
  match publication with
  | .ok () => job.state = "succeeded" ∧
      playlist.bind (playlistDurationMillis sumMillis) ≠ some 0 ∨
        job.state = "failed" ∧
          isFailureReason (failureReason (job.reason.getD "media worker failed")) = true
  | .error error => job.state = "succeeded" ∧
      isFailureReason (failureReason (publicationFailed error)) = true ∨
        job.state = "failed" ∧
          isFailureReason (failureReason (job.reason.getD "media worker failed")) = true

variable {sumMillis}

theorem readyDuration_ne_zero_iff (playlist : Option String) :
    readyDuration sumMillis playlist ≠ 0 ↔
      playlist.bind (playlistDurationMillis sumMillis) ≠ some 0 := by
  unfold readyDuration
  cases playlist.bind (playlistDurationMillis sumMillis) with
  | none => simp
  | some duration => simp

theorem settled_markAssetFailed_iff {slot : AssetSlot} {managed : ManagedAsset} {outputs : UInt16}
    (hmemory : slot.memory = some managed) (hstate : managed.asset.state = .transcoding outputs)
    (reason : String) (now : UInt64) (io : PersistIo) :
    Settled ((markAssetFailed reason now io).run slot).2 ↔
      isFailureReason (failureReason reason) = true ∧ managed.asset.version.toNat + 1 < 2 ^ 64 := by
  unfold markAssetFailed
  rw [settled_iff_isOk hmemory hstate (fun _ => moves_fail), fail_isOk_iff hstate]

theorem settled_finalizeVodSuccess_iff {slot : AssetSlot} {managed : ManagedAsset} {outputs : UInt16}
    (hmemory : slot.memory = some managed) (hstate : managed.asset.state = .transcoding outputs)
    (playlist : Option String) (now : UInt64) (io : PersistIo) :
    Settled ((finalizeVodSuccess sumMillis playlist (.ok ()) now io).run slot).2 ↔
      playlist.bind (playlistDurationMillis sumMillis) ≠ some 0 ∧
        managed.asset.version.toNat + 1 < 2 ^ 64 := by
  have huri : validateRelativeUri "master.m3u8" = .ok () := by decide
  unfold finalizeVodSuccess
  dsimp only
  rw [settled_iff_isOk hmemory hstate (fun _ => moves_markReady), markReady_isOk_iff hstate,
    readyDuration_ne_zero_iff]
  exact and_iff_right huri

end

/-! ## A ladder of renditions -/

namespace MovieJob

def transcoding : AssetSlot :=
  let managed : ManagedAsset := ⟨⟨"movie", "tenant", 5, .transcoding 0⟩, some 7, 5, 1000, 2000,
    some "http://worker:8090", some 1, some ⟨6000, [⟨1280, 720, 3000000, 128000⟩]⟩⟩
  ⟨some managed, [managed], [1, 2]⟩

/-- What the encoder writes for a ladder: it names the playlists of the renditions. -/
def multivariant : String :=
  "#EXTM3U\n#EXT-X-VERSION:7\n#EXT-X-STREAM-INF:BANDWIDTH=3440800,RESOLUTION=1280x720\nv0/index.m3u8\n"

/-- No values make zero seconds, and no other sum is needed. -/
def sumMillis (values : List String) : Option UInt64 := if values = [] then some 0 else none

end MovieJob

end Fluvora.MediaGateway
