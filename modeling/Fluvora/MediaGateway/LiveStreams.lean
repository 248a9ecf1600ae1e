import Fluvora.Domain.Room
import Fluvora.MediaGateway.Completion
import Fluvora.MediaPipeline.LivePlaylist
import Fluvora.Net.Address

/-!
# Live streams of the media gateway

What `crates/services/media-gateway` keeps of a live stream: the record in memory, the snapshots on
disk, newest first, and the objects below the stream's prefix.  `restoreLive` is what
`load_live_streams` makes of the snapshots.  A handler is cut where it gives back the lock on the
streams, and what it learns in between is an input of the section that uses it.
-/

namespace Fluvora.MediaGateway

open ApiServer (ApiError)
open Domain Fallible MediaPipeline
open MediaStore (Crates Objects PutOutcome)

structure LiveSourceTrack where
  roomId : String
  trackId : UInt64
  kind : String
  codec : String
  payloadType : UInt8
  clockRate : UInt32
  channels : Option UInt8
  fmtp : Option String
deriving DecidableEq

structure LiveJobSpec where
  segmentDurationMillis : UInt32
  windowSegments : ℕ
  tracks : List LiveSourceTrack
  renditions : List RenditionRequest
deriving DecidableEq

structure RecordingBinding where
  roomId : String
  trackId : UInt64
  destination : SocketAddr
deriving DecidableEq

structure LiveStream where
  playlist : LivePlaylist
  revision : UInt64
  workerJobId : Option UInt64
  workerActive : Bool
  recordingBindings : List RecordingBinding
  createdAtMillis : UInt64
  updatedAtMillis : UInt64
  finishedAtMillis : Option UInt64
  deletedAtMillis : Option UInt64
  purgedAtMillis : Option UInt64
  workerEndpoint : Option String
  placementGeneration : Option UInt64
  jobSpec : Option LiveJobSpec
deriving DecidableEq

structure LiveSlot where
  memory : Option LiveStream
  snapshots : List LiveStream
  objects : Objects

/-! ## Errors -/

def streamNotFound : ApiError := ⟨404, "stream_not_found", "unknown live stream"⟩

def mediaNotFound : ApiError := ⟨404, "media_not_found", "media object not found"⟩

def objectStoreUnavailable : ApiError :=
  ⟨503, "object_store_unavailable", "media object store is unavailable"⟩

def storeError (error : MediaStore.StoreError) : ApiError :=
  if error.isNotFound then mediaNotFound else objectStoreUnavailable

def invalidIdentifier : ApiError :=
  unprocessable "identifier must be 1..=128 safe ASCII characters"

def bridgeStateInvalid : ApiError :=
  ⟨500, "live_bridge_state_invalid", "active live bridge has no worker job"⟩

def omittedDestination : ApiError :=
  ⟨502, "live_worker_invalid_response", "media worker omitted a track destination"⟩

def noLongerAccepting : ApiError := conflict "live stream is no longer accepting media"

def segmentSequenceMismatch (expected : UInt64) : ApiError :=
  ⟨409, "segment_sequence_mismatch", s!"expected segment {expected}"⟩

/-! ## Loading -/

/-- A time of the stream, if there is one, is not before its creation. -/
def isSince (createdAtMillis : UInt64) (time : Option UInt64) : Bool :=
  time.all fun time => createdAtMillis ≤ time

def LiveStream.timesInOrder (stream : LiveStream) : Bool :=
  stream.createdAtMillis ≤ stream.updatedAtMillis &&
    isSince stream.createdAtMillis stream.finishedAtMillis &&
    isSince stream.createdAtMillis stream.deletedAtMillis &&
    isSince stream.createdAtMillis stream.purgedAtMillis

def isLiveJobSpec (spec : LiveJobSpec) : Bool :=
  1000 ≤ spec.segmentDurationMillis && spec.segmentDurationMillis ≤ 10000 &&
    LivePlaylist.isWindowSize spec.windowSegments && spec.tracks.length ≤ 2 &&
    (validateRenditionLadder spec.renditions true).isOk

def areBindings (bindings : List RecordingBinding) : Bool :=
  bindings.length ≤ 2 && bindings.all fun binding => isIdentifier binding.roomId

section

variable (normalizeHttpOrigin : String → Option String)

/-- A stream that is loaded has its endpoint normalised. -/
def validateLoadedLive (streamId : String) (stream : LiveStream) : Option LiveStream := do
  guard (stream.revision ≠ 0 ∧ isIdentifier streamId)
  guard (stream.playlist.validate = .ok ())
  guard stream.timesInOrder
  let workerEndpoint ← normalizeWorkerEndpoint normalizeHttpOrigin stream.workerEndpoint
  guard (stream.workerActive = false ∨
    stream.workerJobId.isSome ∧ workerEndpoint.isSome ∧ stream.placementGeneration.isSome)
  guard (workerEndpoint.isSome = stream.placementGeneration.isSome)
  guard (areBindings stream.recordingBindings)
  guard (stream.jobSpec.all isLiveJobSpec)
  return { stream with workerEndpoint }

/-- The newest snapshot that is accepted. -/
def restoreLive (streamId : String) (snapshots : List LiveStream) : Option LiveStream :=
  snapshots.findSome? (validateLoadedLive normalizeHttpOrigin streamId)

end

/-! ## The record and the objects -/

def getLive : Fallible LiveSlot ApiError LiveStream := do
  let slot ← get
  ofOption slot.memory streamNotFound

def setLive (stream : LiveStream) : Fallible LiveSlot ApiError Unit :=
  modify fun slot => { slot with memory := some stream }

/-- `persist_live_stream`: a revision that is there already is not written again. -/
def LiveSlot.persistLiveStream (stream : LiveStream) (io : PersistIo) : Fallible LiveSlot ApiError Unit := do
  let slot ← get
  match slot.snapshots.find? fun existing => existing.revision = stream.revision with
  | some existing => ensure (existing = stream) metadataRevisionConflict
  | none => do
      ensure io.stores storageError
      set { slot with snapshots := (stream :: slot.snapshots).take (2 + io.kept) }

/-- The next revision of the record in memory. -/
def nextRevision (change : LiveStream → LiveStream) : Fallible LiveSlot ApiError LiveStream := do
  let stream ← getLive
  let revision ← ofOption (checkedSucc stream.revision) revisionExhausted
  let stream := change { stream with revision }
  setLive stream
  return stream

/-- How an upload ends, and whether the size of the object can be asked for. -/
structure PutIo where
  outcome : PutOutcome
  answers : Bool

variable (crates : Crates) (streamId : String)

def liveKey (name : String) : String := "live/" ++ streamId ++ "/" ++ name

def putLiveObject (name : String) (bytes : List UInt8) (io : PutIo) :
    Fallible LiveSlot ApiError Unit := do
  let slot ← get
  let (result, objects) :=
    (MediaStore.put crates (liveKey streamId name) bytes io.outcome io.answers).run slot.objects
  set { slot with objects }
  ofExcept (result.mapError storeError)

-- Numbers of seconds with three decimals, of durations in nanoseconds.
variable (formatSeconds : ℕ → String)

/-- The playlist of a stream that no worker packages is stored by the gateway itself. -/
def persistLivePlaylistObject (stream : LiveStream) (io : PutIo) :
    Fallible LiveSlot ApiError Unit :=
  if stream.workerJobId.isSome then return ()
  else putLiveObject crates streamId "index.m3u8" (asBytes (stream.playlist.render formatSeconds)) io

/-! ## The bridge between the media node and a worker -/

structure WorkerLiveDestination where
  trackId : UInt64
  destination : SocketAddr

structure WorkerLiveJobResponse where
  jobId : UInt64
  destinations : List WorkerLiveDestination

/-- What the worker answers, and the media node to each binding. -/
structure BridgeIo where
  allocation : Except ApiError WorkerLiveJobResponse
  record : RecordingBinding → Except ApiError Unit

def checkOr (condition : Prop) [Decidable condition] (error : ApiError) : Except ApiError Unit :=
  if condition then .ok () else .error error

def bindTracks (allocation : WorkerLiveJobResponse) (record : RecordingBinding → Except ApiError Unit) :
    List LiveSourceTrack → Except ApiError (List RecordingBinding)
  | [] => .ok []
  | track :: tracks =>
      match allocation.destinations.find? fun destination => destination.trackId = track.trackId with
      | none => .error omittedDestination
      | some destination => do
          let binding : RecordingBinding := ⟨track.roomId, track.trackId, destination.destination⟩
          record binding
          let bindings ← bindTracks allocation record tracks
          return binding :: bindings

def startLiveRtpBridge (tracks : List LiveSourceTrack) (io : BridgeIo) :
    Except ApiError (UInt64 × List RecordingBinding) := do
  checkOr (tracks ≠ [] ∧ tracks.length ≤ 2)
    (unprocessable "live source requires at most one audio and one video track")
  checkOr (tracks.all fun track => isIdentifier track.roomId) invalidIdentifier
  let allocation ← io.allocation
  let bindings ← bindTracks allocation io.record tracks
  return (allocation.jobId, bindings)

/-- `stopped` is what the media node and the worker answer. -/
def stopLiveRtpBridge (stopped : Except ApiError Unit) : Fallible LiveSlot ApiError Unit := do
  let stream ← getLive
  if stream.workerActive then do
    ensure stream.workerJobId.isSome bridgeStateInvalid
    ofExcept stopped
    setLive { stream with workerActive := false, recordingBindings := [] }
  else return ()

/-! ## The handlers -/

structure CreateLiveRequest where
  windowSegments : ℕ
  firstSequence : UInt64
  segmentDurationMillis : UInt32
  sourceTracks : List LiveSourceTrack
  renditions : List RenditionRequest

structure CreateLiveIo where
  directory : Bool
  placement : Except ApiError ServicePlacement
  bridge : BridgeIo
  now : UInt64
  object : PutIo
  persist : PersistIo

def validateLiveJobRequest (request : CreateLiveRequest) : Except ApiError Unit := do
  checkOr (1000 ≤ request.segmentDurationMillis ∧ request.segmentDurationMillis ≤ 10000)
    (unprocessable "live segment duration must be between 1000 and 10000 milliseconds")
  validateRenditionLadder request.renditions true
  checkOr (request.renditions = [] ∨ request.sourceTracks ≠ [])
    (unprocessable "live ABR renditions require worker-backed source tracks")
  checkOr (request.renditions = [] ∨ request.sourceTracks.any fun track => track.kind = "video")
    (unprocessable "live ABR renditions require a video source track")

/-- The worker of a new stream, if it has source tracks. -/
structure LiveWorker where
  jobId : UInt64
  bindings : List RecordingBinding
  placement : ServicePlacement
  spec : LiveJobSpec

def startWorker (request : CreateLiveRequest) (io : CreateLiveIo) :
    Except ApiError (Option LiveWorker) :=
  if request.sourceTracks = [] then .ok none
  else do
    let placement ← io.placement
    let (jobId, bindings) ← startLiveRtpBridge request.sourceTracks io.bridge
    return some ⟨jobId, bindings, placement, ⟨request.segmentDurationMillis, request.windowSegments,
      request.sourceTracks, request.renditions⟩⟩

/-- A new stream, with its worker if it has one. -/
def newStream (playlist : LivePlaylist) (worker : Option LiveWorker) (now : UInt64) : LiveStream where
  playlist
  revision := 1
  workerJobId := worker.map (·.jobId)
  workerActive := worker.isSome
  recordingBindings := (worker.map (·.bindings)).getD []
  createdAtMillis := now
  updatedAtMillis := now
  finishedAtMillis := none
  deletedAtMillis := none
  purgedAtMillis := none
  workerEndpoint := worker.map (·.placement.endpoint)
  placementGeneration := worker.map (·.placement.generation)
  jobSpec := worker.map (·.spec)

def createLive (request : CreateLiveRequest) (io : CreateLiveIo) :
    Fallible LiveSlot ApiError Unit := do
  ensure (isIdentifier streamId) invalidIdentifier
  ofExcept (validateLiveJobRequest request)
  let playlist ← ofExcept
    ((LivePlaylist.new "init.mp4" request.windowSegments request.firstSequence).mapError pipelineError)
  let slot ← get
  ensure slot.memory.isNone (conflict "live stream already exists")
  ensure io.directory storageError
  let worker ← ofExcept (startWorker request io)
  let stream := newStream playlist worker io.now
  persistLivePlaylistObject crates streamId formatSeconds stream io.object
  LiveSlot.persistLiveStream stream io.persist
  setLive stream

/-- Whether the file can be written, the upload, and the snapshot. -/
structure UploadIo where
  writes : Bool
  object : PutIo
  playlist : PutIo
  persist : PersistIo

def maxSegmentBytes : ℕ := 32 * 1024 * 1024

def uploadLiveInit (bytes : List UInt8) (now : UInt64) (io : UploadIo) :
    Fallible LiveSlot ApiError Unit := do
  ensure (isIdentifier streamId) invalidIdentifier
  ensure (bytes.length ≤ maxSegmentBytes) (payloadTooLarge maxSegmentBytes)
  ensure (bytes ≠ []) (unprocessable "initialization segment cannot be empty")
  let stream ← getLive
  ensure (stream.finishedAtMillis.isNone ∧ stream.deletedAtMillis.isNone) noLongerAccepting
  ensure io.writes storageError
  putLiveObject crates streamId "init.mp4" bytes io.object
  let stream ← nextRevision fun stream => { stream with updatedAtMillis := now }
  LiveSlot.persistLiveStream stream io.persist

structure SegmentQuery where
  durationMillis : UInt64
  discontinuity : Bool
  programDateTime : Option String

def segmentUri (sequence : UInt64) : String := s!"segment-{sequence}.m4s"

/-- A segment is appended to the playlist of the record in memory. -/
def pushSegment (segment : Segment) : Fallible LiveSlot ApiError Unit := do
  let stream ← getLive
  let (result, playlist) := (LivePlaylist.push segment).run stream.playlist
  setLive { stream with playlist }
  let _ ← ofExcept (result.mapError pipelineError)

def uploadLiveSegment (sequence : UInt64) (query : SegmentQuery) (bytes : List UInt8) (now : UInt64)
    (io : UploadIo) : Fallible LiveSlot ApiError Unit := do
  ensure (isIdentifier streamId) invalidIdentifier
  ensure (bytes.length ≤ maxSegmentBytes) (payloadTooLarge maxSegmentBytes)
  ensure (bytes ≠ []) (unprocessable "media segment cannot be empty")
  let stream ← getLive
  ensure (stream.finishedAtMillis.isNone ∧ stream.deletedAtMillis.isNone) noLongerAccepting
  ensure (stream.playlist.nextSequence = sequence)
    (segmentSequenceMismatch stream.playlist.nextSequence)
  ensure io.writes storageError
  putLiveObject crates streamId (segmentUri sequence) bytes io.object
  pushSegment ⟨sequence, query.durationMillis.toNat * 1000000, segmentUri sequence,
    query.discontinuity, query.programDateTime⟩
  let stream ← nextRevision fun stream => { stream with updatedAtMillis := now }
  persistLivePlaylistObject crates streamId formatSeconds stream io.playlist
  LiveSlot.persistLiveStream stream io.persist

/-- The clock is read more than once, and what is stopped and stored may fail. -/
structure FinishIo where
  stopped : Except ApiError Unit
  now : UInt64
  object : PutIo
  persist : PersistIo

def finishLive (io : FinishIo) : Fallible LiveSlot ApiError Unit := do
  ensure (isIdentifier streamId) invalidIdentifier
  stopLiveRtpBridge io.stopped
  let stream ← getLive
  setLive { stream with playlist := stream.playlist.finish }
  let stream ← nextRevision fun stream =>
    { stream with updatedAtMillis := io.now, finishedAtMillis := some io.now }
  persistLivePlaylistObject crates streamId formatSeconds stream io.object
  LiveSlot.persistLiveStream stream io.persist

/-- A stream that is deleted is finished as well. -/
def LiveStream.withDeletion (stream : LiveStream) (finished now : UInt64) : LiveStream :=
  { stream with
    playlist := if stream.finishedAtMillis.isNone then stream.playlist.finish else stream.playlist
    finishedAtMillis := some (stream.finishedAtMillis.getD finished)
    deletedAtMillis := some now
    updatedAtMillis := now }

structure DeleteIo where
  stopped : Except ApiError Unit
  finished : UInt64
  now : UInt64
  persist : PersistIo

/-- The first section of `delete_live_storage`, and whether the handler goes on. -/
def startDeleteLive (io : DeleteIo) : Fallible LiveSlot ApiError Bool := do
  let stream ← getLive
  if stream.purgedAtMillis.isSome then return false
  else if stream.deletedAtMillis.isSome then return true
  else do
    stopLiveRtpBridge io.stopped
    let stream ← getLive
    setLive (stream.withDeletion io.finished io.now)
    let stream ← nextRevision id
    LiveSlot.persistLiveStream stream io.persist
    return true

/-- Its second section, once the objects and the directory are removed. -/
def finishDeleteLive (now : UInt64) (io : PersistIo) : Fallible LiveSlot ApiError Unit := do
  let stream ← getLive
  if stream.purgedAtMillis.isNone then do
    setLive { stream with purgedAtMillis := some now, updatedAtMillis := now }
    let stream ← nextRevision id
    LiveSlot.persistLiveStream stream io
  else return ()

structure RestartIo where
  placement : Except ApiError ServicePlacement
  bridge : BridgeIo
  now : UInt64
  persist : PersistIo

def LiveStream.isActive (stream : LiveStream) : Bool :=
  stream.workerActive && stream.deletedAtMillis.isNone

/-- The end of `restart_live_job`. -/
def recordLiveFailover (jobId : UInt64) (bindings : List RecordingBinding)
    (placement : ServicePlacement) (now : UInt64) (io : PersistIo) :
    Fallible LiveSlot ApiError Unit := do
  let stream ← getLive
  ensure stream.isActive (conflict "live stream stopped during worker failover")
  setLive { stream with
    workerJobId := some jobId
    workerEndpoint := some placement.endpoint
    placementGeneration := some placement.generation
    recordingBindings := bindings
    updatedAtMillis := now }
  let stream ← nextRevision id
  LiveSlot.persistLiveStream stream io

/-- The stream is read in a section of its own, but its job, which is what is used of it, never
changes. -/
def restartLiveJob (io : RestartIo) : Fallible LiveSlot ApiError Unit := do
  let stream ← getLive
  ensure stream.isActive (conflict "live stream is no longer active")
  let spec ← ofOption stream.jobSpec (conflict "live failover metadata is unavailable")
  let placement ← ofExcept io.placement
  let (jobId, bindings) ← ofExcept (startLiveRtpBridge spec.tracks io.bridge)
  recordLiveFailover jobId bindings placement io.now io.persist

end Fluvora.MediaGateway
