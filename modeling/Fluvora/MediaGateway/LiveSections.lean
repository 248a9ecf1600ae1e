import Fluvora.MediaGateway.AssetSections
import Fluvora.MediaGateway.LiveStreams

/-!
# The live handlers, section by section

What each section of a live handler leaves in memory and on disk.  `LiveSlot.records_section` tells
which of them leave the record in memory as it would be restored: the checks in front of the first
change may fail, but nothing after it.
-/

namespace Fluvora.MediaGateway

open ApiServer (ApiError)
open Domain Fallible MediaPipeline
open MediaStore (Crates Objects PutOutcome)

inductive LiveSection
  | create (request : CreateLiveRequest) (io : CreateLiveIo)
  | uploadInit (bytes : List UInt8) (now : UInt64) (io : UploadIo)
  | uploadSegment (sequence : UInt64) (query : SegmentQuery) (bytes : List UInt8) (now : UInt64)
      (io : UploadIo)
  | finish (io : FinishIo)
  | startDelete (io : DeleteIo)
  | finishDelete (now : UInt64) (io : PersistIo)
  | restart (io : RestartIo)

namespace LiveSection

section

variable (crates : Crates) (formatSeconds : ℕ → String) (streamId : String)

/-- What the first section of a deletion returns is not needed here. -/
def run : LiveSection → Fallible LiveSlot ApiError Unit
  | .create request io => createLive crates streamId formatSeconds request io
  | .uploadInit bytes now io => uploadLiveInit crates streamId bytes now io
  | .uploadSegment sequence query bytes now io =>
      uploadLiveSegment crates streamId formatSeconds sequence query bytes now io
  | .finish io => finishLive crates streamId formatSeconds io
  | .startDelete io => do
      let _ ← startDeleteLive io
  | .finishDelete now io => finishDeleteLive now io
  | .restart io => restartLiveJob io

/-- An upload that is stored, and whose size can be asked for. -/
def Stored (name : String) (io : PutIo) : Prop :=
  MediaStore.parseKey crates (liveKey streamId name) = .ok () ∧ io.outcome = .stored ∧
    io.answers = true

end

/-! ## Which sections change a record, and what they need then -/

/-- The stream accepts media. -/
def IsOpen (stream : LiveStream) : Prop :=
  stream.finishedAtMillis.isNone ∧ stream.deletedAtMillis.isNone

/-- There is no worker to be stopped, or it is. -/
def Stops (stream : LiveStream) (stopped : Except ApiError Unit) : Prop :=
  stream.workerActive = false ∨ stream.workerJobId.isSome ∧ stopped = .ok ()

/-- A snapshot of the next revision is stored, and the clock has not gone back behind the creation. -/
def Persists (stream : LiveStream) (now : UInt64) (io : PersistIo) : Prop :=
  stream.createdAtMillis ≤ now ∧ io.stores = true

def HasNext (stream : LiveStream) : Prop := stream.revision.toNat + 1 < 2 ^ 64

def segmentOf (sequence : UInt64) (query : SegmentQuery) : Segment :=
  ⟨sequence, query.durationMillis.toNat * 1000000, segmentUri sequence, query.discontinuity,
    query.programDateTime⟩

section

variable (crates : Crates) (streamId : String)

/-- The checks in front of the first change succeed. -/
def Changes (stream : LiveStream) : LiveSection → Prop
  | .create _ _ => False
  | .uploadInit bytes _ io =>
      bytes.length ≤ maxSegmentBytes ∧ bytes ≠ [] ∧ IsOpen stream ∧ io.writes = true ∧
        Stored crates streamId "init.mp4" io.object ∧ HasNext stream
  | .uploadSegment sequence query bytes _ io =>
      bytes.length ≤ maxSegmentBytes ∧ bytes ≠ [] ∧ IsOpen stream ∧ io.writes = true ∧
        Stored crates streamId (segmentUri sequence) io.object ∧
        stream.playlist.IsNext (segmentOf sequence query)
  | .finish io => Stops stream io.stopped
  | .startDelete io =>
      stream.purgedAtMillis.isNone ∧ stream.deletedAtMillis.isNone ∧ Stops stream io.stopped
  | .finishDelete _ _ => stream.purgedAtMillis.isNone
  | .restart io => stream.isActive = true ∧ ∃ spec placement bridge, stream.jobSpec = some spec ∧
      io.placement = .ok placement ∧ startLiveRtpBridge spec.tracks io.bridge = .ok bridge

/-- The gateway stores the playlist of a stream without a worker. -/
def StoresPlaylist (stream : LiveStream) (io : PutIo) : Prop :=
  stream.workerJobId.isSome ∨ Stored crates streamId "index.m3u8" io

variable (normalizeHttpOrigin : String → Option String)

/-- Nothing fails after the first change, and the snapshot is accepted. -/
def Completes (stream : LiveStream) : LiveSection → Prop
  | .create _ _ => True
  | .uploadInit _ now io => Persists stream now io.persist
  | .uploadSegment _ _ _ now io =>
      HasNext stream ∧ StoresPlaylist crates streamId stream io.playlist ∧
        Persists stream now io.persist
  | .finish io =>
      HasNext stream ∧ StoresPlaylist crates streamId stream io.object ∧
        Persists stream io.now io.persist
  | .startDelete io =>
      HasNext stream ∧ (stream.finishedAtMillis.isNone → stream.createdAtMillis ≤ io.finished) ∧
        Persists stream io.now io.persist
  | .finishDelete now io => HasNext stream ∧ Persists stream now io
  | .restart io =>
      HasNext stream ∧ (∀ placement, io.placement = .ok placement →
        AssetSection.IsNormal normalizeHttpOrigin placement) ∧ Persists stream io.now io.persist

/-- A section that changes the record completes, and a new stream is placed on an endpoint that is
loaded as it is stored. -/
def InStep (slot : LiveSlot) : LiveSection → Prop
  | .create request io => request.sourceTracks ≠ [] → ∀ placement, io.placement = .ok placement →
      AssetSection.IsNormal normalizeHttpOrigin placement
  | part => ∀ stream, slot.memory = some stream → part.Changes crates streamId stream →
      part.Completes crates streamId normalizeHttpOrigin stream

end

end LiveSection

/-! ## Records that are accepted -/

section

variable (normalizeHttpOrigin : String → Option String)

/-- What `validateLoadedLive` asks of a record that it does not change, but for its revision and the
time of the update. -/
structure LiveStream.InOrder (stream : LiveStream) : Prop where
  playlist : stream.playlist.validate = .ok ()
  finished : isSince stream.createdAtMillis stream.finishedAtMillis = true
  deleted : isSince stream.createdAtMillis stream.deletedAtMillis = true
  purged : isSince stream.createdAtMillis stream.purgedAtMillis = true
  endpoint : normalizeWorkerEndpoint normalizeHttpOrigin stream.workerEndpoint =
    some stream.workerEndpoint
  active : stream.workerActive = false ∨ stream.workerJobId.isSome ∧ stream.workerEndpoint.isSome ∧
    stream.placementGeneration.isSome
  paired : stream.workerEndpoint.isSome = stream.placementGeneration.isSome
  bindings : areBindings stream.recordingBindings = true
  spec : stream.jobSpec.all isLiveJobSpec = true

variable {normalizeHttpOrigin} {streamId : String} {stream : LiveStream}

theorem validateLoadedLive_eq_self_iff :
    validateLoadedLive normalizeHttpOrigin streamId stream = some stream ↔
      (stream.revision ≠ 0 ∧ isIdentifier streamId) ∧
        stream.createdAtMillis ≤ stream.updatedAtMillis ∧ stream.InOrder normalizeHttpOrigin := by
  unfold validateLoadedLive LiveStream.timesInOrder
  rw [guard_bind_eq_some_iff, guard_bind_eq_some_iff, guard_bind_eq_some_iff]
  constructor
  · rintro ⟨hidentity, hplaylist, htimes, h⟩
    obtain ⟨endpoint, hendpoint, h⟩ := Option.bind_eq_some_iff.mp h
    rw [guard_bind_eq_some_iff, guard_bind_eq_some_iff, guard_bind_eq_some_iff,
      guard_bind_eq_some_iff] at h
    obtain ⟨hactive, hpaired, hbindings, hspec, h⟩ := h
    have hsame : endpoint = stream.workerEndpoint :=
      congrArg LiveStream.workerEndpoint (Option.some.inj h)
    rw [hsame] at hendpoint hactive hpaired
    simp only [Bool.and_eq_true, decide_eq_true_eq] at htimes
    obtain ⟨⟨⟨hupdated, hfinished⟩, hdeleted⟩, hpurged⟩ := htimes
    exact ⟨hidentity, hupdated, hplaylist, hfinished, hdeleted, hpurged, hendpoint, hactive, hpaired,
      hbindings, hspec⟩
  · rintro ⟨hidentity, hupdated, horder⟩
    refine ⟨hidentity, horder.playlist, ?_, Option.bind_eq_some_iff.mpr
      ⟨stream.workerEndpoint, horder.endpoint, ?_⟩⟩
    · simp only [Bool.and_eq_true, decide_eq_true_eq]
      exact ⟨⟨⟨hupdated, horder.finished⟩, horder.deleted⟩, horder.purged⟩
    · rw [guard_bind_eq_some_iff, guard_bind_eq_some_iff, guard_bind_eq_some_iff,
        guard_bind_eq_some_iff]
      exact ⟨horder.active, horder.paired, horder.bindings, horder.spec, rfl⟩

theorem LiveStream.InOrder.finish (h : stream.InOrder normalizeHttpOrigin) (revision updated : UInt64)
    {finished : UInt64} (hfinished : stream.createdAtMillis ≤ finished) :
    ({ stream with
      playlist := stream.playlist.finish
      revision
      updatedAtMillis := updated
      finishedAtMillis := some finished } : LiveStream).InOrder normalizeHttpOrigin :=
  ⟨h.playlist, decide_eq_true hfinished, h.deleted, h.purged, h.endpoint, h.active, h.paired,
    h.bindings, h.spec⟩

theorem LiveStream.InOrder.withDeletion (h : stream.InOrder normalizeHttpOrigin) {finished now : UInt64}
    (hfinished : stream.finishedAtMillis.isNone → stream.createdAtMillis ≤ finished)
    (hnow : stream.createdAtMillis ≤ now) :
    (stream.withDeletion finished now).InOrder normalizeHttpOrigin := by
  unfold LiveStream.withDeletion
  cases hbefore : stream.finishedAtMillis with
  | none =>
    exact ⟨h.playlist, decide_eq_true (hfinished (by rw [hbefore]; rfl)), decide_eq_true hnow, h.purged,
      h.endpoint, h.active, h.paired, h.bindings, h.spec⟩
  | some time =>
    have htime := h.finished
    rw [hbefore] at htime
    exact ⟨h.playlist, htime, decide_eq_true hnow, h.purged, h.endpoint, h.active, h.paired,
      h.bindings, h.spec⟩

/-! ## The bridge -/

theorem checkOr_eq_ok_iff {condition : Prop} [Decidable condition] {error : ApiError} :
    checkOr condition error = .ok () ↔ condition := by
  unfold checkOr
  split_ifs with h <;> simp [h]

theorem bindTracks_rooms {allocation : WorkerLiveJobResponse}
    {record : RecordingBinding → Except ApiError Unit} {tracks : List LiveSourceTrack}
    {bindings : List RecordingBinding} (h : bindTracks allocation record tracks = .ok bindings) :
    bindings.map (·.roomId) = tracks.map (·.roomId) := by
  induction tracks generalizing bindings with
  | nil =>
    cases h
    rfl
  | cons track tracks ih =>
    unfold bindTracks at h
    cases hfind : allocation.destinations.find? fun destination =>
        destination.trackId = track.trackId with
    | none =>
      rw [hfind] at h
      cases h
    | some destination =>
      rw [hfind] at h
      obtain ⟨⟨⟩, -, h⟩ := Results.bind_eq_ok.mp h
      obtain ⟨rest, hrest, h⟩ := Results.bind_eq_ok.mp h
      cases h
      rw [List.map_cons, List.map_cons, ih hrest]

/-- The bindings of a bridge are accepted when they are loaded, and so are its tracks. -/
theorem bindings_of_startLiveRtpBridge {tracks : List LiveSourceTrack} {io : BridgeIo} {jobId : UInt64}
    {bindings : List RecordingBinding} (h : startLiveRtpBridge tracks io = .ok (jobId, bindings)) :
    areBindings bindings = true ∧ tracks.length ≤ 2 := by
  unfold startLiveRtpBridge at h
  obtain ⟨⟨⟩, hlength, h⟩ := Results.bind_eq_ok.mp h
  obtain ⟨⟨⟩, hrooms, h⟩ := Results.bind_eq_ok.mp h
  obtain ⟨allocation, -, h⟩ := Results.bind_eq_ok.mp h
  obtain ⟨bound, hbound, h⟩ := Results.bind_eq_ok.mp h
  cases h
  rw [checkOr_eq_ok_iff] at hlength hrooms
  have hmap := bindTracks_rooms hbound
  have hsame : bindings.length = tracks.length := by
    simpa using congrArg List.length hmap
  refine ⟨?_, hlength.2⟩
  unfold areBindings
  rw [Bool.and_eq_true, decide_eq_true_eq, hsame]
  refine ⟨hlength.2, ?_⟩
  rw [List.all_eq_true] at hrooms ⊢
  intro binding hbinding
  have hroom : binding.roomId ∈ tracks.map (·.roomId) := hmap ▸ List.mem_map_of_mem hbinding
  obtain ⟨track, htrack, hroom⟩ := List.mem_map.mp hroom
  exact hroom ▸ hrooms track htrack

/-- A new stream is accepted when it is loaded. -/
theorem inOrder_newStream {request : CreateLiveRequest} {io : CreateLiveIo} {playlist : LivePlaylist}
    {worker : Option LiveWorker} (hvalid : validateLiveJobRequest request = .ok ())
    (hplaylist : LivePlaylist.new "init.mp4" request.windowSegments request.firstSequence =
      .ok playlist) (hworker : startWorker request io = .ok worker)
    (hnormal : request.sourceTracks ≠ [] → ∀ placement, io.placement = .ok placement →
      AssetSection.IsNormal normalizeHttpOrigin placement) (now : UInt64) :
    (newStream playlist worker now).InOrder normalizeHttpOrigin := by
  have hchecked := LivePlaylist.validate_new hplaylist
  unfold startWorker at hworker
  split_ifs at hworker with htracks
  · cases hworker
    exact ⟨hchecked, rfl, rfl, rfl, rfl, .inl rfl, rfl, rfl, rfl⟩
  obtain ⟨placement, hplacement, hworker⟩ := Results.bind_eq_ok.mp hworker
  obtain ⟨⟨jobId, bindings⟩, hbridge, hworker⟩ := Results.bind_eq_ok.mp hworker
  cases hworker
  obtain ⟨hbindings, hlength⟩ := bindings_of_startLiveRtpBridge hbridge
  obtain ⟨⟨⟩, hduration, hvalid⟩ := Results.bind_eq_ok.mp hvalid
  obtain ⟨⟨⟩, hladder, -⟩ := Results.bind_eq_ok.mp hvalid
  rw [checkOr_eq_ok_iff] at hduration
  have hspec : isLiveJobSpec ⟨request.segmentDurationMillis, request.windowSegments,
      request.sourceTracks, request.renditions⟩ = true := by
    have hwindow : LivePlaylist.isWindowSize request.windowSegments = true := by
      unfold LivePlaylist.new at hplaylist
      obtain ⟨⟨⟩, -, hplaylist⟩ := Results.bind_eq_ok.mp hplaylist
      obtain ⟨⟨⟩, hwindow, -⟩ := Results.bind_eq_ok.mp hplaylist
      exact check_eq_ok_iff.mp hwindow
    unfold isLiveJobSpec
    rw [hladder]
    simp [hduration, hwindow, hlength, Except.isOk, Except.toBool]
  have hplaced := normalizeWorkerEndpoint_of_isNormal (hnormal htracks placement hplacement)
  exact ⟨hchecked, rfl, rfl, rfl, hplaced,
    .inr ⟨rfl, rfl, rfl⟩, rfl, hbindings, hspec⟩

end

/-! ## What the steps of a section do -/

namespace LiveSlot

section

variable {slot : LiveSlot} {stream : LiveStream}

theorem getLive_bind {β : Type} (hmemory : slot.memory = some stream)
    (f : LiveStream → Fallible LiveSlot ApiError β) :
    (getLive >>= f).run slot = (f stream).run slot := by
  unfold getLive
  rw [run_bind, run_get_bind, hmemory]
  rfl

theorem getLive_run_none (hmemory : slot.memory = none) :
    getLive.run slot = (.error streamNotFound, slot) := by
  unfold getLive
  rw [run_get_bind, hmemory]
  rfl

theorem nextRevision_bind {β : Type} (hmemory : slot.memory = some stream)
    (change : LiveStream → LiveStream) (f : LiveStream → Fallible LiveSlot ApiError β) :
    (nextRevision change >>= f).run slot =
      if stream.revision.toNat + 1 < 2 ^ 64 then
        (f (change { stream with revision := stream.revision + 1 })).run { slot with
          memory := some (change { stream with revision := stream.revision + 1 }) }
      else (.error revisionExhausted, slot) := by
  unfold nextRevision checkedSucc
  rw [run_bind, getLive_bind hmemory, run_ofOption_bind]
  split_ifs <;> rfl

theorem persistLiveStream_run
    (hfresh : ∀ snapshot ∈ slot.snapshots, snapshot.revision.toNat < stream.revision.toNat)
    (io : PersistIo) :
    (persistLiveStream stream io).run slot =
      if io.stores then
        (.ok (), { slot with snapshots := (stream :: slot.snapshots).take (2 + io.kept) })
      else (.error storageError, slot) := by
  have hnone : (slot.snapshots.find? fun existing => existing.revision = stream.revision) = none := by
    rw [List.find?_eq_none]
    intro snapshot hsnapshot heq
    have hlt := hfresh snapshot hsnapshot
    rw [of_decide_eq_true heq] at hlt
    exact absurd hlt (lt_irrefl _)
  unfold persistLiveStream
  rw [run_get_bind, hnone]
  dsimp only
  rw [run_ensure_bind]
  rfl

section

variable {crates : Crates} {streamId : String} {formatSeconds : ℕ → String}

/-- An upload only touches the objects, and succeeds exactly if it is stored and answered. -/
theorem putLiveObject_run (slot : LiveSlot) (name : String) (bytes : List UInt8) (io : PutIo) :
    ∃ result objects, (putLiveObject crates streamId name bytes io).run slot =
        (result, { slot with objects }) ∧
      (result = .ok () ↔ LiveSection.Stored crates streamId name io) := by
  have hput := @MediaStore.put_eq_ok_iff crates slot.objects (liveKey streamId name) bytes io.outcome
    io.answers
  unfold putLiveObject LiveSection.Stored
  rw [run_get_bind, ← hput]
  generalize (MediaStore.put crates (liveKey streamId name) bytes io.outcome io.answers).run
    slot.objects = run
  obtain ⟨result, objects⟩ := run
  refine ⟨_, objects, rfl, ?_⟩
  cases result <;> simp [Except.mapError]

theorem persistLivePlaylistObject_run (slot : LiveSlot) (stream : LiveStream) (io : PutIo) :
    ∃ result objects, (persistLivePlaylistObject crates streamId formatSeconds stream io).run slot =
        (result, { slot with objects }) ∧
      (result = .ok () ↔ LiveSection.StoresPlaylist crates streamId stream io) := by
  unfold persistLivePlaylistObject LiveSection.StoresPlaylist
  by_cases hworker : stream.workerJobId.isSome
  · rw [if_pos hworker]
    exact ⟨.ok (), slot.objects, rfl, iff_of_true rfl (.inl hworker)⟩
  · rw [if_neg hworker]
    obtain ⟨result, objects, hrun, hresult⟩ := @putLiveObject_run crates streamId slot "index.m3u8"
      (asBytes (stream.playlist.render formatSeconds)) io
    exact ⟨result, objects, hrun, hresult.trans (or_iff_right hworker).symm⟩

end

/-- The segment is the next one, or nothing changes. -/
theorem pushSegment_run (hmemory : slot.memory = some stream) (segment : Segment) :
    (∃ error, (pushSegment segment).run slot = (.error error, slot)) ∨
      ∃ playlist, (pushSegment segment).run slot =
          (.ok (), { slot with memory := some { stream with playlist } }) ∧
        stream.playlist.IsNext segment ∧
        (stream.playlist.validate = .ok () → playlist.validate = .ok ()) := by
  unfold pushSegment
  rw [getLive_bind hmemory]
  rcases LivePlaylist.push_run segment stream.playlist with
    ⟨error, hrun⟩ | ⟨evicted, playlist, hrun, hnext, hvalid⟩
  · left
    rw [hrun]
    refine ⟨pipelineError error, ?_⟩
    change (Except.error (pipelineError error), { slot with memory := some stream }) = _
    rw [← hmemory]
  · right
    rw [hrun]
    exact ⟨playlist, rfl, hnext, hvalid⟩

/-- The bridge is stopped, or nothing changes. -/
theorem stopLiveRtpBridge_run (hmemory : slot.memory = some stream) (stopped : Except ApiError Unit) :
    (∃ error, ¬ LiveSection.Stops stream stopped ∧
        (stopLiveRtpBridge stopped).run slot = (.error error, slot)) ∨
      ∃ bindings, LiveSection.Stops stream stopped ∧ (stopLiveRtpBridge stopped).run slot =
        (.ok (), { slot with memory := some { stream with
          workerActive := false, recordingBindings := bindings } }) ∧
        (bindings = [] ∨ bindings = stream.recordingBindings) := by
  unfold stopLiveRtpBridge
  rw [getLive_bind hmemory]
  by_cases hactive : stream.workerActive = true
  · rw [if_pos hactive, run_ensure_bind]
    by_cases hjob : stream.workerJobId.isSome = true
    swap
    · rw [if_neg hjob]
      refine .inl ⟨_, ?_, rfl⟩
      rintro (hinactive | ⟨hsome, -⟩)
      · rw [hinactive] at hactive
        cases hactive
      · exact hjob hsome
    rw [if_pos hjob, run_ofExcept_bind]
    cases hstopped : stopped with
    | error error =>
      refine .inl ⟨_, ?_, rfl⟩
      rintro (hinactive | ⟨-, hok⟩)
      · rw [hinactive] at hactive
        cases hactive
      · cases hok
    | ok => exact .inr ⟨[], .inr ⟨hjob, rfl⟩, rfl, .inl rfl⟩
  · rw [if_neg hactive]
    rw [Bool.not_eq_true] at hactive
    refine .inr ⟨stream.recordingBindings, .inl hactive, ?_, .inr rfl⟩
    rw [run_pure, ← hactive, ← hmemory]

end

/-! ## Sections that record what they change -/

section

variable (normalizeHttpOrigin : String → Option String) (streamId : String)

/-- What holds of a stream as long as every section that changes it completes. -/
abbrev Synced (slot : LiveSlot) : Prop :=
  RecordStore.InSync (validateLoadedLive normalizeHttpOrigin streamId)
    (fun stream => stream.revision.toNat) slot.memory slot.snapshots

/-- Nothing has changed, or a newer record is in memory and on disk. -/
abbrev Records (slot slot' : LiveSlot) : Prop :=
  RecordStore.Recorded (validateLoadedLive normalizeHttpOrigin streamId)
    (fun stream => stream.revision.toNat) slot.memory slot.snapshots slot'.memory slot'.snapshots

end

section

variable {normalizeHttpOrigin : String → Option String} {crates : Crates} {streamId : String}
  {formatSeconds : ℕ → String} {slot : LiveSlot} {stream : LiveStream}

theorem Synced.accepted_iff (hsynced : slot.Synced normalizeHttpOrigin streamId)
    (hmemory : slot.memory = some stream) :
    (stream.revision ≠ 0 ∧ isIdentifier streamId) ∧
      stream.createdAtMillis ≤ stream.updatedAtMillis ∧ stream.InOrder normalizeHttpOrigin :=
  validateLoadedLive_eq_self_iff.mp (hsynced.accepted stream hmemory)

/-- A record with the next revision, which is stored and accepted. -/
theorem records_persistLiveStream (hsynced : slot.Synced normalizeHttpOrigin streamId)
    (hmemory : slot.memory = some stream) (hnext : LiveSection.HasNext stream) {changed : LiveStream}
    (hrevision : changed.revision = stream.revision + 1)
    (hupdated : changed.createdAtMillis ≤ changed.updatedAtMillis)
    (horder : changed.InOrder normalizeHttpOrigin) {io : PersistIo} (hstores : io.stores = true)
    (objects : Objects) :
    slot.Records normalizeHttpOrigin streamId
      ((persistLiveStream changed io).run ⟨some changed, slot.snapshots, objects⟩).2 := by
  have hnumber : changed.revision.toNat = stream.revision.toNat + 1 := by
    rw [hrevision]
    exact toNat_succ hnext
  have hfresh : ∀ snapshot ∈ slot.snapshots, snapshot.revision.toNat < changed.revision.toNat :=
    fun snapshot hsnapshot => hnumber ▸ Nat.lt_succ_of_le
      (hsynced.newest stream hmemory snapshot hsnapshot)
  have hidentity := (hsynced.accepted_iff hmemory).1.2
  rw [@persistLiveStream_run ⟨some changed, slot.snapshots, objects⟩ changed hfresh, if_pos hstores]
  refine .stored changed (2 + io.kept) (by omega) ?_ ?_
  · exact validateLoadedLive_eq_self_iff.mpr ⟨⟨ne_zero_of_toNat hnumber, hidentity⟩, hupdated, horder⟩
  · intro record hrecord
    cases hmemory.symm.trans hrecord
    exact hnumber ▸ Nat.le_succ _

theorem records_getLive_bind {α : Type} {f : LiveStream → Fallible LiveSlot ApiError α}
    (hf : ∀ stream, slot.memory = some stream →
      slot.Records normalizeHttpOrigin streamId ((f stream).run slot).2) :
    slot.Records normalizeHttpOrigin streamId ((getLive >>= f).run slot).2 := by
  cases hmemory : slot.memory with
  | none =>
    rw [run_bind, getLive_run_none hmemory]
    exact .unchanged
  | some stream =>
    rw [getLive_bind hmemory]
    exact hf stream hmemory

/-- The record in memory is given the next revision before anything else is done with it. -/
theorem records_nextRevision_bind {α : Type} (hnext : LiveSection.HasNext stream) {before : LiveStream}
    (hrevision : before.revision = stream.revision) {change : LiveStream → LiveStream}
    {f : LiveStream → Fallible LiveSlot ApiError α} {snapshots : List LiveStream} {objects : Objects}
    (hf : slot.Records normalizeHttpOrigin streamId
      ((f (change { before with revision := stream.revision + 1 })).run
        ⟨some (change { before with revision := stream.revision + 1 }), snapshots, objects⟩).2) :
    slot.Records normalizeHttpOrigin streamId
      ((nextRevision change >>= f).run ⟨some before, snapshots, objects⟩).2 := by
  have hroom : before.revision.toNat + 1 < 2 ^ 64 := hrevision ▸ hnext
  rw [nextRevision_bind rfl, if_pos hroom, hrevision]
  exact hf

/-- What is stored in front of the snapshot is answered, or nothing has been changed yet. -/
theorem records_playlist_bind (hsynced : slot.Synced normalizeHttpOrigin streamId)
    (hmemory : slot.memory = some stream) (hnext : LiveSection.HasNext stream) {changed : LiveStream}
    (hrevision : changed.revision = stream.revision + 1)
    (hjob : changed.workerJobId = stream.workerJobId)
    (hupdated : changed.createdAtMillis ≤ changed.updatedAtMillis)
    (horder : changed.InOrder normalizeHttpOrigin) {object : PutIo} {io : PersistIo}
    (hobject : LiveSection.StoresPlaylist crates streamId stream object) (hstores : io.stores = true)
    (objects : Objects) :
    slot.Records normalizeHttpOrigin streamId ((do
      persistLivePlaylistObject crates streamId formatSeconds changed object
      persistLiveStream changed io : Fallible LiveSlot ApiError Unit).run
        ⟨some changed, slot.snapshots, objects⟩).2 := by
  obtain ⟨result, objects', hrun, hresult⟩ := @persistLivePlaylistObject_run crates streamId
    formatSeconds ⟨some changed, slot.snapshots, objects⟩ changed object
  have hok : result = .ok () := hresult.mpr (by
    unfold LiveSection.StoresPlaylist at hobject ⊢
    rwa [hjob])
  rw [run_bind, hrun, hok]
  exact records_persistLiveStream hsynced hmemory hnext hrevision hupdated horder hstores objects'

/-! ### One lemma for each section -/

section

variable (hsynced : slot.Synced normalizeHttpOrigin streamId)

include hsynced

theorem records_uploadLiveInit (bytes : List UInt8) (now : UInt64) (io : UploadIo)
    (hstep : LiveSection.InStep crates streamId normalizeHttpOrigin slot (.uploadInit bytes now io)) :
    slot.Records normalizeHttpOrigin streamId
      ((uploadLiveInit crates streamId bytes now io).run slot).2 := by
  unfold uploadLiveInit
  refine run_ensure_bind_invariant .unchanged fun _ => ?_
  refine run_ensure_bind_invariant .unchanged fun hlength => ?_
  refine run_ensure_bind_invariant .unchanged fun hbytes => ?_
  refine records_getLive_bind fun stream hmemory => ?_
  refine run_ensure_bind_invariant .unchanged fun hopen => ?_
  refine run_ensure_bind_invariant .unchanged fun hwrites => ?_
  obtain ⟨result, objects, hrun, hresult⟩ := @putLiveObject_run crates streamId slot "init.mp4" bytes
    io.object
  rw [run_bind, hrun]
  cases result with
  | error error => exact .unchanged
  | ok =>
  have hmemory' : ({ slot with objects } : LiveSlot).memory = some stream := hmemory
  dsimp only
  rw [nextRevision_bind hmemory']
  by_cases hnext : stream.revision.toNat + 1 < 2 ^ 64
  swap
  · rw [if_neg hnext]
    exact .unchanged
  rw [if_pos hnext]
  obtain ⟨hclock, hstores⟩ := hstep stream hmemory
    ⟨hlength, hbytes, hopen, hwrites, hresult.mp rfl, hnext⟩
  have horder := (hsynced.accepted_iff hmemory).2.2
  refine records_persistLiveStream hsynced hmemory hnext ?_ ?_ ?_ hstores objects
  · rfl
  · exact hclock
  · exact ⟨horder.playlist, horder.finished, horder.deleted, horder.purged, horder.endpoint,
      horder.active, horder.paired, horder.bindings, horder.spec⟩

theorem records_uploadLiveSegment (sequence : UInt64) (query : SegmentQuery) (bytes : List UInt8)
    (now : UInt64) (io : UploadIo) (hstep : LiveSection.InStep crates streamId normalizeHttpOrigin slot
      (.uploadSegment sequence query bytes now io)) :
    slot.Records normalizeHttpOrigin streamId
      ((uploadLiveSegment crates streamId formatSeconds sequence query bytes now io).run slot).2 := by
  unfold uploadLiveSegment
  refine run_ensure_bind_invariant .unchanged fun _ => ?_
  refine run_ensure_bind_invariant .unchanged fun hlength => ?_
  refine run_ensure_bind_invariant .unchanged fun hbytes => ?_
  refine records_getLive_bind fun stream hmemory => ?_
  refine run_ensure_bind_invariant .unchanged fun hopen => ?_
  refine run_ensure_bind_invariant .unchanged fun _ => ?_
  refine run_ensure_bind_invariant .unchanged fun hwrites => ?_
  obtain ⟨result, objects, hrun, hresult⟩ := @putLiveObject_run crates streamId slot
    (segmentUri sequence) bytes io.object
  rw [run_bind, hrun]
  cases result with
  | error error => exact .unchanged
  | ok =>
  dsimp only
  have hmemory' : ({ slot with objects } : LiveSlot).memory = some stream := hmemory
  rcases pushSegment_run hmemory' (LiveSection.segmentOf sequence query) with
    ⟨error, hpush⟩ | ⟨playlist, hpush, hsegment, hvalid⟩
  · unfold LiveSection.segmentOf at hpush
    rw [run_bind, hpush]
    exact .unchanged
  obtain ⟨hnext, hobject, hclock, hstores⟩ := hstep stream hmemory
    ⟨hlength, hbytes, hopen, hwrites, hresult.mp rfl, hsegment⟩
  have horder := (hsynced.accepted_iff hmemory).2.2
  unfold LiveSection.segmentOf at hpush
  rw [run_bind, hpush]
  refine records_nextRevision_bind hnext ?_ ?_
  · rfl
  refine records_playlist_bind hsynced hmemory hnext ?_ ?_ ?_ ?_ hobject hstores objects
  · rfl
  · rfl
  · exact hclock
  · exact ⟨hvalid horder.playlist, horder.finished, horder.deleted, horder.purged, horder.endpoint,
      horder.active, horder.paired, horder.bindings, horder.spec⟩

/-- A stream whose bridge is stopped. -/
theorem inOrder_stopped (hmemory : slot.memory = some stream) {bindings : List RecordingBinding}
    (hbindings : bindings = [] ∨ bindings = stream.recordingBindings) :
    ({ stream with workerActive := false, recordingBindings := bindings } : LiveStream).InOrder
      normalizeHttpOrigin := by
  have horder := (hsynced.accepted_iff hmemory).2.2
  have haccepted : areBindings bindings = true := by
    rcases hbindings with rfl | rfl
    · rfl
    · exact horder.bindings
  exact ⟨horder.playlist, horder.finished, horder.deleted, horder.purged, horder.endpoint, .inl rfl,
    horder.paired, haccepted, horder.spec⟩

theorem records_finishLive (io : FinishIo)
    (hstep : LiveSection.InStep crates streamId normalizeHttpOrigin slot (.finish io)) :
    slot.Records normalizeHttpOrigin streamId
      ((finishLive crates streamId formatSeconds io).run slot).2 := by
  unfold finishLive
  refine run_ensure_bind_invariant .unchanged fun _ => ?_
  cases hmemory : slot.memory with
  | none =>
    unfold stopLiveRtpBridge
    rw [run_bind, run_bind, getLive_run_none hmemory]
    exact .unchanged
  | some stream =>
  rcases stopLiveRtpBridge_run hmemory io.stopped with
    ⟨error, -, hstop⟩ | ⟨bindings, hstops, hstop, hbindings⟩
  · rw [run_bind, hstop]
    exact .unchanged
  obtain ⟨hnext, hobject, hclock, hstores⟩ := hstep stream hmemory hstops
  have horder := inOrder_stopped hsynced hmemory hbindings
  rw [run_bind, hstop]
  dsimp only
  rw [getLive_bind rfl]
  unfold setLive
  rw [run_modify_bind]
  refine records_nextRevision_bind hnext ?_ ?_
  · rfl
  refine records_playlist_bind hsynced hmemory hnext ?_ ?_ ?_ ?_ hobject hstores slot.objects
  · rfl
  · rfl
  · exact hclock
  · exact horder.finish (stream.revision + 1) io.now hclock

theorem records_startDeleteLive (io : DeleteIo)
    (hstep : LiveSection.InStep crates streamId normalizeHttpOrigin slot (.startDelete io)) :
    slot.Records normalizeHttpOrigin streamId ((startDeleteLive io).run slot).2 := by
  unfold startDeleteLive
  refine records_getLive_bind fun stream hmemory => ?_
  by_cases hpurged : stream.purgedAtMillis.isSome = true
  · rw [if_pos hpurged]
    exact .unchanged
  rw [if_neg hpurged]
  by_cases hdeleted : stream.deletedAtMillis.isSome = true
  · rw [if_pos hdeleted]
    exact .unchanged
  rw [if_neg hdeleted]
  rcases stopLiveRtpBridge_run hmemory io.stopped with
    ⟨error, -, hstop⟩ | ⟨bindings, hstops, hstop, hbindings⟩
  · rw [run_bind, hstop]
    exact .unchanged
  rw [Option.not_isSome_iff_eq_none, ← Option.isNone_iff_eq_none] at hpurged hdeleted
  obtain ⟨hnext, hfinished, hclock, hstores⟩ := hstep stream hmemory ⟨hpurged, hdeleted, hstops⟩
  have horder := (inOrder_stopped hsynced hmemory hbindings).withDeletion hfinished hclock
  rw [run_bind, hstop]
  dsimp only
  rw [getLive_bind rfl]
  unfold setLive
  rw [run_modify_bind]
  refine records_nextRevision_bind hnext ?_ ?_
  · rfl
  rw [state_run_bind_pure]
  refine records_persistLiveStream hsynced hmemory hnext ?_ ?_ ?_ hstores slot.objects
  · rfl
  · exact hclock
  · exact ⟨horder.playlist, horder.finished, horder.deleted, horder.purged, horder.endpoint,
      horder.active, horder.paired, horder.bindings, horder.spec⟩

theorem records_finishDeleteLive (now : UInt64) (io : PersistIo)
    (hstep : LiveSection.InStep crates streamId normalizeHttpOrigin slot (.finishDelete now io)) :
    slot.Records normalizeHttpOrigin streamId ((finishDeleteLive now io).run slot).2 := by
  unfold finishDeleteLive
  refine records_getLive_bind fun stream hmemory => ?_
  by_cases hpurged : stream.purgedAtMillis.isNone = true
  swap
  · rw [if_neg hpurged]
    exact .unchanged
  obtain ⟨hnext, hclock, hstores⟩ := hstep stream hmemory hpurged
  have horder := (hsynced.accepted_iff hmemory).2.2
  unfold setLive
  rw [if_pos hpurged, run_modify_bind]
  refine records_nextRevision_bind hnext ?_ ?_
  · rfl
  refine records_persistLiveStream hsynced hmemory hnext ?_ ?_ ?_ hstores slot.objects
  · rfl
  · exact hclock
  · exact ⟨horder.playlist, horder.finished, horder.deleted, decide_eq_true hclock, horder.endpoint,
      horder.active, horder.paired, horder.bindings, horder.spec⟩

theorem records_restartLiveJob (io : RestartIo)
    (hstep : LiveSection.InStep crates streamId normalizeHttpOrigin slot (.restart io)) :
    slot.Records normalizeHttpOrigin streamId ((restartLiveJob io).run slot).2 := by
  unfold restartLiveJob
  refine records_getLive_bind fun stream hmemory => ?_
  refine run_ensure_bind_invariant .unchanged fun hactive => ?_
  rw [run_ofOption_bind]
  cases hspec : stream.jobSpec with
  | none => exact .unchanged
  | some spec =>
  refine run_ofExcept_bind_invariant .unchanged fun placement hplacement => ?_
  refine run_ofExcept_bind_invariant .unchanged fun bridge hbridge => ?_
  obtain ⟨hnext, hnormal, hclock, hstores⟩ := hstep stream hmemory
    ⟨hactive, spec, placement, bridge, hspec, hplacement, hbridge⟩
  obtain ⟨jobId, bindings⟩ := bridge
  have horder := (hsynced.accepted_iff hmemory).2.2
  dsimp only
  unfold recordLiveFailover setLive
  rw [getLive_bind hmemory, run_ensure_bind, if_pos hactive, run_modify_bind]
  refine records_nextRevision_bind hnext ?_ ?_
  · rfl
  refine records_persistLiveStream hsynced hmemory hnext ?_ ?_ ?_ hstores slot.objects
  · rfl
  · exact hclock
  · exact ⟨horder.playlist, horder.finished, horder.deleted, horder.purged,
      normalizeWorkerEndpoint_of_isNormal (hnormal placement hplacement), .inr ⟨rfl, rfl, rfl⟩, rfl,
      (bindings_of_startLiveRtpBridge hbridge).1, horder.spec⟩

theorem records_createLive (request : CreateLiveRequest) (io : CreateLiveIo)
    (hstep : LiveSection.InStep crates streamId normalizeHttpOrigin slot (.create request io)) :
    slot.Records normalizeHttpOrigin streamId
      ((createLive crates streamId formatSeconds request io).run slot).2 := by
  unfold createLive
  refine run_ensure_bind_invariant .unchanged fun hidentifier => ?_
  refine run_ofExcept_bind_invariant .unchanged fun _ hvalid => ?_
  refine run_ofExcept_bind_invariant .unchanged fun playlist hplaylist => ?_
  rw [run_get_bind]
  refine run_ensure_bind_invariant .unchanged fun hmemory => ?_
  refine run_ensure_bind_invariant .unchanged fun _ => ?_
  refine run_ofExcept_bind_invariant .unchanged fun worker hworker => ?_
  rw [Option.isNone_iff_eq_none] at hmemory
  have hplaylist' : LivePlaylist.new "init.mp4" request.windowSegments request.firstSequence =
      .ok playlist := by
    cases hnew : LivePlaylist.new "init.mp4" request.windowSegments request.firstSequence with
    | error error =>
      rw [hnew] at hplaylist
      cases hplaylist
    | ok created =>
      rw [hnew] at hplaylist
      cases hplaylist
      rfl
  have horder := inOrder_newStream hvalid hplaylist' hworker hstep io.now
  dsimp only
  obtain ⟨result, objects, hrun, -⟩ := @persistLivePlaylistObject_run crates streamId formatSeconds
    slot (newStream playlist worker io.now) io.object
  rw [run_bind, hrun]
  cases result with
  | error error => exact .unchanged
  | ok =>
  have hfresh : ∀ snapshot ∈ ({ slot with objects } : LiveSlot).snapshots,
      snapshot.revision.toNat < (newStream playlist worker io.now).revision.toNat := by
    dsimp only
    rw [hsynced.fresh hmemory]
    exact fun _ h => absurd h List.not_mem_nil
  dsimp only
  rw [run_bind, persistLiveStream_run hfresh]
  split_ifs with hstores
  · refine .stored (newStream playlist worker io.now) (2 + io.persist.kept) (by omega) ?_ ?_
    · refine validateLoadedLive_eq_self_iff.mpr ⟨⟨?_, hidentifier⟩, ?_, horder⟩
      · exact (by decide : (1 : UInt64) ≠ 0)
      · exact UInt64.le_refl _
    · exact fun record hrecord => absurd (hmemory.symm.trans hrecord) nofun
  · exact .unchanged

theorem records_section (part : LiveSection)
    (hstep : part.InStep crates streamId normalizeHttpOrigin slot) :
    slot.Records normalizeHttpOrigin streamId
      ((part.run crates formatSeconds streamId).run slot).2 := by
  cases part with
  | create request io => exact records_createLive hsynced request io hstep
  | uploadInit bytes now io => exact records_uploadLiveInit hsynced bytes now io hstep
  | uploadSegment sequence query bytes now io =>
    exact records_uploadLiveSegment hsynced sequence query bytes now io hstep
  | finish io => exact records_finishLive hsynced io hstep
  | startDelete io =>
    have hrecords := records_startDeleteLive hsynced io hstep
    unfold LiveSection.run
    dsimp only
    rw [state_run_bind_pure]
    exact hrecords
  | finishDelete now io => exact records_finishDeleteLive hsynced now io hstep
  | restart io => exact records_restartLiveJob hsynced io hstep

end

end

end LiveSlot

end Fluvora.MediaGateway
