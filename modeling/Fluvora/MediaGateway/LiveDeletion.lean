import Fluvora.Lib.Runs
import Fluvora.MediaGateway.LiveSections
import Fluvora.MediaStore.Synchronisation

/-!
# The deletion of a live stream

One live stream with any number of publishers and of calls of `delete_live_storage`, next to the other
handlers.  A publisher asks under the lock whether the stream is deleted, and synchronises without it,
one operation of the object store at a time.  What the object store lists and what the publisher finds
on the local disk are inputs.

`each_final_iff` tells when nothing is created under the prefix of the stream any more once a deletion
has returned.
-/

namespace Fluvora.MediaGateway

open ApiServer (ApiError)
open Domain Fallible MediaPipeline
open MediaStore (Crates Directory Listing Objects PublishLimits PutOutcome SyncIo SyncRun Uploads)
open MediaStore (joined)

/-- A publisher that has found the stream not deleted goes on to a synchronisation. -/
inductive Publisher
  | idle
  | checked
  | syncing (run : SyncRun)

/-- What is left to do of a deletion whose first section has succeeded. -/
inductive DeletionStage
  | listing
  | removing (keys : List String)
  | cleaned

/-- What the object store answers to the removal of an object. -/
inductive RemoveOutcome
  | removed
  | notFound
  | failed
deriving DecidableEq

/-- `returned` tells whether a deletion has returned without an error. -/
structure LiveSystem where
  slot : LiveSlot
  publishers : ℕ → Publisher
  deletions : ℕ → Option DeletionStage
  returned : Bool

inductive LiveAction
  | handle (part : LiveSection)
  | startDelete (id : ℕ) (io : DeleteIo)
  | list (id : ℕ) (keys : Option (List String))
  | remove (id : ℕ) (outcome : RemoveOutcome)
  | clean (id : ℕ) (succeeds : Bool)
  | finishDelete (id : ℕ) (now : UInt64) (io : PersistIo)
  | check (id : ℕ)
  | startSync (id : ℕ) (listing : Except MediaStore.StoreError Listing)
  | advanceSync (id : ℕ) (files : Directory) (io : SyncIo)

/-- The sections of a deletion are steps of a call of their own. -/
def LiveSection.isDeletion : LiveSection → Bool
  | .startDelete _ | .finishDelete _ _ => true
  | _ => false

def liveLimits : PublishLimits := ⟨1024, 64 * 1024 * 1024, 8 * 1024 * 1024 * 1024⟩

namespace LiveSystem

variable (crates : Crates) (formatSeconds : ℕ → String) (streamId : String)

/-- Before the stream is created. -/
def new (objects : Objects) : LiveSystem :=
  ⟨⟨none, [], objects⟩, fun _ => .idle, fun _ => none, false⟩

def livePrefix : String := "live/" ++ streamId

def withDeletion (system : LiveSystem) (id : ℕ) (stage : Option DeletionStage) : LiveSystem :=
  { system with deletions := Function.update system.deletions id stage }

def withPublisher (system : LiveSystem) (id : ℕ) (publisher : Publisher) : LiveSystem :=
  { system with publishers := Function.update system.publishers id publisher }

def withoutObject (system : LiveSystem) (key : String) : LiveSystem :=
  { system with slot := { system.slot with objects := Function.update system.slot.objects key none } }

/-- The stream is there and not deleted. -/
def isPublished (system : LiveSystem) : Bool :=
  system.slot.memory.any fun stream => stream.deletedAtMillis.isNone

def stepDelete (system : LiveSystem) (id : ℕ) (io : DeleteIo) : LiveSystem :=
  match (startDeleteLive io).run system.slot with
  | (.error _, slot) => { system with slot }
  | (.ok false, slot) => { system with slot, returned := true }
  | (.ok true, slot) => withDeletion { system with slot } id (some .listing)

/-- An object that is gone already ends the removal without an error. -/
def stepRemove (system : LiveSystem) (id : ℕ) (key : String) (keys : List String) :
    RemoveOutcome → LiveSystem
  | .removed => (system.withoutObject key).withDeletion id (some (.removing keys))
  | .notFound => system.withDeletion id (some (.removing []))
  | .failed => system.withDeletion id none

def stepFinishDelete (system : LiveSystem) (id : ℕ) (now : UInt64) (io : PersistIo) : LiveSystem :=
  match (finishDeleteLive now io).run system.slot with
  | (.error _, slot) => withDeletion { system with slot } id none
  | (.ok (), slot) => withDeletion { system with slot, returned := true } id none

def stepSync (system : LiveSystem) (id : ℕ) (files : Directory) (io : SyncIo) (run : SyncRun) :
    LiveSystem :=
  match run.pending with
  | [] => system.withPublisher id .idle
  | key :: rest =>
      let (result, objects) :=
        (MediaStore.advance crates (livePrefix streamId) files key rest run io).run system.slot.objects
      withPublisher { system with slot := { system.slot with objects } } id
        (match result with
        | .ok next => .syncing next
        | .error _ => .idle)

def step (system : LiveSystem) : LiveAction → LiveSystem
  | .handle part =>
      if part.isDeletion then system
      else { system with slot := ((part.run crates formatSeconds streamId).run system.slot).2 }
  | .startDelete id io =>
      match system.deletions id with
      | none => system.stepDelete id io
      | some _ => system
  | .list id keys =>
      match system.deletions id with
      | some .listing => system.withDeletion id (keys.map .removing)
      | _ => system
  | .remove id outcome =>
      match system.deletions id with
      | some (.removing (key :: keys)) => system.stepRemove id key keys outcome
      | _ => system
  | .clean id succeeds =>
      match system.deletions id with
      | some (.removing []) => system.withDeletion id (if succeeds then some .cleaned else none)
      | _ => system
  | .finishDelete id now io =>
      match system.deletions id with
      | some .cleaned => system.stepFinishDelete id now io
      | _ => system
  | .check id =>
      match system.publishers id with
      | .idle => if system.isPublished then system.withPublisher id .checked else system
      | _ => system
  | .startSync id listing =>
      match system.publishers id with
      | .checked => system.withPublisher id
          (match MediaStore.beginSync listing liveLimits with
          | .ok run => .syncing run
          | .error _ => .idle)
      | _ => system
  | .advanceSync id files io =>
      match system.publishers id with
      | .syncing run => system.stepSync crates streamId id files io run
      | _ => system

/-- Once a deletion has returned, a step creates no object. -/
def Final (system : LiveSystem) (action : LiveAction) : Prop :=
  system.returned = true → ∀ key, system.slot.objects key = none →
    (system.step crates formatSeconds streamId action).slot.objects key = none

/-- `finish_live` gets as far as to store the playlist, and what it stores is applied. -/
def StoresFinished (stream : LiveStream) (io : FinishIo) : Prop :=
  isIdentifier streamId = true ∧ LiveSection.Stops stream io.stopped ∧ LiveSection.HasNext stream ∧
    stream.workerJobId = none ∧
    MediaStore.parseKey crates (liveKey streamId "index.m3u8") = .ok () ∧
    io.object.outcome ≠ .failed false

/-- Once a deletion has returned, the stream is not finished again so that its playlist is stored, and
no publisher is still about to store what it has read, unless the object is there. -/
def InStep (system : LiveSystem) : LiveAction → Prop
  | .handle (.finish io) => system.returned = true → ∀ stream, system.slot.memory = some stream →
      StoresFinished crates streamId stream io →
        (system.slot.objects (liveKey streamId "index.m3u8")).isSome
  | .advanceSync id _ io => system.returned = true → ∀ run key rest contents,
      system.publishers id = .syncing run → run.pending = key :: rest → Uploads run io contents →
        (system.slot.objects (joined (livePrefix streamId) key)).isSome
  | _ => True

end LiveSystem

/-! ## Whether a stream is deleted -/

namespace LiveSlot

/-- Whether the stream is deleted, and whether it is purged. -/
def deletion (slot : LiveSlot) : Option (Bool × Bool) :=
  slot.memory.map fun stream => (stream.deletedAtMillis.isSome, stream.purgedAtMillis.isSome)

def Keeps (before after : LiveSlot) : Prop := after.deletion = before.deletion

section

variable {crates : Crates} {streamId : String} {formatSeconds : ℕ → String} {slot : LiveSlot}
  {stream : LiveStream}

theorem deletion_of_memory (hmemory : slot.memory = some stream) : slot.deletion =
    some (stream.deletedAtMillis.isSome, stream.purgedAtMillis.isSome) := by
  unfold deletion
  rw [hmemory]
  rfl

theorem deletion_persistLiveStream (slot : LiveSlot) (stream : LiveStream) (io : PersistIo) :
    ((persistLiveStream stream io).run slot).2.deletion = slot.deletion := by
  unfold persistLiveStream
  rw [run_get_bind]
  split
  · rw [run_ensure]
  · rw [run_ensure_bind]
    split_ifs <;> rfl

theorem deletion_persistLivePlaylistObject (slot : LiveSlot) (stream : LiveStream) (io : PutIo) :
    ((persistLivePlaylistObject crates streamId formatSeconds stream io).run slot).2.deletion =
      slot.deletion := by
  obtain ⟨result, objects, hrun, -⟩ := @persistLivePlaylistObject_run crates streamId formatSeconds
    slot stream io
  rw [hrun]
  rfl

/-- The next revision of a record, stored with or without its playlist. -/
theorem deletion_nextRevision_bind {α : Type} (hmemory : slot.memory = some stream)
    {change : LiveStream → LiveStream} (hchange : ∀ other,
      (change other).deletedAtMillis = other.deletedAtMillis ∧
      (change other).purgedAtMillis = other.purgedAtMillis)
    {f : LiveStream → Fallible LiveSlot ApiError α}
    (hf : ∀ next slot', ((f next).run slot').2.deletion = slot'.deletion) :
    ((nextRevision change >>= f).run slot).2.deletion = slot.deletion := by
  rw [nextRevision_bind hmemory, deletion_of_memory hmemory]
  split_ifs
  · rw [hf, deletion_of_memory rfl, (hchange _).1, (hchange _).2]
  · exact deletion_of_memory hmemory

theorem deletion_persist (object : PutIo) (io : PersistIo) (next : LiveStream) (slot : LiveSlot) :
    ((do
      persistLivePlaylistObject crates streamId formatSeconds next object
      persistLiveStream next io : Fallible LiveSlot ApiError Unit).run slot).2.deletion =
        slot.deletion := by
  refine run_bind_invariant (I := slot.Keeps) ?_ ?_
  · exact deletion_persistLivePlaylistObject slot next object
  · intro _ slot' _ hslot'
    exact (deletion_persistLiveStream slot' next io).trans hslot'

theorem deletion_getLive_bind {α : Type} {f : LiveStream → Fallible LiveSlot ApiError α}
    (hf : ∀ stream, slot.memory = some stream → ((f stream).run slot).2.deletion = slot.deletion) :
    ((getLive >>= f).run slot).2.deletion = slot.deletion := by
  cases hmemory : slot.memory with
  | none => rw [run_bind, getLive_run_none hmemory]
  | some stream =>
    rw [getLive_bind hmemory]
    exact hf stream hmemory

/-- Stopping the bridge does not touch the times of the stream. -/
theorem deletion_stopLiveRtpBridge (slot : LiveSlot) (stopped : Except ApiError Unit) :
    ((stopLiveRtpBridge stopped).run slot).2.deletion = slot.deletion := by
  cases hmemory : slot.memory with
  | none =>
    unfold stopLiveRtpBridge
    rw [run_bind, getLive_run_none hmemory]
  | some stream =>
    rcases stopLiveRtpBridge_run hmemory stopped with ⟨error, -, hstop⟩ | ⟨bindings, -, hstop, -⟩
    · rw [hstop]
    · rw [hstop, deletion_of_memory hmemory]
      rfl

theorem deletion_finishLive (slot : LiveSlot) (io : FinishIo) :
    ((finishLive crates streamId formatSeconds io).run slot).2.deletion = slot.deletion := by
  unfold finishLive
  refine run_ensure_bind_invariant (I := slot.Keeps) rfl fun _ => ?_
  refine run_bind_invariant (I := slot.Keeps)
    (deletion_stopLiveRtpBridge slot io.stopped) ?_
  intro _ stopped _ hstopped
  refine (deletion_getLive_bind fun stream hmemory => ?_).trans hstopped
  unfold setLive
  rw [run_modify_bind, deletion_of_memory hmemory]
  refine (deletion_nextRevision_bind rfl ?_ (deletion_persist io.object io.persist)).trans ?_
  · exact fun _ => ⟨rfl, rfl⟩
  · rfl

theorem deletion_uploadLiveInit (slot : LiveSlot) (bytes : List UInt8) (now : UInt64)
    (io : UploadIo) :
    ((uploadLiveInit crates streamId bytes now io).run slot).2.deletion = slot.deletion := by
  unfold uploadLiveInit
  refine run_ensure_bind_invariant (I := slot.Keeps) rfl fun _ => ?_
  refine run_ensure_bind_invariant (I := slot.Keeps) rfl fun _ => ?_
  refine run_ensure_bind_invariant (I := slot.Keeps) rfl fun _ => ?_
  refine deletion_getLive_bind fun stream hmemory => ?_
  refine run_ensure_bind_invariant (I := slot.Keeps) rfl fun _ => ?_
  refine run_ensure_bind_invariant (I := slot.Keeps) rfl fun _ => ?_
  obtain ⟨result, objects, hrun, -⟩ := @putLiveObject_run crates streamId slot "init.mp4" bytes
    io.object
  rw [run_bind, hrun]
  cases result with
  | error error => rfl
  | ok =>
    have hmemory' : ({ slot with objects } : LiveSlot).memory = some stream := hmemory
    refine deletion_nextRevision_bind hmemory' ?_
      fun next slot' => deletion_persistLiveStream slot' next io.persist
    exact fun _ => ⟨rfl, rfl⟩

theorem deletion_uploadLiveSegment (slot : LiveSlot) (sequence : UInt64) (query : SegmentQuery)
    (bytes : List UInt8) (now : UInt64) (io : UploadIo) :
    ((uploadLiveSegment crates streamId formatSeconds sequence query bytes now io).run
      slot).2.deletion = slot.deletion := by
  unfold uploadLiveSegment
  refine run_ensure_bind_invariant (I := slot.Keeps) rfl fun _ => ?_
  refine run_ensure_bind_invariant (I := slot.Keeps) rfl fun _ => ?_
  refine run_ensure_bind_invariant (I := slot.Keeps) rfl fun _ => ?_
  refine deletion_getLive_bind fun stream hmemory => ?_
  refine run_ensure_bind_invariant (I := slot.Keeps) rfl fun _ => ?_
  refine run_ensure_bind_invariant (I := slot.Keeps) rfl fun _ => ?_
  refine run_ensure_bind_invariant (I := slot.Keeps) rfl fun _ => ?_
  obtain ⟨result, objects, hrun, -⟩ := @putLiveObject_run crates streamId slot
    (segmentUri sequence) bytes io.object
  rw [run_bind, hrun]
  cases result with
  | error error => rfl
  | ok =>
    have hmemory' : ({ slot with objects } : LiveSlot).memory = some stream := hmemory
    dsimp only
    rw [run_bind]
    rcases pushSegment_run hmemory' (LiveSection.segmentOf sequence query) with
      ⟨error, hpush⟩ | ⟨playlist, hpush, -⟩ <;> unfold LiveSection.segmentOf at hpush <;> rw [hpush]
    · rfl
    · unfold Keeps
      rw [deletion_of_memory hmemory]
      refine (deletion_nextRevision_bind rfl ?_ (deletion_persist io.playlist io.persist)).trans ?_
      · exact fun _ => ⟨rfl, rfl⟩
      · rfl

theorem deletion_restartLiveJob (slot : LiveSlot) (io : RestartIo) :
    ((restartLiveJob io).run slot).2.deletion = slot.deletion := by
  unfold restartLiveJob
  refine deletion_getLive_bind fun stream hmemory => ?_
  refine run_ensure_bind_invariant (I := slot.Keeps) rfl fun hactive => ?_
  rw [run_ofOption_bind]
  cases stream.jobSpec with
  | none => rfl
  | some spec =>
  refine run_ofExcept_bind_invariant (I := slot.Keeps) rfl fun placement _ => ?_
  refine run_ofExcept_bind_invariant (I := slot.Keeps) rfl fun bridge _ => ?_
  obtain ⟨jobId, bindings⟩ := bridge
  dsimp only
  unfold recordLiveFailover setLive
  rw [getLive_bind hmemory, run_ensure_bind, if_pos hactive, run_modify_bind]
  unfold Keeps
  rw [deletion_of_memory hmemory]
  refine (deletion_nextRevision_bind rfl ?_
    fun next slot' => deletion_persistLiveStream slot' next io.persist).trans ?_
  · exact fun _ => ⟨rfl, rfl⟩
  · rfl

/-! ### Creation and deletion -/

/-- A stream that is there is not created again. -/
theorem createLive_of_memory (hmemory : slot.memory = some stream) (request : CreateLiveRequest)
    (io : CreateLiveIo) :
    ((createLive crates streamId formatSeconds request io).run slot).2 = slot := by
  unfold createLive
  refine run_ensure_bind_invariant (I := (· = slot)) rfl fun _ => ?_
  refine run_ofExcept_bind_invariant (I := (· = slot)) rfl fun _ _ => ?_
  refine run_ofExcept_bind_invariant (I := (· = slot)) rfl fun _ _ => ?_
  rw [run_get_bind]
  refine run_ensure_bind_invariant (I := (· = slot)) rfl fun hnone => ?_
  rw [hmemory] at hnone
  cases hnone

/-- There is no stream, or one that is neither deleted nor purged. -/
def IsNew (slot : LiveSlot) : Prop := ∀ flags, slot.deletion = some flags → flags = (false, false)

theorem isNew_createLive (hmemory : slot.memory = none) (request : CreateLiveRequest)
    (io : CreateLiveIo) :
    ((createLive crates streamId formatSeconds request io).run slot).2.IsNew := by
  have hbefore : slot.IsNew := by
    unfold IsNew deletion
    rw [hmemory]
    exact nofun
  unfold createLive
  refine run_ensure_bind_invariant (I := IsNew) hbefore fun _ => ?_
  refine run_ofExcept_bind_invariant (I := IsNew) hbefore fun _ _ => ?_
  refine run_ofExcept_bind_invariant (I := IsNew) hbefore fun playlist _ => ?_
  rw [run_get_bind]
  refine run_ensure_bind_invariant (I := IsNew) hbefore fun _ => ?_
  refine run_ensure_bind_invariant (I := IsNew) hbefore fun _ => ?_
  refine run_ofExcept_bind_invariant (I := IsNew) hbefore fun worker _ => ?_
  dsimp only
  refine run_bind_invariant (I := IsNew) ?_ fun _ _ _ hobject => ?_
  · unfold IsNew
    rw [deletion_persistLivePlaylistObject]
    exact hbefore
  refine run_bind_invariant (I := IsNew) ?_ fun _ _ _ _ => ?_
  · unfold IsNew
    rw [deletion_persistLiveStream]
    exact hobject
  · rintro flags ⟨⟩
    rfl

/-- The stream is there and deleted. -/
def IsDeleted (slot : LiveSlot) : Prop := ∃ purged, slot.deletion = some (true, purged)

/-- The first section of a deletion fails and may have deleted the stream all the same, or it finds it
purged, or it is deleted and the handler goes on. -/
inductive StartsDeletion (slot : LiveSlot) : Except ApiError Bool × LiveSlot → Prop
  | failed (error : ApiError) (after : LiveSlot) (hobjects : after.objects = slot.objects)
      (hdeletion : after.deletion = slot.deletion ∨ after.deletion = some (true, false)) :
      StartsDeletion slot (.error error, after)
  | finished (deleted : Bool) (hpurged : slot.deletion = some (deleted, true)) :
      StartsDeletion slot (.ok false, slot)
  | deleted (after : LiveSlot) (hobjects : after.objects = slot.objects)
      (hdeletion : after.deletion = some (true, false)) : StartsDeletion slot (.ok true, after)

theorem objects_persistLiveStream (slot : LiveSlot) (stream : LiveStream) (io : PersistIo) :
    ((persistLiveStream stream io).run slot).2.objects = slot.objects := by
  unfold persistLiveStream
  rw [run_get_bind]
  split
  · rw [run_ensure]
  · rw [run_ensure_bind]
    split_ifs <;> rfl

/-- The stream is deleted in memory, whether that can be stored or not. -/
theorem startsDeletion_persist {before : LiveSlot} (hobjects : slot.objects = before.objects)
    (hdeletion : slot.deletion = some (true, false)) (stream : LiveStream) (io : PersistIo) :
    StartsDeletion before
      ((do persistLiveStream stream io; return true : Fallible LiveSlot ApiError Bool).run slot) := by
  have hafter := (deletion_persistLiveStream slot stream io).trans hdeletion
  have hafterObjects := (objects_persistLiveStream slot stream io).trans hobjects
  rw [run_bind]
  generalize (persistLiveStream stream io).run slot = run at hafter hafterObjects
  obtain ⟨result, after⟩ := run
  cases result with
  | error error => exact .failed error after hafterObjects (.inr hafter)
  | ok => exact .deleted after hafterObjects hafter

theorem startDeleteLive_run (slot : LiveSlot) (io : DeleteIo) :
    StartsDeletion slot ((startDeleteLive io).run slot) := by
  unfold startDeleteLive
  cases hmemory : slot.memory with
  | none =>
    rw [run_bind, getLive_run_none hmemory]
    exact .failed _ slot rfl (.inl rfl)
  | some stream =>
  have hdeletion := deletion_of_memory hmemory
  rw [getLive_bind hmemory]
  by_cases hpurged : stream.purgedAtMillis.isSome = true
  · rw [if_pos hpurged]
    rw [hpurged] at hdeletion
    exact .finished _ hdeletion
  rw [if_neg hpurged]
  rw [Bool.not_eq_true] at hpurged
  rw [hpurged] at hdeletion
  by_cases hdeleted : stream.deletedAtMillis.isSome = true
  · rw [if_pos hdeleted]
    rw [hdeleted] at hdeletion
    exact .deleted slot rfl hdeletion
  rw [if_neg hdeleted]
  rcases stopLiveRtpBridge_run hmemory io.stopped with
    ⟨error, -, hstop⟩ | ⟨bindings, -, hstop, -⟩
  · rw [run_bind, hstop]
    exact .failed error slot rfl (.inl rfl)
  rw [run_bind, hstop]
  dsimp only
  rw [getLive_bind rfl]
  unfold setLive
  rw [run_modify_bind, nextRevision_bind rfl]
  have hwithDeletion : some ((({ stream with
        workerActive := false, recordingBindings := bindings } : LiveStream).withDeletion io.finished
          io.now).deletedAtMillis.isSome, stream.purgedAtMillis.isSome) = some (true, false) := by
    rw [hpurged]
    rfl
  split_ifs
  · refine startsDeletion_persist ?_ ?_ _ io.persist
    · rfl
    · exact hwithDeletion
  · exact .failed _ _ rfl (.inr hwithDeletion)

/-- The second section of a deletion purges the stream in memory, unless it is purged already. -/
theorem finishDeleteLive_run (slot : LiveSlot) (now : UInt64) (io : PersistIo) :
    ((finishDeleteLive now io).run slot).2.objects = slot.objects ∧
      (((finishDeleteLive now io).run slot).2.deletion = slot.deletion ∨
        ∃ deleted, slot.deletion = some (deleted, false) ∧
          ((finishDeleteLive now io).run slot).2.deletion = some (deleted, true)) := by
  unfold finishDeleteLive
  cases hmemory : slot.memory with
  | none =>
    rw [run_bind, getLive_run_none hmemory]
    exact ⟨rfl, .inl rfl⟩
  | some stream =>
  have hdeletion := deletion_of_memory hmemory
  rw [getLive_bind hmemory]
  cases hpurged : stream.purgedAtMillis with
  | some time => exact ⟨rfl, .inl rfl⟩
  | none =>
  rw [hpurged] at hdeletion
  unfold setLive
  rw [Option.isNone_none, if_pos rfl, run_modify_bind, nextRevision_bind rfl]
  split_ifs
  · rw [objects_persistLiveStream, deletion_persistLiveStream]
    exact ⟨rfl, .inr ⟨_, hdeletion, rfl⟩⟩
  · exact ⟨rfl, .inr ⟨_, hdeletion, rfl⟩⟩

/-! ### What is left of the handlers once the stream is deleted -/

theorem IsDeleted.exists_stream (h : slot.IsDeleted) :
    ∃ stream, slot.memory = some stream ∧ stream.deletedAtMillis.isSome = true := by
  obtain ⟨purged, hdeletion⟩ := h
  obtain ⟨stream, hmemory, hflags⟩ := Option.map_eq_some_iff.mp hdeletion
  exact ⟨stream, hmemory, (Prod.mk.inj hflags).1⟩

theorem run_of_isDeleted (h : slot.IsDeleted) (part : LiveSection) (hdeletion : part.isDeletion = false)
    (hfinish : ∀ io, part ≠ .finish io) :
    ((part.run crates formatSeconds streamId).run slot).2 = slot := by
  obtain ⟨stream, hmemory, hdeleted⟩ := h.exists_stream
  have hnone : ¬ stream.deletedAtMillis.isNone = true := by
    intro hnone
    rw [Option.isNone_iff_eq_none] at hnone
    rw [hnone] at hdeleted
    cases hdeleted
  cases part with
  | create request io => exact createLive_of_memory hmemory request io
  | uploadInit bytes now io =>
    unfold LiveSection.run
    dsimp only
    unfold uploadLiveInit
    refine run_ensure_bind_invariant (I := (· = slot)) rfl fun _ => ?_
    refine run_ensure_bind_invariant (I := (· = slot)) rfl fun _ => ?_
    refine run_ensure_bind_invariant (I := (· = slot)) rfl fun _ => ?_
    rw [getLive_bind hmemory]
    exact run_ensure_bind_invariant (I := (· = slot)) rfl fun hopen => absurd hopen.2 hnone
  | uploadSegment sequence query bytes now io =>
    unfold LiveSection.run
    dsimp only
    unfold uploadLiveSegment
    refine run_ensure_bind_invariant (I := (· = slot)) rfl fun _ => ?_
    refine run_ensure_bind_invariant (I := (· = slot)) rfl fun _ => ?_
    refine run_ensure_bind_invariant (I := (· = slot)) rfl fun _ => ?_
    rw [getLive_bind hmemory]
    exact run_ensure_bind_invariant (I := (· = slot)) rfl fun hopen => absurd hopen.2 hnone
  | finish io => exact absurd rfl (hfinish io)
  | startDelete io => cases hdeletion
  | finishDelete now io => cases hdeletion
  | restart io =>
    unfold LiveSection.run
    dsimp only
    unfold restartLiveJob
    rw [getLive_bind hmemory]
    refine run_ensure_bind_invariant (I := (· = slot)) rfl fun hactive => ?_
    unfold LiveStream.isActive at hactive
    rw [Bool.and_eq_true] at hactive
    exact absurd hactive.2 hnone

theorem deletion_run (part : LiveSection) (hdeletion : part.isDeletion = false)
    (hcreate : ∀ request io, part ≠ .create request io) :
    ((part.run crates formatSeconds streamId).run slot).2.deletion = slot.deletion := by
  cases part with
  | create request io => exact absurd rfl (hcreate request io)
  | uploadInit bytes now io => exact deletion_uploadLiveInit slot bytes now io
  | uploadSegment sequence query bytes now io =>
    exact deletion_uploadLiveSegment slot sequence query bytes now io
  | finish io => exact deletion_finishLive slot io
  | startDelete io => cases hdeletion
  | finishDelete now io => cases hdeletion
  | restart io => exact deletion_restartLiveJob slot io

/-- What an upload leaves in the object store, whether it succeeds or not. -/
theorem objects_putLiveObject (slot : LiveSlot) (name : String) (bytes : List UInt8) (io : PutIo) :
    ((putLiveObject crates streamId name bytes io).run slot).2.objects =
      if MediaStore.parseKey crates (liveKey streamId name) = .ok () ∧ io.outcome ≠ .failed false then
        Function.update slot.objects (liveKey streamId name) (some bytes)
      else slot.objects := by
  unfold putLiveObject
  rw [run_get_bind]
  change ((MediaStore.put crates (liveKey streamId name) bytes io.outcome io.answers).run
    slot.objects).2 = _
  unfold MediaStore.put
  rw [run_ofExcept_bind]
  cases hkey : MediaStore.parseKey crates (liveKey streamId name) with
  | error error => rw [if_neg fun h => nomatch h.1]
  | ok =>
    dsimp only
    cases houtcome : io.outcome with
    | failed applied =>
      cases applied with
      | true =>
        rw [if_pos ⟨rfl, by simp⟩]
        rfl
      | false =>
        rw [if_neg fun h => h.2 rfl]
        rfl
    | stored =>
      obtain ⟨result, hrun, -⟩ := @MediaStore.verify_run crates
        (Function.update slot.objects (liveKey streamId name) (some bytes)) (liveKey streamId name)
        bytes.length io.answers
      rw [if_pos ⟨rfl, by simp⟩]
      exact congrArg Prod.snd hrun

theorem objects_persist (slot : LiveSlot) (next : LiveStream) (object : PutIo) (io : PersistIo) :
    ((do
      persistLivePlaylistObject crates streamId formatSeconds next object
      persistLiveStream next io : Fallible LiveSlot ApiError Unit).run slot).2.objects =
        ((persistLivePlaylistObject crates streamId formatSeconds next object).run slot).2.objects := by
  refine run_bind_invariant (I := fun slot' : LiveSlot => slot'.objects =
    ((persistLivePlaylistObject crates streamId formatSeconds next object).run slot).2.objects) rfl ?_
  intro _ slot' _ hslot'
  exact (objects_persistLiveStream slot' next io).trans hslot'

/-- What `finish_live` leaves in the object store. -/
theorem objects_finishLive (hmemory : slot.memory = some stream) (io : FinishIo) :
    (LiveSystem.StoresFinished crates streamId stream io → ∃ bytes,
        ((finishLive crates streamId formatSeconds io).run slot).2.objects =
          Function.update slot.objects (liveKey streamId "index.m3u8") (some bytes)) ∧
      (¬ LiveSystem.StoresFinished crates streamId stream io →
        ((finishLive crates streamId formatSeconds io).run slot).2.objects = slot.objects) := by
  unfold finishLive
  rw [run_ensure_bind]
  by_cases hidentifier : isIdentifier streamId = true
  swap
  · rw [if_neg hidentifier]
    exact ⟨fun h => absurd h.1 hidentifier, fun _ => rfl⟩
  rw [if_pos hidentifier, run_bind]
  rcases stopLiveRtpBridge_run hmemory io.stopped with
    ⟨error, hstops, hstop⟩ | ⟨bindings, hstops, hstop, -⟩
  · rw [hstop]
    exact ⟨fun h => absurd h.2.1 hstops, fun _ => rfl⟩
  rw [hstop]
  dsimp only
  rw [getLive_bind rfl]
  unfold setLive
  rw [run_modify_bind, nextRevision_bind rfl]
  by_cases hnext : stream.revision.toNat + 1 < 2 ^ 64
  swap
  · rw [if_neg hnext]
    exact ⟨fun h => absurd h.2.2.1 hnext, fun _ => rfl⟩
  rw [if_pos hnext, objects_persist]
  unfold persistLivePlaylistObject
  cases hjob : stream.workerJobId with
  | some jobId => exact ⟨fun h => absurd (hjob.symm.trans h.2.2.2.1) nofun, fun _ => rfl⟩
  | none =>
  dsimp only
  rw [Option.isSome_none, if_neg Bool.false_ne_true, objects_putLiveObject]
  split_ifs with hstores
  · exact ⟨fun _ => ⟨_, rfl⟩, fun h => absurd ⟨hidentifier, hstops, hnext, hjob, hstores⟩ h⟩
  · exact ⟨fun h => absurd h.2.2.2.2 hstores, fun _ => rfl⟩

end

end LiveSlot

/-! ## Steps of the system -/

namespace LiveSystem

/-- A deletion goes on or has returned only if the stream is deleted, and so is what is purged. -/
structure Deleted (system : LiveSystem) : Prop where
  deletions : ∀ id stage, system.deletions id = some stage → system.slot.IsDeleted
  purged : ∀ deleted, system.slot.deletion = some (deleted, true) → deleted = true
  returned : system.returned = true → system.slot.IsDeleted

section

variable {crates : Crates} {formatSeconds : ℕ → String} {streamId : String} {system : LiveSystem}

theorem deleted_new (objects : Objects) : (new objects).Deleted := ⟨nofun, nofun, nofun⟩

/-- A step that does not touch the times of the stream. -/
theorem Deleted.withSlot (h : system.Deleted) {slot : LiveSlot}
    (hslot : slot.deletion = system.slot.deletion) : Deleted { system with slot } := by
  refine ⟨fun id stage hstage => ?_, fun deleted hdeletion => ?_, fun hreturned => ?_⟩
  · obtain ⟨purged, hpurged⟩ := h.deletions id stage hstage
    exact ⟨purged, hslot.trans hpurged⟩
  · exact h.purged deleted (hslot.symm.trans hdeletion)
  · obtain ⟨purged, hpurged⟩ := h.returned hreturned
    exact ⟨purged, hslot.trans hpurged⟩

/-- A step that deletes the stream, or purges it once it is deleted. -/
theorem deleted_of_isDeleted (hdeleted : system.slot.IsDeleted) : system.Deleted := by
  refine ⟨fun _ _ _ => hdeleted, fun deleted hdeletion => ?_, fun _ => hdeleted⟩
  obtain ⟨purged, hpurged⟩ := hdeleted
  cases hpurged.symm.trans hdeletion
  rfl

theorem Deleted.withDeletion (h : system.Deleted) (id : ℕ) {stage : Option DeletionStage}
    (hstage : stage.isSome → system.slot.IsDeleted) : (system.withDeletion id stage).Deleted := by
  refine ⟨fun other next hnext => ?_, h.purged, h.returned⟩
  unfold LiveSystem.withDeletion at hnext
  dsimp only at hnext
  by_cases hother : other = id
  · rw [hother, Function.update_self] at hnext
    exact hstage (by rw [hnext]; rfl)
  · rw [Function.update_of_ne hother] at hnext
    exact h.deletions other next hnext

theorem Deleted.withPublisher (h : system.Deleted) (id : ℕ) (publisher : Publisher) :
    (system.withPublisher id publisher).Deleted := ⟨h.deletions, h.purged, h.returned⟩

theorem deleted_handle (h : system.Deleted) (part : LiveSection) :
    (system.step crates formatSeconds streamId (.handle part)).Deleted := by
  unfold step
  dsimp only
  cases hdeletion : part.isDeletion with
  | true => exact h
  | false =>
  rw [if_neg Bool.false_ne_true]
  cases part with
  | create request io =>
    cases hmemory : system.slot.memory with
    | some stream =>
      refine h.withSlot (congrArg LiveSlot.deletion ?_)
      exact LiveSlot.createLive_of_memory hmemory request io
    | none =>
      have hnone : ¬ system.slot.IsDeleted := by
        intro hdeleted
        obtain ⟨stream, hstream, -⟩ := hdeleted.exists_stream
        exact absurd (hmemory.symm.trans hstream) nofun
      have hnew := @LiveSlot.isNew_createLive crates streamId formatSeconds system.slot hmemory request
        io
      refine ⟨fun id stage hstage => absurd (h.deletions id stage hstage) hnone,
        fun deleted hpurged => ?_, fun hreturned => absurd (h.returned hreturned) hnone⟩
      cases hnew _ hpurged
  | _ => exact h.withSlot (LiveSlot.deletion_run _ hdeletion nofun)

theorem deleted_startDelete (h : system.Deleted) (id : ℕ) (io : DeleteIo) :
    (system.stepDelete id io).Deleted := by
  have hruns := LiveSlot.startDeleteLive_run system.slot io
  unfold stepDelete
  generalize (startDeleteLive io).run system.slot = run at hruns
  cases hruns with
  | failed error after hobjects hdeletion =>
    rcases hdeletion with hsame | hdeleted
    · exact h.withSlot hsame
    · exact deleted_of_isDeleted ⟨false, hdeleted⟩
  | finished deleted hpurged =>
    cases h.purged deleted hpurged
    exact deleted_of_isDeleted ⟨true, hpurged⟩
  | deleted after hobjects hdeletion => exact deleted_of_isDeleted ⟨false, hdeletion⟩

theorem deleted_finishDelete (hdeleted : system.slot.IsDeleted) (id : ℕ) (now : UInt64)
    (io : PersistIo) : (system.stepFinishDelete id now io).Deleted := by
  have hafter : ((finishDeleteLive now io).run system.slot).2.IsDeleted := by
    obtain ⟨purged, hpurged⟩ := hdeleted
    rcases (LiveSlot.finishDeleteLive_run system.slot now io).2 with hsame | ⟨deleted, hbefore, hafter⟩
    · exact ⟨purged, hsame.trans hpurged⟩
    · cases hpurged.symm.trans hbefore
      exact ⟨true, hafter⟩
  unfold stepFinishDelete
  generalize (finishDeleteLive now io).run system.slot = run at hafter
  obtain ⟨result, after⟩ := run
  cases result with
  | error error => exact deleted_of_isDeleted hafter
  | ok => exact deleted_of_isDeleted hafter

theorem deleted_step (h : system.Deleted) (action : LiveAction) :
    (system.step crates formatSeconds streamId action).Deleted := by
  cases action with
  | handle part => exact deleted_handle h part
  | startDelete id io =>
    unfold step
    dsimp only
    cases system.deletions id with
    | none => exact deleted_startDelete h id io
    | some stage => exact h
  | list id keys =>
    unfold step
    dsimp only
    split
    · next hstage => exact h.withDeletion id fun _ => h.deletions id _ hstage
    · exact h
  | remove id outcome =>
    unfold step
    dsimp only
    split
    · next key keys hstage =>
      have hdeleted := h.deletions id _ hstage
      cases outcome with
      | removed => exact deleted_of_isDeleted hdeleted
      | notFound => exact h.withDeletion id fun _ => hdeleted
      | failed => exact h.withDeletion id nofun
    · exact h
  | clean id succeeds =>
    unfold step
    dsimp only
    split
    · next hstage => exact h.withDeletion id fun _ => h.deletions id _ hstage
    · exact h
  | finishDelete id now io =>
    unfold step
    dsimp only
    split
    · next hstage => exact deleted_finishDelete (h.deletions id _ hstage) id now io
    · exact h
  | check id =>
    unfold step
    dsimp only
    split
    · split_ifs
      · exact h.withPublisher id _
      · exact h
    · exact h
  | startSync id listing =>
    unfold step
    dsimp only
    split
    · exact h.withPublisher id _
    · exact h
  | advanceSync id files io =>
    unfold step stepSync
    dsimp only
    split
    · split
      · exact h.withPublisher id _
      · exact ⟨h.deletions, h.purged, h.returned⟩
    · exact h

/-! ### What a step creates -/

theorem final_handle_iff (h : system.Deleted) (part : LiveSection) :
    system.Final crates formatSeconds streamId (.handle part) ↔
      system.InStep crates streamId (.handle part) := by
  by_cases hreturned : system.returned = true
  swap
  · refine iff_of_true (fun hyes => absurd hyes hreturned) ?_
    cases part with
    | finish io => exact fun hyes => absurd hyes hreturned
    | _ => trivial
  have hdeleted := h.returned hreturned
  by_cases hfinish : ∃ io, part = .finish io
  · obtain ⟨io, rfl⟩ := hfinish
    obtain ⟨stream, hmemory, -⟩ := hdeleted.exists_stream
    obtain ⟨hstores, hquiet⟩ := @LiveSlot.objects_finishLive crates streamId formatSeconds system.slot
      stream hmemory io
    constructor
    · intro hfinal _ stream' hstream hfinished
      cases hmemory.symm.trans hstream
      obtain ⟨bytes, hobjects⟩ := hstores hfinished
      cases hbefore : system.slot.objects (liveKey streamId "index.m3u8") with
      | some _ => rfl
      | none =>
        have hafter := hfinal hreturned _ hbefore
        change ((finishLive crates streamId formatSeconds io).run system.slot).2.objects
          (liveKey streamId "index.m3u8") = none at hafter
        rw [hobjects, Function.update_self] at hafter
        cases hafter
    · intro hstep _ key hkey
      change ((finishLive crates streamId formatSeconds io).run system.slot).2.objects key = none
      by_cases hfinished : StoresFinished crates streamId stream io
      · obtain ⟨bytes, hobjects⟩ := hstores hfinished
        have hpresent := hstep hreturned stream hmemory hfinished
        have hother : key ≠ liveKey streamId "index.m3u8" := by
          rintro rfl
          rw [hkey] at hpresent
          cases hpresent
        rw [hobjects, Function.update_of_ne hother]
        exact hkey
      · rw [hquiet hfinished]
        exact hkey
  · have hother : ∀ io, part ≠ .finish io := fun io hio => hfinish ⟨io, hio⟩
    refine iff_of_true (fun _ key hkey => ?_) ?_
    · unfold step
      dsimp only
      cases hdeletion : part.isDeletion with
      | true => exact hkey
      | false =>
        rw [if_neg Bool.false_ne_true]
        rw [LiveSlot.run_of_isDeleted hdeleted part hdeletion hother]
        exact hkey
    · cases part with
      | finish io => exact absurd rfl (hother io)
      | _ => trivial

theorem objects_stepSync {run : SyncRun} {key : String} {rest : List String}
    (hpending : run.pending = key :: rest) (id : ℕ) (files : Directory) (io : SyncIo) :
    (system.stepSync crates streamId id files io run).slot.objects =
      ((MediaStore.advance crates (livePrefix streamId) files key rest run io).run
        system.slot.objects).2 := by
  unfold stepSync
  rw [hpending]
  rfl

/-- A publisher creates an object exactly if it stores what was not there. -/
theorem objects_stepSync_iff (id : ℕ) (files : Directory) (io : SyncIo) (run : SyncRun) :
    (∀ key, system.slot.objects key = none →
        (system.stepSync crates streamId id files io run).slot.objects key = none) ↔
      ∀ key rest contents, run.pending = key :: rest → Uploads run io contents →
        (system.slot.objects (joined (livePrefix streamId) key)).isSome := by
  cases hpending : run.pending with
  | nil =>
    refine iff_of_true (fun key hkey => ?_) nofun
    unfold stepSync
    rw [hpending]
    exact hkey
  | cons key rest =>
  rw [objects_stepSync hpending]
  by_cases huploads : ∃ contents, Uploads run io contents
  · obtain ⟨contents, huploads⟩ := huploads
    obtain ⟨result, hadvance, -⟩ := @MediaStore.advance_run_of_uploads crates (livePrefix streamId)
      system.slot.objects run key rest io contents huploads files
    rw [hadvance]
    dsimp only
    constructor
    · rintro hfinal _ _ _ ⟨⟩ -
      cases hbefore : system.slot.objects (joined (livePrefix streamId) key) with
      | some _ => rfl
      | none =>
        have hafter := hfinal _ hbefore
        rw [Function.update_self] at hafter
        cases hafter
    · intro hstep other hother
      have hpresent := hstep key rest contents rfl huploads
      have hdiffers : other ≠ joined (livePrefix streamId) key := by
        rintro rfl
        rw [hother] at hpresent
        cases hpresent
      rw [Function.update_of_ne hdiffers]
      exact hother
  · have hquiet : ∀ contents, ¬ Uploads run io contents := fun contents h => huploads ⟨contents, h⟩
    have hadvances := @MediaStore.advance_run crates (livePrefix streamId) system.slot.objects run key
      rest io files hquiet
    generalize (MediaStore.advance crates (livePrefix streamId) files key rest run io).run
      system.slot.objects = after at hadvances
    refine iff_of_true ?_ fun _ _ contents _ hup => absurd hup (hquiet contents)
    cases hadvances with
    | failed error => exact fun _ hkey => hkey
    | moved stage report => exact fun _ hkey => hkey
    | finished report hpresent => exact fun _ hkey => hkey

theorem final_advanceSync_iff (id : ℕ) (files : Directory) (io : SyncIo) :
    system.Final crates formatSeconds streamId (.advanceSync id files io) ↔
      system.InStep crates streamId (.advanceSync id files io) := by
  unfold Final InStep step
  refine imp_congr_right fun _ => ?_
  dsimp only
  cases hpublisher : system.publishers id with
  | idle => exact iff_of_true (fun _ hkey => hkey) nofun
  | checked => exact iff_of_true (fun _ hkey => hkey) nofun
  | syncing run =>
    dsimp only
    rw [objects_stepSync_iff]
    constructor
    · rintro h _ key rest contents ⟨⟩
      exact h key rest contents
    · exact fun h key rest contents => h run key rest contents rfl

theorem objects_stepRemove {id : ℕ} {key : String} {keys : List String} {outcome : RemoveOutcome}
    {other : String} (hother : system.slot.objects other = none) :
    (system.stepRemove id key keys outcome).slot.objects other = none := by
  cases outcome with
  | removed =>
    change Function.update system.slot.objects key none other = none
    by_cases hsame : other = key
    · rw [hsame, Function.update_self]
    · rw [Function.update_of_ne hsame]
      exact hother
  | notFound => exact hother
  | failed => exact hother

theorem final_iff_inStep (h : system.Deleted) (action : LiveAction) :
    system.Final crates formatSeconds streamId action ↔ system.InStep crates streamId action := by
  cases action with
  | handle part => exact final_handle_iff h part
  | advanceSync id files io => exact final_advanceSync_iff id files io
  | startDelete id io =>
    refine iff_of_true (fun _ key hkey => ?_) trivial
    have hruns := LiveSlot.startDeleteLive_run system.slot io
    unfold step stepDelete
    dsimp only
    generalize (startDeleteLive io).run system.slot = run at hruns
    split
    · cases hruns with
      | failed error after hobjects hdeletion => exact (congrFun hobjects key).trans hkey
      | finished deleted hpurged => exact hkey
      | deleted after hobjects hdeletion => exact (congrFun hobjects key).trans hkey
    · exact hkey
  | list id keys =>
    refine iff_of_true (fun _ key hkey => ?_) trivial
    unfold step
    dsimp only
    split <;> exact hkey
  | remove id outcome =>
    refine iff_of_true (fun _ key hkey => ?_) trivial
    unfold step
    dsimp only
    split
    · exact objects_stepRemove hkey
    · exact hkey
  | clean id succeeds =>
    refine iff_of_true (fun _ key hkey => ?_) trivial
    unfold step
    dsimp only
    split <;> exact hkey
  | finishDelete id now io =>
    refine iff_of_true (fun _ key hkey => ?_) trivial
    have hobjects := congrFun (LiveSlot.finishDeleteLive_run system.slot now io).1 key
    unfold step stepFinishDelete
    dsimp only
    split
    · generalize (finishDeleteLive now io).run system.slot = run at hobjects
      obtain ⟨result, after⟩ := run
      cases result <;> exact hobjects.trans hkey
    · exact hkey
  | check id =>
    refine iff_of_true (fun _ key hkey => ?_) trivial
    unfold step
    dsimp only
    split
    · split_ifs <;> exact hkey
    · exact hkey
  | startSync id listing =>
    refine iff_of_true (fun _ key hkey => ?_) trivial
    unfold step
    dsimp only
    split <;> exact hkey

end

end LiveSystem

/-! ## A playlist and a segment that come back -/

namespace ShowDeletion

def crates : Crates := ⟨fun _ => true, fun bytes => bytes⟩

def step : LiveSystem → LiveAction → LiveSystem :=
  LiveSystem.step crates (fun _ => "1.000") "show"

def before : LiveSystem := LiveSystem.new fun _ => none

def track : LiveSourceTrack := ⟨"room", 1, "video", "h264", 96, 90000, none, none⟩

def create (tracks : List LiveSourceTrack) : LiveAction :=
  .handle (.create ⟨3, 0, 2000, tracks, []⟩ ⟨true, .ok ⟨"http://worker:8090", 1⟩,
    ⟨.ok ⟨7, [⟨1, .v4 (Vector.replicate 4 10) 5004⟩]⟩, fun _ => .ok ()⟩, 1000, ⟨.stored, true⟩,
    ⟨true, 0⟩⟩)

/-- A deletion that finds some objects, and returns. -/
def delete (keys : List String) : List LiveAction :=
  [.startDelete 0 ⟨.ok (), 1001, 1001, ⟨true, 0⟩⟩, .list 0 (some keys)] ++
    keys.map (fun _ => .remove 0 .removed) ++ [.clean 0 true, .finishDelete 0 1002 ⟨true, 0⟩]

def finish : LiveAction := .handle (.finish ⟨.ok (), 1003, ⟨.stored, true⟩, ⟨true, 0⟩⟩)

/-- A publisher has read a segment and is about to store it. -/
def publish : List LiveAction :=
  [.check 0, .startSync 0 (.ok ⟨["segment-0.m4s"], by decide⟩)] ++
    List.replicate 4 (.advanceSync 0 [("segment-0.m4s", [1, 2])] ⟨true, true, true, .stored⟩)

def store : LiveAction :=
  .advanceSync 0 [("segment-0.m4s", [1, 2])] ⟨true, true, true, .stored⟩

theorem created_finish :
    let system := ([create []] ++ delete ["live/show/index.m3u8"]).foldl step before
    system.returned = true ∧ (system.slot.objects "live/show/index.m3u8").isNone ∧
      ((step system finish).slot.objects "live/show/index.m3u8").isSome := by
  decide +kernel

theorem created_store :
    let system := ([create [track]] ++ publish ++ delete []).foldl step before
    system.returned = true ∧ (system.slot.objects "live/show/segment-0.m4s").isNone ∧
      ((step system store).slot.objects "live/show/segment-0.m4s").isSome := by
  decide

theorem not_final {system : LiveSystem} {action : LiveAction} {key : String}
    (h : system.returned = true ∧ (system.slot.objects key).isNone ∧
      ((step system action).slot.objects key).isSome) :
    ¬ system.Final crates (fun _ => "1.000") "show" action := by
  intro hfinal
  have hafter := h.2.2
  change ((system.step crates (fun _ => "1.000") "show" action).slot.objects key).isSome = true
    at hafter
  rw [hfinal h.1 key (Option.isNone_iff_eq_none.mp h.2.1)] at hafter
  cases hafter

end ShowDeletion

end Fluvora.MediaGateway
