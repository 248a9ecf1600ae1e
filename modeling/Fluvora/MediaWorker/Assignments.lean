import Fluvora.Lib.Runs
import Fluvora.Net.Address
import Fluvora.MediaWorker.FenceText

/-!
# Assignments of the media worker

`commit_assignment` of `crates/services/media-worker`: a worker accepts a job for a resource under a
generation, answers a repeated request with the job it has, and refuses generations that are not
newer than the last one it has accepted.  The fence of accepted generations is written to a file
before the assignment is installed, and a restarted worker loads it again.

`Fenced` says what the fence is for, over every run of calls and restarts.  It holds as long as the
worker has accepted jobs for at most 50000 resources (`fenced_of_withinCapacity`): this is what the
loader takes, and the writer does not count.
-/

open Std (ExtTreeMap)

namespace Fluvora.MediaWorker

open ApiServer (ApiError)
open Fallible Snapshots Domain

inductive AssignmentKind
  | vod
  | live
  | realtime
deriving DecidableEq

def AssignmentKind.name : AssignmentKind → String
  | vod => "vod"
  | live => "live"
  | realtime => "realtime"

structure LiveDestination where
  trackId : UInt64
  destination : SocketAddr
deriving DecidableEq

inductive AssignmentResponse
  | vod (jobId : UInt64)
  | live (jobId : UInt64) (destinations : List LiveDestination)
  | realtime (jobId : UInt64) (sourceDestination : SocketAddr)
deriving DecidableEq

def AssignmentResponse.jobId : AssignmentResponse → UInt64
  | vod jobId => jobId
  | live jobId _ => jobId
  | realtime jobId _ => jobId

structure WorkerAssignment where
  generation : UInt64
  jobKey : String
  response : AssignmentResponse
deriving DecidableEq

inductive AssignmentOutcome
  | accepted (replacedJobId : Option UInt64)
  | duplicate (response : AssignmentResponse)
deriving DecidableEq

/-- The fences and assignments of a worker; `directory` is what the directory of its fence files
holds. -/
structure AssignmentRegistry where
  snapshot : FenceSnapshot
  active : ExtTreeMap String WorkerAssignment
  directory : Files
deriving DecidableEq

def staleGeneration (generation : UInt64) : ApiError :=
  ⟨409, "stale_placement_generation",
    "worker has already accepted placement generation " ++ toString generation⟩

def generationConflict : ApiError :=
  ⟨409, "placement_generation_conflict",
    "placement generation is already bound to another job key"⟩

def generationConsumed : ApiError :=
  ⟨409, "placement_generation_consumed",
    "placement generation was consumed before this worker restart; the coordinator must advance it"⟩

def assignmentRevisionExhausted : ApiError :=
  ⟨507, "assignment_revision_exhausted", "worker assignment fence revision exhausted"⟩

/-- A request for an assignment, as the handlers pass it on. -/
structure AssignmentRequest where
  kind : AssignmentKind
  resourceId : String
  generation : UInt64
  jobKey : String
  response : AssignmentResponse
deriving DecidableEq

def AssignmentRequest.assignmentId (request : AssignmentRequest) : String :=
  request.kind.name ++ ":" ++ request.resourceId

/-- The snapshot that accepts a request. -/
def AssignmentRequest.nextSnapshot (request : AssignmentRequest) (snapshot : FenceSnapshot)
    (revision : UInt64) : FenceSnapshot where
  revision := revision
  records := snapshot.records.insert request.assignmentId ⟨request.generation, request.jobKey⟩

section

variable (toVec : FenceSnapshot → List UInt8) (fromSlice : List UInt8 → Option FenceSnapshot)

/-- The last part of `commit_assignment`: the fence is written, then the assignment installed. -/
def installAssignment (io : Io) (request : AssignmentRequest) :
    Fallible AssignmentRegistry ApiError AssignmentOutcome := do
  let registry ← get
  let revision ← ofOption (checkedSucc registry.snapshot.revision) assignmentRevisionExhausted
  let nextSnapshot := request.nextSnapshot registry.snapshot revision
  let persisted := (persistFenceSnapshot toVec fromSlice io nextSnapshot).run registry.directory
  modify fun registry => { registry with directory := persisted.2 }
  ofExcept persisted.1
  modify fun registry => { registry with
    snapshot := nextSnapshot
    active := registry.active.insert request.assignmentId
      ⟨request.generation, request.jobKey, request.response⟩ }
  return .accepted (registry.active[request.assignmentId]?.map (·.response.jobId))

/-- The check against the fence, which also remembers what was accepted before a restart. -/
def checkFence (io : Io) (request : AssignmentRequest) :
    Fallible AssignmentRegistry ApiError AssignmentOutcome := do
  let registry ← get
  match registry.snapshot.records[request.assignmentId]? with
  | some fence =>
      if request.generation < fence.generation then fail (staleGeneration fence.generation)
      else if request.generation = fence.generation then fail generationConsumed
      else installAssignment toVec fromSlice io request
  | none => installAssignment toVec fromSlice io request

def commitAssignment (io : Io) (request : AssignmentRequest) :
    Fallible AssignmentRegistry ApiError AssignmentOutcome := do
  let registry ← get
  match registry.active[request.assignmentId]? with
  | some current =>
      if request.generation < current.generation then fail (staleGeneration current.generation)
      else if request.generation = current.generation then
        if current.jobKey = request.jobKey then return .duplicate current.response
        else fail generationConflict
      else checkFence toVec fromSlice io request
  | none => checkFence toVec fromSlice io request

/-- The registry of a worker that starts with the files of a directory. -/
def loadAssignmentRegistry (listing : Listing) (directory : Files) : AssignmentRegistry where
  snapshot := loadFenceSnapshot toVec fromSlice listing directory
  active := ∅
  directory := directory

/-! ## What a commit does -/

/-- The state that an accepted request leaves. -/
def AssignmentRegistry.accept (registry : AssignmentRegistry) (request : AssignmentRequest)
    (revision : UInt64) (directory : Files) : AssignmentRegistry where
  snapshot := request.nextSnapshot registry.snapshot revision
  active := registry.active.insert request.assignmentId
    ⟨request.generation, request.jobKey, request.response⟩
  directory := directory

/-- A request is newer than what the registry knows of its resource. -/
def AssignmentRegistry.Newer (registry : AssignmentRegistry) (request : AssignmentRequest) : Prop :=
  (∀ current, registry.active[request.assignmentId]? = some current →
    current.generation < request.generation) ∧
  ∀ fence, registry.snapshot.records[request.assignmentId]? = some fence →
    fence.generation < request.generation

/-- A request is accepted once its fence is written. -/
theorem installAssignment_of_persisted {io : Io} {request : AssignmentRequest}
    {registry : AssignmentRegistry} {revision : UInt64} {directory : Files}
    (hrevision : checkedSucc registry.snapshot.revision = some revision)
    (hpersist : (persistFenceSnapshot toVec fromSlice io
      (request.nextSnapshot registry.snapshot revision)).run registry.directory =
        (.ok (), directory)) :
    (installAssignment toVec fromSlice io request).run registry =
      (.ok (.accepted (registry.active[request.assignmentId]?.map (·.response.jobId))),
        registry.accept request revision directory) := by
  rw [installAssignment, run_get_bind, run_ofOption_bind, hrevision]
  dsimp only
  rw [run_modify_bind, run_ofExcept_bind, hpersist]
  rfl

theorem installAssignment_run (io : Io) (request : AssignmentRequest)
    (registry : AssignmentRegistry) :
    (∃ error, (installAssignment toVec fromSlice io request).run registry =
      (.error error, registry)) ∨
    ∃ revision directory, checkedSucc registry.snapshot.revision = some revision ∧
      (persistFenceSnapshot toVec fromSlice io
        (request.nextSnapshot registry.snapshot revision)).run registry.directory =
          (.ok (), directory) ∧
      (installAssignment toVec fromSlice io request).run registry =
        (.ok (.accepted (registry.active[request.assignmentId]?.map (·.response.jobId))),
          registry.accept request revision directory) := by
  cases hrevision : checkedSucc registry.snapshot.revision with
  | none =>
    left
    rw [installAssignment, run_get_bind, run_ofOption_bind, hrevision]
    exact ⟨_, rfl⟩
  | some revision =>
    rcases hpersist : (persistFenceSnapshot toVec fromSlice io
      (request.nextSnapshot registry.snapshot revision)).run registry.directory with
        ⟨error | ⟨⟩, directory⟩
    · left
      refine ⟨error, ?_⟩
      have hsame : directory = registry.directory := Format.persistOnce_error hpersist
      rw [installAssignment, run_get_bind, run_ofOption_bind, hrevision]
      dsimp only
      rw [run_modify_bind, run_ofExcept_bind, hpersist]
      simp only [hsame]
    · exact .inr ⟨revision, directory, rfl, hpersist,
        installAssignment_of_persisted toVec fromSlice hrevision hpersist⟩

/-- A request that is newer goes through to the writer of the fence. -/
theorem commitAssignment_of_newer {io : Io} {request : AssignmentRequest}
    {registry : AssignmentRegistry} (h : registry.Newer request) :
    (commitAssignment toVec fromSlice io request).run registry =
      (installAssignment toVec fromSlice io request).run registry := by
  obtain ⟨hactive, hfence⟩ := h
  have hcheck : (checkFence toVec fromSlice io request).run registry =
      (installAssignment toVec fromSlice io request).run registry := by
    rw [checkFence, run_get_bind]
    cases hrecord : registry.snapshot.records[request.assignmentId]? with
    | none => rfl
    | some fence =>
      have hlt := hfence fence hrecord
      dsimp only
      rw [if_neg (UInt64.not_lt.mpr (UInt64.le_of_lt hlt)), if_neg (UInt64.ne_of_lt hlt).symm]
  rw [commitAssignment, run_get_bind]
  cases hcurrent : registry.active[request.assignmentId]? with
  | none => exact hcheck
  | some current =>
    have hlt := hactive current hcurrent
    dsimp only
    rw [if_neg (UInt64.not_lt.mpr (UInt64.le_of_lt hlt)), if_neg (UInt64.ne_of_lt hlt).symm]
    exact hcheck

theorem ne_staleGeneration {α : Type} {error : ApiError}
    (h : error.code ≠ "stale_placement_generation") (generation : UInt64) :
    (.error error : Except ApiError α) ≠ .error (staleGeneration generation) :=
  fun heq => h (congrArg ApiError.code (Except.error.inj heq))

/-- Writing the fence fails with errors of its own. -/
theorem installAssignment_ne_stale (io : Io) (request : AssignmentRequest)
    (registry : AssignmentRegistry) (generation : UInt64) :
    ((installAssignment toVec fromSlice io request).run registry).1 ≠
      .error (staleGeneration generation) := by
  rw [installAssignment, run_get_bind, run_ofOption_bind]
  cases checkedSucc registry.snapshot.revision with
  | none => exact ne_staleGeneration (by decide) generation
  | some revision =>
    dsimp only
    rw [run_modify_bind, run_ofExcept_bind, persistFenceSnapshot, Format.persistOnce_run]
    split_ifs
    · exact ne_staleGeneration (by simp [fenceFormat]) generation
    · intro h
      cases h
    · exact ne_staleGeneration (by simp [fenceFormat]) generation
    · intro h
      cases h
    · exact ne_staleGeneration (by simp [fenceFormat]) generation

/-- A request is not stale if nothing newer was accepted for its resource. -/
theorem commitAssignment_ne_stale (io : Io) {request : AssignmentRequest}
    {registry : AssignmentRegistry}
    (hactive : ∀ current, registry.active[request.assignmentId]? = some current →
      current.generation ≤ request.generation)
    (hfence : ∀ fence, registry.snapshot.records[request.assignmentId]? = some fence →
      fence.generation ≤ request.generation) (generation : UInt64) :
    ((commitAssignment toVec fromSlice io request).run registry).1 ≠
      .error (staleGeneration generation) := by
  have hcheck : ((checkFence toVec fromSlice io request).run registry).1 ≠
      .error (staleGeneration generation) := by
    rw [checkFence, run_get_bind]
    cases hrecord : registry.snapshot.records[request.assignmentId]? with
    | none => exact installAssignment_ne_stale toVec fromSlice io request registry generation
    | some fence =>
      dsimp only
      rw [if_neg (UInt64.not_lt.mpr (hfence fence hrecord))]
      split_ifs
      · exact ne_staleGeneration (by decide) generation
      · exact installAssignment_ne_stale toVec fromSlice io request registry generation
  rw [commitAssignment, run_get_bind]
  cases hcurrent : registry.active[request.assignmentId]? with
  | none => exact hcheck
  | some current =>
    dsimp only
    rw [if_neg (UInt64.not_lt.mpr (hactive current hcurrent))]
    split_ifs
    · exact nofun
    · exact ne_staleGeneration (by decide) generation
    · exact hcheck

/-- A request fails, finds the job that was accepted for it, or is newer and is passed on. -/
theorem commitAssignment_run (io : Io) (request : AssignmentRequest)
    (registry : AssignmentRegistry) :
    (∃ error, (commitAssignment toVec fromSlice io request).run registry =
      (.error error, registry)) ∨
    (∃ current, registry.active[request.assignmentId]? = some current ∧
      current.generation = request.generation ∧ current.jobKey = request.jobKey ∧
      (commitAssignment toVec fromSlice io request).run registry =
        (.ok (.duplicate current.response), registry)) ∨
    (registry.Newer request ∧ (commitAssignment toVec fromSlice io request).run registry =
      (installAssignment toVec fromSlice io request).run registry) := by
  by_cases hnewer : registry.Newer request
  · exact .inr (.inr ⟨hnewer, commitAssignment_of_newer toVec fromSlice hnewer⟩)
  rw [commitAssignment, run_get_bind]
  have hfence : (∀ current, registry.active[request.assignmentId]? = some current →
      current.generation < request.generation) →
      ∃ error, (checkFence toVec fromSlice io request).run registry = (.error error, registry) := by
    intro hactive
    rw [checkFence, run_get_bind]
    cases hrecord : registry.snapshot.records[request.assignmentId]? with
    | none => exact absurd ⟨hactive, by simp [hrecord]⟩ hnewer
    | some fence =>
      dsimp only
      split_ifs with hlt heq
      · exact ⟨_, rfl⟩
      · exact ⟨_, rfl⟩
      · refine absurd ⟨hactive, ?_⟩ hnewer
        intro found hfound
        rw [hrecord, Option.some.injEq] at hfound
        rw [← hfound]
        exact UInt64.lt_of_le_of_ne (UInt64.not_lt.mp hlt) fun h => heq h.symm
  cases hcurrent : registry.active[request.assignmentId]? with
  | none => exact .inl (hfence (by simp [hcurrent]))
  | some current =>
    dsimp only
    split_ifs with hlt heq hkey
    · exact .inl ⟨_, rfl⟩
    · exact .inr (.inl ⟨current, rfl, heq.symm, hkey, rfl⟩)
    · exact .inl ⟨_, rfl⟩
    · refine .inl (hfence ?_)
      intro found hfound
      rw [hcurrent, Option.some.injEq] at hfound
      rw [← hfound]
      exact UInt64.lt_of_le_of_ne (UInt64.not_lt.mp hlt) fun h => heq h.symm

/-- What a commit can do. -/
theorem commitAssignment_cases (io : Io) (request : AssignmentRequest)
    (registry : AssignmentRegistry) :
    (∃ error, (commitAssignment toVec fromSlice io request).run registry =
      (.error error, registry)) ∨
    (∃ current, registry.active[request.assignmentId]? = some current ∧
      current.generation = request.generation ∧ current.jobKey = request.jobKey ∧
      (commitAssignment toVec fromSlice io request).run registry =
        (.ok (.duplicate current.response), registry)) ∨
    ∃ revision directory, registry.Newer request ∧
      checkedSucc registry.snapshot.revision = some revision ∧
      (persistFenceSnapshot toVec fromSlice io
        (request.nextSnapshot registry.snapshot revision)).run registry.directory =
          (.ok (), directory) ∧
      (commitAssignment toVec fromSlice io request).run registry =
        (.ok (.accepted (registry.active[request.assignmentId]?.map (·.response.jobId))),
          registry.accept request revision directory) := by
  rcases commitAssignment_run toVec fromSlice io request registry with
    hfailed | hduplicate | ⟨hnewer, hrun⟩
  · exact .inl hfailed
  · exact .inr (.inl hduplicate)
  · rw [hrun]
    rcases installAssignment_run toVec fromSlice io request registry with
      hfailed | ⟨revision, directory, hrevision, hpersist, hinstall⟩
    · exact .inl hfailed
    · exact .inr (.inr ⟨revision, directory, hnewer, hrevision, hpersist, hinstall⟩)

end

/-! ## What the loader takes -/

theorem isFenceKey_assignmentId {request : AssignmentRequest}
    (h : isIdentifier request.resourceId = true) : isFenceKey request.assignmentId = true := by
  have hkind : (request.kind.name.toList.all (· ≠ ':')) = true := by
    cases request.kind <;> decide
  have hlist : request.assignmentId.toList =
      request.kind.name.toList ++ ':' :: request.resourceId.toList := by
    simp [AssignmentRequest.assignmentId]
  have hall : ∀ c ∈ request.kind.name.toList, decide (c ≠ ':') = true :=
    List.all_eq_true.mp hkind
  have htake : request.assignmentId.toList.takeWhile (· ≠ ':') = request.kind.name.toList := by
    rw [hlist, List.takeWhile_append_of_pos hall]
    simp
  have hdrop : request.assignmentId.toList.dropWhile (· ≠ ':') =
      ':' :: request.resourceId.toList := by
    rw [hlist, List.dropWhile_append_of_pos hall]
    simp
  rw [isFenceKey, htake, hdrop]
  simp only [List.drop_one, List.tail_cons, String.ofList_toList, h, decide_eq_true_eq]
  refine ⟨by simp, ?_, trivial⟩
  cases request.kind <;> simp [AssignmentKind.name]

/-! ## Calls and restarts -/

/-- What happens to a worker: a request for an assignment, or a restart of the process. -/
inductive Call
  | commit (io : Io) (request : AssignmentRequest)
  | restart (listing : Listing)

/-- The handlers have checked the identifiers and the generation of a request. -/
def Call.Validated : Call → Prop
  | commit _ request => isIdentifier request.resourceId = true ∧
      isIdentifier request.jobKey = true ∧ 0 < request.generation
  | restart _ => True

section

variable (toVec : FenceSnapshot → List UInt8) (fromSlice : List UInt8 → Option FenceSnapshot)

def step (registry : AssignmentRegistry) : Call → AssignmentRegistry
  | .commit io request => ((commitAssignment toVec fromSlice io request).run registry).2
  | .restart listing => loadAssignmentRegistry toVec fromSlice listing registry.directory

/-- The request that a call accepts. -/
def accepted (registry : AssignmentRegistry) : Call → Option AssignmentRequest
  | .commit io request =>
      match ((commitAssignment toVec fromSlice io request).run registry).1 with
      | .ok (.accepted _) => some request
      | _ => none
  | .restart _ => none

/-- Fencing, over a run: the generations of a resource grow, none is accepted twice, what is written
can be loaded, and a call that accepts nothing changes nothing. -/
structure Fenced (start : AssignmentRegistry) (calls : List Call) : Prop where
  increasing : (Runs.produced (step toVec fromSlice) (accepted toVec fromSlice) start
    calls).Pairwise fun a b => a.kind = b.kind → a.resourceId = b.resourceId →
      a.generation < b.generation
  once : ((Runs.produced (step toVec fromSlice) (accepted toVec fromSlice) start calls).map
    fun request => (request.kind, request.resourceId, request.generation)).Nodup
  readable : Runs.Each (step toVec fromSlice) (fun registry call =>
    (accepted toVec fromSlice registry call).isSome →
      let next := step toVec fromSlice registry call
      validFenceSnapshot next.snapshot next.snapshot.revision = true ∧
        ∀ listing, loadFenceSnapshot toVec fromSlice listing next.directory = next.snapshot)
    start calls
  unchanged : Runs.Each (step toVec fromSlice) (fun registry call =>
    ∀ io request, call = .commit io request → accepted toVec fromSlice registry call = none →
      step toVec fromSlice registry call = registry) start calls

/-- The fence has a record for the resource already, or room for one more. -/
def WithinCapacity (registry : AssignmentRegistry) : Call → Prop
  | .commit _ request => request.assignmentId ∈ registry.snapshot.records ∨
      registry.snapshot.records.size < 50000
  | .restart _ => True

/-- The fence of a registry is valid, covers its assignments and is what a restart loads. -/
structure Recoverable (registry : AssignmentRegistry) : Prop where
  valid : ValidRecords registry.snapshot.records
  fits : registry.snapshot.records.size ≤ 50000
  stored : ∀ listing,
    loadFenceSnapshot toVec fromSlice listing registry.directory = registry.snapshot

variable {toVec fromSlice}

theorem recoverable_load (listing : Listing) (directory : Files) :
    Recoverable toVec fromSlice (loadAssignmentRegistry toVec fromSlice listing directory) := by
  have hstored : ∀ listing', loadFenceSnapshot toVec fromSlice listing' directory =
      loadFenceSnapshot toVec fromSlice listing directory := by
    intro listing'
    rw [loadFenceSnapshot_eq, loadFenceSnapshot_eq, Format.load_listing listing' listing]
  have hvalid : ValidRecords (loadFenceSnapshot toVec fromSlice listing directory).records ∧
      (loadFenceSnapshot toVec fromSlice listing directory).records.size ≤ 50000 := by
    rw [loadFenceSnapshot_eq]
    cases hload : (fenceFormat toVec fromSlice).load listing directory with
    | none => exact ⟨by simp [ValidRecords, FenceSnapshot.empty], by simp [FenceSnapshot.empty]⟩
    | some snapshot =>
      obtain ⟨⟨file, -, hcandidate⟩, -⟩ := Format.load_eq_some_iff.mp hload
      obtain ⟨bytes, -, haccept⟩ := Option.bind_eq_some_iff.mp hcandidate
      simp only [fenceFormat, Option.filter_eq_some_iff, decide_eq_true_eq] at haccept
      obtain ⟨-, hsize, hrecords⟩ := validFenceSnapshot_iff.mp haccept.2.2
      exact ⟨hrecords, hsize⟩
  exact ⟨hvalid.1, hvalid.2, hstored⟩

theorem validRecords_insert {records : ExtTreeMap String FenceRecord} (h : ValidRecords records)
    {request : AssignmentRequest} {io : Io} (hvalidated : (Call.commit io request).Validated) :
    ValidRecords (records.insert request.assignmentId ⟨request.generation, request.jobKey⟩) := by
  obtain ⟨hresource, hkey, hgeneration⟩ := hvalidated
  intro key record hrecord
  rcases Maps.getElem?_insert_eq_some.mp hrecord with ⟨rfl, rfl⟩ | ⟨-, hrecord⟩
  · exact ⟨isFenceKey_assignmentId hresource, hkey, hgeneration⟩
  · exact h key record hrecord

theorem lt_of_checkedSucc {n m : UInt64} (h : checkedSucc n = some m) : n < m := by
  unfold checkedSucc at h
  split_ifs at h with hlt
  rw [← Option.some.inj h, UInt64.lt_iff_toNat_lt, UInt64.toNat_add, UInt64.toNat_one,
    Nat.mod_eq_of_lt hlt]
  exact Nat.lt_succ_self _

/-- An accepted request leaves a fence that can be loaded. -/
theorem Recoverable.accept (hserde : Faithful toVec fromSlice) {registry : AssignmentRegistry}
    (h : Recoverable toVec fromSlice registry) {io : Io} {request : AssignmentRequest}
    (hvalidated : (Call.commit io request).Validated)
    (hcapacity : WithinCapacity registry (.commit io request)) {revision : UInt64}
    {directory : Files} (hrevision : checkedSucc registry.snapshot.revision = some revision)
    (hpersist : (persistFenceSnapshot toVec fromSlice io
      (request.nextSnapshot registry.snapshot revision)).run registry.directory =
        (.ok (), directory)) :
    Recoverable toVec fromSlice (registry.accept request revision directory) := by
  have hvalid : ValidRecords (request.nextSnapshot registry.snapshot revision).records :=
    validRecords_insert h.valid hvalidated
  have hsize : (request.nextSnapshot registry.snapshot revision).records.size ≤ 50000 := by
    dsimp only [AssignmentRequest.nextSnapshot]
    rw [ExtTreeMap.size_insert]
    split_ifs with hmem
    · exact h.fits
    · rcases hcapacity with hknown | hroom
      · exact absurd hknown hmem
      · exact hroom
  have hlt : registry.snapshot.revision < revision := lt_of_checkedSucc hrevision
  have hloadable : (fenceFormat toVec fromSlice).Loadable
      (request.nextSnapshot registry.snapshot revision) := by
    constructor
    · by_contra hlarge
      rw [persistFenceSnapshot, Format.persistOnce_run, if_pos (Nat.lt_of_not_le hlarge)] at hpersist
      cases hpersist
    · dsimp only [fenceFormat]
      rw [hserde _ hvalid, Option.filter_eq_some_iff]
      refine ⟨rfl, decide_eq_true ⟨?_, validFenceSnapshot_iff.mpr ⟨rfl, hsize, hvalid⟩⟩⟩
      exact UInt64.lt_of_le_of_lt (UInt64.le_iff_toNat_le.mpr (Nat.zero_le _)) hlt
  refine ⟨hvalid, hsize, ?_⟩
  intro listing
  have hload := @Format.load_persistOnce _ _ _ listing _ _ _ _ _ hloadable (by
    intro found hfound
    have hstored := h.stored listing
    rw [loadFenceSnapshot_eq, hfound, Option.getD_some] at hstored
    rw [hstored]
    exact hlt) hpersist
  rw [loadFenceSnapshot_eq]
  dsimp only [AssignmentRegistry.accept]
  rw [hload]
  rfl

theorem accepted_eq_some {registry : AssignmentRegistry} {call : Call} {request : AssignmentRequest}
    (h : accepted toVec fromSlice registry call = some request) :
    ∃ io revision directory, call = .commit io request ∧ registry.Newer request ∧
      checkedSucc registry.snapshot.revision = some revision ∧
      (persistFenceSnapshot toVec fromSlice io
        (request.nextSnapshot registry.snapshot revision)).run registry.directory =
          (.ok (), directory) ∧
      step toVec fromSlice registry call = registry.accept request revision directory := by
  cases call with
  | restart listing => cases h
  | commit io asked =>
    rw [accepted] at h
    rcases commitAssignment_cases toVec fromSlice io asked registry with
      ⟨error, hrun⟩ | ⟨current, -, -, -, hrun⟩ |
        ⟨revision, directory, hnewer, hrevision, hpersist, hrun⟩
    · simp [hrun] at h
    · simp [hrun] at h
    · obtain rfl : asked = request := by simpa [hrun] using h
      refine ⟨io, revision, directory, rfl, hnewer, hrevision, hpersist, ?_⟩
      rw [step, hrun]

/-- A call that accepts nothing changes nothing. -/
theorem step_of_accepted_eq_none {registry : AssignmentRegistry} {io : Io}
    {request : AssignmentRequest}
    (h : accepted toVec fromSlice registry (.commit io request) = none) :
    step toVec fromSlice registry (.commit io request) = registry := by
  rw [accepted] at h
  rw [step]
  rcases commitAssignment_cases toVec fromSlice io request registry with
    ⟨error, hrun⟩ | ⟨current, -, -, -, hrun⟩ | ⟨revision, directory, -, -, -, hrun⟩
  · rw [hrun]
  · rw [hrun]
  · simp [hrun] at h

/-- A call within the capacity keeps the fence recoverable. -/
theorem Recoverable.step (hserde : Faithful toVec fromSlice) {registry : AssignmentRegistry}
    (h : Recoverable toVec fromSlice registry) {call : Call} (hvalidated : call.Validated)
    (hcapacity : WithinCapacity registry call) :
    Recoverable toVec fromSlice (step toVec fromSlice registry call) := by
  cases call with
  | restart listing => exact recoverable_load listing registry.directory
  | commit io request =>
    cases haccepted : accepted toVec fromSlice registry (.commit io request) with
    | none => rwa [step_of_accepted_eq_none haccepted]
    | some asked =>
      obtain ⟨io', revision, directory, hcall, -, hrevision, hpersist, hstep⟩ :=
        accepted_eq_some haccepted
      cases hcall
      rw [hstep]
      exact h.accept hserde hvalidated hcapacity hrevision hpersist

/-- A request that is still to be accepted is newer than the fence of its resource. -/
def Ahead (registry : AssignmentRegistry) (request : AssignmentRequest) : Prop :=
  ∀ fence, registry.snapshot.records[request.assignmentId]? = some fence →
    fence.generation < request.generation

theorem Ahead.of_step {registry : AssignmentRegistry} (h : Recoverable toVec fromSlice registry)
    {call : Call} {request : AssignmentRequest}
    (hahead : Ahead (MediaWorker.step toVec fromSlice registry call) request) :
    Ahead registry request := by
  cases call with
  | restart listing =>
    intro fence hfence
    refine hahead fence ?_
    rw [MediaWorker.step, loadAssignmentRegistry, h.stored listing]
    exact hfence
  | commit io asked =>
    cases haccepted : accepted toVec fromSlice registry (.commit io asked) with
    | none => rwa [step_of_accepted_eq_none haccepted] at hahead
    | some found =>
      obtain ⟨io', revision, directory, hcall, hnewer, -, -, hstep⟩ := accepted_eq_some haccepted
      cases hcall
      rw [hstep] at hahead
      intro fence hfence
      by_cases hsame : asked.assignmentId = request.assignmentId
      · have hlt := hahead ⟨asked.generation, asked.jobKey⟩ (by
          rw [← hsame]
          exact ExtTreeMap.getElem?_insert_self)
        rw [← hsame] at hfence
        exact UInt64.lt_trans (hnewer.2 fence hfence) hlt
      · refine hahead fence ?_
        rw [← hfence]
        exact Maps.getElem?_insert_of_ne hsame

/-- Fencing holds over every run of validated calls in which no resource beyond the 50000 that the
loader takes is added to the fence. -/
theorem fenced_of_withinCapacity (hserde : Faithful toVec fromSlice) (listing : Listing)
    (directory : Files) {calls : List Call} (hvalidated : ∀ call ∈ calls, call.Validated)
    (hcapacity : Runs.Each (step toVec fromSlice) WithinCapacity
      (loadAssignmentRegistry toVec fromSlice listing directory) calls) :
    Fenced toVec fromSlice (loadAssignmentRegistry toVec fromSlice listing directory) calls := by
  have hstart := @recoverable_load toVec fromSlice listing directory
  generalize loadAssignmentRegistry toVec fromSlice listing directory = start at *
  have heach : Runs.Each (step toVec fromSlice)
      (fun registry call => call.Validated ∧ WithinCapacity registry call) start calls :=
    (Runs.each_of_forall hvalidated start).and hcapacity
  have hkeep : ∀ registry call, Recoverable toVec fromSlice registry →
      call.Validated ∧ WithinCapacity registry call →
      Recoverable toVec fromSlice (step toVec fromSlice registry call) :=
    fun registry call h hcall => h.step hserde hcall.1 hcall.2
  have hincreasing : (Runs.produced (step toVec fromSlice) (accepted toVec fromSlice) start
      calls).Pairwise fun a b => a.kind = b.kind → a.resourceId = b.resourceId →
        a.generation < b.generation := by
    refine Runs.pairwise_produced_of_each Ahead hkeep ?_ ?_ ?_ hstart heach
    · intro registry call request _ _ haccepted
      obtain ⟨-, -, -, -, hnewer, -⟩ := accepted_eq_some haccepted
      exact hnewer.2
    · intro registry call request h _ hahead
      exact hahead.of_step h
    · intro registry call a b _ _ haccepted hahead hkind hresource
      obtain ⟨io, revision, directory, -, -, -, -, hstep⟩ := accepted_eq_some haccepted
      rw [hstep] at hahead
      refine hahead ⟨a.generation, a.jobKey⟩ ?_
      rw [show b.assignmentId = a.assignmentId by
        rw [AssignmentRequest.assignmentId, AssignmentRequest.assignmentId, hkind, hresource]]
      exact ExtTreeMap.getElem?_insert_self
  refine ⟨hincreasing, ?_, ?_, ?_⟩
  · refine List.pairwise_map.mpr (hincreasing.imp ?_)
    intro a b hlt heq
    simp only [Prod.mk.injEq] at heq
    have hlt := hlt heq.1 heq.2.1
    rw [heq.2.2] at hlt
    exact UInt64.lt_irrefl _ hlt
  · refine Runs.Each.of_always ?_ (Runs.always_of_each hkeep hstart heach) heach
    intro registry call h hcall _
    have hnext := h.step hserde hcall.1 hcall.2
    exact ⟨validFenceSnapshot_iff.mpr ⟨rfl, hnext.fits, hnext.valid⟩, hnext.stored⟩
  · refine Runs.Each.of_always ?_ (Runs.always_of_each hkeep hstart heach) heach
    intro registry call _ _ io request hcall hnone
    subst hcall
    exact step_of_accepted_eq_none hnone

end

/-! ## One resource too many -/

namespace Crowd

def letter (n : ℕ) : String := String.singleton (Char.ofNat (97 + n % 16))

theorem asBytes_letter (n : ℕ) : asBytes (letter n) = [UInt8.ofNat (97 + n % 16)] := by
  have hlt : n % 16 < 16 := Nat.mod_lt _ (by norm_num)
  unfold letter
  generalize n % 16 = digit at *
  interval_cases digit <;> rfl

/-- Names of four letters. -/
def resource (n : ℕ) : String :=
  letter (n / 4096) ++ letter (n / 256) ++ letter (n / 16) ++ letter n

theorem asBytes_append (a b : String) : asBytes (a ++ b) = asBytes a ++ asBytes b := by
  simp [asBytes, String.toUTF8]

theorem asBytes_resource (n : ℕ) : asBytes (resource n) =
    [.ofNat (97 + n / 4096 % 16), .ofNat (97 + n / 256 % 16), .ofNat (97 + n / 16 % 16),
      .ofNat (97 + n % 16)] := by
  simp only [resource, asBytes_append, asBytes_letter, List.cons_append,
    List.nil_append]

theorem resource_injective {n m : ℕ} (hn : n < 65536) (hm : m < 65536)
    (h : resource n = resource m) : n = m := by
  have hbytes := congrArg asBytes h
  rw [asBytes_resource, asBytes_resource] at hbytes
  simp only [List.cons.injEq, ← UInt8.toNat_inj, UInt8.toNat_ofNat', and_true] at hbytes
  omega

theorem isIdentifier_resource (n : ℕ) : isIdentifier (resource n) = true := by
  have hbyte (digit : ℕ) : isIdentifierByte (.ofNat (97 + digit % 16)) = true := by
    have hlt : digit % 16 < 16 := Nat.mod_lt _ (by norm_num)
    generalize digit % 16 = letter at *
    interval_cases letter <;> rfl
  have hsize : (resource n).utf8ByteSize = 4 :=
    congrArg List.length (asBytes_resource n)
  have hall : (asBytes (resource n)).all isIdentifierByte = true := by
    rw [asBytes_resource]
    simp only [List.all_cons, hbyte, List.all_nil, Bool.and_self]
  rw [isIdentifier, hsize]
  exact hall

/-- The first generation of a recording. -/
def request (n : ℕ) : AssignmentRequest :=
  ⟨.vod, resource n, 1, "k", .vod 1⟩

theorem assignmentId_injective {n m : ℕ} (hn : n < 65536) (hm : m < 65536)
    (h : (request n).assignmentId = (request m).assignmentId) : n = m := by
  refine resource_injective hn hm ?_
  have hlist := congrArg String.toList h
  simp only [AssignmentRequest.assignmentId, String.toList_append] at hlist
  exact String.toList_inj.mp (List.append_cancel_left hlist)

def fileSystem : Io := ⟨true, true, true, fun _ => true⟩

def call (n : ℕ) : Call := .commit fileSystem (request n)

theorem validated_call (n : ℕ) : (call n).Validated :=
  ⟨isIdentifier_resource n, (by decide : isIdentifier "k" = true), (by decide : (0 : UInt64) < 1)⟩

theorem asBytes_assignmentId (n : ℕ) :
    (asBytes (request n).assignmentId).length = 8 := by
  have hkind : (asBytes (AssignmentKind.vod.name ++ ":")).length = 4 := by decide
  rw [AssignmentRequest.assignmentId, asBytes_append, List.length_append]
  dsimp only [request]
  rw [hkind, asBytes_resource]
  rfl

/-- The state after a number of calls. -/
structure After (n : ℕ) (registry : AssignmentRegistry) : Prop where
  revision : registry.snapshot.revision.toNat = n
  size : registry.snapshot.records.size = n
  records : ∀ key record, registry.snapshot.records[key]? = some record →
    ∃ i < n, key = (request i).assignmentId ∧ record = ⟨1, "k"⟩
  active : ∀ key ∈ registry.active, ∃ i < n, key = (request i).assignmentId
  files : ∀ number ∈ registry.directory, number.toNat ≤ n

theorem After.fresh {n i : ℕ} (hn : n < 65536) (hi : i < n) :
    (request n).assignmentId ≠ (request i).assignmentId := by
  intro h
  have := assignmentId_injective hn (hi.trans hn) h
  omega

theorem After.accepts {n : ℕ} (hn : n ≤ 50000) {registry : AssignmentRegistry}
    (h : After n registry) :
    (accepted fenceText readFences registry (call n)).isSome = true ∧
      After (n + 1) (step fenceText readFences registry (call n)) := by
  have hn' : n < 65536 := by omega
  have hrecord : registry.snapshot.records[(request n).assignmentId]? = none := by
    by_contra hsome
    obtain ⟨record, hrecord⟩ := Option.ne_none_iff_exists'.mp hsome
    obtain ⟨i, hi, heq, -⟩ := h.records _ record hrecord
    exact After.fresh hn' hi heq
  have hcurrent : registry.active[(request n).assignmentId]? = none := by
    by_contra hsome
    obtain ⟨current, hcurrent⟩ := Option.ne_none_iff_exists'.mp hsome
    obtain ⟨i, hi, heq⟩ := h.active _ (Maps.mem_of_getElem? hcurrent)
    exact After.fresh hn' hi heq
  have hnewer : registry.Newer (request n) := by
    constructor
    · simp [hcurrent]
    · simp [hrecord]
  have hlt : registry.snapshot.revision.toNat + 1 < 2 ^ 64 := by
    rw [h.revision]
    omega
  have hrevision : checkedSucc registry.snapshot.revision =
      some (registry.snapshot.revision + 1) := if_pos hlt
  have hnumber : (registry.snapshot.revision + 1).toNat = n + 1 := by
    rw [UInt64.toNat_add, UInt64.toNat_one, Nat.mod_eq_of_lt hlt, h.revision]
  have hrecords : ∀ key record, ((request n).nextSnapshot registry.snapshot
      (registry.snapshot.revision + 1)).records[key]? = some record →
        ∃ i < n + 1, key = (request i).assignmentId ∧ record = ⟨1, "k"⟩ := by
    intro key record hkey
    rcases Maps.getElem?_insert_eq_some.mp hkey with ⟨rfl, rfl⟩ | ⟨-, hkey⟩
    · exact ⟨n, Nat.lt_succ_self n, rfl, rfl⟩
    · obtain ⟨i, hi, hkey⟩ := h.records key record hkey
      exact ⟨i, Nat.lt_succ_of_lt hi, hkey⟩
  have hsize : ((request n).nextSnapshot registry.snapshot
      (registry.snapshot.revision + 1)).records.size = n + 1 := by
    dsimp only [AssignmentRequest.nextSnapshot]
    rw [ExtTreeMap.size_insert, if_neg (by simpa using Maps.not_mem_iff.mpr hrecord), h.size]
  have hfits : (fenceText ((request n).nextSnapshot registry.snapshot
      (registry.snapshot.revision + 1))).length ≤ maxFenceSnapshotBytes := by
    have hbound := @length_fenceText_le ((request n).nextSnapshot registry.snapshot
      (registry.snapshot.revision + 1)) 9 (by
        intro key record hkey
        obtain ⟨i, -, rfl, rfl⟩ := hrecords key record hkey
        rw [asBytes_assignmentId]
        exact Nat.le_refl 9)
    rw [hsize] at hbound
    unfold maxFenceSnapshotBytes
    omega
  have habsent : registry.directory[registry.snapshot.revision + 1]? = none := by
    refine Maps.not_mem_iff.mp fun hmem => ?_
    have := h.files _ hmem
    omega
  have hpersist : (persistFenceSnapshot fenceText readFences fileSystem ((request n).nextSnapshot
      registry.snapshot (registry.snapshot.revision + 1))).run registry.directory = _ :=
    Format.persistOnce_of_absent hfits habsent rfl
  have hrun := (commitAssignment_of_newer fenceText readFences hnewer).trans
    (installAssignment_of_persisted fenceText readFences hrevision hpersist)
  constructor
  · rw [call, accepted, hrun]
    rfl
  · rw [call, step, hrun]
    refine ⟨hnumber, hsize, hrecords, ?_, ?_⟩
    · intro key hkey
      rcases Maps.mem_insert_iff.mp hkey with rfl | hkey
      · exact ⟨n, Nat.lt_succ_self n, rfl⟩
      · obtain ⟨i, hi, hkey⟩ := h.active key hkey
        exact ⟨i, Nat.lt_succ_of_lt hi, hkey⟩
    · intro number hnumber'
      obtain ⟨file, hfile⟩ := Maps.mem_iff_exists.mp hnumber'
      rcases Maps.getElem?_insert_eq_some.mp (Format.getElem?_prune hfile) with ⟨rfl, -⟩ | ⟨-, hfile⟩
      · exact hnumber.le
      · exact Nat.le_succ_of_le (h.files number (Maps.mem_of_getElem? hfile))

/-- A condition on every call of the run is one on the last call, too. -/
theorem After.last {Q : AssignmentRegistry → Call → Prop} {n k : ℕ} (hk : n + k ≤ 50000)
    {registry : AssignmentRegistry} (h : After n registry)
    (heach : Runs.Each (step fenceText readFences) Q registry
      ((List.range' n (k + 1)).map call)) :
    ∃ registry, After (n + k) registry ∧ Q registry (call (n + k)) := by
  induction k generalizing n registry with
  | zero => exact ⟨registry, h, heach.1⟩
  | succ k ih =>
    rw [List.range'_succ, List.map_cons] at heach
    obtain ⟨last, hlast, hcall⟩ := ih (by omega) (h.accepts (by omega)).2 heach.2
    rw [Nat.add_right_comm n 1 k] at hlast hcall
    exact ⟨last, hlast, hcall⟩

end Crowd

/-- A resource is assigned, and assigned again after a restart. -/
def restartRun : List Call :=
  [Crowd.call 0, .restart .ascending, .commit Crowd.fileSystem ⟨.vod, "aaaa", 2, "k", .vod 2⟩]

theorem fenced_restartRun : Fenced fenceText readFences
    (loadAssignmentRegistry fenceText readFences .ascending ∅) restartRun := by
  refine fenced_of_withinCapacity readFences_fenceText .ascending ∅ ?_ ?_
  · simp only [restartRun, List.forall_mem_cons]
    exact ⟨Crowd.validated_call 0, trivial, ⟨by decide, by decide, by decide⟩, by simp⟩
  · exact ⟨.inr (by decide), trivial, .inr (by decide), trivial⟩

/-- The writer stores a fence of 50001 resources, which the loader rejects. -/
theorem not_fenced_of_crowd :
    ¬ ∀ (toVec : FenceSnapshot → List UInt8) (fromSlice : List UInt8 → Option FenceSnapshot),
      Faithful toVec fromSlice → ∀ (listing : Listing) (directory : Files) (calls : List Call),
      (∀ call ∈ calls, call.Validated) →
        Fenced toVec fromSlice (loadAssignmentRegistry toVec fromSlice listing directory) calls := by
  intro hclaim
  have hfenced := hclaim fenceText readFences readFences_fenceText .ascending ∅
    ((List.range' 0 50001).map Crowd.call) (by
      intro call hcall
      obtain ⟨n, -, rfl⟩ := List.mem_map.mp hcall
      exact Crowd.validated_call n)
  have hstart : Crowd.After 0 (loadAssignmentRegistry fenceText readFences .ascending ∅) := by
    have hempty : loadFenceSnapshot fenceText readFences .ascending ∅ = .empty :=
      rfl
    constructor <;> simp [loadAssignmentRegistry, hempty, FenceSnapshot.empty]
  obtain ⟨registry, hafter, hreadable⟩ := hstart.last (k := 50000) (by simp) hfenced.readable
  rw [Nat.zero_add] at hafter hreadable
  obtain ⟨haccepted, hnext⟩ := hafter.accepts (Nat.le_refl _)
  have hsize := (validFenceSnapshot_iff.mp (hreadable haccepted).1).2.1
  rw [hnext.size] at hsize
  omega

end Fluvora.MediaWorker
