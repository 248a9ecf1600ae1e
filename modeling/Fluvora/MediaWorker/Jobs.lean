import Fluvora.Lib.Calls
import Fluvora.MediaWorker.Assignments

/-!
# Jobs of the media worker

`create_job`, `create_live_job` and `create_realtime_job` of `crates/services/media-worker` as their
critical sections, the tasks that run the encoders, and `stop_live_job`, in any interleaving.  A
request enters its job in the table, commits the assignment, cancels the job that the assignment
replaces and registers the handle of its own job, each in a section of its own; then it spawns the
task of the job, and a realtime request waits until the encoder has started.
-/

open Std (ExtTreeMap)

namespace Fluvora.MediaWorker

open ApiServer (ApiError)
open Fallible Snapshots

def maxJobsRetained : ℕ := 10000

inductive JobState
  | queued
  | running
  | succeeded
  | failed (reason : String)
  | stopped
deriving DecidableEq

structure Job where
  assetId : String
  state : JobState
deriving DecidableEq

/-! ## Requests -/

/-- What a request is for, with the addresses of the sockets that were reserved for it. -/
inductive JobSpec
  | vod
  | live (destinations : List LiveDestination)
  | realtime (sourceDestination : SocketAddr)
deriving DecidableEq

namespace JobSpec

def kind : JobSpec → AssignmentKind
  | vod => .vod
  | live _ => .live
  | realtime _ => .realtime

def response (jobId : UInt64) : JobSpec → AssignmentResponse
  | vod => .vod jobId
  | live destinations => .live jobId destinations
  | realtime sourceDestination => .realtime jobId sourceDestination

@[simp] theorem jobId_response (spec : JobSpec) (jobId : UInt64) :
    (spec.response jobId).jobId = jobId := by
  cases spec <;> rfl

end JobSpec

/-- A request to create a job; `jobKey` is the asset, the stream or the key that it names. -/
structure CreateRequest where
  spec : JobSpec
  jobKey : String
  placementResourceId : Option String
  placementGeneration : Option UInt64
deriving DecidableEq

def invalidAssetId : ApiError :=
  ⟨422, "invalid_asset_id", "asset id must be 1..=128 ASCII identifier characters"⟩

def invalidPlacementGeneration : ApiError :=
  ⟨422, "invalid_placement_generation", "placement generation must be positive"⟩

def jobIdExhausted : ApiError :=
  ⟨503, "job_id_exhausted", "worker job identifier exhausted"⟩

def jobRegistryFull : ApiError :=
  ⟨503, "job_registry_full", "worker job history capacity reached"⟩

def assignmentTypeConflict : ApiError :=
  ⟨409, "placement_resource_type_conflict",
    "placement resource is already bound to another job type"⟩

def encoderStartFailed (reason : String) : ApiError :=
  ⟨503, "realtime_encoder_start_failed", reason⟩

def encoderStartTimeout : ApiError :=
  ⟨503, "realtime_encoder_start_timeout", "realtime encoder did not confirm startup"⟩

def validateIdentifier (value : String) : Except ApiError Unit :=
  if isIdentifier value then .ok () else .error invalidAssetId

def jobPlacement (resourceId : Option String) (generation : Option UInt64)
    (defaultResourceId : String) : Except ApiError (String × UInt64) := do
  let resourceId := resourceId.getD defaultResourceId
  validateIdentifier resourceId
  let generation := generation.getD 1
  if generation = 0 then .error invalidPlacementGeneration else .ok (resourceId, generation)

/-- The checks of a request, in front of the first section. -/
def CreateRequest.validate (request : CreateRequest) : Except ApiError (String × UInt64) := do
  validateIdentifier request.jobKey
  jobPlacement request.placementResourceId request.placementGeneration request.jobKey

/-! ## States -/

/-- How far the task of a job is. -/
inductive Task
  | queued
  | starting
  | spawning
  | probing
  | encoding
  | failing (reason : String)
  | finishing
  | done
deriving DecidableEq

/-- Where a request stands: the section that it enters next, with what it holds. -/
inductive Point
  | insertJob
  | commit
  | cancelReplaced (replacedJobId : Option UInt64)
  | register
  | awaitReadiness
  | removeJob (result : Except ApiError AssignmentResponse)
  | respond (result : Except ApiError AssignmentResponse)
  | returned (result : Except ApiError AssignmentResponse)
deriving DecidableEq

/-- A request on its way, the task that it has spawned and the two channels between this and the
requests: whether the cancellation was sent, and what the task has sent about its start. -/
structure Creation where
  request : CreateRequest
  resourceId : String
  generation : UInt64
  point : Point
  task : Option Task
  signalled : Bool
  readiness : Option (Except String Unit)
deriving DecidableEq

/-- A worker.  Requests are numbered in the order in which they were given a job identifier; a handle
is the number of the request whose task it stops. -/
structure Worker where
  seed : UInt64
  jobs : ExtTreeMap UInt64 Job
  registry : AssignmentRegistry
  cancellations : ExtTreeMap UInt64 ℕ
  calls : List Creation

namespace Worker

/-- A worker that starts with the files of a directory. -/
def start (toVec : FenceSnapshot → List UInt8) (fromSlice : List UInt8 → Option FenceSnapshot)
    (seed : UInt64) (listing : Listing) (directory : Files) : Worker where
  seed := seed
  jobs := ∅
  registry := loadAssignmentRegistry toVec fromSlice listing directory
  cancellations := ∅
  calls := []

/-- The identifier of the job of a request. -/
def jobId (w : Worker) (call : ℕ) : UInt64 := w.seed + .ofNat call

def setCall (w : Worker) (call : ℕ) (c : Creation) : Worker :=
  { w with calls := w.calls.set call c }

/-- The cancellation is sent through a handle, if there is one. -/
def cancel (w : Worker) (jobId : UInt64) : Worker :=
  match w.cancellations[jobId]? with
  | none => w
  | some call =>
      { w with
        cancellations := w.cancellations.erase jobId
        calls := w.calls.modify call fun c => { c with signalled := true } }

def setState (w : Worker) (jobId : UInt64) (state : JobState) : Worker :=
  { w with jobs := w.jobs.modify jobId fun job => { job with state := state } }

def setFailed (w : Worker) (jobId : UInt64) (reason : String) : Worker :=
  w.setState jobId (.failed (.ofList (reason.toList.take 512)))

end Worker

/-- What a request asks the registry for. -/
def Creation.assignment (c : Creation) (jobId : UInt64) : AssignmentRequest where
  kind := c.request.spec.kind
  resourceId := c.resourceId
  generation := c.generation
  jobKey := c.request.jobKey
  response := c.request.spec.response jobId

/-- The answer to a request that repeats another, which has to be of the same type. -/
def duplicateResult (spec : JobSpec) (existing : AssignmentResponse) :
    Except ApiError AssignmentResponse :=
  match spec, existing with
  | .vod, .vod jobId => .ok (.vod jobId)
  | .live _, .live jobId destinations => .ok (.live jobId destinations)
  | .realtime _, .realtime jobId sourceDestination => .ok (.realtime jobId sourceDestination)
  | _, _ => .error assignmentTypeConflict

/-! ## Steps -/

/-- What happens to the task of a job: what it waits for, what the encoder does, and the sections
in which it writes. -/
inductive TaskEvent
  | permit
  | shutDown
  | run
  | spawned
  | notSpawned
  | alive
  | exitedEarly (code : ℤ)
  | checkFailed (error : String)
  | exited (code : ℤ)
  | waitFailed (error : String)
  | cancelled
  | settle
  | finish

inductive Action
  | create (request : CreateRequest)
  | advance (call : ℕ) (io : Io)
  | timeout (call : ℕ)
  | task (call : ℕ) (event : TaskEvent)
  | stop (jobId : UInt64)

/-- The word for the encoder in the messages of a task. -/
def JobSpec.encoder : JobSpec → String
  | vod => "encoder"
  | live _ => "live encoder"
  | realtime _ => "live encoder"

namespace Worker

/-- A request that passes the checks takes a job identifier. -/
def create (w : Worker) (request : CreateRequest) : Worker :=
  match request.validate with
  | .error _ => w
  | .ok (resourceId, generation) =>
      let point : Point :=
        if w.jobId w.calls.length = .ofNat (2 ^ 64 - 1) then .returned (.error jobIdExhausted)
        else .insertJob
      { w with
        calls := w.calls ++ [⟨request, resourceId, generation, point, none, false, none⟩] }

section

variable (toVec : FenceSnapshot → List UInt8) (fromSlice : List UInt8 → Option FenceSnapshot)

/-- One section of a request. -/
def runSection (w : Worker) (call : ℕ) (c : Creation) (io : Io) : Worker :=
  match c.point with
  | .insertJob =>
      if maxJobsRetained ≤ w.jobs.size then
        w.setCall call { c with point := .returned (.error jobRegistryFull) }
      else
        { w.setCall call { c with point := .commit } with
          jobs := w.jobs.insert (w.jobId call) ⟨c.request.jobKey, .queued⟩ }
  | .commit =>
      let committed :=
        (commitAssignment toVec fromSlice io (c.assignment (w.jobId call))).run w.registry
      let point : Point := match committed.1 with
        | .ok (.accepted replacedJobId) => .cancelReplaced replacedJobId
        | .ok (.duplicate existing) => .removeJob (duplicateResult c.request.spec existing)
        | .error error => .removeJob (.error error)
      { w.setCall call { c with point := point } with registry := committed.2 }
  | .cancelReplaced replacedJobId =>
      let w := w.setCall call { c with point := .register }
      match replacedJobId with
      | some jobId => w.cancel jobId
      | none => w
  | .register =>
      let task : Task := if c.request.spec.kind = .vod then .queued else .starting
      let point : Point := if c.request.spec.kind = .realtime then .awaitReadiness
        else .respond (.ok (c.request.spec.response (w.jobId call)))
      { w.setCall call { c with point := point, task := some task } with
        cancellations := w.cancellations.insert (w.jobId call) call }
  | .awaitReadiness =>
      match c.readiness with
      | none => w
      | some (.ok _) =>
          w.setCall call { c with
            point := .respond (.ok (c.request.spec.response (w.jobId call))) }
      | some (.error reason) =>
          w.setCall call { c with point := .respond (.error (encoderStartFailed reason)) }
  | .removeJob result =>
      { w.setCall call { c with point := .respond result } with
        jobs := w.jobs.erase (w.jobId call) }
  | .respond result => w.setCall call { c with point := .returned result }
  | .returned _ => w

/-- The request has waited for the encoder in vain. -/
def timeout (w : Worker) (call : ℕ) (c : Creation) : Worker :=
  match c.point, c.readiness with
  | .awaitReadiness, none =>
      w.setCall call { c with point := .respond (.error encoderStartTimeout) }
  | _, _ => w

/-- A realtime task tells its request why the encoder has not started. -/
def failStart (w : Worker) (call : ℕ) (c : Creation) (reason : String) : Worker :=
  w.setCall call { c with
    task := some (.failing reason)
    readiness := if c.request.spec.kind = .realtime then some (.error reason) else c.readiness }

/-- The end of the encoder; the state of the job is written. -/
def complete (w : Worker) (call : ℕ) (c : Creation) (state : JobState) : Worker :=
  (w.setCall call { c with task := some .finishing }).setState (w.jobId call) state

/-- One step of `run_job` or `run_live_job`. -/
def runTask (w : Worker) (call : ℕ) (c : Creation) (event : TaskEvent) : Worker :=
  match c.task, event with
  | some .queued, .permit => w.setCall call { c with task := some .starting }
  | some .queued, .shutDown =>
      w.setCall call { c with task := some (.failing "worker is shutting down") }
  | some .queued, .cancelled => if c.signalled then w.complete call c .stopped else w
  | some .starting, .run =>
      (w.setCall call { c with task := some .spawning }).setState (w.jobId call) .running
  | some .spawning, .spawned =>
      w.setCall call { c with
        task := some (if c.request.spec.kind = .realtime then .probing else .encoding) }
  | some .spawning, .notSpawned =>
      w.failStart call c (c.request.spec.encoder ++ " failed to start")
  | some .probing, .alive =>
      w.setCall call { c with task := some .encoding, readiness := some (.ok ()) }
  | some .probing, .exitedEarly code =>
      w.failStart call c ("realtime encoder exited during startup with " ++ toString code)
  | some .probing, .checkFailed error =>
      w.failStart call c ("realtime encoder startup check failed: " ++ error)
  | some .encoding, .exited code =>
      if code = 0 then w.complete call c .succeeded
      else w.setCall call { c with
        task := some (.failing (c.request.spec.encoder ++ " exited with " ++ toString code)) }
  | some .encoding, .waitFailed error =>
      w.setCall call { c with
        task := some (.failing (c.request.spec.encoder ++ " wait failed: " ++ error)) }
  | some .encoding, .cancelled => if c.signalled then w.complete call c .stopped else w
  | some (.failing reason), .settle =>
      (w.setCall call { c with task := some .finishing }).setFailed (w.jobId call) reason
  | some .finishing, .finish =>
      { w.setCall call { c with task := some .done } with
        cancellations := w.cancellations.erase (w.jobId call) }
  | _, _ => w

def step (w : Worker) : Action → Worker
  | .create request => w.create request
  | .advance call io =>
      match w.calls[call]? with
      | some c => w.runSection toVec fromSlice call c io
      | none => w
  | .timeout call =>
      match w.calls[call]? with
      | some c => w.timeout call c
      | none => w
  | .task call event =>
      match w.calls[call]? with
      | some c => w.runTask call c event
      | none => w
  | .stop jobId => w.cancel jobId

end

end Worker

/-! ## What a task can do -/

/-- The encoder does not run any more, or never will. -/
def Task.over : Task → Bool
  | failing _ => true
  | finishing => true
  | done => true
  | _ => false

/-- The events that end a task. -/
def Task.endedBy : Task → TaskEvent → Bool
  | queued, .shutDown => true
  | queued, .cancelled => true
  | spawning, .notSpawned => true
  | probing, .exitedEarly _ => true
  | probing, .checkFailed _ => true
  | encoding, .exited _ => true
  | encoding, .waitFailed _ => true
  | encoding, .cancelled => true
  | _, _ => false

/-- The transitions of a task up to its last one, with what it sends about its start. -/
inductive Task.Moves (kind : AssignmentKind) (readiness : Option (Except String Unit)) :
    Task → Task → Option (Except String Unit) → Prop
  | permit : Moves kind readiness .queued .starting readiness
  | run : Moves kind readiness .starting .spawning readiness
  | spawn (h : kind ≠ .realtime) : Moves kind readiness .spawning .encoding readiness
  | probe (h : kind = .realtime) : Moves kind readiness .spawning .probing readiness
  | confirm : Moves kind readiness .probing .encoding (some (.ok ()))
  | failStart {task : Task} (reason : String) (h : task = .spawning ∨ task = .probing) :
      Moves kind readiness task (.failing reason)
        (if kind = .realtime then some (.error reason) else readiness)
  | fail {task : Task} (reason : String) (h : task = .queued ∨ task = .encoding) :
      Moves kind readiness task (.failing reason) readiness
  | complete {task : Task} (h : task = .queued ∨ task = .encoding) :
      Moves kind readiness task .finishing readiness
  | settle (reason : String) : Moves kind readiness (.failing reason) .finishing readiness

theorem Task.Moves.ne_done {kind : AssignmentKind} {readiness readiness' : Option (Except String Unit)}
    {task task' : Task} (h : Moves kind readiness task task' readiness') :
    task ≠ .done ∧ task' ≠ .done := by
  cases h with
  | failStart reason h => rcases h with rfl | rfl <;> simp
  | fail reason h => rcases h with rfl | rfl <;> simp
  | complete h => rcases h with rfl | rfl <;> simp
  | _ => simp

namespace Worker

/-- A step of a task is one of its transitions, or it takes its handle away and is done. -/
inductive TaskStep (w : Worker) (call : ℕ) (c : Creation) (event : TaskEvent) : Worker → Prop
  | idle : TaskStep w call c event w
  | moves {task task' : Task} {readiness : Option (Except String Unit)}
      (jobs : ExtTreeMap UInt64 Job) (htask : c.task = some task)
      (hmoves : task.Moves c.request.spec.kind c.readiness task' readiness)
      (hends : task.over = true ∨ task'.over = task.endedBy event)
      (halive : task = .probing → task' = .encoding → event = .alive) :
      TaskStep w call c event
        { w.setCall call { c with task := some task', readiness := readiness } with jobs := jobs }
  | finish (htask : c.task = some .finishing) :
      TaskStep w call c event
        { w.setCall call { c with task := some .done } with
          cancellations := w.cancellations.erase (w.jobId call) }

theorem taskStep_runTask (w : Worker) (call : ℕ) (c : Creation) (event : TaskEvent) :
    TaskStep w call c event (w.runTask call c event) := by
  unfold runTask
  split
  next htask => exact .moves _ htask .permit (.inr rfl) (by simp)
  next htask => exact .moves _ htask (.fail _ (.inl rfl)) (.inr rfl) (by simp)
  next htask =>
    split_ifs
    · exact .moves _ htask (.complete (.inl rfl)) (.inr rfl) (by simp)
    · exact .idle
  next htask => exact .moves _ htask .run (.inr rfl) (by simp)
  next htask =>
    split_ifs with hkind
    · exact .moves _ htask (.probe hkind) (.inr rfl) (by simp)
    · exact .moves _ htask (.spawn hkind) (.inr rfl) (by simp)
  next htask => exact .moves _ htask (.failStart _ (.inl rfl)) (.inr rfl) (by simp)
  next htask => exact .moves _ htask .confirm (.inr rfl) (by simp)
  next htask => exact .moves _ htask (.failStart _ (.inr rfl)) (.inr rfl) (by simp)
  next htask => exact .moves _ htask (.failStart _ (.inr rfl)) (.inr rfl) (by simp)
  next htask =>
    split_ifs
    · exact .moves _ htask (.complete (.inr rfl)) (.inr rfl) (by simp)
    · exact .moves _ htask (.fail _ (.inr rfl)) (.inr rfl) (by simp)
  next htask => exact .moves _ htask (.fail _ (.inr rfl)) (.inr rfl) (by simp)
  next htask =>
    split_ifs
    · exact .moves _ htask (.complete (.inr rfl)) (.inr rfl) (by simp)
    · exact .idle
  next htask => exact .moves _ htask (.settle _) (.inl rfl) (by simp)
  next htask => exact .finish htask
  next => exact .idle

end Worker

/-! ## What a request can do -/

/-- The request has not spawned a task. -/
def Point.beforeTask : Point → Bool
  | .insertJob => true
  | .commit => true
  | .cancelReplaced _ => true
  | .register => true
  | .removeJob _ => true
  | _ => false

namespace Worker

/-- The point after the registration of a job: a realtime request waits for the encoder. -/
def registeredPoint (w : Worker) (call : ℕ) (c : Creation) : Point :=
  if c.request.spec.kind = .realtime then .awaitReadiness
  else .respond (.ok (c.request.spec.response (w.jobId call)))

/-- A section of a request, one case for each thing that it can do. -/
inductive SectionStep (w : Worker) (call : ℕ) (c : Creation) : Worker → Prop
  | idle : SectionStep w call c w
  | full (hpoint : c.point = .insertJob) :
      SectionStep w call c (w.setCall call { c with point := .returned (.error jobRegistryFull) })
  | inserted (jobs : ExtTreeMap UInt64 Job) (hpoint : c.point = .insertJob) :
      SectionStep w call c { w.setCall call { c with point := .commit } with jobs := jobs }
  | refused (error : ApiError) (hpoint : c.point = .commit) :
      SectionStep w call c (w.setCall call { c with point := .removeJob (.error error) })
  | duplicate {current : WorkerAssignment} (hpoint : c.point = .commit)
      (hcurrent : w.registry.active[(c.assignment (w.jobId call)).assignmentId]? = some current)
      (hgeneration : current.generation = c.generation)
      (hjobKey : current.jobKey = c.request.jobKey) :
      SectionStep w call c (w.setCall call
        { c with point := .removeJob (duplicateResult c.request.spec current.response) })
  | accepted (revision : UInt64) (directory : Files) (hpoint : c.point = .commit)
      (hnewer : w.registry.Newer (c.assignment (w.jobId call))) :
      SectionStep w call c
        { w.setCall call { c with
            point := .cancelReplaced
              (w.registry.active[(c.assignment (w.jobId call)).assignmentId]?.map
                (·.response.jobId)) } with
          registry := w.registry.accept (c.assignment (w.jobId call)) revision directory }
  | released (hpoint : c.point = .cancelReplaced none) :
      SectionStep w call c (w.setCall call { c with point := .register })
  | cancelled {jobId : UInt64} (hpoint : c.point = .cancelReplaced (some jobId)) :
      SectionStep w call c ((w.setCall call { c with point := .register }).cancel jobId)
  | registered (hpoint : c.point = .register) :
      SectionStep w call c
        { w.setCall call { c with
            point := w.registeredPoint call c
            task := some (if c.request.spec.kind = .vod then .queued else .starting) } with
          cancellations := w.cancellations.insert (w.jobId call) call }
  | ready (hpoint : c.point = .awaitReadiness) (hready : c.readiness = some (.ok ())) :
      SectionStep w call c (w.setCall call
        { c with point := .respond (.ok (c.request.spec.response (w.jobId call))) })
  | notReady {reason : String} (hpoint : c.point = .awaitReadiness)
      (hready : c.readiness = some (.error reason)) :
      SectionStep w call c (w.setCall call
        { c with point := .respond (.error (encoderStartFailed reason)) })
  | removed (jobs : ExtTreeMap UInt64 Job) {result : Except ApiError AssignmentResponse}
      (hpoint : c.point = .removeJob result) :
      SectionStep w call c { w.setCall call { c with point := .respond result } with jobs := jobs }
  | responded {result : Except ApiError AssignmentResponse} (hpoint : c.point = .respond result) :
      SectionStep w call c (w.setCall call { c with point := .returned result })

theorem sectionStep_runSection (toVec : FenceSnapshot → List UInt8)
    (fromSlice : List UInt8 → Option FenceSnapshot) (w : Worker) (call : ℕ) (c : Creation)
    (io : Io) : SectionStep w call c (w.runSection toVec fromSlice call c io) := by
  unfold runSection
  cases hpoint : c.point with
  | insertJob =>
    dsimp only
    split_ifs
    · exact .full hpoint
    · exact .inserted _ hpoint
  | commit =>
    dsimp only
    rcases commitAssignment_cases toVec fromSlice io (c.assignment (w.jobId call)) w.registry with
      ⟨error, hrun⟩ | ⟨current, hcurrent, hgeneration, hjobKey, hrun⟩ |
        ⟨revision, directory, hnewer, -, -, hrun⟩
    · rw [hrun]
      exact .refused error hpoint
    · rw [hrun]
      exact .duplicate hpoint hcurrent hgeneration hjobKey
    · rw [hrun]
      exact .accepted revision directory hpoint hnewer
  | cancelReplaced replacedJobId =>
    cases replacedJobId with
    | none => exact .released hpoint
    | some jobId => exact .cancelled hpoint
  | register => exact .registered hpoint
  | awaitReadiness =>
    dsimp only
    split
    next => exact .idle
    next hready => exact .ready hpoint hready
    next hready => exact .notReady hpoint hready
  | removeJob result => exact .removed _ hpoint
  | respond result => exact .responded hpoint
  | returned result => exact .idle

/-- A request that has waited in vain fails; any other goes on. -/
theorem timeout_cases (w : Worker) (call : ℕ) (c : Creation) :
    w.timeout call c = w ∨ c.point = .awaitReadiness ∧ c.readiness = none ∧
      w.timeout call c = w.setCall call { c with point := .respond (.error encoderStartTimeout) } := by
  unfold timeout
  split
  next hpoint hready => exact .inr ⟨hpoint, hready, rfl⟩
  next => exact .inl rfl

/-! ## Identifiers and cancellations -/

theorem jobId_injective {w : Worker} (hcount : w.calls.length ≤ 2 ^ 64) {i k : ℕ}
    (hi : i < w.calls.length) (hk : k < w.calls.length) (h : w.jobId i = w.jobId k) : i = k := by
  unfold jobId at h
  have hnat := congrArg UInt64.toNat ((UInt64.add_right_inj _).mp h)
  rw [UInt64.toNat_ofNat', UInt64.toNat_ofNat', Nat.mod_eq_of_lt (by omega),
    Nat.mod_eq_of_lt (by omega)] at hnat
  exact hnat

theorem cancel_setCall {w : Worker} {jobId : UInt64} {call : ℕ} {c : Creation}
    (hne : ∀ other, w.cancellations[jobId]? = some other → other ≠ call) :
    (w.setCall call c).cancel jobId = (w.cancel jobId).setCall call c := by
  unfold cancel setCall
  dsimp only
  cases hhandle : w.cancellations[jobId]? with
  | none => rfl
  | some other =>
    dsimp only
    rw [Calls.modify_set_comm (hne other hhandle)]

theorem jobId_cancel (w : Worker) (jobId : UInt64) : (w.cancel jobId).jobId = w.jobId := by
  unfold cancel
  split <;> rfl

/-- A cancellation changes nothing but the channel of the task. -/
theorem getElem?_cancel {w : Worker} {jobId : UInt64} {call : ℕ} {c : Creation}
    (h : (w.cancel jobId).calls[call]? = some c) :
    ∃ c', w.calls[call]? = some c' ∧ (c = c' ∨
      w.cancellations[jobId]? = some call ∧ c = { c' with signalled := true }) := by
  unfold cancel at h
  cases hhandle : w.cancellations[jobId]? with
  | none =>
    rw [hhandle] at h
    exact ⟨c, h, .inl rfl⟩
  | some other =>
    simp only [hhandle, List.getElem?_modify, Option.map_eq_map, Option.map_eq_some_iff] at h
    obtain ⟨c', hc', hc⟩ := h
    refine ⟨c', hc', ?_⟩
    split_ifs at hc with heq
    · exact .inr ⟨by rw [heq], hc.symm⟩
    · exact .inl hc.symm

theorem getElem?_cancel_of_ne {w : Worker} {jobId : UInt64} {call : ℕ} {c : Creation}
    (h : w.calls[call]? = some c) (hne : w.cancellations[jobId]? ≠ some call) :
    (w.cancel jobId).calls[call]? = some c := by
  unfold cancel
  split
  · exact h
  · next other hhandle =>
    have hother : other ≠ call := by
      rintro rfl
      exact hne hhandle
    simp [List.getElem?_modify, hother, h]

end Worker

end Fluvora.MediaWorker
