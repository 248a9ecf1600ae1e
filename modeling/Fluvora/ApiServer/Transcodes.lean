import Fluvora.ApiServer.GiftReceipts
import Fluvora.Net.Address
import Fluvora.TranscodeBridge.Sharing

/-!
# Shared transcoders of the API server

The registry of transcoders behind its lock, and the requests that hold references into it between two
sections: `subscribe_track` between the choice of a path and the answer of the media node,
`unsubscribe_track` and `cleanup_subscription` between forgetting a subscription and releasing its
transcoder, and the teardown of a transcoder that nobody holds any more.  The reconciler replaces the
worker of a transcoder, one transcoder at a time, between any of them.

What a transcoder needs from other services (an ingress on the media node, a job on a worker, a
recording sink) is opened and closed by requests to them; `opened` and `closed` are the history of
these requests.
-/

namespace Fluvora.ApiServer

open Domain (RoomId)
open TranscodeBridge

structure SubscriptionKey where
  roomId : RoomId
  participant : BitVec 128
  subscriptionId : UInt64
deriving DecidableEq

structure ActiveTranscode where
  roomId : RoomId
  workerJobId : UInt64
  workerEndpoint : String
  workerPlacementId : String
  workerPlacementGeneration : UInt64
  ingressId : UInt64
  outputTrackId : UInt64
  outputSsrc : UInt32
  outputCodec : MediaCodec
  sourceTrackId : UInt64
  sourceDestination : SocketAddr
  outputDestination : SocketAddr
deriving DecidableEq

structure TranscodeRegistry where
  coordinator : Coordinator
  active : Entries JobId ActiveTranscode
  subscriptions : Entries SubscriptionKey JobId
deriving DecidableEq

/-- What is held at another service. -/
inductive Resource
  | ingress (roomId : RoomId) (ingressId : UInt64)
  | worker (endpoint : String) (jobId : UInt64)
  | sink (roomId : RoomId) (trackId : UInt64) (destination : SocketAddr)
deriving DecidableEq

namespace ActiveTranscode

def worker (active : ActiveTranscode) : Resource := .worker active.workerEndpoint active.workerJobId

def sink (active : ActiveTranscode) : Resource :=
  .sink active.roomId active.sourceTrackId active.sourceDestination

def ingress (active : ActiveTranscode) : Resource := .ingress active.roomId active.ingressId

def resources (active : ActiveTranscode) : Multiset Resource :=
  {active.ingress, active.worker, active.sink}

end ActiveTranscode

/-! ## Provisioning -/

structure IngressAnswer where
  outputTrackId : UInt64
  outputSsrc : UInt32
  ingressId : UInt64
  destination : SocketAddr

structure PlacementAnswer where
  endpoint : String
  generation : UInt64

structure WorkerAnswer where
  jobId : UInt64
  sourceDestination : SocketAddr

/-- The answers of the other services while a transcoder is provisioned; `none` for one that fails, or
for a number that cannot be drawn. -/
structure ProvisionIo where
  ingress : Option IngressAnswer
  placement : Option PlacementAnswer
  worker : Option WorkerAnswer
  sink : Bool

/-- What provisioning leaves: a transcoder if all went well, and the requests that were made. -/
structure Provisioned where
  active : Option ActiveTranscode
  opened : Multiset Resource
  closed : Multiset Resource

/-- Sets up what a transcoder needs, one service after the other; what was set up is taken back when a
later service fails. -/
def provisionTranscode (roomId : RoomId) (sourceTrackId : UInt64) (spec : TranscodeSpec)
    (jobId : JobId) (io : ProvisionIo) : Provisioned :=
  match io.ingress with
  | none => ⟨none, 0, 0⟩
  | some ingress =>
      let ingressResource := Resource.ingress roomId ingress.ingressId
      match io.placement with
      | none => ⟨none, {ingressResource}, {ingressResource}⟩
      | some placement =>
          match io.worker with
          | none => ⟨none, {ingressResource}, {ingressResource}⟩
          | some worker =>
              let workerResource := Resource.worker placement.endpoint worker.jobId
              if io.sink then
                let active : ActiveTranscode :=
                  { roomId
                    workerJobId := worker.jobId
                    workerEndpoint := placement.endpoint
                    workerPlacementId := roomIdText roomId ++ "-" ++ toString jobId.toNat
                    workerPlacementGeneration := placement.generation
                    ingressId := ingress.ingressId
                    outputTrackId := ingress.outputTrackId
                    outputSsrc := ingress.outputSsrc
                    outputCodec := spec.targetCodec
                    sourceTrackId
                    sourceDestination := worker.sourceDestination
                    outputDestination := ingress.destination }
                ⟨some active, active.resources, 0⟩
              else
                ⟨none, {ingressResource, workerResource}, {workerResource, ingressResource}⟩

/-! ## The server -/

/-- Where a request stands between two of its sections. -/
inductive TranscodePoint
  | subscribing (key : SubscriptionKey) (jobId : JobId)
  | releasing (jobId : JobId)
  | tearing (active : ActiveTranscode)
deriving DecidableEq

/-- A worker that is to replace another one, and its placement. -/
structure Replacement where
  worker : WorkerAnswer
  placement : PlacementAnswer

/-- The transcoder with its new worker. -/
def ActiveTranscode.replaceWorker (active : ActiveTranscode) (replacement : Replacement) :
    ActiveTranscode :=
  { active with
    workerJobId := replacement.worker.jobId
    workerEndpoint := replacement.placement.endpoint
    workerPlacementGeneration := replacement.placement.generation
    sourceDestination := replacement.worker.sourceDestination }

/-- Where the reconciler stands: it has read what it restarts, the replacement runs beside the old
worker, and one of the two is to be removed. -/
inductive Reconciler
  | idle
  | captured (jobId : JobId) (active : ActiveTranscode)
  | replaced (jobId : JobId) (active : ActiveTranscode) (replacement : Replacement)
  | rollingBack (active : ActiveTranscode) (replacement : Replacement)
  | retiring (active : ActiveTranscode)

/-- The registry, the requests on their way and the reconciler.  The rest is history: the requests to
other services, the references of subscriptions that were overwritten, and the jobs that were torn
down with their source. -/
structure TranscodeServer where
  registry : TranscodeRegistry
  calls : Multiset TranscodePoint
  reconciler : Reconciler
  opened : Multiset Resource
  closed : Multiset Resource
  lost : Multiset JobId
  torn : Multiset JobId

/-- How `acquire_transcode` fails. -/
inductive AcquireFailure
  | allocationFailed (error : TranscodeError)
  | stateInconsistent
  | serviceFailed
deriving DecidableEq

namespace TranscodeServer

def new (quotas : Quotas) : TranscodeServer where
  registry := ⟨.new quotas, .empty, .empty⟩
  calls := 0
  reconciler := .idle
  opened := 0
  closed := 0
  lost := 0
  torn := 0

def withCoordinator (s : TranscodeServer) (coordinator : Coordinator) : TranscodeServer :=
  { s with registry.coordinator := coordinator }

/-- `acquire_transcode`: the lock is held until the transcoder is provisioned. -/
def acquireTranscode (s : TranscodeServer) (roomId : RoomId) (sourceTrackId : UInt64)
    (spec : TranscodeSpec) (io : ProvisionIo) :
    Except AcquireFailure (JobId × ActiveTranscode) × TranscodeServer :=
  match s.registry.coordinator.acquire (roomIdText roomId) spec with
  | (.error error, coordinator) => (.error (.allocationFailed error), s.withCoordinator coordinator)
  | (.ok allocation, coordinator) =>
      if allocation.reused then
        match s.registry.active.get? allocation.jobId with
        | some active => (.ok (allocation.jobId, active), s.withCoordinator coordinator)
        | none => (.error .stateInconsistent, s.withCoordinator coordinator)
      else
        let provisioned := provisionTranscode roomId sourceTrackId spec allocation.jobId io
        let s := { s with
          opened := provisioned.opened + s.opened
          closed := provisioned.closed + s.closed }
        match provisioned.active with
        | none =>
            (.error .serviceFailed, s.withCoordinator (coordinator.release allocation.jobId).2)
        | some active =>
            let ready := JobState.ready (toString active.outputTrackId.toNat)
            match coordinator.updateState allocation.jobId ready with
            | (.error error, coordinator) =>
                (.error (.allocationFailed error), s.withCoordinator coordinator)
            | (.ok (), coordinator) =>
                (.ok (allocation.jobId, active),
                  { s.withCoordinator coordinator with
                    registry.active := s.registry.active.insert allocation.jobId active })

/-- `release_transcode`: the last reference takes the transcoder out of the registry. -/
def releaseTranscode (s : TranscodeServer) (jobId : JobId) : TranscodeServer :=
  let finalReference := s.registry.coordinator.references jobId = some 1
  let s := s.withCoordinator (s.registry.coordinator.release jobId).2
  if finalReference then
    match s.registry.active.get? jobId with
    | some active =>
        { s with
          registry.active := s.registry.active.erase jobId
          calls := .tearing active ::ₘ s.calls }
    | none => s
  else s

/-- The loop that releases a job as long as there are references to it; `n` of them are enough. -/
def releaseWhile (coordinator : Coordinator) (jobId : JobId) : ℕ → Coordinator
  | 0 => coordinator
  | n + 1 =>
      if (coordinator.references jobId).any (0 < ·) then
        releaseWhile (coordinator.release jobId).2 jobId n
      else coordinator

def releaseAll (coordinator : Coordinator) (jobId : JobId) : Coordinator :=
  releaseWhile coordinator jobId ((coordinator.references jobId).getD 0)

/-- One job of `teardown_transcodes_for_source`. -/
def dropJob (s : TranscodeServer) (jobId : JobId) : TranscodeServer :=
  let s := { s.withCoordinator (releaseAll s.registry.coordinator jobId) with
    torn := jobId ::ₘ s.torn }
  match s.registry.active.get? jobId with
  | some active =>
      { s with
        registry.active := s.registry.active.erase jobId
        calls := .tearing active ::ₘ s.calls }
  | none => s

/-- The jobs whose source is a track. -/
def jobsOf (s : TranscodeServer) (roomId : RoomId) (sourceTrackId : UInt64) : List JobId :=
  (s.registry.active.toList.filter fun entry =>
    entry.2.roomId = roomId ∧ entry.2.sourceTrackId = sourceTrackId).map Prod.fst

def teardownTranscodesForSource (s : TranscodeServer) (roomId : RoomId) (sourceTrackId : UInt64) :
    TranscodeServer :=
  let jobIds := s.jobsOf roomId sourceTrackId
  jobIds.foldl dropJob { s with
    registry.subscriptions := s.registry.subscriptions.retain fun _ jobId => jobId ∉ jobIds }

/-- A subscription is recorded.  The one that the key had is forgotten, its reference is not given
back. -/
def insertSubscription (s : TranscodeServer) (key : SubscriptionKey) (jobId : JobId) :
    TranscodeServer :=
  { s with
    registry.subscriptions := s.registry.subscriptions.insert key jobId
    lost := s.lost + (s.registry.subscriptions.get? key).elim 0 fun old => {old} }

/-- The answers of the other services while a worker is replaced. -/
structure ReplaceIo where
  placement : Option PlacementAnswer
  worker : Option WorkerAnswer
  sink : Bool

/-- The worker and the sink of a replacement. -/
def replacementResources (active : ActiveTranscode) (replacement : Replacement) :
    Multiset Resource :=
  {.worker replacement.placement.endpoint replacement.worker.jobId,
    .sink active.roomId active.sourceTrackId replacement.worker.sourceDestination}

/-- `create_replacement_worker`. -/
def createReplacementWorker (s : TranscodeServer) (jobId : JobId) (active : ActiveTranscode)
    (io : ReplaceIo) : TranscodeServer :=
  match io.placement with
  | none => { s with reconciler := .idle }
  | some placement =>
      match io.worker with
      | none => { s with reconciler := .idle }
      | some worker =>
          let workerResource := Resource.worker placement.endpoint worker.jobId
          if io.sink then
            { s with
              reconciler := .replaced jobId active ⟨worker, placement⟩
              opened := replacementResources active ⟨worker, placement⟩ + s.opened }
          else
            { s with
              reconciler := .idle
              opened := workerResource ::ₘ s.opened
              closed := workerResource ::ₘ s.closed }

/-- The section of `restart_transcode` that puts the replacement in place, if the transcoder still has
the worker that failed. -/
def commitReplacement (s : TranscodeServer) (jobId : JobId) (active : ActiveTranscode)
    (replacement : Replacement) : TranscodeServer :=
  match s.registry.active.get? jobId with
  | some current =>
      if current.workerJobId = active.workerJobId then
        { s with
          registry.active := s.registry.active.insert jobId (current.replaceWorker replacement)
          reconciler := .retiring active }
      else { s with reconciler := .rollingBack active replacement }
  | none => { s with reconciler := .rollingBack active replacement }

inductive Action
  | subscribe (key : SubscriptionKey) (sourceTrackId : UInt64) (spec : TranscodeSpec)
      (io : ProvisionIo)
  | answered (key : SubscriptionKey) (jobId : JobId) (accepted : Bool)
  | unsubscribe (key : SubscriptionKey)
  | release (jobId : JobId)
  | unpublish (roomId : RoomId) (sourceTrackId : UInt64)
  | tearDown (active : ActiveTranscode)
  | restart (jobId : JobId) (failedWorkerJobId : UInt64)
  | replace (io : ReplaceIo)
  | commit
  | finish

/-- One section of a request or of the reconciler; one that is not where it claims to be does
nothing. -/
def step (s : TranscodeServer) : Action → TranscodeServer
  | .subscribe key sourceTrackId spec io =>
      match s.acquireTranscode key.roomId sourceTrackId spec io with
      | (.ok (jobId, _), s) => { s with calls := .subscribing key jobId ::ₘ s.calls }
      | (.error _, s) => s
  | .answered key jobId accepted =>
      if .subscribing key jobId ∈ s.calls then
        let s := { s with calls := s.calls.erase (.subscribing key jobId) }
        if accepted then s.insertSubscription key jobId else s.releaseTranscode jobId
      else s
  | .unsubscribe key =>
      match s.registry.subscriptions.get? key with
      | some jobId =>
          { s with
            registry.subscriptions := s.registry.subscriptions.erase key
            calls := .releasing jobId ::ₘ s.calls }
      | none => s
  | .release jobId =>
      if .releasing jobId ∈ s.calls then
        releaseTranscode { s with calls := s.calls.erase (.releasing jobId) } jobId
      else s
  | .unpublish roomId sourceTrackId => s.teardownTranscodesForSource roomId sourceTrackId
  | .tearDown active =>
      if .tearing active ∈ s.calls then
        { s with
          calls := s.calls.erase (.tearing active)
          closed := active.resources + s.closed }
      else s
  | .restart jobId failedWorkerJobId =>
      match s.reconciler, s.registry.active.get? jobId, s.registry.coordinator.specification jobId with
      | .idle, some active, some _ =>
          if active.workerJobId = failedWorkerJobId then
            { s with reconciler := .captured jobId active }
          else s
      | _, _, _ => s
  | .replace io =>
      match s.reconciler with
      | .captured jobId active => s.createReplacementWorker jobId active io
      | _ => s
  | .commit =>
      match s.reconciler with
      | .replaced jobId active replacement => s.commitReplacement jobId active replacement
      | _ => s
  | .finish =>
      match s.reconciler with
      | .rollingBack active replacement =>
          { s with
            reconciler := .idle
            closed := replacementResources active replacement + s.closed }
      | .retiring active =>
          { s with
            reconciler := .idle
            closed := {active.worker, active.sink} + s.closed }
      | _ => s

end TranscodeServer

end Fluvora.ApiServer
