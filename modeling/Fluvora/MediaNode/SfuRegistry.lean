import Fluvora.Net.Address
import Fluvora.Rtcp.Encoding
import Fluvora.Sfu.Room

/-!
# The SFU registry of a media node

`SfuRegistry` of `crates/services/media-node`: rooms with the maps that the service keeps beside its
SFU core, and the recording sinks.  The critical sections on one room are functions of
`ManagedRoom`; the calls look up the room, run the section and do what follows it.  The bandwidth
estimator and the layer selectors, which only feedback packets read, are left out.
-/

open Std (ExtTreeMap LawfulEqCmp LawfulEqOrd TransCmp TransOrd)

namespace Fluvora.MediaNode

open Fallible
open MediaCodec (Codec)
open Sfu (Encoding Layer MediaKind ParticipantId PublishedTrack Room RoomConfig SfuError SfuEvent
  SubscriptionConfig SubscriptionId TrackId)

inductive SfuRuntimeError
  | invalidIdentifier
  | unknownRoom
  | unknownParticipant
  | unknownTrack
  | trackOwnedByAnotherParticipant
  | unknownSubscription
  | unknownSourceSsrc
  | unsafeRecordingDestination
  | core (error : SfuError)
deriving DecidableEq

/-- Control-plane description of a publisher track. -/
structure PublishTrack where
  roomId : String
  participantId : String
  trackId : TrackId
  kind : MediaKind
  codec : Codec
  clockRate : UInt32
  payloadType : UInt8
  encodings : List Encoding

/-- Control-plane description of one subscriber down-track. -/
structure SubscribeTrack where
  roomId : String
  participantId : String
  subscriptionId : SubscriptionId
  trackId : TrackId
  outputSsrc : UInt32
  outputPayloadType : UInt8
  spatialLayer : UInt8
  temporalLayer : UInt8
  initialSequenceNumber : UInt16
  initialTimestamp : UInt32
  extensionRewrites : List Rtp.ExtensionRewrite
  transportWideExtensionId : Option UInt8

/-- Clear RTCP for a destination session. -/
structure RtcpRoute where
  sessionId : String
  packet : Bytes
deriving DecidableEq

/-- The layers that a down-track may be switched to. -/
structure SubscriptionCongestion where
  options : List Layer
deriving DecidableEq

structure ParticipantCongestion where
  transportWideExtensionId : UInt8
  subscriptions : ExtTreeMap SubscriptionId SubscriptionCongestion
deriving DecidableEq

structure ManagedRoom where
  room : Room
  participantSessions : ExtTreeMap ParticipantId String
  trackOwners : ExtTreeMap TrackId ParticipantId
  inputTracks : ExtTreeMap UInt32 TrackId
  subscriptions : ExtTreeMap SubscriptionId (ParticipantId × TrackId)
  congestion : ExtTreeMap ParticipantId ParticipantCongestion
deriving DecidableEq

/-- The key of a recording sink. -/
structure SinkKey where
  roomId : String
  trackId : TrackId
  destination : SocketAddr
deriving DecidableEq

structure RecordingSink where
  destination : SocketAddr
  sourceSsrc : Option UInt32
deriving DecidableEq

instance : Ord SinkKey := ⟨compareLex (compareOn SinkKey.roomId)
  (compareLex (compareOn SinkKey.trackId) (compareOn SinkKey.destination))⟩

instance : TransOrd SinkKey := inferInstanceAs (TransCmp (compareLex (compareOn SinkKey.roomId)
  (compareLex (compareOn SinkKey.trackId) (compareOn SinkKey.destination))))

instance : LawfulEqOrd SinkKey where
  eq_of_compare {a b} h := by
    have hlex : compareLex (compareOn SinkKey.roomId)
      (compareLex (compareOn SinkKey.trackId) (compareOn SinkKey.destination)) a b = .eq := h
    simp only [compareLex_eq_eq, compareOn, Std.compare_eq_iff_eq] at hlex
    cases a
    cases b
    simp_all

/-- Concurrent multi-room wrapper around the SFU rooms. -/
structure SfuRegistry where
  rooms : ExtTreeMap String ManagedRoom
  recordingSinks : ExtTreeMap SinkKey RecordingSink
deriving DecidableEq

/-! ## Identifiers -/

def isSfuIdentifierByte (byte : UInt8) : Bool :=
  (48 ≤ byte && byte ≤ 57) || (65 ≤ byte && byte ≤ 90) || (97 ≤ byte && byte ≤ 122) ||
    byte = 45 || byte = 95

def validateSfuIdentifier (value : String) : Except SfuRuntimeError Unit :=
  if value.utf8ByteSize = 0 ∨ 128 < value.utf8ByteSize ∨
      ¬value.toUTF8.data.toList.all isSfuIdentifierByte then
    .error .invalidIdentifier
  else .ok ()

def hexDigit (byte : UInt8) : Option ℕ :=
  if 48 ≤ byte ∧ byte ≤ 57 then some (byte.toNat - 48)
  else if 65 ≤ byte ∧ byte ≤ 70 then some (byte.toNat - 55)
  else if 97 ≤ byte ∧ byte ≤ 102 then some (byte.toNat - 87)
  else none

/-- `u128::from_str_radix` in base 16 on a text without a sign. -/
def fromHex (value : String) : Option ParticipantId := do
  let digits ← value.toUTF8.data.toList.mapM hexDigit
  let n := digits.foldl (fun n digit => 16 * n + digit) 0
  if n < 2 ^ 128 then some (.ofNat 128 n) else none

def parseParticipant (value : String) : Except SfuRuntimeError ParticipantId := do
  validateSfuIdentifier value
  (fromHex value).elim (.error .invalidIdentifier) .ok

/-! ## Sections on a room -/

namespace ManagedRoom

def new : ManagedRoom := ⟨.new {}, ∅, ∅, ∅, ∅, ∅⟩

/-- Binds a participant to a session, in place of an earlier one. -/
def bind (managed : ManagedRoom) (participant : ParticipantId) (sessionId : String) :
    ManagedRoom :=
  { managed with
    participantSessions := managed.participantSessions.insert participant sessionId }

/-- An operation of the SFU core. -/
def withCore {α : Type} (operation : Fallible Room SfuError α) :
    Fallible ManagedRoom SfuRuntimeError α := do
  let managed ← get
  let (result, room) := operation.run managed.room
  set { managed with room := room }
  ofExcept (result.mapError .core)

def publish (participant : ParticipantId) (input : PublishTrack) :
    Fallible ManagedRoom SfuRuntimeError Unit := do
  let managed ← get
  ensure (participant ∈ managed.participantSessions) .unknownParticipant
  withCore (Room.publish
    ⟨input.trackId, participant, input.kind, input.codec, input.clockRate, input.payloadType,
      input.encodings⟩)
  modify fun managed => { managed with
    trackOwners := managed.trackOwners.insert input.trackId participant
    inputTracks := input.encodings.foldl
      (fun inputs encoding => inputs.insert encoding.ssrc input.trackId) managed.inputTracks }

/-- Takes a subscription out of the congestion state of a participant. -/
def dropCongestion (managed : ManagedRoom) (participant : ParticipantId) (id : SubscriptionId) :
    ManagedRoom :=
  { managed with
    congestion := managed.congestion.modify participant fun congestion =>
      { congestion with subscriptions := congestion.subscriptions.erase id } }

/-- Takes a subscription out of the maps of the service. -/
def forgetSubscription (managed : ManagedRoom) (id : SubscriptionId) : ManagedRoom :=
  match managed.subscriptions[id]? with
  | none => managed
  | some (subscriber, _) =>
      dropCongestion { managed with subscriptions := managed.subscriptions.erase id } subscriber id

/-- Removes a track and all of its subscriptions. -/
def unpublish (managed : ManagedRoom) (trackId : TrackId) : Bool × ManagedRoom :=
  let (removed, room) := managed.room.unpublish trackId
  if removed then
    let managed := { managed with
      room := room
      trackOwners := managed.trackOwners.erase trackId
      inputTracks := managed.inputTracks.filter fun _ track => track ≠ trackId }
    let ids := (managed.subscriptions.toList.filter fun entry => entry.2.2 = trackId).map Prod.fst
    (true, ids.foldl forgetSubscription managed)
  else (false, managed)

def subscribe (participant : ParticipantId) (input : SubscribeTrack) :
    Fallible ManagedRoom SfuRuntimeError Unit := do
  let managed ← get
  ensure (participant ∈ managed.participantSessions) .unknownParticipant
  let track ← ofOption managed.room.tracks[input.trackId]? .unknownTrack
  let options := track.encodings.map fun encoding => ⟨encoding.spatialLayer, input.temporalLayer⟩
  withCore (Room.subscribe
    ⟨input.subscriptionId, participant, input.trackId, input.outputSsrc, input.outputPayloadType,
      ⟨input.spatialLayer, input.temporalLayer⟩, input.initialSequenceNumber,
      input.initialTimestamp, input.extensionRewrites⟩)
  modify fun managed => { managed with
    subscriptions := managed.subscriptions.insert input.subscriptionId (participant, input.trackId) }
  match input.transportWideExtensionId with
  | none => return ()
  | some extensionId =>
      modify fun managed =>
        let congestion := managed.congestion[participant]?.getD ⟨extensionId, ∅⟩
        { managed with
          congestion := managed.congestion.insert participant
            ⟨extensionId, congestion.subscriptions.insert input.subscriptionId ⟨options⟩⟩ }

/-- Removes one down-track of the service and of the core. -/
def dropSubscription (managed : ManagedRoom) (id : SubscriptionId) (subscriber : ParticipantId) :
    ManagedRoom :=
  dropCongestion { managed with
    room := (managed.room.unsubscribe id).2
    subscriptions := managed.subscriptions.erase id } subscriber id

def unsubscribe (participant : ParticipantId) (id : SubscriptionId) :
    Fallible ManagedRoom SfuRuntimeError Unit := do
  let managed ← get
  let (owner, _) ← ofOption managed.subscriptions[id]? .unknownSubscription
  ensure (owner = participant) .unknownSubscription
  set (managed.dropSubscription id participant)

/-- The tracks of a participant. -/
def ownedTracks (managed : ManagedRoom) (participant : ParticipantId) : List TrackId :=
  (managed.trackOwners.toList.filter fun entry => entry.2 = participant).map Prod.fst

/-- The subscriptions of a participant and of its tracks, with their subscribers. -/
def affectedSubscriptions (managed : ManagedRoom) (participant : ParticipantId) :
    List (SubscriptionId × ParticipantId) :=
  (managed.subscriptions.toList.filter fun entry =>
    entry.2.1 = participant ∨ entry.2.2 ∈ managed.ownedTracks participant).map fun entry =>
      (entry.1, entry.2.1)

/-- Removes a track from the core and from the owners. -/
def dropTrack (managed : ManagedRoom) (trackId : TrackId) : ManagedRoom :=
  { managed with
    room := (managed.room.unpublish trackId).2
    trackOwners := managed.trackOwners.erase trackId }

/-- Removes a participant and its media, unless it has another session by now. -/
def unbind (managed : ManagedRoom) (participant : ParticipantId) (sessionId : String) :
    Option (List TrackId × ManagedRoom) :=
  if managed.participantSessions[participant]? ≠ some sessionId then none
  else
    let tracks := managed.ownedTracks participant
    let affected := managed.affectedSubscriptions participant
    let managed := { managed with
      participantSessions := managed.participantSessions.erase participant }
    let managed := affected.foldl (fun managed entry => managed.dropSubscription entry.1 entry.2)
      managed
    let managed := tracks.foldl dropTrack managed
    some (tracks, { managed with
      inputTracks := managed.inputTracks.filter fun _ track => track ∉ tracks
      congestion := managed.congestion.erase participant })

/-- The requests for keyframes among some events, for the sessions of the publishers. -/
def eventsToRtcp (managed : ManagedRoom) (events : List SfuEvent) :
    Except SfuRuntimeError (List RtcpRoute) :=
  let requests := events.filterMap fun event =>
    match event with
    | .pictureLossIndication trackId mediaSsrc => do
        let owner ← managed.trackOwners[trackId]?
        let sessionId ← managed.participantSessions[owner]?
        return (sessionId, mediaSsrc)
    | _ => none
  requests.mapM fun (sessionId, mediaSsrc) => do
    let packet ← (Rtcp.encodeCompound [.pictureLossIndication ⟨0, mediaSsrc⟩]).mapError
      fun error => .core (.rtcp error)
    return ⟨sessionId, packet⟩

def setLayer (now : ℕ) (participant : ParticipantId) (id : SubscriptionId) (layer : Layer) :
    Fallible ManagedRoom SfuRuntimeError (List RtcpRoute) := do
  let events ← withCore (Room.setTargetLayer now participant id layer)
  let managed ← get
  ofExcept (managed.eventsToRtcp events)

end ManagedRoom

/-! ## Calls -/

namespace SfuRegistry

def new : SfuRegistry := ⟨∅, ∅⟩

/-- A section on a room, which is written back whether it succeeds or not. -/
def withRoom {α : Type} (roomId : String) (operation : Fallible ManagedRoom SfuRuntimeError α) :
    Fallible SfuRegistry SfuRuntimeError α := do
  let registry ← get
  let managed ← ofOption registry.rooms[roomId]? .unknownRoom
  let (result, managed) := operation.run managed
  set { registry with rooms := registry.rooms.insert roomId managed }
  ofExcept result

/-- Creates or binds a participant transport. -/
def bindSession (roomId participantId sessionId : String) :
    Fallible SfuRegistry SfuRuntimeError Unit := do
  ofExcept (validateSfuIdentifier roomId)
  let participant ← ofExcept (parseParticipant participantId)
  ofExcept (validateSfuIdentifier sessionId)
  modify fun registry =>
    let managed := registry.rooms[roomId]?.getD .new
    { registry with rooms := registry.rooms.insert roomId (managed.bind participant sessionId) }

def publish (input : PublishTrack) : Fallible SfuRegistry SfuRuntimeError Unit := do
  let participant ← ofExcept (parseParticipant input.participantId)
  withRoom input.roomId (ManagedRoom.publish participant input)

/-- The sinks of a track are dropped. -/
def dropSinks (sinks : ExtTreeMap SinkKey RecordingSink) (roomId : String) (trackId : TrackId) :
    ExtTreeMap SinkKey RecordingSink :=
  sinks.filter fun key _ => key.roomId ≠ roomId ∨ key.trackId ≠ trackId

def unpublish (registry : SfuRegistry) (roomId : String) (trackId : TrackId) :
    Bool × SfuRegistry :=
  match registry.rooms[roomId]? with
  | none => (false, registry)
  | some managed =>
      let (removed, managed) := managed.unpublish trackId
      if removed then
        (true, ⟨registry.rooms.insert roomId managed,
          dropSinks registry.recordingSinks roomId trackId⟩)
      else (false, registry)

/-- Removes a track that belongs to the participant. -/
def unpublishOwned (roomId participantId : String) (trackId : TrackId) :
    Fallible SfuRegistry SfuRuntimeError Unit := do
  let participant ← ofExcept (parseParticipant participantId)
  let registry ← get
  let managed ← ofOption registry.rooms[roomId]? .unknownRoom
  let owner ← ofOption managed.trackOwners[trackId]? .unknownTrack
  ensure (owner = participant) .trackOwnedByAnotherParticipant
  let (removed, registry) := registry.unpublish roomId trackId
  set registry
  ensure (removed = true) .unknownTrack

def addRecordingSinkForSsrc (roomId : String) (trackId : TrackId) (destination : SocketAddr)
    (sourceSsrc : Option UInt32) : Fallible SfuRegistry SfuRuntimeError Unit := do
  ensure (destination.ip.isLoopback = true) .unsafeRecordingDestination
  let registry ← get
  let managed ← ofOption registry.rooms[roomId]? .unknownRoom
  let track ← ofOption managed.room.tracks[trackId]? .unknownTrack
  ensure (sourceSsrc.all fun ssrc => track.encodings.any fun encoding => encoding.ssrc = ssrc)
    .unknownSourceSsrc
  set { registry with
    recordingSinks :=
      registry.recordingSinks.insert ⟨roomId, trackId, destination⟩ ⟨destination, sourceSsrc⟩ }

def removeRecordingSink (registry : SfuRegistry) (roomId : String) (trackId : TrackId) :
    SfuRegistry :=
  { registry with recordingSinks := dropSinks registry.recordingSinks roomId trackId }

def removeRecordingSinkDestination (registry : SfuRegistry) (roomId : String) (trackId : TrackId)
    (destination : SocketAddr) : SfuRegistry :=
  { registry with
    recordingSinks := registry.recordingSinks.erase ⟨roomId, trackId, destination⟩ }

def subscribe (input : SubscribeTrack) : Fallible SfuRegistry SfuRuntimeError Unit := do
  let participant ← ofExcept (parseParticipant input.participantId)
  withRoom input.roomId (ManagedRoom.subscribe participant input)

def unsubscribe (roomId participantId : String) (id : SubscriptionId) :
    Fallible SfuRegistry SfuRuntimeError Unit := do
  let participant ← ofExcept (parseParticipant participantId)
  withRoom roomId (ManagedRoom.unsubscribe participant id)

/-- Removes a participant transport and all of its media; an empty room goes too. -/
def unbindSession (registry : SfuRegistry) (roomId participantId sessionId : String) :
    Bool × SfuRegistry :=
  match parseParticipant participantId, registry.rooms[roomId]? with
  | .ok participant, some managed =>
      match managed.unbind participant sessionId with
      | none => (false, registry)
      | some (tracks, managed) =>
          let sinks := tracks.foldl (fun sinks track => dropSinks sinks roomId track)
            registry.recordingSinks
          if managed.participantSessions.isEmpty then
            (true, ⟨registry.rooms.erase roomId, sinks⟩)
          else (true, ⟨registry.rooms.insert roomId managed, sinks⟩)
  | _, _ => (false, registry)

def setLayer (now : ℕ) (roomId participantId : String) (id : SubscriptionId)
    (spatial temporal : UInt8) : Fallible SfuRegistry SfuRuntimeError (List RtcpRoute) := do
  let participant ← ofExcept (parseParticipant participantId)
  withRoom roomId (ManagedRoom.setLayer now participant id ⟨spatial, temporal⟩)

inductive Call
  | bindSession (roomId participantId sessionId : String)
  | publish (input : PublishTrack)
  | unpublish (roomId : String) (trackId : TrackId)
  | unpublishOwned (roomId participantId : String) (trackId : TrackId)
  | addRecordingSinkForSsrc (roomId : String) (trackId : TrackId) (destination : SocketAddr)
      (sourceSsrc : Option UInt32)
  | removeRecordingSink (roomId : String) (trackId : TrackId)
  | removeRecordingSinkDestination (roomId : String) (trackId : TrackId) (destination : SocketAddr)
  | subscribe (input : SubscribeTrack)
  | unsubscribe (roomId participantId : String) (id : SubscriptionId)
  | unbindSession (roomId participantId sessionId : String)
  | setLayer (now : ℕ) (roomId participantId : String) (id : SubscriptionId)
      (spatial temporal : UInt8)

/-- The registry that a call leaves, whether it succeeds or not. -/
def step (registry : SfuRegistry) : Call → SfuRegistry
  | .bindSession roomId participantId sessionId =>
      ((bindSession roomId participantId sessionId).run registry).2
  | .publish input => ((publish input).run registry).2
  | .unpublish roomId trackId => (registry.unpublish roomId trackId).2
  | .unpublishOwned roomId participantId trackId =>
      ((unpublishOwned roomId participantId trackId).run registry).2
  | .addRecordingSinkForSsrc roomId trackId destination sourceSsrc =>
      ((addRecordingSinkForSsrc roomId trackId destination sourceSsrc).run registry).2
  | .removeRecordingSink roomId trackId => registry.removeRecordingSink roomId trackId
  | .removeRecordingSinkDestination roomId trackId destination =>
      registry.removeRecordingSinkDestination roomId trackId destination
  | .subscribe input => ((subscribe input).run registry).2
  | .unsubscribe roomId participantId id => ((unsubscribe roomId participantId id).run registry).2
  | .unbindSession roomId participantId sessionId =>
      (registry.unbindSession roomId participantId sessionId).2
  | .setLayer now roomId participantId id spatial temporal =>
      ((setLayer now roomId participantId id spatial temporal).run registry).2

def runCalls (registry : SfuRegistry) (calls : List Call) : SfuRegistry := calls.foldl step registry

end SfuRegistry

end Fluvora.MediaNode
