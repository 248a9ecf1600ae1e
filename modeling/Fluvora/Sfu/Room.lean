import Fluvora.Lib.Maps
import Fluvora.Sfu.DownTrack

/-!
# SFU rooms

`Room` of `crates/webrtc/sfu-core`: published tracks, subscriptions and the indices over them, and
the seven operations.  The source searches one of its hash maps for any waiting down-track; the
order in which it visits the map is the parameter `visit`, about which nothing is assumed.
-/

open Std (ExtTreeMap)

namespace Fluvora.Sfu

open Fallible

/-- Bounded room resource configuration. -/
structure RoomConfig where
  maxTracks : ℕ := 1024
  maxSubscriptions : ℕ := 16384
  retransmissionCachePackets : ℕ := 2048
  retransmissionCacheAge : ℕ := 2000000000
  pliThrottle : ℕ := 500000000
deriving DecidableEq

/-- Result of routing one publisher RTP packet. -/
structure ForwardOutcome where
  packets : List ForwardedPacket := []
  events : List SfuEvent := []
deriving DecidableEq

/-- Result of processing one authenticated subscriber RTCP compound packet. -/
structure ControlOutput where
  retransmissions : List ForwardedPacket := []
  events : List SfuEvent := []
deriving DecidableEq

/-- All published tracks and subscriptions for one isolated SFU room. -/
structure Room where
  configuration : RoomConfig
  tracks : ExtTreeMap TrackId PublishedTrack
  ssrcIndex : ExtTreeMap UInt32 (TrackId × UInt8)
  subscriptions : ExtTreeMap SubscriptionId DownTrack
  trackSubscriptions : ExtTreeMap TrackId (List SubscriptionId)
  outputSsrcIndex : ExtTreeMap UInt32 SubscriptionId
  lastPli : ExtTreeMap UInt32 ℕ
deriving DecidableEq

/-- A payload type that cannot be taken for RTCP when both share a port. -/
def isRtcpMuxSafePayloadType (payloadType : UInt8) : Prop :=
  payloadType ≤ 127 ∧ ¬(64 ≤ payloadType ∧ payloadType ≤ 95)

instance (payloadType : UInt8) : Decidable (isRtcpMuxSafePayloadType payloadType) :=
  inferInstanceAs (Decidable (_ ∧ _))

def validateTrack (track : PublishedTrack) : Except SfuError Unit :=
  if track.encodings.isEmpty ∨ track.clockRate = 0 then
    .error .invalidEncodings
  else if ¬isRtcpMuxSafePayloadType track.payloadType then
    .error (.invalidPayloadType track.payloadType)
  else if ¬(track.encodings.map Encoding.ssrc).Nodup ∨
      ¬(track.encodings.map Encoding.spatialLayer).Nodup then
    .error .invalidEncodings
  else
    .ok ()

/-- The identifiers of one NACK entry: the first and those whose mask bit is set. -/
def entrySequences (entry : Rtcp.NackEntry) : List UInt16 :=
  entry.packetId :: ((List.range 16).filter fun bit =>
    entry.lostPacketBitmask &&& (1 <<< UInt16.ofNat bit) ≠ 0).map fun bit =>
      entry.packetId + UInt16.ofNat (bit + 1)

/-- The requested sequence numbers, each once, in the order in which they are first named. -/
def expandNack (entries : List Rtcp.NackEntry) : List UInt16 :=
  (entries.flatMap entrySequences).foldl
    (fun requested sequence => if sequence ∈ requested then requested else requested ++ [sequence])
    []

namespace Room

/-- Creates an empty bounded room. -/
def new (configuration : RoomConfig) : Room where
  configuration := configuration
  tracks := ∅
  ssrcIndex := ∅
  subscriptions := ∅
  trackSubscriptions := ∅
  outputSsrcIndex := ∅
  lastPli := ∅

/-- Registers a publisher track and its SSRC-to-layer mapping. -/
def publish (track : PublishedTrack) : Fallible Room SfuError Unit := do
  ofExcept (validateTrack track)
  let room ← get
  ensure (track.id ∉ room.tracks) (.duplicateTrack track.id)
  ensure (room.tracks.size < room.configuration.maxTracks) (.resourceLimit "published track")
  ensure (∀ encoding ∈ track.encodings, encoding.ssrc ∉ room.ssrcIndex) .invalidEncodings
  set { room with
    ssrcIndex := track.encodings.foldl
      (fun index encoding => index.insert encoding.ssrc (track.id, encoding.spatialLayer))
      room.ssrcIndex
    tracks := room.tracks.insert track.id track }

/-- Takes a subscription off the list of its track; an empty list is not kept. -/
def removeTrackSubscription (room : Room) (trackId : TrackId) (id : SubscriptionId) : Room :=
  match room.trackSubscriptions[trackId]? with
  | none => room
  | some ids =>
      let ids := ids.filter fun candidate => candidate ≠ id
      if ids.isEmpty then
        { room with trackSubscriptions := room.trackSubscriptions.erase trackId }
      else
        { room with trackSubscriptions := room.trackSubscriptions.insert trackId ids }

def removeSubscription (room : Room) (id : SubscriptionId) : Bool × Room :=
  match room.subscriptions[id]? with
  | none => (false, room)
  | some subscription =>
      let room := { room with
        subscriptions := room.subscriptions.erase id
        outputSsrcIndex := room.outputSsrcIndex.erase subscription.configuration.outputSsrc }
      (true, room.removeTrackSubscription subscription.configuration.trackId id)

/-- Removes a track and all subscriptions that consume it. -/
def unpublish (room : Room) (trackId : TrackId) : Bool × Room :=
  match room.tracks[trackId]? with
  | none => (false, room)
  | some track =>
      let subscriptions := room.trackSubscriptions[trackId]?.getD []
      let room := { room with
        tracks := room.tracks.erase trackId
        ssrcIndex := track.encodings.foldl
          (fun index encoding => index.erase encoding.ssrc) room.ssrcIndex
        lastPli := track.encodings.foldl
          (fun last encoding => last.erase encoding.ssrc) room.lastPli
        trackSubscriptions := room.trackSubscriptions.erase trackId }
      (true, subscriptions.foldl (fun room id => (room.removeSubscription id).2) room)

/-- Creates one subscriber down-track. -/
def subscribe (configuration : SubscriptionConfig) : Fallible Room SfuError Unit := do
  let room ← get
  ensure (configuration.id ∉ room.subscriptions) (.duplicateSubscription configuration.id)
  ensure (configuration.outputSsrc ∉ room.outputSsrcIndex) .invalidEncodings
  ensure (isRtcpMuxSafePayloadType configuration.outputPayloadType)
    (.invalidPayloadType configuration.outputPayloadType)
  ensure (room.subscriptions.size < room.configuration.maxSubscriptions)
    (.resourceLimit "subscription")
  let track ← ofOption room.tracks[configuration.trackId]? (.unknownTrack configuration.trackId)
  ensure (track.encoding configuration.initialLayer.spatial ≠ none)
    (.unknownSpatialLayer configuration.initialLayer.spatial)
  let downTrack := DownTrack.new configuration track room.configuration.retransmissionCachePackets
    room.configuration.retransmissionCacheAge
  set { room with
    outputSsrcIndex := room.outputSsrcIndex.insert configuration.outputSsrc configuration.id
    trackSubscriptions := room.trackSubscriptions.insert configuration.trackId
      (room.trackSubscriptions[configuration.trackId]?.getD [] ++ [configuration.id])
    subscriptions := room.subscriptions.insert configuration.id downTrack }

/-- Removes one subscription and its packet cache. -/
def unsubscribe (room : Room) (id : SubscriptionId) : Bool × Room := room.removeSubscription id

/-- Asks for a keyframe, unless this was done a short time ago. -/
def maybePli (room : Room) (now : ℕ) (trackId : TrackId) (mediaSsrc : UInt32) :
    Option SfuEvent × Room :=
  if room.lastPli[mediaSsrc]?.any fun last => now - last < room.configuration.pliThrottle then
    (none, room)
  else
    (some (.pictureLossIndication trackId mediaSsrc),
      { room with lastPli := room.lastPli.insert mediaSsrc now })

/-- Asks for a keyframe and returns the event, if there is one. -/
def requestKeyframe (now : ℕ) (trackId : TrackId) (mediaSsrc : UInt32) :
    Fallible Room SfuError (List SfuEvent) := do
  let room ← get
  let (event, room) := room.maybePli now trackId mediaSsrc
  set room
  return event.toList

/-- Requests an adaptive target. -/
def setTargetLayer (now : ℕ) (subscriber : ParticipantId) (id : SubscriptionId) (layer : Layer) :
    Fallible Room SfuError (List SfuEvent) := do
  let room ← get
  let downTrack ← ofOption room.subscriptions[id]? (.unknownSubscription id)
  ensure (downTrack.configuration.subscriber = subscriber) (.unauthorizedParticipant subscriber)
  let trackId := downTrack.configuration.trackId
  let (changed, downTrack) := downTrack.setTargetLayer layer
  set { room with subscriptions := room.subscriptions.insert id downTrack }
  let track ← ofOption room.tracks[trackId]? (.unknownTrack trackId)
  let encoding ← ofOption (track.encoding layer.spatial) (.unknownSpatialLayer layer.spatial)
  if changed ∧ track.kind = .video then requestKeyframe now trackId encoding.ssrc else return []

/-- Forwards a packet to one down-track of the room. -/
def forwardTo (now : ℕ) (track : PublishedTrack) (spatialLayer : UInt8)
    (info : MediaCodec.PayloadInfo) (input : Bytes) (id : SubscriptionId) (downTrack : DownTrack) :
    Fallible Room SfuError ForwardDecision := do
  let (result, downTrack) := (DownTrack.forward now track spatialLayer info input).run downTrack
  let room ← get
  set { room with subscriptions := room.subscriptions.insert id downTrack }
  ofExcept result

/-- Adds the decision of a down-track to what the rest of the loop returns. -/
def addDecision (decision : ForwardDecision) (rest : ForwardOutcome × Bool) :
    ForwardOutcome × Bool :=
  match decision with
  | .forwarded packet event =>
      ({ packets := packet :: rest.1.packets
         events := event.toList ++ rest.1.events }, rest.2)
  | .dropped waitingForKeyframe => (rest.1, waitingForKeyframe || rest.2)

/-- The loop of `handle_rtp` over the subscriptions of the track; the flag says that one of them
waits for a keyframe. -/
def forwardAll (now : ℕ) (track : PublishedTrack) (spatialLayer : UInt8)
    (info : MediaCodec.PayloadInfo) (input : Bytes) :
    List SubscriptionId → Fallible Room SfuError (ForwardOutcome × Bool)
  | [] => return ({}, false)
  | id :: ids => do
      let room ← get
      match room.subscriptions[id]? with
      | none => forwardAll now track spatialLayer info input ids
      | some downTrack => do
          let decision ← forwardTo now track spatialLayer info input id downTrack
          let rest ← forwardAll now track spatialLayer info input ids
          return addDecision decision rest

/-- What `handle_rtp` finds out about a packet before it forwards it. -/
structure Source where
  trackId : TrackId
  track : PublishedTrack
  spatialLayer : UInt8
  info : MediaCodec.PayloadInfo

/-- The checks of `handle_rtp`. -/
def identify (room : Room) (publisher : ParticipantId) (input : Bytes) :
    Except SfuError Source := do
  let parsed ← (Rtp.Packet.parse input).mapError .rtp
  let (trackId, spatialLayer) ←
    room.ssrcIndex[parsed.header.ssrc]?.elim (.error (.unknownSsrc parsed.header.ssrc)) .ok
  let track ← room.tracks[trackId]?.elim (.error (.unknownTrack trackId)) .ok
  if track.owner ≠ publisher then
    .error (.unauthorizedParticipant publisher)
  else if parsed.header.payloadType ≠ track.payloadType then
    .error (.invalidPayloadType parsed.header.payloadType)
  else
    let info ← (MediaCodec.inspectPayload track.codec parsed.payload parsed.header.marker).mapError
      .payload
    return ⟨trackId, track, spatialLayer, info⟩

/-- The encoding that some waiting down-track of a track needs a keyframe of. -/
def waitingTarget (visit : ExtTreeMap SubscriptionId DownTrack → List DownTrack) (room : Room)
    (trackId : TrackId) (track : PublishedTrack) : Option Encoding := do
  let subscription ← (visit room.subscriptions).find? fun subscription =>
    subscription.configuration.trackId = trackId ∧
      subscription.selectedSpatial ≠ some subscription.targetLayer.spatial
  track.encoding subscription.targetLayer.spatial

/-- The end of `handle_rtp`: asks for a keyframe if a down-track waits for one. -/
def requestWaiting (visit : ExtTreeMap SubscriptionId DownTrack → List DownTrack) (now : ℕ)
    (trackId : TrackId) (track : PublishedTrack) (needsPli : Bool) :
    Fallible Room SfuError (List SfuEvent) := do
  let room ← get
  match needsPli, room.waitingTarget visit trackId track with
  | true, some target => requestKeyframe now trackId target.ssrc
  | _, _ => return []

/-- Routes one authenticated publisher RTP packet to eligible down-tracks. -/
def handleRtp (visit : ExtTreeMap SubscriptionId DownTrack → List DownTrack) (now : ℕ)
    (publisher : ParticipantId) (input : Bytes) : Fallible Room SfuError ForwardOutcome := do
  let room ← get
  let source ← ofExcept (room.identify publisher input)
  let subscriptionIds := room.trackSubscriptions[source.trackId]?.getD []
  let (output, needsPli) ←
    forwardAll now source.track source.spatialLayer source.info input subscriptionIds
  let events ← requestWaiting visit now source.trackId source.track needsPli
  return { output with events := output.events ++ events }

/-- The down-track with an output SSRC, if it is the subscriber's. -/
def authorizedDownTrack (room : Room) (subscriber : ParticipantId) (outputSsrc : UInt32) :
    Option (SubscriptionId × DownTrack) := do
  let id ← room.outputSsrcIndex[outputSsrc]?
  let downTrack ← room.subscriptions[id]?
  if downTrack.configuration.subscriber = subscriber then some (id, downTrack) else none

/-- The source encoding that a subscriber's PLI is about. -/
def upstreamEncoding (room : Room) (subscriber : ParticipantId) (outputSsrc : UInt32) :
    Option (TrackId × UInt32) := do
  let (_, downTrack) ← room.authorizedDownTrack subscriber outputSsrc
  let track ← room.tracks[downTrack.configuration.trackId]?
  let encoding ← track.encoding
    (downTrack.selectedSpatial.getD downTrack.targetLayer.spatial)
  return (track.id, encoding.ssrc)

/-- One packet of a compound. -/
def handleRtcpPacket (now : ℕ) (subscriber : ParticipantId) (room : Room) :
    Rtcp.Packet → ControlOutput × Room
  | .genericNack nack =>
      match room.authorizedDownTrack subscriber nack.mediaSsrc with
      | none => ({}, room)
      | some (id, downTrack) =>
          let (retransmissions, downTrack) :=
            downTrack.retransmit now (expandNack nack.entries)
          ({ retransmissions },
            { room with subscriptions := room.subscriptions.insert id downTrack })
  | .pictureLossIndication pli =>
      match room.upstreamEncoding subscriber pli.mediaSsrc with
      | none => ({}, room)
      | some (trackId, mediaSsrc) =>
          let (event, room) := room.maybePli now trackId mediaSsrc
          ({ events := event.toList }, room)
  | .transportWideFeedback feedback =>
      ({ events := [.transportFeedback subscriber feedback] }, room)
  | _ => ({}, room)

/-- The loop of `handle_rtcp` over the packets of a compound. -/
def handleRtcpPackets (now : ℕ) (subscriber : ParticipantId) :
    List Rtcp.Packet → Room → ControlOutput × Room
  | [], room => ({}, room)
  | packet :: packets, room =>
      let (output, room) := handleRtcpPacket now subscriber room packet
      let (rest, room) := handleRtcpPackets now subscriber packets room
      ({ retransmissions := output.retransmissions ++ rest.retransmissions
         events := output.events ++ rest.events }, room)

/-- Processes authenticated SRTCP plaintext from one subscriber. -/
def handleRtcp (now : ℕ) (subscriber : ParticipantId) (input : Bytes) :
    Fallible Room SfuError ControlOutput := do
  let packets ← ofExcept ((Rtcp.parseCompound input).mapError .rtcp)
  let room ← get
  let (output, room) := handleRtcpPackets now subscriber packets room
  set room
  return output

/-! ## Runs -/

/-- One call on a room. -/
inductive Call
  | publish (track : PublishedTrack)
  | unpublish (trackId : TrackId)
  | subscribe (configuration : SubscriptionConfig)
  | unsubscribe (id : SubscriptionId)
  | setTargetLayer (now : ℕ) (subscriber : ParticipantId) (id : SubscriptionId) (layer : Layer)
  | handleRtp (now : ℕ) (publisher : ParticipantId) (input : Bytes)
  | handleRtcp (now : ℕ) (subscriber : ParticipantId) (input : Bytes)

/-- The room after a call, successful or not. -/
def step (visit : ExtTreeMap SubscriptionId DownTrack → List DownTrack) (room : Room) :
    Call → Room
  | .publish track => ((publish track).run room).2
  | .unpublish trackId => (room.unpublish trackId).2
  | .subscribe configuration => ((subscribe configuration).run room).2
  | .unsubscribe id => (room.unsubscribe id).2
  | .setTargetLayer now subscriber id layer => ((setTargetLayer now subscriber id layer).run room).2
  | .handleRtp now publisher input => ((handleRtp visit now publisher input).run room).2
  | .handleRtcp now subscriber input => ((handleRtcp now subscriber input).run room).2

def runCalls (visit : ExtTreeMap SubscriptionId DownTrack → List DownTrack) (room : Room)
    (calls : List Call) : Room :=
  calls.foldl (step visit) room

/-- The rooms that some run of calls from an empty room leads to. -/
def Reachable (visit : ExtTreeMap SubscriptionId DownTrack → List DownTrack) (room : Room) : Prop :=
  ∃ configuration calls, room = runCalls visit (new configuration) calls

end Room

end Fluvora.Sfu
