import Fluvora.Lib.Fallible
import Fluvora.MediaCodec.Payload
import Fluvora.Rtp.Packet
import Fluvora.Rtcp.Packet

/-!
# Down-tracks

The data model of `crates/webrtc/sfu-core` and its `DownTrack`: one subscriber's view of a published
track.  A down-track selects packets of one spatial layer at a time, rewrites their sequence
numbers, timestamps and header extensions, and keeps the last packets for retransmission.  `forward`
returns its state also when it fails, since the source updates it before the last fallible step.
-/

namespace Fluvora.Sfu

open Fallible
open MediaCodec (Codec PayloadInfo PayloadError)

abbrev ParticipantId := BitVec 128
abbrev TrackId := UInt64
abbrev SubscriptionId := UInt64

/-- SFU validation, authorization, and packet-processing failures. -/
inductive SfuError
  | duplicateTrack (id : TrackId)
  | duplicateSubscription (id : SubscriptionId)
  | unknownTrack (id : TrackId)
  | unknownSubscription (id : SubscriptionId)
  | unknownSsrc (ssrc : UInt32)
  | unauthorizedParticipant (id : ParticipantId)
  | invalidEncodings
  | invalidPayloadType (payloadType : UInt8)
  | unknownSpatialLayer (layer : UInt8)
  | resourceLimit (resource : String)
  | rtp (error : Rtp.RtpError)
  | rtcp (error : Rtcp.RtcpError)
  | payload (error : PayloadError)
deriving DecidableEq

inductive MediaKind
  | audio
  | video
deriving DecidableEq

/-- One simulcast or spatial encoding. -/
structure Encoding where
  ssrc : UInt32
  spatialLayer : UInt8
deriving DecidableEq

/-- One publisher track known to the SFU. -/
structure PublishedTrack where
  id : TrackId
  owner : ParticipantId
  kind : MediaKind
  codec : Codec
  clockRate : UInt32
  payloadType : UInt8
  encodings : List Encoding
deriving DecidableEq

def PublishedTrack.encoding (track : PublishedTrack) (spatialLayer : UInt8) : Option Encoding :=
  track.encodings.find? fun encoding => encoding.spatialLayer = spatialLayer

/-- Spatial and temporal forwarding target. -/
structure Layer where
  spatial : UInt8
  temporal : UInt8
deriving DecidableEq

/-- Parameters for one subscriber down-track. -/
structure SubscriptionConfig where
  id : SubscriptionId
  subscriber : ParticipantId
  trackId : TrackId
  outputSsrc : UInt32
  outputPayloadType : UInt8
  initialLayer : Layer
  initialSequenceNumber : UInt16
  initialTimestamp : UInt32
  extensionRewrites : List Rtp.ExtensionRewrite
deriving DecidableEq

/-- One clear RTP packet ready for per-subscriber SRTP protection. -/
structure ForwardedPacket where
  subscriber : ParticipantId
  subscriptionId : SubscriptionId
  packet : Bytes
  layer : Layer
  keyframe : Bool
  retransmission : Bool
deriving DecidableEq

/-- Event consumed by RTCP, congestion-control, and monitoring integrations. -/
inductive SfuEvent
  | layerSwitched (subscriptionId : SubscriptionId) (source : Option UInt8) (target : UInt8)
  | pictureLossIndication (trackId : TrackId) (mediaSsrc : UInt32)
  | transportFeedback (subscriber : ParticipantId) (feedback : Rtcp.TransportWideFeedback)
deriving DecidableEq

structure CachedPacket where
  insertedAt : ℕ
  packet : ForwardedPacket
deriving DecidableEq

/-- One subscription with its rewriting state; times are durations in nanoseconds. -/
structure DownTrack where
  configuration : SubscriptionConfig
  targetLayer : Layer
  selectedSpatial : Option UInt8
  currentInputSsrc : Option UInt32
  inputTimestampBase : UInt32
  outputTimestampBase : UInt32
  lastOutputTimestamp : Option UInt32
  timestampStep : UInt32
  nextSequenceNumber : UInt16
  cache : List CachedPacket
  cacheCapacity : ℕ
  cacheAge : ℕ
deriving DecidableEq

inductive ForwardDecision
  | forwarded (packet : ForwardedPacket) (event : Option SfuEvent)
  | dropped (waitingForKeyframe : Bool)
deriving DecidableEq

namespace DownTrack

def new (configuration : SubscriptionConfig) (track : PublishedTrack) (cacheCapacity : ℕ)
    (cacheAge : ℕ) : DownTrack where
  configuration := configuration
  targetLayer := configuration.initialLayer
  selectedSpatial := none
  currentInputSsrc := none
  inputTimestampBase := 0
  outputTimestampBase := configuration.initialTimestamp
  lastOutputTimestamp := none
  timestampStep := max 1 <|
    match track.kind with
    | .audio => track.clockRate / 50
    | .video => track.clockRate / 30
  nextSequenceNumber := configuration.initialSequenceNumber
  cache := []
  cacheCapacity := cacheCapacity
  cacheAge := cacheAge

/-- Sets the target and says whether it has changed. -/
def setTargetLayer (d : DownTrack) (layer : Layer) : Bool × DownTrack :=
  if d.targetLayer = layer then (false, d) else (true, { d with targetLayer := layer })

/-- Drops the packets at the front of the cache that are too old. -/
def expireCache (d : DownTrack) (now : ℕ) : DownTrack :=
  { d with cache := d.cache.dropWhile fun cached => d.cacheAge < now - cached.insertedAt }

/-- Stores a packet, at most `cacheCapacity` of them. -/
def cachePacket (d : DownTrack) (now : ℕ) (packet : ForwardedPacket) : DownTrack :=
  let d := d.expireCache now
  if d.cacheCapacity = 0 then
    d
  else
    { d with
      cache := d.cache.drop (d.cache.length + 1 - d.cacheCapacity) ++ [⟨now, packet⟩] }

/-- The output timestamp and the bases that it leaves. -/
def rewriteBase (d : DownTrack) (inputTimestamp : UInt32) (switched : Bool) : UInt32 × DownTrack :=
  if d.currentInputSsrc = none then
    (d.outputTimestampBase, { d with inputTimestampBase := inputTimestamp })
  else if switched then
    let base := d.lastOutputTimestamp.getD d.outputTimestampBase + d.timestampStep
    (base, { d with
      inputTimestampBase := inputTimestamp
      outputTimestampBase := base })
  else
    (d.outputTimestampBase + (inputTimestamp - d.inputTimestampBase), d)

def rewriteTimestamp (d : DownTrack) (inputTimestamp : UInt32) (switched : Bool) :
    UInt32 × DownTrack :=
  let (output, d) := d.rewriteBase inputTimestamp switched
  let timestampStep :=
    match d.lastOutputTimestamp with
    | none => d.timestampStep
    | some previous =>
        if 0 < output - previous ∧ output - previous < 900000 then output - previous
        else d.timestampStep
  (output, { d with
    timestampStep := timestampStep
    lastOutputTimestamp := some output })

/-- The packet comes from another source than the one before. -/
def switches (d : DownTrack) (parsed : Rtp.Packet) : Bool :=
  d.currentInputSsrc ≠ some parsed.header.ssrc

/-- The timestamp that the packet goes out with. -/
def outputTimestamp (d : DownTrack) (parsed : Rtp.Packet) : UInt32 :=
  (d.rewriteTimestamp parsed.header.timestamp (d.switches parsed)).1

/-- The state after a packet of a layer has been taken. -/
def advance (d : DownTrack) (parsed : Rtp.Packet) (spatialLayer : UInt8) : DownTrack :=
  let d' := (d.rewriteTimestamp parsed.header.timestamp (d.switches parsed)).2
  let d' := { d' with nextSequenceNumber := d'.nextSequenceNumber + 1 }
  if d.switches parsed then
    { d' with
      currentInputSsrc := some parsed.header.ssrc
      selectedSpatial := some spatialLayer }
  else d'

/-- The rewrite of the fixed header of a packet. -/
def rewriteOf (d : DownTrack) (parsed : Rtp.Packet) : Rtp.Rewrite where
  payloadType := some d.configuration.outputPayloadType
  sequenceNumber := some d.nextSequenceNumber
  timestamp := some (d.outputTimestamp parsed)
  ssrc := some d.configuration.outputSsrc

/-- What is forwarded of a rewritten packet. -/
def forwardedPacket (d : DownTrack) (spatialLayer : UInt8) (info : PayloadInfo) (packet : Bytes) :
    ForwardedPacket where
  subscriber := d.configuration.subscriber
  subscriptionId := d.configuration.id
  packet := packet
  layer := ⟨spatialLayer, info.temporalId.getD 0⟩
  keyframe := info.keyframe
  retransmission := false

/-- The event of a packet that comes from another source. -/
def switchEvent (d : DownTrack) (parsed : Rtp.Packet) (spatialLayer : UInt8) : Option SfuEvent :=
  if d.switches parsed then
    some (.layerSwitched d.configuration.id d.selectedSpatial spatialLayer)
  else none

/-- The second half of `forward`, for a packet that the down-track takes. -/
def forwardTaken (now : ℕ) (spatialLayer : UInt8) (info : PayloadInfo) (input : Bytes) :
    Fallible DownTrack SfuError ForwardDecision := do
  let parsed ← ofExcept ((Rtp.Packet.parse input).mapError .rtp)
  let d ← get
  set (d.advance parsed spatialLayer)
  let packet ← ofExcept (((d.rewriteOf parsed).apply input).mapError .rtp)
  let packet ← ofExcept
    ((Rtp.rewriteHeaderExtensions packet d.configuration.extensionRewrites).mapError .rtp)
  let forwarded := d.forwardedPacket spatialLayer info packet
  modify fun d => d.cachePacket now forwarded
  return .forwarded forwarded (d.switchEvent parsed spatialLayer)

/-- Forwards a packet of a spatial layer, or drops it. -/
def forward (now : ℕ) (track : PublishedTrack) (spatialLayer : UInt8) (info : PayloadInfo)
    (input : Bytes) : Fallible DownTrack SfuError ForwardDecision := do
  let d ← get
  let switchingToTarget :=
    d.selectedSpatial ≠ some spatialLayer ∧ spatialLayer = d.targetLayer.spatial
  let continuingSelected := d.selectedSpatial = some spatialLayer
  let requiresKeyframe := track.kind = .video ∧ ¬continuingSelected
  if ¬continuingSelected ∧ ¬switchingToTarget then
    return .dropped (d.selectedSpatial ≠ some d.targetLayer.spatial)
  else if requiresKeyframe ∧ ¬(info.keyframe ∧ info.startOfFrame) then
    return .dropped true
  else if info.temporalId.any (d.targetLayer.temporal < ·) then
    return .dropped false
  else
    forwardTaken now spatialLayer info input

/-- The newest cached packet with a sequence number, marked as a retransmission. -/
def findCached (d : DownTrack) (requested : UInt16) : Option ForwardedPacket :=
  d.cache.reverse.findSome? fun cached =>
    match Rtp.Packet.parse cached.packet.packet with
    | .error _ => none
    | .ok parsed =>
        if parsed.header.sequenceNumber = requested then
          some { cached.packet with retransmission := true }
        else none

/-- The cached packets with the requested sequence numbers. -/
def retransmit (d : DownTrack) (now : ℕ) (sequenceNumbers : List UInt16) :
    List ForwardedPacket × DownTrack :=
  let d := d.expireCache now
  (sequenceNumbers.filterMap d.findCached, d)

end DownTrack

end Fluvora.Sfu
