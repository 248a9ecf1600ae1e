import Fluvora.Lib.Fallible
import Fluvora.DataChannel.Wire

/-!
# The data channel association

The server-side SCTP association of `crates/webrtc/data-channel`: the handshake, the receive side
(`acceptData`, `processDataMessage`, `reassemble`, DCEP), the send side (`enqueueMessage`,
`handleSack`, `tick`, `buildForwardTsn`), stream resets and `handlePacket`, which runs the chunks of
a packet in order and stops at the first error, keeping what the chunks before it have written.

A handler that appends to the `output` of the source returns what it appends; `handlePacket`
concatenates.  Hash maps are finite maps with extensional equality; where the source iterates over
a hash map the model takes the ascending order.
-/

open Std (ExtTreeMap)

namespace Fluvora.DataChannel

/-- Server-side association limits and deterministic initialization values. -/
structure AssociationConfig where
  localPort : UInt16
  remotePort : UInt16
  verificationTag : UInt32
  initialTsn : UInt32
  cookie : Bytes
  maximumChannels : ℕ
  maximumMessageBytes : ℕ
deriving DecidableEq

def AssociationConfig.validate (config : AssociationConfig) : Except DataChannelError Unit :=
  if config.localPort = 0 ∨ config.remotePort = 0 ∨ config.verificationTag = 0 ∨
      ¬(16 ≤ config.cookie.length ∧ config.cookie.length ≤ 256) ∨
      ¬(1 ≤ config.maximumChannels ∧ config.maximumChannels ≤ 1024) ∨
      ¬(1 ≤ config.maximumMessageBytes ∧ config.maximumMessageBytes ≤ 256 * 1024) then
    .error .invalidConfiguration
  else
    .ok ()

/-- SCTP association phase. -/
inductive AssociationState
  | listen
  | cookieWait
  | established
  | closed
  | failed
deriving DecidableEq

inductive MessageKind
  | text
  | binary
deriving DecidableEq

/-- Delivery policy negotiated by a WebRTC DCEP channel. -/
inductive ChannelReliability
  | reliable
  | maxRetransmissions (maximum : UInt32)
  | maxPacketLifetime (lifetime : ℕ)
deriving DecidableEq

/-- Application-visible association event. -/
inductive AssociationEvent
  | established
  | channelOpened (streamId : UInt16) (label protocol : String) (ordered : Bool)
      (reliability : ChannelReliability)
  | channelClosed (streamId : UInt16)
  | message (streamId : UInt16) (kind : MessageKind) (payload : Bytes)
  | closed
  | deliveryFailed (tsn : UInt32)
  | messageAbandoned (streamId streamSequence : UInt16)
deriving DecidableEq

/-- Packets and application events emitted by one state-machine step. -/
structure AssociationOutput where
  packets : List Bytes := []
  events : List AssociationEvent := []
  retransmittedPackets : ℕ := 0
deriving DecidableEq

instance : Append AssociationOutput where
  append a b := {
    packets := a.packets ++ b.packets
    events := a.events ++ b.events
    retransmittedPackets := a.retransmittedPackets + b.retransmittedPackets }

@[simp] theorem AssociationOutput.events_append (a b : AssociationOutput) :
    (a ++ b).events = a.events ++ b.events := rfl

theorem AssociationOutput.append_empty (output : AssociationOutput) : output ++ {} = output := by
  show AssociationOutput.mk _ _ _ = output
  simp

structure Channel where
  ordered : Bool
  reliability : ChannelReliability
  nextOutgoingSequence : UInt16
deriving DecidableEq

structure DataChunk where
  flags : UInt8
  tsn : UInt32
  streamId : UInt16
  streamSequence : UInt16
  ppid : UInt32
  payload : Bytes
deriving DecidableEq

structure Reassembly where
  streamSequence : UInt16
  ppid : UInt32
  payload : Bytes
deriving DecidableEq

structure Outstanding where
  packet : Bytes
  messageId : UInt64
  streamId : UInt16
  streamSequence : UInt16
  ordered : Bool
  reliability : ChannelReliability
  firstSentAt : ℕ
  sentAt : ℕ
  retransmissions : ℕ
deriving DecidableEq

structure Abandoned where
  streamId : UInt16
  streamSequence : UInt16
  ordered : Bool
deriving DecidableEq

structure PendingForwardTsn where
  newCumulativeTsn : UInt32
  skippedStreams : List (UInt16 × UInt16)
  sentAt : ℕ
deriving DecidableEq

structure OutboundMessage where
  streamId : UInt16
  streamSequence : UInt16
  ppid : UInt32
  ordered : Bool
  reliability : ChannelReliability

/-- One bounded server-side SCTP association. -/
structure Association where
  config : AssociationConfig
  state : AssociationState
  peerVerificationTag : Option UInt32
  peerInitialTsn : Option UInt32
  cumulativePeerTsn : Option UInt32
  nextTsn : UInt32
  outboundCumulativeTsn : UInt32
  nextMessageId : UInt64
  nextReconfigSequence : UInt32
  nextPeerReconfigSequence : Option UInt32
  peerOutboundStreams : UInt16
  channels : ExtTreeMap UInt16 Channel
  pendingData : ExtTreeMap UInt32 DataChunk
  reassembly : ExtTreeMap UInt16 Reassembly
  outstanding : ExtTreeMap UInt32 Outstanding
  abandoned : ExtTreeMap UInt32 Abandoned
  pendingForwardTsn : Option PendingForwardTsn
  peerForwardTsnSupported : Bool
deriving DecidableEq

/-- A step of the association that may fail and keeps its writes when it does. -/
abbrev Action := Fallible Association DataChannelError

namespace Association

open Fallible

def new (config : AssociationConfig) : Except DataChannelError Association := do
  config.validate
  return {
    config
    state := .listen
    peerVerificationTag := none
    peerInitialTsn := none
    cumulativePeerTsn := none
    nextTsn := config.initialTsn
    outboundCumulativeTsn := config.initialTsn - 1
    nextMessageId := 0
    nextReconfigSequence := config.initialTsn
    nextPeerReconfigSequence := none
    peerOutboundStreams := 0
    channels := ∅
    pendingData := ∅
    reassembly := ∅
    outstanding := ∅
    abandoned := ∅
    pendingForwardTsn := none
    peerForwardTsnSupported := false }

def requireVerificationTag (s : Association) (supplied : UInt32) : Except DataChannelError Unit :=
  if supplied = s.config.verificationTag then .ok () else .error .invalidVerificationTag

def peerTag (s : Association) : Except DataChannelError UInt32 :=
  s.peerVerificationTag.elim (.error .unexpectedState) .ok

def packetWithChunk (s : Association) (verificationTag : UInt32) (kind flags : UInt8)
    (value : Bytes) : Except DataChannelError Bytes :=
  buildPacket s.config.localPort s.config.remotePort verificationTag kind flags value

/-! ## Acknowledging -/

/-- One offset more, the last gap block first: an offset that continues it extends it. -/
def extendGaps (gaps : List (UInt16 × UInt16)) (delta : UInt16) : List (UInt16 × UInt16) :=
  match gaps with
  | (start, stop) :: rest =>
      -- `end.saturating_add(1)`
      if delta = (if stop = 0xffff then stop else stop + 1) then (start, delta) :: rest
      else (delta, delta) :: gaps
  | [] => [(delta, delta)]

/-- Gap blocks of ascending offsets. -/
def gapBlocks (deltas : List UInt16) : List (UInt16 × UInt16) :=
  (deltas.foldl extendGaps []).reverse

/-- The offsets of the pending TSNs from the cumulative one that fit 16 bits, ascending. -/
def pendingDeltas (s : Association) (cumulative : UInt32) : List UInt16 :=
  ((s.pendingData.keys.map fun tsn => tsn - cumulative).filter fun delta =>
    delta.toNat < 65536).map (UInt32.toUInt16 ·) |>.mergeSort

def buildSack (s : Association) : Except DataChannelError Bytes := do
  let cumulative ← s.cumulativePeerTsn.elim (.error .unexpectedState) .ok
  let gaps := gapBlocks (s.pendingDeltas cumulative)
  let value := Bytes.ofU32 cumulative ++ Bytes.ofU32 defaultReceiveWindow ++
    Bytes.ofU16 (.ofNat (min gaps.length 65535)) ++ Bytes.ofU16 0 ++
    gaps.flatMap fun gap => Bytes.ofU16 gap.1 ++ Bytes.ofU16 gap.2
  s.packetWithChunk (← s.peerTag) typeSack 0 value

/-! ## Sending -/

/-- The flags of one fragment of a message. -/
def fragmentFlags (ordered : Bool) (index count : ℕ) : UInt8 :=
  (if ordered then 0 else flagDataUnordered) ||| (if index = 0 then flagDataBegin else 0) |||
    (if index + 1 = count then flagDataEnd else 0)

/-- The value of a DATA chunk. -/
def dataValue (tsn : UInt32) (message : OutboundMessage) (fragment : Bytes) : Bytes :=
  Bytes.ofU32 tsn ++ Bytes.ofU16 message.streamId ++ Bytes.ofU16 message.streamSequence ++
    Bytes.ofU32 message.ppid ++ fragment

/-- Sends one fragment under the next TSN and keeps it outstanding. -/
def enqueueFragment (now : ℕ) (message : OutboundMessage) (messageId : UInt64) (index count : ℕ)
    (fragment : Bytes) : Action Bytes := do
  let s ← get
  let tsn := s.nextTsn
  modify fun s => { s with nextTsn := s.nextTsn + 1 }
  let peerTag ← ofExcept s.peerTag
  let packet ← ofExcept (s.packetWithChunk peerTag typeData
    (fragmentFlags message.ordered index count) (dataValue tsn message fragment))
  modify fun s => { s with
    outstanding := s.outstanding.insert tsn {
      packet
      messageId
      streamId := message.streamId
      streamSequence := message.streamSequence
      ordered := message.ordered
      reliability := message.reliability
      firstSentAt := now
      sentAt := now
      retransmissions := 0 } }
  return packet

/-- The loop of `enqueueMessage` over the fragments, from fragment `index` on. -/
def enqueueFragments (now : ℕ) (message : OutboundMessage) (messageId : UInt64) (count : ℕ) :
    ℕ → List Bytes → Action (List Bytes)
  | _, [] => pure []
  | index, fragment :: rest => do
      let packet ← enqueueFragment now message messageId index count fragment
      let packets ← enqueueFragments now message messageId count (index + 1) rest
      return packet :: packets

/-- TSNs assigned and not yet cumulatively acknowledged. -/
def flightSpan (s : Association) : ℕ := (s.nextTsn - s.outboundCumulativeTsn).toNat - 1

/-- Both window checks of `enqueueMessage` leave room for `count` more fragments. -/
def hasRoom (s : Association) (count : ℕ) : Bool :=
  s.outstanding.size + count ≤ maxOutstanding && s.flightSpan + count ≤ maxOutstanding

def enqueueMessage (now : ℕ) (message : OutboundMessage) (payload : Bytes) :
    Action (List Bytes) := do
  let fragments := Bytes.chunks maxDataPayload payload
  let s ← get
  ensure (s.hasRoom fragments.length = true) .sendWindowFull
  modify fun s => { s with nextMessageId := s.nextMessageId + 1 }
  enqueueFragments now message s.nextMessageId fragments.length 0 fragments

/-- The PPID and the bytes that carry a user message; an empty one is sent as one zero byte. -/
def wirePayload (kind : MessageKind) (payload : Bytes) : UInt32 × Bytes :=
  match kind, payload.isEmpty with
  | .text, false => (ppidString, payload)
  | .binary, false => (ppidBinary, payload)
  | .text, true => (ppidStringEmpty, [0])
  | .binary, true => (ppidBinaryEmpty, [0])

def sendMessage (now : ℕ) (streamId : UInt16) (kind : MessageKind) (payload : Bytes) :
    Action (List Bytes) := do
  let s ← get
  ensure (s.state = .established) .associationNotEstablished
  ensure (payload.length ≤ s.config.maximumMessageBytes) .messageTooLarge
  ensure (kind = .text → (String.fromUTF8? ⟨payload.toArray⟩).isSome) .invalidUtf8
  let channel ← ofOption s.channels[streamId]? .unknownChannel
  modify fun s => { s with
    channels := s.channels.insert streamId
      { channel with nextOutgoingSequence := channel.nextOutgoingSequence + 1 } }
  enqueueMessage now {
    streamId
    streamSequence := channel.nextOutgoingSequence
    ppid := (wirePayload kind payload).1
    ordered := channel.ordered
    reliability := channel.reliability } (wirePayload kind payload).2

/-- The loop over one gap block of a SACK. -/
def ackRange (cumulative : UInt32) (start stop : ℕ) (outstanding : ExtTreeMap UInt32 Outstanding) :
    ExtTreeMap UInt32 Outstanding :=
  (List.range' start (stop + 1 - start)).foldl
    (fun outstanding delta => outstanding.erase (cumulative + .ofNat delta)) outstanding

/-- The loop of `handleSack` over its gap blocks, from block `index` on. -/
def ackGaps (value : Bytes) (cumulative : UInt32) : ℕ → ℕ → Action Unit
  | _, 0 => pure ()
  | index, count + 1 => do
      let start ← ofExcept (readU16 value (12 + index * 4))
      let stop ← ofExcept (readU16 value (12 + index * 4 + 2))
      ensure (start ≠ 0 ∧ start ≤ stop) .malformedChunk
      modify fun s => { s with
        outstanding := ackRange cumulative start.toNat stop.toNat s.outstanding }
      ackGaps value cumulative (index + 1) count

/-- What a SACK's cumulative TSN does, before its gap blocks. -/
def ackCumulative (cumulative : UInt32) (s : Association) : Association :=
  { s with
    outboundCumulativeTsn :=
      if !sequenceLessOrEqual cumulative s.outboundCumulativeTsn then cumulative
      else s.outboundCumulativeTsn
    outstanding := s.outstanding.filter fun tsn _ => !sequenceLessOrEqual tsn cumulative
    abandoned := s.abandoned.filter fun tsn _ => !sequenceLessOrEqual tsn cumulative
    pendingForwardTsn :=
      if s.pendingForwardTsn.any fun pending =>
        sequenceLessOrEqual pending.newCumulativeTsn cumulative then none
      else s.pendingForwardTsn }

def handleSack (value : Bytes) : Action Unit := do
  ensure (sackFixedLen - 4 ≤ value.length) .malformedChunk
  let cumulative ← ofExcept (readU32 value 0)
  let gapCount ← ofExcept (readU16 value 8)
  let duplicateCount ← ofExcept (readU16 value 10)
  ensure (12 + gapCount.toNat * 4 + duplicateCount.toNat * 4 ≤ value.length) .malformedChunk
  modify (ackCumulative cumulative)
  ackGaps value cumulative 0 gapCount.toNat

/-! ## Abandoning and FORWARD TSN -/

/-- The scan of `buildForwardTsn`: where it stops, whether it met an abandoned TSN, and the
highest abandoned stream sequence of each ordered stream. -/
def forwardScan (s : Association) : ℕ → UInt32 → Bool → ExtTreeMap UInt16 UInt16 →
    UInt32 × Bool × ExtTreeMap UInt16 UInt16
  | 0, next, saw, skipped => (next, saw, skipped)
  | fuel + 1, next, saw, skipped =>
      if next = s.nextTsn then (next, saw, skipped)
      else if s.outstanding.contains next then (next, saw, skipped)
      else
        match s.abandoned[next]? with
        | some abandoned =>
            forwardScan s fuel (next + 1) true
              (if abandoned.ordered then
                skipped.insert abandoned.streamId abandoned.streamSequence
              else skipped)
        | none => forwardScan s fuel (next + 1) saw skipped

def buildForwardTsn (now : ℕ) : Action (Option Bytes) := do
  let s ← get
  let first := s.outboundCumulativeTsn + 1
  let (next, sawAbandoned, skipped) := s.forwardScan (s.nextTsn - first).toNat first false ∅
  if !sawAbandoned then
    return none
  else
    let newCumulativeTsn := next - 1
    let skippedStreams := skipped.toList
    let shouldSend := s.pendingForwardTsn.all fun pending =>
      pending.newCumulativeTsn != newCumulativeTsn || pending.skippedStreams != skippedStreams ||
        decide (retransmitAfter ≤ now - pending.sentAt)
    if !shouldSend then
      return none
    else
      let value := Bytes.ofU32 newCumulativeTsn ++
        skippedStreams.flatMap fun entry => Bytes.ofU16 entry.1 ++ Bytes.ofU16 entry.2
      let peerTag ← ofExcept s.peerTag
      let packet ← ofExcept (s.packetWithChunk peerTag typeForwardTsn 0 value)
      modify fun s => { s with
        pendingForwardTsn := some { newCumulativeTsn, skippedStreams, sentAt := now } }
      return some packet

/-- What the first loop of `tick` accumulates. -/
structure Scan where
  outstanding : ExtTreeMap UInt32 Outstanding
  abandonedMessages : ExtTreeMap UInt64 (UInt16 × UInt16) := ∅
  output : AssociationOutput := {}
  failed : Bool := false

def Outstanding.overdue (outstanding : Outstanding) (now : ℕ) : Bool :=
  retransmitAfter ≤ now - outstanding.sentAt

def Outstanding.shouldAbandon (outstanding : Outstanding) (now : ℕ) : Bool :=
  match outstanding.reliability with
  | .reliable => false
  | .maxRetransmissions maximum =>
      Outstanding.overdue outstanding now && decide (maximum.toNat ≤ outstanding.retransmissions)
  | .maxPacketLifetime lifetime => lifetime ≤ now - outstanding.firstSentAt

/-- The first loop of `tick`, over the outstanding chunks in TSN order. -/
def scanOutstanding (now : ℕ) : List (UInt32 × Outstanding) → Scan → Scan
  | [], scan => scan
  | (tsn, outstanding) :: rest, scan =>
      if Outstanding.shouldAbandon outstanding now then
        scanOutstanding now rest { scan with
          abandonedMessages := scan.abandonedMessages.insertIfNew outstanding.messageId
            (outstanding.streamId, outstanding.streamSequence) }
      else if !Outstanding.overdue outstanding now then
        scanOutstanding now rest scan
      else if outstanding.reliability = .reliable ∧
          maxRetransmissions ≤ outstanding.retransmissions then
        { scan with
          failed := true
          output := scan.output ++ { events := [.deliveryFailed tsn] } }
      else
        scanOutstanding now rest { scan with
          outstanding := scan.outstanding.insert tsn { outstanding with
            sentAt := now
            retransmissions := min (outstanding.retransmissions + 1) 0xffffffff }
          output := scan.output ++ { packets := [outstanding.packet], retransmittedPackets := 1 } }

/-- Moves the fragments of one message from the outstanding to the abandoned ones. -/
def abandonMessage (messageId : UInt64) (s : Association) : Association :=
  { s with
    outstanding := s.outstanding.filter fun _ outstanding => outstanding.messageId != messageId
    abandoned := s.outstanding.toList.foldl
      (fun abandoned (tsn, outstanding) =>
        if outstanding.messageId = messageId then
          abandoned.insert tsn
            ⟨outstanding.streamId, outstanding.streamSequence, outstanding.ordered⟩
        else abandoned)
      s.abandoned }

def tick (now : ℕ) (s : Association) : AssociationOutput × Association :=
  if s.state ≠ .established then
    ({}, s)
  else
    let scan := scanOutstanding now s.outstanding.toList { outstanding := s.outstanding }
    if scan.failed then
      (scan.output, { s with outstanding := scan.outstanding, state := .failed })
    else
      let messages := scan.abandonedMessages.toList
      let s := messages.foldl (fun s entry => abandonMessage entry.1 s)
        { s with outstanding := scan.outstanding }
      let output := scan.output ++
        { events := messages.map fun entry => .messageAbandoned entry.2.1 entry.2.2 }
      if s.peerForwardTsnSupported then
        match (buildForwardTsn now).run s with
        | (.ok (some packet), s) => (output ++ { packets := [packet] }, s)
        | (_, s) => (output, s)
      else
        (output, s)

/-! ## Handshake -/

/-- The fields of an INIT that passes the checks of `handleInit`. -/
structure InitChunk where
  peerTag : UInt32
  outboundStreams : UInt16
  inboundStreams : UInt16
  initialTsn : UInt32
  forwardTsnSupported : Bool
deriving DecidableEq

def InitChunk.parse (verificationTag : UInt32) (value : Bytes) :
    Except DataChannelError InitChunk := do
  if verificationTag ≠ 0 ∨ value.length < initFixedLen - chunkHeaderLen then
    .error .malformedChunk
  else
    let peerTag ← readU32 value 0
    let outboundStreams ← readU16 value 8
    let inboundStreams ← readU16 value 10
    let initialTsn ← readU32 value 12
    if peerTag = 0 ∨ outboundStreams = 0 ∨ inboundStreams = 0 then
      .error .malformedChunk
    else
      let parameters ← parseParameters (value.drop 16)
      return {
        peerTag
        outboundStreams
        inboundStreams
        initialTsn
        forwardTsnSupported := parameters.any fun parameter =>
          parameter.kind == parameterForwardTsnSupported && parameter.value.isEmpty }

/-- The association an accepted INIT starts over. -/
def restart (init : InitChunk) (s : Association) : Association :=
  { s with
    peerForwardTsnSupported := init.forwardTsnSupported
    peerVerificationTag := some init.peerTag
    peerInitialTsn := some init.initialTsn
    cumulativePeerTsn := some (init.initialTsn - 1)
    peerOutboundStreams := init.outboundStreams
    pendingData := ∅
    reassembly := ∅
    outstanding := ∅
    abandoned := ∅
    pendingForwardTsn := none
    channels := ∅
    nextTsn := s.config.initialTsn
    outboundCumulativeTsn := s.config.initialTsn - 1
    nextMessageId := 0
    nextReconfigSequence := s.config.initialTsn
    nextPeerReconfigSequence := some init.initialTsn
    state := .cookieWait }

/-- The value of the INIT ACK chunk. -/
def initAck (config : AssociationConfig) (init : InitChunk) : Except DataChannelError Bytes := do
  let streams : UInt16 := .ofNat (max (min (min config.maximumChannels 65535)
    init.inboundStreams.toNat) 1)
  let cookie ← pushParameter parameterStateCookie config.cookie
  let forwardTsn ←
    if init.forwardTsnSupported then pushParameter parameterForwardTsnSupported [] else .ok []
  return Bytes.ofU32 config.verificationTag ++ Bytes.ofU32 defaultReceiveWindow ++
    Bytes.ofU16 streams ++ Bytes.ofU16 streams ++ Bytes.ofU32 config.initialTsn ++ cookie ++
    forwardTsn

def handleInit (verificationTag : UInt32) (value : Bytes) : Action AssociationOutput := do
  let init ← ofExcept (InitChunk.parse verificationTag value)
  modify (restart init)
  let s ← get
  let initAck ← ofExcept (initAck s.config init)
  let packet ← ofExcept (s.packetWithChunk init.peerTag typeInitAck 0 initAck)
  return { packets := [packet] }

def handleCookieEcho (verificationTag : UInt32) (cookie : Bytes) : Action AssociationOutput := do
  let s ← get
  ensure (s.state = .cookieWait) .unexpectedState
  ofExcept (s.requireVerificationTag verificationTag)
  ensure (constantTimeEqual cookie s.config.cookie = true) .invalidCookie
  modify fun s => { s with state := .established }
  let peerTag ← ofExcept s.peerTag
  let packet ← ofExcept (s.packetWithChunk peerTag typeCookieAck 0 [])
  return { packets := [packet], events := [.established] }

/-! ## Receiving -/

/-- The channel parameters of a DCEP OPEN. -/
structure ChannelOpen where
  ordered : Bool
  reliability : ChannelReliability
  label : String
  protocol : String

/-- The delivery policy a channel type and its parameter ask for. -/
def channelPolicy (forwardTsnSupported : Bool) (channelType : UInt8) (parameter : UInt32) :
    Except DataChannelError (Bool × ChannelReliability) :=
  if channelType = 0x00 then .ok (true, .reliable)
  else if channelType = 0x80 then .ok (false, .reliable)
  else if (channelType = 0x01 ∨ channelType = 0x81) ∧ forwardTsnSupported ∧
      parameter.toNat ≤ maxPartialRetransmissions then
    .ok (channelType = 0x01, .maxRetransmissions parameter)
  else if (channelType = 0x02 ∨ channelType = 0x82) ∧ forwardTsnSupported ∧
      parameter.toNat * 1000000 ≤ maxPartialLifetime then
    .ok (channelType = 0x02, .maxPacketLifetime (parameter.toNat * 1000000))
  else .error .invalidDcep

def utf8 (bytes : Bytes) : Except DataChannelError String :=
  (String.fromUTF8? ⟨bytes.toArray⟩).elim (.error .invalidUtf8) .ok

/-- The checks of `handleDcep` on the payload, up to the insertion of the channel. -/
def ChannelOpen.parse (s : Association) (streamId : UInt16) (payload : Bytes) :
    Except DataChannelError ChannelOpen := do
  if payload.head? ≠ some dcepOpen ∨ payload.length < 12 ∨ streamId % 2 ≠ 0 ∨
      s.channels.contains streamId ∨ s.config.maximumChannels ≤ s.channels.size then
    .error .invalidDcep
  else
    let channelType := payload.getD 1 0
    let reliabilityParameter ← readU32 payload 4
    let (ordered, reliability) ←
      channelPolicy s.peerForwardTsnSupported channelType reliabilityParameter
    let labelLength := (← readU16 payload 8).toNat
    let protocolLength := (← readU16 payload 10).toNat
    if 12 + labelLength + protocolLength ≠ payload.length ∨ 1024 < labelLength ∨
        1024 < protocolLength then
      .error .invalidDcep
    else
      let label ← utf8 ((payload.drop 12).take labelLength)
      let protocol ← utf8 (payload.drop (12 + labelLength))
      return { ordered, reliability, label, protocol }

/-- The DCEP ACK that answers an accepted OPEN. -/
def dcepAckMessage (streamId : UInt16) : OutboundMessage where
  streamId := streamId
  streamSequence := 0
  ppid := ppidDcep
  ordered := true
  reliability := .reliable

def handleDcep (now : ℕ) (streamId : UInt16) (payload : Bytes) : Action AssociationOutput := do
  let s ← get
  let channel ← ofExcept (ChannelOpen.parse s streamId payload)
  modify fun s => { s with
    channels := s.channels.insert streamId
      ⟨channel.ordered, channel.reliability, 0⟩ }
  let packets ← enqueueMessage now (dcepAckMessage streamId) [dcepAck]
  return {
    packets
    events := [.channelOpened streamId channel.label channel.protocol channel.ordered
      channel.reliability] }

def userPpid (ppid : UInt32) : Bool :=
  ppid == ppidString || ppid == ppidBinary || ppid == ppidStringEmpty || ppid == ppidBinaryEmpty

/-- Text or binary, from a user PPID. -/
def messageKind (ppid : UInt32) : MessageKind :=
  if ppid = ppidString ∨ ppid = ppidStringEmpty then .text else .binary

/-- The payload the application sees: the empty PPIDs carry one padding byte. -/
def messagePayload (ppid : UInt32) (payload : Bytes) : Bytes :=
  if ppid = ppidStringEmpty ∨ ppid = ppidBinaryEmpty then [] else payload

def handleUserMessage (s : Association) (streamId : UInt16) (ppid : UInt32) (payload : Bytes) :
    Except DataChannelError AssociationOutput := do
  if !s.channels.contains streamId then
    .error .unknownChannel
  else if !userPpid ppid then
    .error (.unsupportedPpid ppid)
  else
    let kind := messageKind ppid
    let payload := messagePayload ppid payload
    if kind = .text then
      let _ ← utf8 payload
    if s.config.maximumMessageBytes < payload.length then
      .error .messageTooLarge
    else
      return { events := [.message streamId kind payload] }

def DataChunk.isBegin (data : DataChunk) : Bool := data.flags &&& flagDataBegin != 0

def DataChunk.isEnd (data : DataChunk) : Bool := data.flags &&& flagDataEnd != 0

/-- Adds one fragment to the message its stream reassembles. -/
def reassemble (data : DataChunk) : Action (Option Bytes) := do
  if DataChunk.isBegin data then
    modify fun s => { s with
      reassembly := s.reassembly.insert data.streamId ⟨data.streamSequence, data.ppid, []⟩ }
  let s ← get
  let assembly ← ofOption s.reassembly[data.streamId]? .invalidFragmentSequence
  ensure (assembly.streamSequence = data.streamSequence ∧ assembly.ppid = data.ppid)
    .invalidFragmentSequence
  if s.config.maximumMessageBytes < assembly.payload.length + data.payload.length then
    modify fun s => { s with reassembly := s.reassembly.erase data.streamId }
    fail .messageTooLarge
  else
    let payload := assembly.payload ++ data.payload
    if DataChunk.isEnd data then
      modify fun s => { s with reassembly := s.reassembly.erase data.streamId }
      return some payload
    else
      modify fun s => { s with
        reassembly := s.reassembly.insert data.streamId { assembly with payload } }
      return none

/-- The payload of the message that ends with a chunk; a whole message is not reassembled. -/
def assemble (data : DataChunk) : Action Bytes := do
  if DataChunk.isBegin data && DataChunk.isEnd data then
    return data.payload
  else
    let assembled ← reassemble data
    return assembled.getD []

def processDataMessage (now : ℕ) (data : DataChunk) : Action AssociationOutput := do
  let s ← get
  ensure (data.streamId < s.peerOutboundStreams) .unknownChannel
  let payload ← assemble data
  if !DataChunk.isEnd data then
    return {}
  else if data.ppid = ppidDcep then
    handleDcep now data.streamId payload
  else if userPpid data.ppid then do
    let s ← get
    ofExcept (s.handleUserMessage data.streamId data.ppid payload)
  else
    fail (.unsupportedPpid data.ppid)

/-- Takes a chunk out of the reorder buffer. -/
def unbuffer (tsn : UInt32) (s : Association) : Association :=
  { s with pendingData := s.pendingData.erase tsn }

/-- Moves the cumulative TSN. -/
def advance (tsn : UInt32) (s : Association) : Association :=
  { s with cumulativePeerTsn := some tsn }

/-- The drain loop of `acceptData`. -/
def drain : ℕ → UInt32 → Association → List DataChunk × Association
  | 0, _, s => ([], s)
  | fuel + 1, next, s =>
      match s.pendingData[next]? with
      | none => ([], s)
      | some data =>
          let (deliverable, s) := drain fuel (next + 1) (advance next (unbuffer next s))
          (data :: deliverable, s)

def acceptData (data : DataChunk) : Action (List DataChunk) := do
  let s ← get
  let cumulative ← ofOption s.cumulativePeerTsn .unexpectedState
  let delta := data.tsn - cumulative
  if delta = 0 ∨ 0x80000000 ≤ delta then
    return []
  else
    ensure (delta.toNat ≤ maxPendingTsn) .receiveWindowExceeded
    ensure (s.pendingData.size < maxPendingTsn ∨ data.tsn ∈ s.pendingData) .receiveWindowExceeded
    let pending := s.pendingData.insertIfNew data.tsn data
    let (deliverable, s) := drain pending.size (cumulative + 1) { s with pendingData := pending }
    set s
    return deliverable

/-- The loop of `handleData` over the deliverable chunks. -/
def processAll (now : ℕ) : List DataChunk → Action AssociationOutput
  | [] => pure {}
  | data :: rest => do
      let first ← processDataMessage now data
      let others ← processAll now rest
      return first ++ others

/-- The fields of a DATA chunk. -/
def DataChunk.parse (flags : UInt8) (value : Bytes) : Except DataChannelError DataChunk := do
  return {
    flags
    tsn := ← readU32 value 0
    streamId := ← readU16 value 4
    streamSequence := ← readU16 value 6
    ppid := ← readU32 value 8
    payload := value.drop 12 }

def handleData (now : ℕ) (flags : UInt8) (value : Bytes) : Action AssociationOutput := do
  let s ← get
  ensure (s.state = .established ∧ dataFixedLen - 4 ≤ value.length) .unexpectedState
  let data ← ofExcept (DataChunk.parse flags value)
  let deliverable ← acceptData data
  let output ← processAll now deliverable
  let s ← get
  let sack ← ofExcept s.buildSack
  return output ++ { packets := [sack] }

/-- The loop of `handleForwardTsn` over its stream entries. -/
def skipStreams (value : Bytes) : ℕ → ℕ → Action Unit
  | _, 0 => pure ()
  | offset, count + 1 => do
      let streamId ← ofExcept (readU16 value offset)
      let streamSequence ← ofExcept (readU16 value (offset + 2))
      modify fun s =>
        if s.reassembly[streamId]?.any fun reassembly =>
          sequenceLessOrEqualU16 reassembly.streamSequence streamSequence then
          { s with reassembly := s.reassembly.erase streamId }
        else s
      skipStreams value (offset + 4) count

/-- The loop of `handleForwardTsn` over the buffered chunks behind the new cumulative TSN. -/
def releasePending (now : ℕ) : ℕ → UInt32 → Action AssociationOutput
  | 0, _ => pure {}
  | fuel + 1, next => do
      let s ← get
      match s.pendingData[next]? with
      | none => pure {}
      | some data =>
          modify (unbuffer next)
          let first ← processDataMessage now data
          modify (advance next)
          let others ← releasePending now fuel (next + 1)
          return first ++ others

def handleForwardTsn (now : ℕ) (value : Bytes) : Action AssociationOutput := do
  let s ← get
  ensure (s.state = .established ∧ s.peerForwardTsnSupported = true ∧ 4 ≤ value.length ∧
    (value.length - 4) % 4 = 0) .malformedChunk
  let newCumulativeTsn ← ofExcept (readU32 value 0)
  let current ← ofOption s.cumulativePeerTsn .unexpectedState
  if sequenceLessOrEqual newCumulativeTsn current then
    let sack ← ofExcept s.buildSack
    return { packets := [sack] }
  else
    skipStreams value 4 ((value.length - 4) / 4)
    modify fun s => { s with
      pendingData := s.pendingData.filter fun tsn _ => !sequenceLessOrEqual tsn newCumulativeTsn
      cumulativePeerTsn := some newCumulativeTsn }
    let s ← get
    let output ← releasePending now s.pendingData.size (newCumulativeTsn + 1)
    let s ← get
    let sack ← ofExcept s.buildSack
    return output ++ { packets := [sack] }

/-! ## Stream resets -/

/-- The streams a reset closes: the listed ones, or every open channel. -/
def resetStreams (s : Association) (streams : Option (List UInt16)) : List UInt16 :=
  streams.getD s.channels.keys

/-- Closes the streams that are open, and reports each. -/
def closeStreams : List UInt16 → Association → AssociationOutput × Association
  | [], s => ({}, s)
  | streamId :: rest, s =>
      if s.channels.contains streamId then
        let (output, s) := closeStreams rest { s with
          channels := s.channels.erase streamId
          reassembly := s.reassembly.erase streamId }
        ({ events := [.channelClosed streamId] } ++ output, s)
      else
        closeStreams rest s

/-- The response parameter to a reset request. -/
def reconfigResponse (requestSequence result : UInt32) : Except DataChannelError Bytes :=
  pushParameter parameterReconfigResponse (Bytes.ofU32 requestSequence ++ Bytes.ofU32 result)

/-- The part both reset requests share once their sequence number is the expected one. -/
def performReset (expected : UInt32) (streamNumbers : Bytes) :
    Action (Option (List UInt16) × AssociationOutput) := do
  modify fun s => { s with nextPeerReconfigSequence := some (expected + 1) }
  let s ← get
  let streams ← ofExcept (parseStreamNumbers streamNumbers s.peerOutboundStreams)
  let closed := closeStreams (s.resetStreams streams) s
  set closed.2
  return (streams, closed.1)

/-- Returns the response parameter and what the reset closes. -/
def handleOutgoingReset (value : Bytes) : Action (Bytes × AssociationOutput) := do
  ensure (12 ≤ value.length ∧ (value.length - 12) % 2 = 0) .malformedChunk
  let requestSequence ← ofExcept (readU32 value 0)
  let s ← get
  let expected ← ofOption s.nextPeerReconfigSequence .unexpectedState
  if requestSequence = expected then
    let (_, output) ← performReset expected (value.drop 12)
    let response ← ofExcept (reconfigResponse requestSequence reconfigSuccessPerformed)
    return (response, output)
  else
    let response ← ofExcept (reconfigResponse requestSequence reconfigErrorBadSequence)
    return (response, {})

/-- Returns the response parameter and what the reset closes. -/
def handleIncomingReset (value : Bytes) : Action (Bytes × AssociationOutput) := do
  ensure (4 ≤ value.length ∧ (value.length - 4) % 2 = 0) .malformedChunk
  let peerRequestSequence ← ofExcept (readU32 value 0)
  let s ← get
  let expected ← ofOption s.nextPeerReconfigSequence .unexpectedState
  if peerRequestSequence ≠ expected then
    let response ← ofExcept (reconfigResponse peerRequestSequence reconfigErrorBadSequence)
    return (response, {})
  else
    let (streams, output) ← performReset expected (value.drop 4)
    let s ← get
    let outgoing := Bytes.ofU32 s.nextReconfigSequence ++ Bytes.ofU32 peerRequestSequence ++
      Bytes.ofU32 (s.nextTsn - 1) ++ (streams.getD []).flatMap Bytes.ofU16
    modify fun s => { s with nextReconfigSequence := s.nextReconfigSequence + 1 }
    let response ← ofExcept (pushParameter parameterOutgoingReset outgoing)
    return (response, output)

/-- The loop of `handleReconfiguration`; an unknown parameter ends it. -/
def handleParameters : List Parameter → Action (Bytes × AssociationOutput)
  | [] => pure ([], {})
  | parameter :: rest => do
      if parameter.kind = parameterOutgoingReset then
        let (response, output) ← handleOutgoingReset parameter.value
        let (responses, outputs) ← handleParameters rest
        return (response ++ responses, output ++ outputs)
      else if parameter.kind = parameterIncomingReset then
        let (response, output) ← handleIncomingReset parameter.value
        let (responses, outputs) ← handleParameters rest
        return (response ++ responses, output ++ outputs)
      else if parameter.kind = parameterReconfigResponse then
        ensure (parameter.value.length = 8 ∨ parameter.value.length = 16) .malformedChunk
        handleParameters rest
      else
        return ([], {})

/-- What handling a reset does together with the parameters behind it. -/
def followedBy (action : Action (Bytes × AssociationOutput)) (parameters : List Parameter) :
    Action (Bytes × AssociationOutput) := do
  let (response, output) ← action
  let (responses, outputs) ← handleParameters parameters
  return (response ++ responses, output ++ outputs)

def handleReconfiguration (value : Bytes) : Action AssociationOutput := do
  let s ← get
  ensure (s.state = .established ∧ value ≠ []) .unexpectedState
  let parameters ← ofExcept (parseParameters value)
  ensure (parameters ≠ [] ∧ parameters.length ≤ 2) .malformedChunk
  let (response, output) ← handleParameters parameters
  if response.isEmpty then
    return output
  else
    let s ← get
    let peerTag ← ofExcept s.peerTag
    let packet ← ofExcept (s.packetWithChunk peerTag typeReConfig 0 response)
    return output ++ { packets := [packet] }

/-! ## Packets -/

def handleHeartbeat (value : Bytes) : Action AssociationOutput := do
  let s ← get
  let peerTag ← ofExcept s.peerTag
  let packet ← ofExcept (s.packetWithChunk peerTag typeHeartbeatAck 0 value)
  return { packets := [packet] }

def handleAbort : Action AssociationOutput := do
  modify fun s => { s with state := .closed }
  return { events := [.closed] }

def handleShutdown : Action AssociationOutput := do
  modify fun s => { s with state := .closed }
  let s ← get
  let peerTag ← ofExcept s.peerTag
  let packet ← ofExcept (s.packetWithChunk peerTag typeShutdownAck 0 [])
  return { packets := [packet], events := [.closed] }

/-- Checks the packet's tag before a handler runs. -/
def guarded (tag : UInt32) (action : Action AssociationOutput) : Action AssociationOutput := do
  let s ← get
  ofExcept (s.requireVerificationTag tag)
  action

/-- One chunk of a packet. -/
def handleChunk (now : ℕ) (tag : UInt32) (chunk : ParsedChunk) : Action AssociationOutput :=
  if chunk.kind = typeInit then handleInit tag chunk.value
  else if chunk.kind = typeCookieEcho then handleCookieEcho tag chunk.value
  else if chunk.kind = typeData then guarded tag (handleData now chunk.flags chunk.value)
  else if chunk.kind = typeSack then guarded tag (do handleSack chunk.value; return {})
  else if chunk.kind = typeHeartbeat then guarded tag (handleHeartbeat chunk.value)
  else if chunk.kind = typeAbort then handleAbort
  else if chunk.kind = typeShutdown then guarded tag handleShutdown
  else if chunk.kind = typeReConfig then guarded tag (handleReconfiguration chunk.value)
  else if chunk.kind = typeForwardTsn then guarded tag (handleForwardTsn now chunk.value)
  else pure {}

/-- The chunk loop of `handlePacket`. -/
def handleChunks (now : ℕ) (tag : UInt32) : List ParsedChunk → Action AssociationOutput
  | [] => pure {}
  | chunk :: rest => do
      let first ← handleChunk now tag chunk
      let others ← handleChunks now tag rest
      return first ++ others

/-- Processes one SCTP packet obtained from a DTLS application record. -/
def handlePacket (now : ℕ) (packet : Bytes) : Action AssociationOutput := do
  let parsed ← ofExcept (ParsedPacket.parse packet)
  let s ← get
  ensure (parsed.sourcePort = s.config.remotePort ∧
    parsed.destinationPort = s.config.localPort) .unexpectedPort
  handleChunks now parsed.verificationTag parsed.chunks

end Association

end Fluvora.DataChannel
