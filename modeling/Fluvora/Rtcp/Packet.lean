import Fluvora.Lib.Bytes

/-!
# RTCP packets

The packet types of `crates/webrtc/rtcp` and `parseCompound`, which reads every packet of a compound
datagram: reports, source descriptions, NACK, PLI and transport-wide feedback; other types are kept
raw.  The loops over positions have the length of the buffer as fuel; every round moves the position.
-/

namespace Fluvora.Rtcp

/-- RTCP parsing and encoding failures. -/
inductive RtcpError
  | packetTooShort (length : ℕ)
  | unsupportedVersion (version : UInt8)
  | invalidPacketLength (declared remaining : ℕ)
  | truncatedPacket
  | invalidPadding (length : ℕ)
  | invalidBodyLength (packetType : UInt8) (length : ℕ)
  | invalidCumulativeLoss (value : ℤ)
  | countTooLarge (count : ℕ)
  | sdesItemTooLarge (length : ℕ)
  | reservedTwccStatus (status : UInt8)
  | invalidTwccStatusCount
  | invalidTwccDeltas
  | invalidReferenceTime (value : ℤ)
  | packetTooLarge
deriving DecidableEq

/-- One reception report block shared by sender and receiver reports. -/
structure ReportBlock where
  ssrc : UInt32
  fractionLost : UInt8
  cumulativeLost : ℤ
  extendedHighestSequence : UInt32
  jitter : UInt32
  lastSenderReport : UInt32
  delaySinceLastSenderReport : UInt32
deriving DecidableEq

structure SenderReport where
  senderSsrc : UInt32
  ntpTimestamp : UInt64
  rtpTimestamp : UInt32
  senderPacketCount : UInt32
  senderOctetCount : UInt32
  reports : List ReportBlock
deriving DecidableEq

structure ReceiverReport where
  senderSsrc : UInt32
  reports : List ReportBlock
deriving DecidableEq

structure SdesItem where
  itemType : UInt8
  value : Bytes
deriving DecidableEq

structure SdesChunk where
  ssrc : UInt32
  items : List SdesItem
deriving DecidableEq

structure SourceDescription where
  chunks : List SdesChunk
deriving DecidableEq

/-- One PID/BLP pair in generic negative acknowledgement feedback. -/
structure NackEntry where
  packetId : UInt16
  lostPacketBitmask : UInt16
deriving DecidableEq

structure GenericNack where
  senderSsrc : UInt32
  mediaSsrc : UInt32
  entries : List NackEntry
deriving DecidableEq

structure PictureLossIndication where
  senderSsrc : UInt32
  mediaSsrc : UInt32
deriving DecidableEq

inductive TwccStatus
  | notReceived
  | receivedSmallDelta (delta : UInt8)
  | receivedLargeDelta (delta : Int16)
deriving DecidableEq

/-- Transport-wide congestion-control feedback. -/
structure TransportWideFeedback where
  senderSsrc : UInt32
  mediaSsrc : UInt32
  baseSequenceNumber : UInt16
  referenceTime : ℤ
  feedbackPacketCount : UInt8
  statuses : List TwccStatus
deriving DecidableEq

structure RawPacket where
  count : UInt8
  packetType : UInt8
  body : Bytes
deriving DecidableEq

/-- One decoded RTCP packet. -/
inductive Packet
  | senderReport (report : SenderReport)
  | receiverReport (report : ReceiverReport)
  | sourceDescription (description : SourceDescription)
  | genericNack (nack : GenericNack)
  | pictureLossIndication (pli : PictureLossIndication)
  | transportWideFeedback (feedback : TransportWideFeedback)
  | raw (packet : RawPacket)
deriving DecidableEq

/-! ## Readers -/

def readU8 (input : Bytes) (position : ℕ) : Except RtcpError UInt8 :=
  input[position]?.elim (.error .truncatedPacket) .ok

def readU16 (input : Bytes) (position : ℕ) : Except RtcpError UInt16 :=
  (input.u16At position).elim (.error .truncatedPacket) .ok

def readU32 (input : Bytes) (position : ℕ) : Except RtcpError UInt32 :=
  (input.u32At position).elim (.error .truncatedPacket) .ok

def readU64 (input : Bytes) (position : ℕ) : Except RtcpError UInt64 := do
  let hi ← readU32 input position
  let lo ← readU32 input (position + 4)
  return hi.toUInt64 <<< 32 ||| lo.toUInt64

/-- A big-endian two's complement number of some bytes. -/
def signed (bytes : Bytes) : ℤ :=
  let value : ℕ := bytes.foldl (fun value byte => value * 256 + byte.toNat) 0
  if value < 256 ^ bytes.length / 2 then value else (value : ℤ) - 256 ^ bytes.length

def readI24 (input : Bytes) (position : ℕ) : Except RtcpError ℤ :=
  let bytes := (input.drop position).take 3
  if bytes.length < 3 then .error .truncatedPacket else .ok (signed bytes)

/-! ## Packet bodies -/

def requireBodyLen (packetType : UInt8) (body : Bytes) (expected : ℕ) : Except RtcpError Unit :=
  if body.length = expected then .ok () else .error (.invalidBodyLength packetType body.length)

def reportBlockLen : ℕ := 24

def parseReportBlocks (body : Bytes) : ℕ → ℕ → Except RtcpError (List ReportBlock)
  | _, 0 => .ok []
  | position, count + 1 => do
      let report : ReportBlock := {
        ssrc := ← readU32 body position
        fractionLost := ← readU8 body (position + 4)
        cumulativeLost := ← readI24 body (position + 5)
        extendedHighestSequence := ← readU32 body (position + 8)
        jitter := ← readU32 body (position + 12)
        lastSenderReport := ← readU32 body (position + 16)
        delaySinceLastSenderReport := ← readU32 body (position + 20) }
      let rest ← parseReportBlocks body (position + reportBlockLen) count
      return report :: rest

def parseSenderReport (count : UInt8) (body : Bytes) : Except RtcpError SenderReport := do
  requireBodyLen 200 body (24 + count.toNat * reportBlockLen)
  return {
    senderSsrc := ← readU32 body 0
    ntpTimestamp := ← readU64 body 4
    rtpTimestamp := ← readU32 body 12
    senderPacketCount := ← readU32 body 16
    senderOctetCount := ← readU32 body 20
    reports := ← parseReportBlocks body 24 count.toNat }

def parseReceiverReport (count : UInt8) (body : Bytes) : Except RtcpError ReceiverReport := do
  requireBodyLen 201 body (4 + count.toNat * reportBlockLen)
  return {
    senderSsrc := ← readU32 body 0
    reports := ← parseReportBlocks body 4 count.toNat }

/-- The items of an SDES chunk up to its END marker, and the position after it. -/
def parseItems (body : Bytes) : ℕ → ℕ → Except RtcpError (List SdesItem × ℕ)
  | 0, _ => .error .truncatedPacket
  | fuel + 1, position => do
      let itemType ← readU8 body position
      if itemType = 0 then
        return ([], position + 1)
      else
        let length := (← readU8 body (position + 1)).toNat
        if body.length < position + 2 + length then
          .error .truncatedPacket
        else
          let (items, stop) ← parseItems body fuel (position + 2 + length)
          return (⟨itemType, (body.drop (position + 2)).take length⟩ :: items, stop)

/-- The zero bytes that align an SDES chunk. -/
def skipAlignment (body : Bytes) : ℕ → ℕ → Except RtcpError ℕ
  | 0, position => .ok position
  | count + 1, position => do
      let byte ← readU8 body position
      if byte = 0 then skipAlignment body count (position + 1) else .error (.invalidPadding 0)

def parseChunks (body : Bytes) : ℕ → ℕ → Except RtcpError (List SdesChunk × ℕ)
  | position, 0 => .ok ([], position)
  | position, count + 1 => do
      let ssrc ← readU32 body position
      let (items, stop) ← parseItems body (body.length + 1) (position + 4)
      let stop ← skipAlignment body (Bytes.pad4 (stop - position) - (stop - position)) stop
      let (chunks, last) ← parseChunks body stop count
      return (⟨ssrc, items⟩ :: chunks, last)

def parseSourceDescription (count : UInt8) (body : Bytes) :
    Except RtcpError SourceDescription := do
  let (chunks, position) ← parseChunks body 0 count.toNat
  if position ≠ body.length then .error (.invalidBodyLength 202 body.length)
  else return ⟨chunks⟩

def parseNackEntries : Bytes → List NackEntry
  | a :: b :: c :: d :: rest => ⟨Bytes.toU16 a b, Bytes.toU16 c d⟩ :: parseNackEntries rest
  | _ => []

def parseNack (body : Bytes) : Except RtcpError GenericNack := do
  if body.length < 8 ∨ (body.length - 8) % 4 ≠ 0 then
    .error (.invalidBodyLength 205 body.length)
  else
    return {
      senderSsrc := ← readU32 body 0
      mediaSsrc := ← readU32 body 4
      entries := parseNackEntries (body.drop 8) }

def parsePli (body : Bytes) : Except RtcpError PictureLossIndication := do
  requireBodyLen 206 body 8
  return { senderSsrc := ← readU32 body 0, mediaSsrc := ← readU32 body 4 }

/-! ## Transport-wide feedback -/

/-- The symbols of a status vector chunk, before it is cut to the declared count. -/
def vectorSymbols (chunk : UInt16) : List UInt8 :=
  if chunk &&& 0x4000 ≠ 0 then
    (List.range 7).map fun index => (chunk >>> .ofNat (12 - index * 2) &&& 0x03).toUInt8
  else
    (List.range 14).map fun index => (chunk >>> .ofNat (13 - index) &&& 0x01).toUInt8

/-- The symbols one chunk adds when `remaining` are still missing. -/
def decodeChunk (chunk : UInt16) (remaining : ℕ) : Except RtcpError (List UInt8) :=
  if chunk &&& 0x8000 = 0 then
    let symbol := (chunk >>> 13 &&& 0x03).toUInt8
    if symbol = 3 then .error (.reservedTwccStatus symbol)
    else if chunk &&& 0x1fff = 0 then .error .invalidTwccStatusCount
    else .ok (List.replicate (min (chunk &&& 0x1fff).toNat remaining) symbol)
  else
    let symbols := (vectorSymbols chunk).take remaining
    if symbols.contains 3 then .error (.reservedTwccStatus 3) else .ok symbols

/-- The status symbols and the position of the first delta; every chunk adds a symbol. -/
def decodeSymbols (body : Bytes) : ℕ → ℕ → ℕ → Except RtcpError (List UInt8 × ℕ)
  | 0, position, _ => .ok ([], position)
  | fuel + 1, position, remaining => do
      if remaining = 0 then
        return ([], position)
      else
        let chunk ← readU16 body position
        let symbols ← decodeChunk chunk remaining
        let (others, stop) ← decodeSymbols body fuel (position + 2) (remaining - symbols.length)
        return (symbols ++ others, stop)

def decodeStatuses (body : Bytes) : List UInt8 → ℕ → Except RtcpError (List TwccStatus × ℕ)
  | [], position => .ok ([], position)
  | symbol :: symbols, position => do
      if symbol = 0 then
        let (statuses, stop) ← decodeStatuses body symbols position
        return (.notReceived :: statuses, stop)
      else if symbol = 1 then
        match body[position]? with
        | none => .error .invalidTwccDeltas
        | some delta =>
            let (statuses, stop) ← decodeStatuses body symbols (position + 1)
            return (.receivedSmallDelta delta :: statuses, stop)
      else if symbol = 2 then
        match body.u16At position with
        | none => .error .invalidTwccDeltas
        | some delta =>
            let (statuses, stop) ← decodeStatuses body symbols (position + 2)
            return (.receivedLargeDelta delta.toInt16 :: statuses, stop)
      else
        .error (.reservedTwccStatus symbol)

def parseTwcc (body : Bytes) : Except RtcpError TransportWideFeedback := do
  if body.length < 16 then
    .error (.invalidBodyLength 205 body.length)
  else
    let senderSsrc ← readU32 body 0
    let mediaSsrc ← readU32 body 4
    let baseSequenceNumber ← readU16 body 8
    let statusCount := (← readU16 body 10).toNat
    let referenceTime ← readI24 body 12
    let feedbackPacketCount ← readU8 body 15
    let (symbols, position) ← decodeSymbols body statusCount 16 statusCount
    let (statuses, position) ← decodeStatuses body symbols position
    if (body.drop position).any (· ≠ 0) ∨ 3 < body.length - position then
      .error .invalidTwccDeltas
    else
      return {
        senderSsrc := senderSsrc
        mediaSsrc := mediaSsrc
        baseSequenceNumber := baseSequenceNumber
        referenceTime := referenceTime
        feedbackPacketCount := feedbackPacketCount
        statuses := statuses }

/-! ## Compound datagrams -/

def parsePacket (count packetType : UInt8) (body : Bytes) : Except RtcpError Packet :=
  if packetType = 200 then .senderReport <$> parseSenderReport count body
  else if packetType = 201 then .receiverReport <$> parseReceiverReport count body
  else if packetType = 202 then .sourceDescription <$> parseSourceDescription count body
  else if packetType = 205 ∧ count = 1 then .genericNack <$> parseNack body
  else if packetType = 205 ∧ count = 15 then .transportWideFeedback <$> parseTwcc body
  else if packetType = 206 ∧ count = 1 then .pictureLossIndication <$> parsePli body
  else .ok (.raw { count, packetType, body })

def stripPadding (hasPadding : Bool) (body : Bytes) : Except RtcpError Bytes :=
  if !hasPadding then
    .ok body
  else
    match body.getLast? with
    | none => .error (.invalidPadding 0)
    | some last =>
        let contentLen := body.length - last.toNat
        if last.toNat = 0 ∨ body.length < last.toNat then .error (.invalidPadding last.toNat)
        else if ((body.drop contentLen).take (last.toNat - 1)).any (· ≠ 0) then
          .error (.invalidPadding last.toNat)
        else .ok (body.take contentLen)

/-- The loop of `parse_compound` over the rest of the datagram. -/
def parsePackets : ℕ → Bytes → Except RtcpError (List Packet)
  | 0, _ => .ok []
  | fuel + 1, remaining => do
      if remaining.isEmpty then
        return []
      else
        match remaining with
        | first :: packetType :: hi :: lo :: _ =>
            if first >>> 6 ≠ 2 then
              .error (.unsupportedVersion (first >>> 6))
            else
              let packetLen := ((Bytes.toU16 hi lo).toNat + 1) * 4
              if remaining.length < packetLen then
                .error (.invalidPacketLength packetLen remaining.length)
              else
                let body ← stripPadding (first &&& 0x20 != 0) ((remaining.take packetLen).drop 4)
                let packet ← parsePacket (first &&& 0x1f) packetType body
                let packets ← parsePackets fuel (remaining.drop packetLen)
                return packet :: packets
        | _ => .error (.packetTooShort remaining.length)

/-- Parses every packet in an RTCP compound datagram. -/
def parseCompound (input : Bytes) : Except RtcpError (List Packet) := do
  let packets ← parsePackets input.length input
  if packets.isEmpty then .error (.packetTooShort 0) else return packets

end Fluvora.Rtcp
