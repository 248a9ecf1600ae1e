import Fluvora.Lib.Bytes

/-!
# SCTP packets of the data channel

The wire format of `crates/webrtc/data-channel`: the common header with its CRC32C checksum, the
chunk list, the parameters inside a chunk and the stream numbers of a reset.  The loops over
offsets are recursions over the rest of the buffer; every step consumes at least four bytes, so the
length of the buffer is fuel enough.
-/

namespace Fluvora.DataChannel

/-- SCTP/DCEP parse, state, or bounded-resource error. -/
inductive DataChannelError
  | invalidConfiguration
  | malformedPacket
  | invalidChecksum
  | unexpectedPort
  | malformedChunk
  | invalidVerificationTag
  | unexpectedState
  | invalidCookie
  | receiveWindowExceeded
  | invalidFragmentSequence
  | invalidDcep
  | invalidUtf8
  | messageTooLarge
  | unsupportedPpid (ppid : UInt32)
  | unknownChannel
  | associationNotEstablished
  | sendWindowFull
deriving DecidableEq

def commonHeaderLen : ℕ := 12
def chunkHeaderLen : ℕ := 4
def dataFixedLen : ℕ := 16
def initFixedLen : ℕ := 20
def sackFixedLen : ℕ := 16

def typeData : UInt8 := 0
def typeInit : UInt8 := 1
def typeInitAck : UInt8 := 2
def typeSack : UInt8 := 3
def typeHeartbeat : UInt8 := 4
def typeHeartbeatAck : UInt8 := 5
def typeAbort : UInt8 := 6
def typeShutdown : UInt8 := 7
def typeShutdownAck : UInt8 := 8
def typeCookieEcho : UInt8 := 10
def typeCookieAck : UInt8 := 11
def typeReConfig : UInt8 := 130
def typeForwardTsn : UInt8 := 192

def parameterStateCookie : UInt16 := 7
def parameterOutgoingReset : UInt16 := 13
def parameterIncomingReset : UInt16 := 14
def parameterReconfigResponse : UInt16 := 16
def parameterForwardTsnSupported : UInt16 := 0xc000

def reconfigSuccessPerformed : UInt32 := 1
def reconfigErrorBadSequence : UInt32 := 5

def flagDataEnd : UInt8 := 0x01
def flagDataBegin : UInt8 := 0x02
def flagDataUnordered : UInt8 := 0x04

def ppidDcep : UInt32 := 50
def ppidString : UInt32 := 51
def ppidBinary : UInt32 := 53
def ppidStringEmpty : UInt32 := 56
def ppidBinaryEmpty : UInt32 := 57

def dcepAck : UInt8 := 0x02
def dcepOpen : UInt8 := 0x03

def defaultReceiveWindow : UInt32 := 1048576
def maxPacketBytes : ℕ := 1200
def maxDataPayload : ℕ := maxPacketBytes - commonHeaderLen - dataFixedLen
def maxPendingTsn : ℕ := 1024
def maxOutstanding : ℕ := 256
/-- Times and durations are nanoseconds. -/
def retransmitAfter : ℕ := 500000000
def maxRetransmissions : ℕ := 8
def maxPartialRetransmissions : ℕ := 1024
def maxPartialLifetime : ℕ := 24 * 3600 * 1000000000

/-! ## Readers and serial arithmetic -/

def readU16 (input : Bytes) (offset : ℕ) : Except DataChannelError UInt16 :=
  (input.u16At offset).elim (.error .malformedPacket) .ok

def readU32 (input : Bytes) (offset : ℕ) : Except DataChannelError UInt32 :=
  (input.u32At offset).elim (.error .malformedPacket) .ok

def readU32Le (input : Bytes) (offset : ℕ) : Except DataChannelError UInt32 :=
  (input.u32LeAt offset).elim (.error .malformedPacket) .ok

def sequenceLessOrEqual (candidate reference : UInt32) : Bool := reference - candidate < 0x80000000

def sequenceLessOrEqualU16 (candidate reference : UInt16) : Bool := reference - candidate < 0x8000

def constantTimeEqual (left right : Bytes) : Bool :=
  left.length == right.length &&
    (List.zipWith (· ^^^ ·) left right).foldl (· ||| ·) 0 == 0

/-! ## Checksum -/

/-- One step of the reflected CRC32C shift register. -/
def crcStep (crc : UInt32) : UInt32 := (crc >>> 1) ^^^ (0x82f63b78 &&& (0 - (crc &&& 1)))

def crcByte (crc : UInt32) (byte : UInt8) : UInt32 := crcStep^[8] (crc ^^^ byte.toUInt32)

/-- CRC32C of a packet whose checksum field is taken as zero. -/
def checksum (input : Bytes) : UInt32 :=
  ~~~(input.zipIdx.foldl
    (fun crc (supplied, index) => crcByte crc (if 8 ≤ index ∧ index < 12 then 0 else supplied))
    0xffffffff)

/-! ## Packets -/

structure ParsedChunk where
  kind : UInt8
  flags : UInt8
  value : Bytes
deriving DecidableEq

structure ParsedPacket where
  sourcePort : UInt16
  destinationPort : UInt16
  verificationTag : UInt32
  chunks : List ParsedChunk
deriving DecidableEq

/-- The chunks from the current offset to the end of the packet. -/
def parseChunks : ℕ → Bytes → Except DataChannelError (List ParsedChunk)
  | _, [] => .ok []
  | fuel + 1, kind :: flags :: hi :: lo :: rest => do
      let input := kind :: flags :: hi :: lo :: rest
      let length := (Bytes.toU16 hi lo).toNat
      if length < chunkHeaderLen ∨ input.length < length then
        .error .malformedChunk
      else if input.length < Bytes.pad4 length then
        .error .malformedChunk
      else
        let chunks ← parseChunks fuel (input.drop (Bytes.pad4 length))
        return ⟨kind, flags, (input.take length).drop 4⟩ :: chunks
  | _, _ => .error .malformedChunk

def ParsedPacket.parse (input : Bytes) : Except DataChannelError ParsedPacket := do
  if input.length < commonHeaderLen + chunkHeaderLen ∨ 65535 < input.length then
    .error .malformedPacket
  else
    let expectedChecksum ← readU32Le input 8
    if checksum input ≠ expectedChecksum then
      .error .invalidChecksum
    else
      let chunks ← parseChunks input.length (input.drop commonHeaderLen)
      if chunks.isEmpty then
        .error .malformedPacket
      else
        return {
          sourcePort := ← readU16 input 0
          destinationPort := ← readU16 input 2
          verificationTag := ← readU32 input 4
          chunks }

/-- The packet with a zero checksum field. -/
def unsignedPacket (sourcePort destinationPort : UInt16) (verificationTag : UInt32)
    (kind flags : UInt8) (length : UInt16) (value : Bytes) : Bytes :=
  Bytes.ofU16 sourcePort ++ Bytes.ofU16 destinationPort ++ Bytes.ofU32 verificationTag ++
    [0, 0, 0, 0] ++ [kind, flags] ++ Bytes.ofU16 length ++ value ++
    List.replicate (Bytes.pad4 (chunkHeaderLen + value.length) -
      (chunkHeaderLen + value.length)) 0

def buildPacket (sourcePort destinationPort : UInt16) (verificationTag : UInt32)
    (kind flags : UInt8) (value : Bytes) : Except DataChannelError Bytes :=
  let chunkLength := chunkHeaderLen + value.length
  if 65535 < chunkLength then
    .error .messageTooLarge
  else if 65535 < commonHeaderLen + Bytes.pad4 chunkLength then
    .error .messageTooLarge
  else
    let packet := unsignedPacket sourcePort destinationPort verificationTag kind flags
      (.ofNat chunkLength) value
    .ok (packet.take 8 ++ Bytes.ofU32Le (checksum packet) ++ packet.drop 12)

/-! ## Parameters -/

structure Parameter where
  kind : UInt16
  value : Bytes
deriving DecidableEq

/-- The bytes that `push_parameter` appends. -/
def pushParameter (kind : UInt16) (value : Bytes) : Except DataChannelError Bytes :=
  let length := 4 + value.length
  if 65535 < length then
    .error .messageTooLarge
  else
    .ok (Bytes.ofU16 kind ++ Bytes.ofU16 (.ofNat length) ++ value ++
      List.replicate ((4 - length % 4) % 4) 0)

/-- The parameters from the current offset on; only the last one may lack its padding. -/
def parseParametersFrom : ℕ → Bytes → Except DataChannelError (List Parameter)
  | _, [] => .ok []
  | fuel + 1, a :: b :: hi :: lo :: rest => do
      let input := a :: b :: hi :: lo :: rest
      let length := (Bytes.toU16 hi lo).toNat
      if length < 4 ∨ input.length < length then
        .error .malformedChunk
      else
        let parameter : Parameter := ⟨Bytes.toU16 a b, (input.take length).drop 4⟩
        if length = input.length then
          return [parameter]
        else if input.length < Bytes.pad4 length then
          .error .malformedChunk
        else
          let parameters ← parseParametersFrom fuel (input.drop (Bytes.pad4 length))
          return parameter :: parameters
  | _, _ => .error .malformedChunk

def parseParameters (input : Bytes) : Except DataChannelError (List Parameter) :=
  parseParametersFrom input.length input

/-- The 16-bit words of a buffer of even length. -/
def words16 : Bytes → List UInt16
  | hi :: lo :: rest => Bytes.toU16 hi lo :: words16 rest
  | _ => []

/-- The listed stream numbers; an empty list stands for all streams and gives `none`. -/
def parseStreamNumbers (input : Bytes) (streamLimit : UInt16) :
    Except DataChannelError (Option (List UInt16)) :=
  if input.isEmpty then
    .ok none
  else if input.length % 2 ≠ 0 then
    .error .malformedChunk
  else if (words16 input).any fun stream => streamLimit ≤ stream then
    .error .malformedChunk
  else
    .ok (some (words16 input))

end Fluvora.DataChannel
