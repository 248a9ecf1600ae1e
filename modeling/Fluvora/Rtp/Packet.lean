import Fluvora.Lib.Bytes

/-!
# RTP packets

The packet format of `crates/webrtc/rtp`: the fixed header, CSRCs and RFC 8285 header extensions,
the parser that validates a whole datagram, `parseHeaderLength`, which reads only the clear header,
the builder, and the two rewrites the SFU applies to forwarded packets.  Slices of the datagram are
byte lists; the loops over positions are recursions over the rest of the buffer.
-/

namespace Fluvora.Rtp

/-- RFC 8285 header-extension wire format. -/
inductive ExtensionFormat
  | oneByte
  | twoByte
  | opaqueProfile (profile : UInt16)
deriving DecidableEq

/-- RTP parsing and encoding failures. -/
inductive RtpError
  | packetTooShort (length : ℕ)
  | unsupportedVersion (version : UInt8)
  | truncatedHeader
  | invalidPadding (length : ℕ)
  | tooManyCsrcs (count : ℕ)
  | invalidPayloadType (payloadType : UInt8)
  | truncatedExtension
  | invalidExtensionId (format : ExtensionFormat) (id : UInt8)
  | invalidExtensionLength (format : ExtensionFormat) (length : ℕ)
  | extensionBlockTooLarge
  | paddingTooLarge (length : ℕ)
  | packetTooLarge
  | unsupportedExtensionRewrite
deriving DecidableEq

def fixedHeaderLen : ℕ := 12
def maxPacketLen : ℕ := 65535

def readU16 (input : Bytes) (position : ℕ) : Except RtpError UInt16 :=
  (input.u16At position).elim (.error .truncatedHeader) .ok

def readU32 (input : Bytes) (position : ℕ) : Except RtpError UInt32 :=
  (input.u32At position).elim (.error .truncatedHeader) .ok

/-! ## Header extensions -/

def ExtensionFormat.fromProfile (profile : UInt16) : ExtensionFormat :=
  if profile = 0xbede then .oneByte
  else if profile &&& 0xfff0 = 0x1000 then .twoByte
  else .opaqueProfile profile

def ExtensionFormat.profile : ExtensionFormat → UInt16
  | .oneByte => 0xbede
  | .twoByte => 0x1000
  | .opaqueProfile profile => profile

/-- One RFC 8285 extension element. -/
structure HeaderExtension where
  id : UInt8
  value : Bytes
deriving DecidableEq

/-- The loop of `parse_one_byte`; every round consumes a byte, so the length is fuel enough. -/
def parseOneByte : ℕ → Bytes → Except RtpError (List HeaderExtension)
  | 0, _ => .ok []
  | _ + 1, [] => .ok []
  | fuel + 1, header :: rest => do
      if header = 0 then
        parseOneByte fuel rest
      else if header >>> 4 = 15 then
        return []
      else
        let length := ((header &&& 0x0f) + 1).toNat
        if rest.length < length then
          .error .truncatedExtension
        else
          let others ← parseOneByte fuel (rest.drop length)
          return ⟨header >>> 4, rest.take length⟩ :: others

def parseTwoByte : ℕ → Bytes → Except RtpError (List HeaderExtension)
  | 0, _ => .ok []
  | _ + 1, [] => .ok []
  | fuel + 1, id :: rest => do
      if id = 0 then
        parseTwoByte fuel rest
      else
        match rest with
        | [] => .error .truncatedExtension
        | length :: rest =>
            if rest.length < length.toNat then
              .error .truncatedExtension
            else
              let others ← parseTwoByte fuel (rest.drop length.toNat)
              return ⟨id, rest.take length.toNat⟩ :: others

def parseExtensions (format : ExtensionFormat) (data : Bytes) :
    Except RtpError (List HeaderExtension) :=
  match format with
  | .oneByte => parseOneByte data.length data
  | .twoByte => parseTwoByte data.length data
  | .opaqueProfile _ => .ok []

def encodeOneByte : List HeaderExtension → Except RtpError Bytes
  | [] => .ok []
  | extension :: rest => do
      if ¬(1 ≤ extension.id ∧ extension.id ≤ 14) then
        .error (.invalidExtensionId .oneByte extension.id)
      else if ¬(1 ≤ extension.value.length ∧ extension.value.length ≤ 16) then
        .error (.invalidExtensionLength .oneByte extension.value.length)
      else
        let others ← encodeOneByte rest
        return (extension.id <<< 4 ||| .ofNat (extension.value.length - 1)) ::
          (extension.value ++ others)

def encodeTwoByte : List HeaderExtension → Except RtpError Bytes
  | [] => .ok []
  | extension :: rest => do
      if extension.id = 0 then
        .error (.invalidExtensionId .twoByte extension.id)
      else if 255 < extension.value.length then
        .error (.invalidExtensionLength .twoByte extension.value.length)
      else
        let others ← encodeTwoByte rest
        return extension.id :: .ofNat extension.value.length :: (extension.value ++ others)

def encodeExtensions (format : ExtensionFormat) (extensions : List HeaderExtension) :
    Except RtpError Bytes :=
  match format with
  | .oneByte => encodeOneByte extensions
  | .twoByte => encodeTwoByte extensions
  | .opaqueProfile profile =>
      if extensions.isEmpty then .ok [] else .error (.invalidExtensionId (.opaqueProfile profile) 0)

/-! ## Parsing -/

/-- Decoded fixed and variable RTP header fields. -/
structure Header where
  marker : Bool
  payloadType : UInt8
  sequenceNumber : UInt16
  timestamp : UInt32
  ssrc : UInt32
  csrcs : List UInt32
deriving DecidableEq

/-- A validated RTP packet. -/
structure Packet where
  header : Header
  headerLen : ℕ
  extensionFormat : Option ExtensionFormat
  extensionData : Option Bytes
  extensions : List HeaderExtension
  payload : Bytes
  paddingLen : ℕ
deriving DecidableEq

/-- Reads the clear header and returns its length; the payload is not inspected. -/
def parseHeaderLength (input : Bytes) : Except RtpError ℕ := do
  if input.length < fixedHeaderLen then
    .error (.packetTooShort input.length)
  else
    let first := input.getD 0 0
    if first >>> 6 ≠ 2 then
      .error (.unsupportedVersion (first >>> 6))
    else
      let position := fixedHeaderLen + (first &&& 0x0f).toNat * 4
      if input.length < position then
        .error .truncatedHeader
      else if first &&& 0x10 ≠ 0 then
        let words ← readU16 input (position + 2)
        let position := position + 4 + words.toNat * 4
        if input.length < position then .error .truncatedHeader else return position
      else
        return position

/-- The loop over the CSRC identifiers. -/
def readCsrcs (input : Bytes) : ℕ → ℕ → Except RtpError (List UInt32)
  | _, 0 => .ok []
  | position, count + 1 => do
      let csrc ← readU32 input position
      let rest ← readCsrcs input (position + 4) count
      return csrc :: rest

def parsePadding (hasPadding : Bool) (payload : Bytes) : Except RtpError ℕ :=
  if !hasPadding then
    .ok 0
  else
    match payload.getLast? with
    | none => .error (.invalidPadding 0)
    | some last =>
        if last.toNat = 0 ∨ payload.length < last.toNat then .error (.invalidPadding last.toNat)
        else .ok last.toNat

/-- The extension block of a header. -/
structure ExtensionBlock where
  format : Option ExtensionFormat
  data : Option Bytes
  extensions : List HeaderExtension
  /-- Where the header ends. -/
  stop : ℕ
deriving DecidableEq

/-- The extension block of a header whose extension bit is set. -/
def parseExtensionBlock (input : Bytes) (position : ℕ) : Except RtpError ExtensionBlock := do
  let profile ← readU16 input position
  let words ← readU16 input (position + 2)
  let start := position + 4
  let stop := start + words.toNat * 4
  if input.length < stop then
    .error .truncatedHeader
  else
    let data := (input.drop start).take (words.toNat * 4)
    let format := ExtensionFormat.fromProfile profile
    let extensions ← parseExtensions format data
    return ⟨some format, some data, extensions, stop⟩

/-- The extension block of a header, empty if the extension bit is clear. -/
def parseOptionalExtension (input : Bytes) (hasExtension : Bool) (position : ℕ) :
    Except RtpError ExtensionBlock :=
  if hasExtension then parseExtensionBlock input position else .ok ⟨none, none, [], position⟩

/-- Parses one complete RTP datagram. -/
def Packet.parse (input : Bytes) : Except RtpError Packet := do
  if input.length < fixedHeaderLen then
    .error (.packetTooShort input.length)
  else
    let first := input.getD 0 0
    if first >>> 6 ≠ 2 then
      .error (.unsupportedVersion (first >>> 6))
    else
      let csrcCount := (first &&& 0x0f).toNat
      let csrcs ← readCsrcs input fixedHeaderLen csrcCount
      let position := fixedHeaderLen + csrcCount * 4
      let block ← parseOptionalExtension input (first &&& 0x10 ≠ 0) position
      let payloadAndPadding := input.drop block.stop
      let paddingLen ← parsePadding (first &&& 0x20 ≠ 0) payloadAndPadding
      return {
        header := {
          marker := input.getD 1 0 &&& 0x80 != 0
          payloadType := input.getD 1 0 &&& 0x7f
          sequenceNumber := ← readU16 input 2
          timestamp := ← readU32 input 4
          ssrc := ← readU32 input 8
          csrcs }
        headerLen := block.stop
        extensionFormat := block.format
        extensionData := block.data
        extensions := block.extensions
        payload := payloadAndPadding.take (payloadAndPadding.length - paddingLen)
        paddingLen }

/-! ## Building and rewriting -/

/-- The fields of a packet to encode. -/
structure PacketBuilder where
  header : Header
  payload : Bytes
  extensionFormat : Option ExtensionFormat
  extensions : List HeaderExtension
  paddingLen : ℕ

def validateBuilder (builder : PacketBuilder) : Except RtpError Unit :=
  if 127 < builder.header.payloadType then
    .error (.invalidPayloadType builder.header.payloadType)
  else if 15 < builder.header.csrcs.length then
    .error (.tooManyCsrcs builder.header.csrcs.length)
  else if 255 < builder.paddingLen then
    .error (.paddingTooLarge builder.paddingLen)
  else
    .ok ()

def encodeFixedHeader (header : Header) (hasExtension : Bool) (paddingLen : ℕ) : Bytes :=
  [(2 : UInt8) <<< 6 ||| (decide (0 < paddingLen)).toUInt8 <<< 5 ||| hasExtension.toUInt8 <<< 4 |||
      .ofNat header.csrcs.length,
    header.marker.toUInt8 <<< 7 ||| header.payloadType] ++
  Bytes.ofU16 header.sequenceNumber ++ Bytes.ofU32 header.timestamp ++ Bytes.ofU32 header.ssrc

/-- The extension block on the wire: profile, word count and padded elements. -/
def encodeExtensionBlock (format : ExtensionFormat) (data : Bytes) : Bytes :=
  Bytes.ofU16 format.profile ++ Bytes.ofU16 (.ofNat (Bytes.pad4 data.length / 4)) ++ data ++
    List.replicate (Bytes.pad4 data.length - data.length) 0

/-- The trailing padding, whose last byte is its length. -/
def encodePadding (paddingLen : ℕ) : Bytes :=
  if 0 < paddingLen then List.replicate (paddingLen - 1) 0 ++ [.ofNat paddingLen] else []

/-- The extension block of a builder; without a format there is none. -/
def buildExtensionBlock (format : Option ExtensionFormat) (extensions : List HeaderExtension) :
    Except RtpError Bytes :=
  match format with
  | none => .ok []
  | some format => do
      let data ← encodeExtensions format extensions
      if 65535 < Bytes.pad4 data.length / 4 then .error .extensionBlockTooLarge
      else return encodeExtensionBlock format data

def PacketBuilder.build (builder : PacketBuilder) : Except RtpError Bytes := do
  validateBuilder builder
  let block ← buildExtensionBlock builder.extensionFormat builder.extensions
  let totalLen := fixedHeaderLen + builder.header.csrcs.length * 4 + block.length +
    builder.payload.length + builder.paddingLen
  if maxPacketLen < totalLen then
    .error .packetTooLarge
  else
    return encodeFixedHeader builder.header builder.extensionFormat.isSome builder.paddingLen ++
      builder.header.csrcs.flatMap Bytes.ofU32 ++ block ++ builder.payload ++
      encodePadding builder.paddingLen

/-- One negotiated per-subscriber RTP header-extension transformation. -/
structure ExtensionRewrite where
  sourceId : UInt8
  destinationId : Option UInt8
  replacement : Option Bytes
deriving DecidableEq

/-- What the rewrites make of one element; the first rewrite of its identifier decides. -/
def rewriteExtension (rewrites : List ExtensionRewrite) (extension : HeaderExtension) :
    Option HeaderExtension :=
  match rewrites.find? fun rewrite => rewrite.sourceId == extension.id with
  | none => some extension
  | some rewrite =>
      rewrite.destinationId.map fun id => ⟨id, rewrite.replacement.getD extension.value⟩

def rewriteHeaderExtensions (input : Bytes) (rewrites : List ExtensionRewrite) :
    Except RtpError Bytes := do
  if rewrites.isEmpty then
    return input
  else
    let packet ← Packet.parse input
    match packet.extensionFormat with
    | none => .error .unsupportedExtensionRewrite
    | some (.opaqueProfile _) => .error .unsupportedExtensionRewrite
    | some format =>
        PacketBuilder.build {
          header := packet.header
          payload := packet.payload
          extensionFormat := some format
          extensions := packet.extensions.filterMap (rewriteExtension rewrites)
          paddingLen := packet.paddingLen }

/-- Optional SFU rewrites of fixed header fields. -/
structure Rewrite where
  marker : Option Bool := none
  payloadType : Option UInt8 := none
  sequenceNumber : Option UInt16 := none
  timestamp : Option UInt32 := none
  ssrc : Option UInt32 := none

/-- Overwrites a field if it is given. -/
def overwriteWith {α : Type} (encode : α → Bytes) (offset : ℕ) (field : Option α)
    (packet : Bytes) : Bytes :=
  field.elim packet fun value => packet.overwrite offset (encode value)

def Rewrite.apply (rewrite : Rewrite) (packet : Bytes) : Except RtpError Bytes := do
  let _ ← Packet.parse packet
  match rewrite.payloadType.filter (127 < ·) with
  | some payloadType => .error (.invalidPayloadType payloadType)
  | none =>
      let packet := overwriteWith
        (fun payloadType : UInt8 => [packet.getD 1 0 &&& 0x80 ||| payloadType]) 1
        rewrite.payloadType packet
      let packet := overwriteWith
        (fun marker : Bool => [packet.getD 1 0 &&& (0x7f : UInt8) ||| marker.toUInt8 <<< 7]) 1
        rewrite.marker packet
      let packet := overwriteWith Bytes.ofU16 2 rewrite.sequenceNumber packet
      let packet := overwriteWith Bytes.ofU32 4 rewrite.timestamp packet
      return overwriteWith Bytes.ofU32 8 rewrite.ssrc packet

end Fluvora.Rtp
