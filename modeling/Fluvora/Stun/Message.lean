import Fluvora.Net.Address
import Fluvora.Net.Codec

/-!
# STUN messages

The codec of `crates/webrtc/stun`: message types with their interleaved bits, `parse` with the order
and the shapes of the attributes, the readers of a message and its checks, and the builder.  The
hash functions are a parameter, `Digests`; an HMAC takes a key of any length, so
`InvalidIntegrityKey` is never returned.  The loop over the attributes has the length of the body as
fuel; every round reads at least four bytes.
-/

namespace Fluvora.Stun

open Results

def headerLen : ℕ := 20
def magicCookie : UInt32 := 0x2112a442
def fingerprintXor : UInt32 := 0x5354554e
def maxMessageLen : ℕ := headerLen + 65535

/-- A STUN attribute type. -/
structure AttributeType where
  value : UInt16
deriving DecidableEq

namespace AttributeType

def mappedAddress : AttributeType := ⟨0x0001⟩
def username : AttributeType := ⟨0x0006⟩
def messageIntegrity : AttributeType := ⟨0x0008⟩
def errorCode : AttributeType := ⟨0x0009⟩
def unknownAttributes : AttributeType := ⟨0x000a⟩
def channelNumber : AttributeType := ⟨0x000c⟩
def lifetime : AttributeType := ⟨0x000d⟩
def xorPeerAddress : AttributeType := ⟨0x0012⟩
def data : AttributeType := ⟨0x0013⟩
def realm : AttributeType := ⟨0x0014⟩
def nonce : AttributeType := ⟨0x0015⟩
def xorRelayedAddress : AttributeType := ⟨0x0016⟩
def requestedAddressFamily : AttributeType := ⟨0x0017⟩
def requestedTransport : AttributeType := ⟨0x0019⟩
def dontFragment : AttributeType := ⟨0x001a⟩
def messageIntegritySha256 : AttributeType := ⟨0x001c⟩
def xorMappedAddress : AttributeType := ⟨0x0020⟩
def reservationToken : AttributeType := ⟨0x0022⟩
def priority : AttributeType := ⟨0x0024⟩
def useCandidate : AttributeType := ⟨0x0025⟩
def software : AttributeType := ⟨0x8022⟩
def alternateServer : AttributeType := ⟨0x8023⟩
def fingerprint : AttributeType := ⟨0x8028⟩
def iceControlled : AttributeType := ⟨0x8029⟩
def iceControlling : AttributeType := ⟨0x802a⟩

def isComprehensionRequired (kind : AttributeType) : Bool := kind.value < 0x8000

def isKnown (kind : AttributeType) : Bool :=
  kind ∈ [mappedAddress, username, messageIntegrity, errorCode, unknownAttributes, channelNumber,
    lifetime, xorPeerAddress, data, realm, nonce, xorRelayedAddress, requestedAddressFamily,
    requestedTransport, dontFragment, messageIntegritySha256, xorMappedAddress, reservationToken,
    priority, useCandidate, software, alternateServer, fingerprint, iceControlled, iceControlling]

end AttributeType

/-- Expected shape of an attribute value. -/
inductive AttributeLength
  | exact (length : ℕ)
  | range (minimum maximum multiple : ℕ)
deriving DecidableEq

/-- Errors of STUN encoding, parsing and authentication. -/
inductive StunError
  | messageTooShort (length : ℕ)
  | invalidMessageType (value : UInt16)
  | invalidMethod (value : UInt16)
  | invalidMessageLength (declared actual : ℕ)
  | lengthNotAligned (length : ℕ)
  | invalidMagicCookie (value : UInt32)
  | messageTooLarge
  | invalidAttributeLength (kind : AttributeType) (expected : AttributeLength) (actual : ℕ)
  | duplicateAttribute (kind : AttributeType)
  | attributeAfterIntegrity (kind : AttributeType)
  | fingerprintNotLast
  | invalidUtf8 (kind : AttributeType)
  | unsupportedAddressFamily (family : UInt8)
  | invalidErrorCode (code : UInt16)
  | reasonPhraseTooLong (length : ℕ)
  | missingAttribute (kind : AttributeType)
  | integrityMismatch
  | fingerprintMismatch
  | decode (error : DecodeError)
  | encode (error : EncodeError)
deriving DecidableEq

/-- `?` on a read. -/
def decoding {α : Type} (x : Except DecodeError α) : Except StunError α := x.mapError .decode

/-- `?` on a write. -/
def encoding {α : Type} (x : Except EncodeError α) : Except StunError α := x.mapError .encode

/-! ## Message types -/

/-- A 12-bit STUN method. -/
structure Method where
  value : UInt16
  value_le : value ≤ 0x0fff
deriving DecidableEq

namespace Method

def new (value : UInt16) : Except StunError Method :=
  if h : value ≤ 0x0fff then .ok ⟨value, h⟩ else .error (.invalidMethod value)

def binding : Method := ⟨0x001, by decide⟩
def allocate : Method := ⟨0x003, by decide⟩

end Method

inductive MessageClass
  | request
  | indication
  | successResponse
  | errorResponse
deriving DecidableEq

namespace MessageClass

def toRaw : MessageClass → UInt16
  | .request => 0
  | .indication => 1
  | .successResponse => 2
  | .errorResponse => 3

def fromRaw (value : UInt16) : MessageClass :=
  if value = 0 then .request
  else if value = 1 then .indication
  else if value = 2 then .successResponse
  else .errorResponse

end MessageClass

structure MessageType where
  method : Method
  messageClass : MessageClass
deriving DecidableEq

/-- The method bits of a message type. -/
def methodBits (value : UInt16) : UInt16 :=
  (value &&& (0x000f : UInt16)) ||| ((value &&& (0x00e0 : UInt16)) >>> 1) |||
    ((value &&& (0x3e00 : UInt16)) >>> 2)

theorem methodBits_le (value : UInt16) : methodBits value ≤ 0x0fff := by
  have hnat : (methodBits value).toNat < 2 ^ 12 := by
    unfold methodBits
    rw [UInt16.toNat_or, UInt16.toNat_or]
    refine Nat.or_lt_two_pow (Nat.or_lt_two_pow ?_ ?_) ?_
    · exact lt_of_le_of_lt Nat.and_le_right (by decide)
    · refine lt_of_le_of_lt (Nat.shiftRight_le _ _) ?_
      exact lt_of_le_of_lt Nat.and_le_right (by decide)
    · rw [UInt16.toNat_shiftRight]
      have hle : (value &&& (0x3e00 : UInt16)).toNat ≤ 0x3e00 := Nat.and_le_right
      rw [Nat.shiftRight_eq_div_pow]
      have hshift : (2 : UInt16).toNat % 16 = 2 := rfl
      rw [hshift]
      omega
  rw [UInt16.le_iff_toNat_le]
  have hbound : (0x0fff : UInt16).toNat = 4095 := rfl
  omega

namespace MessageType

/-- The interleaved method and class bits. -/
def encode (kind : MessageType) : UInt16 :=
  let method := kind.method.value
  let raw := kind.messageClass.toRaw
  (method &&& (0x000f : UInt16)) ||| ((method &&& (0x0070 : UInt16)) <<< 1) |||
    ((method &&& (0x0f80 : UInt16)) <<< 2) |||
    ((raw &&& (0x01 : UInt16)) <<< 4) ||| ((raw &&& (0x02 : UInt16)) <<< 7)

def decode (value : UInt16) : Except StunError MessageType :=
  if value &&& (0xc000 : UInt16) ≠ 0 then .error (.invalidMessageType value)
  else .ok ⟨⟨methodBits value, methodBits_le value⟩,
    .fromRaw (((value >>> 4) &&& (0x01 : UInt16)) ||| ((value >>> 7) &&& (0x02 : UInt16)))⟩

end MessageType

/-- A 96-bit STUN transaction identifier. -/
abbrev TransactionId := Vector UInt8 12

/-- An attribute of a received message, with its place in the message. -/
structure RawAttribute where
  attributeType : AttributeType
  value : Bytes
  start : ℕ
deriving DecidableEq

/-- A validated STUN message. -/
structure Message where
  raw : Bytes
  messageType : MessageType
  transactionId : TransactionId
  attributes : List RawAttribute
deriving DecidableEq

/-! ## Parsing -/

def requireLen (kind : AttributeType) (value : Bytes) (expected : ℕ) : Except StunError Unit :=
  if value.length = expected then .ok ()
  else .error (.invalidAttributeLength kind (.exact expected) value.length)

def parseHeader (input : Bytes) : Except StunError (MessageType × TransactionId × Bytes) := do
  if input.length < headerLen then
    .error (.messageTooShort input.length)
  else
    let (word, header) ← decoding (ReadCursor.new input).readU16
    let messageType ← MessageType.decode word
    let (bodyLen, header) ← decoding header.readU16
    if bodyLen.toNat % 4 ≠ 0 then
      .error (.lengthNotAligned bodyLen.toNat)
    else
      let (cookie, header) ← decoding header.readU32
      if cookie ≠ magicCookie then
        .error (.invalidMagicCookie cookie)
      else
        let (bytes, header) ← decoding (header.take 12)
        if h : bytes.toArray.size = 12 then
          let transactionId : TransactionId := ⟨bytes.toArray, h⟩
          let declaredLen := headerLen + bodyLen.toNat
          if declaredLen ≠ input.length then
            .error (.invalidMessageLength declaredLen input.length)
          else
            return (messageType, transactionId, header.rest)
        else
          .error (.messageTooShort input.length)

/-- Which of the attributes that end a message were read. -/
structure Seen where
  sha1 : Bool
  sha256 : Bool
  fingerprint : Bool
deriving DecidableEq

namespace Seen

def nothing : Seen := ⟨false, false, false⟩

end Seen

open AttributeType in
/-- The checks of one round of the loop: the order of the attributes and the shape of this one. -/
def acceptAttribute (seen : Seen) (kind : AttributeType) (value : Bytes) :
    Except StunError Seen := do
  if seen.fingerprint then
    .error .fingerprintNotLast
  else if (seen.sha1 || seen.sha256) && !(kind = messageIntegritySha256 || kind = fingerprint) then
    .error (.attributeAfterIntegrity kind)
  else if kind = messageIntegrity then
    if seen.sha1 then
      .error (.duplicateAttribute kind)
    else
      requireLen kind value 20
      return { seen with sha1 := true }
  else if kind = messageIntegritySha256 then
    if seen.sha256 then
      .error (.duplicateAttribute kind)
    else if value.length < 16 ∨ 32 < value.length ∨ value.length % 4 ≠ 0 then
      .error (.invalidAttributeLength kind (.range 16 32 4) value.length)
    else
      return { seen with sha256 := true }
  else if kind = fingerprint then
    requireLen kind value 4
    return { seen with fingerprint := true }
  else if kind ∈ [priority, channelNumber, lifetime, requestedAddressFamily, requestedTransport] then
    requireLen kind value 4
    return seen
  else if kind ∈ [dontFragment, useCandidate] then
    requireLen kind value 0
    return seen
  else if kind = reservationToken then
    requireLen kind value 8
    return seen
  else if kind ∈ [xorMappedAddress, xorPeerAddress, xorRelayedAddress] then
    if value.length ≠ 8 ∧ value.length ≠ 20 then
      .error (.invalidAttributeLength kind (.range 8 20 4) value.length)
    else
      return seen
  else if kind ∈ [iceControlled, iceControlling] then
    requireLen kind value 8
    return seen
  else
    return seen

/-- The bytes that fill up the last word of a value. -/
def padding (length : ℕ) : ℕ := (4 - length % 4) % 4

/-- One attribute: its type, its value, and the cursor behind its padding. -/
def readAttribute (body : ReadCursor) :
    Except StunError (AttributeType × Bytes × ReadCursor) := do
  let (kind, body) ← decoding body.readU16
  let (valueLen, body) ← decoding body.readU16
  let (value, body) ← decoding (body.take valueLen.toNat)
  let (_, body) ← decoding (body.take (padding valueLen.toNat))
  return (⟨kind⟩, value, body)

/-- The loop of `parse_attributes`. -/
def parseAttributesFrom : ℕ → ReadCursor → Seen → Except StunError (List RawAttribute)
  | 0, _, _ => .ok []
  | fuel + 1, body, seen => do
      if body.isEmpty then
        .ok []
      else
        let (kind, value, next) ← readAttribute body
        let seen ← acceptAttribute seen kind value
        let rest ← parseAttributesFrom fuel next seen
        return ⟨kind, value, headerLen + body.offset⟩ :: rest

def parseAttributes (body : Bytes) : Except StunError (List RawAttribute) :=
  parseAttributesFrom body.length (.new body) .nothing

namespace Message

def parse (input : Bytes) : Except StunError Message := do
  let (messageType, transactionId, body) ← parseHeader input
  let attributes ← parseAttributes body
  return ⟨input, messageType, transactionId, attributes⟩

end Message

/-! ## Reading a message -/

/-- The hash functions of other crates: HMAC-SHA1, HMAC-SHA256 and CRC-32. -/
structure Digests where
  hmacSha1 : Bytes → Bytes → Vector UInt8 20
  hmacSha256 : Bytes → Bytes → Vector UInt8 32
  crc32 : Bytes → UInt32

def readExactU32 (value : Bytes) (kind : AttributeType) : Except StunError UInt32 := do
  requireLen kind value 4
  let (word, _) ← decoding (ReadCursor.new value).readU32
  return word

/-- The mask of an IPv6 address: the cookie and the transaction. -/
def addressMask (transactionId : TransactionId) : Bytes :=
  Bytes.ofU32 magicCookie ++ transactionId.toList

def xorOctets (octets mask : Bytes) : Bytes := List.zipWith (· ^^^ ·) octets mask

/-- The high half of the cookie, which masks ports. -/
def portMask : UInt16 := (magicCookie >>> 16).toUInt16

def encodeXorAddress (address : SocketAddr) (transactionId : TransactionId) : Bytes :=
  match address.ip with
  | .v4 octets =>
      ([0, 0x01] : Bytes) ++ (Bytes.ofU16 (address.port ^^^ portMask) ++
        Bytes.ofU32 (Bytes.toU32 (IpAddr.octet octets 0) (IpAddr.octet octets 1) (IpAddr.octet octets 2)
          (IpAddr.octet octets 3) ^^^ magicCookie))
  | .v6 octets =>
      ([0, 0x02] : Bytes) ++ (Bytes.ofU16 (address.port ^^^ portMask) ++
        xorOctets octets.toList (addressMask transactionId))

def decodeXorAddress (value : Bytes) (transactionId : TransactionId) :
    Except StunError SocketAddr := do
  let (_, cursor) ← decoding (ReadCursor.new value).readU8
  let (family, cursor) ← decoding cursor.readU8
  let (port, cursor) ← decoding cursor.readU16
  let port := port ^^^ portMask
  if family = 0x01 then
    requireLen .xorMappedAddress value 8
    let (word, _) ← decoding cursor.readU32
    let address := word ^^^ magicCookie
    return .new (.v4 #v[(address >>> 24).toUInt8, (address >>> 16).toUInt8,
      (address >>> 8).toUInt8, address.toUInt8]) port
  else if family = 0x02 then
    requireLen .xorMappedAddress value 20
    let (encoded, _) ← decoding (cursor.take 16)
    let decoded := xorOctets encoded (addressMask transactionId)
    return .new (.v6 (.ofFn fun i => decoded.getD i 0)) port
  else
    .error (.unsupportedAddressFamily family)

namespace Message

/-- The first attribute with the requested type. -/
def attributeOf (message : Message) (kind : AttributeType) : Option RawAttribute :=
  message.attributes.find? fun entry => entry.attributeType = kind

def unknownRequiredAttributes (message : Message) : List AttributeType :=
  (message.attributes.map RawAttribute.attributeType).filter fun kind =>
    kind.isComprehensionRequired && !kind.isKnown

def utf8Attribute (message : Message) (kind : AttributeType) : Except StunError (Option String) :=
  match message.attributeOf kind with
  | none => .ok none
  | some entry =>
      match String.fromUTF8? ⟨entry.value.toArray⟩ with
      | some text => .ok (some text)
      | none => .error (.invalidUtf8 kind)

def username (message : Message) : Except StunError (Option String) :=
  message.utf8Attribute .username

def u32Attribute (message : Message) (kind : AttributeType) : Except StunError (Option UInt32) :=
  match message.attributeOf kind with
  | none => .ok none
  | some entry => do
      let value ← readExactU32 entry.value kind
      return some value

def priority (message : Message) : Except StunError (Option UInt32) :=
  message.u32Attribute .priority

def u64Attribute (message : Message) (kind : AttributeType) : Except StunError (Option UInt64) :=
  match message.attributeOf kind with
  | none => .ok none
  | some entry => do
      let (value, cursor) ← decoding (ReadCursor.new entry.value).readU64
      if !cursor.isEmpty then
        .error (.invalidAttributeLength kind (.exact 8) entry.value.length)
      else
        return some value

def iceControlling (message : Message) : Except StunError (Option UInt64) :=
  message.u64Attribute .iceControlling

def iceControlled (message : Message) : Except StunError (Option UInt64) :=
  message.u64Attribute .iceControlled

def useCandidate (message : Message) : Bool := (message.attributeOf .useCandidate).isSome

def xorAddress (message : Message) (kind : AttributeType) :
    Except StunError (Option SocketAddr) :=
  match message.attributeOf kind with
  | none => .ok none
  | some entry => do
      let address ← decodeXorAddress entry.value message.transactionId
      return some address

/-- Every XOR address attribute of the requested type. -/
def xorAddresses (message : Message) (kind : AttributeType) : Except StunError (List SocketAddr) :=
  (message.attributes.filter fun entry => entry.attributeType = kind).mapM
    fun entry => decodeXorAddress entry.value message.transactionId

/-- What an integrity attribute is computed from: the message up to it, with a length that ends
behind it. -/
def integrityInput (message : Message) (entry : RawAttribute) : Except StunError Bytes :=
  let behind := entry.start + 4 + entry.value.length
  if behind < headerLen ∨ 65535 < behind - headerLen then
    .error .messageTooLarge
  else if message.raw.length < entry.start ∨ entry.start < 4 then
    .error .integrityMismatch
  else
    .ok (Bytes.overwrite (message.raw.take entry.start) 2
      (Bytes.ofU16 (.ofNat (behind - headerLen))))

def requireAttribute (message : Message) (kind : AttributeType) : Except StunError RawAttribute :=
  (message.attributeOf kind).elim (.error (.missingAttribute kind)) .ok

def verifyMessageIntegritySha1 (digests : Digests) (message : Message) (key : Bytes) :
    Except StunError Unit := do
  let entry ← message.requireAttribute .messageIntegrity
  let input ← message.integrityInput entry
  if (digests.hmacSha1 key input).toList = entry.value then .ok () else .error .integrityMismatch

/-- The value may be a truncation of the digest. -/
def verifyMessageIntegritySha256 (digests : Digests) (message : Message) (key : Bytes) :
    Except StunError Unit := do
  let entry ← message.requireAttribute .messageIntegritySha256
  let input ← message.integrityInput entry
  if entry.value = (digests.hmacSha256 key input).toList.take entry.value.length then .ok ()
  else .error .integrityMismatch

def verifyFingerprint (digests : Digests) (message : Message) : Except StunError Unit := do
  let entry ← message.requireAttribute .fingerprint
  let expected ← readExactU32 entry.value entry.attributeType
  if message.raw.length < entry.start then
    .error .fingerprintMismatch
  else if digests.crc32 (message.raw.take entry.start) ^^^ fingerprintXor = expected then
    .ok ()
  else
    .error .fingerprintMismatch

end Message

/-! ## Building a message -/

inductive Integrity
  | sha1 (key : Bytes)
  | sha256 (key : Bytes)
deriving DecidableEq

structure MessageBuilder where
  messageType : MessageType
  transactionId : TransactionId
  attributes : List (AttributeType × Bytes)
  integrity : Option Integrity
  fingerprint : Bool
deriving DecidableEq

def encodeAttribute (output : WriteBuffer) (kind : AttributeType) (value : Bytes) :
    Except StunError WriteBuffer := do
  if 65535 < value.length then
    .error .messageTooLarge
  else
    let output ← encoding (output.writeU16 kind.value)
    let output ← encoding (output.writeU16 (.ofNat value.length))
    let output ← encoding (output.extendFromSlice value)
    encoding (output.extendFromSlice (List.replicate (padding value.length) 0))

def setWireLength (output : WriteBuffer) (completeLen : ℕ) : Except StunError WriteBuffer :=
  if completeLen < headerLen ∨ 65535 < completeLen - headerLen then .error .messageTooLarge
  else encoding (output.setU16 2 (.ofNat (completeLen - headerLen)))

def setLengthThroughAttribute (output : WriteBuffer) (valueLen : ℕ) :
    Except StunError WriteBuffer :=
  setWireLength output (output.len + (4 + valueLen + padding valueLen))

def setCurrentLength (output : WriteBuffer) : Except StunError WriteBuffer :=
  setWireLength output output.len

def encodeAttributes (output : WriteBuffer) :
    List (AttributeType × Bytes) → Except StunError WriteBuffer
  | [] => .ok output
  | (kind, value) :: rest => do
      let output ← encodeAttribute output kind value
      encodeAttributes output rest

def encodeIntegrity (digests : Digests) (output : WriteBuffer) :
    Option Integrity → Except StunError WriteBuffer
  | none => .ok output
  | some (.sha1 key) => do
      let output ← setLengthThroughAttribute output 20
      encodeAttribute output .messageIntegrity (digests.hmacSha1 key output.bytes).toList
  | some (.sha256 key) => do
      let output ← setLengthThroughAttribute output 32
      encodeAttribute output .messageIntegritySha256 (digests.hmacSha256 key output.bytes).toList

def encodeFingerprint (digests : Digests) (output : WriteBuffer) (fingerprint : Bool) :
    Except StunError WriteBuffer :=
  if fingerprint then do
    let output ← setLengthThroughAttribute output 4
    encodeAttribute output .fingerprint
      (Bytes.ofU32 (digests.crc32 output.bytes ^^^ fingerprintXor))
  else
    setCurrentLength output

namespace MessageBuilder

def new (messageType : MessageType) (transactionId : TransactionId) : MessageBuilder where
  messageType := messageType
  transactionId := transactionId
  attributes := []
  integrity := none
  fingerprint := false

/-- Adds an arbitrary attribute before message integrity. -/
def rawAttribute (builder : MessageBuilder) (kind : AttributeType) (value : Bytes) :
    MessageBuilder :=
  { builder with attributes := builder.attributes ++ [(kind, value)] }

def iceControlled (builder : MessageBuilder) (tieBreaker : UInt64) : MessageBuilder :=
  builder.rawAttribute .iceControlled (Bytes.ofNat 8 tieBreaker.toNat)

def xorAddress (builder : MessageBuilder) (kind : AttributeType) (address : SocketAddr) :
    MessageBuilder :=
  builder.rawAttribute kind (encodeXorAddress address builder.transactionId)

def xorMappedAddress (builder : MessageBuilder) (address : SocketAddr) : MessageBuilder :=
  builder.xorAddress .xorMappedAddress address

def errorCode (builder : MessageBuilder) (code : UInt16) (reason : String) :
    Except StunError MessageBuilder :=
  let category := code / 100
  if category < 3 ∨ 6 < category then .error (.invalidErrorCode code)
  else if 759 < reason.utf8ByteSize then .error (.reasonPhraseTooLong reason.utf8ByteSize)
  else .ok (builder.rawAttribute .errorCode
    ([0, 0, category.toUInt8, (code % 100).toUInt8] ++ reason.toUTF8.data.toList))

/-- Adds a sorted, deduplicated UNKNOWN-ATTRIBUTES list. -/
def unknownAttributes (builder : MessageBuilder) (kinds : List AttributeType) : MessageBuilder :=
  let values := ((kinds.map AttributeType.value).mergeSort (· ≤ ·)).destutter (· ≠ ·)
  builder.rawAttribute .unknownAttributes (values.flatMap Bytes.ofU16)

def withIntegrity (builder : MessageBuilder) (integrity : Integrity) : MessageBuilder :=
  { builder with integrity := some integrity }

def withFingerprint (builder : MessageBuilder) : MessageBuilder :=
  { builder with fingerprint := true }

/-- Encodes the complete STUN message. -/
def build (digests : Digests) (builder : MessageBuilder) : Except StunError Bytes := do
  let output := WriteBuffer.withLimit maxMessageLen
  let output ← encoding (output.writeU16 builder.messageType.encode)
  let output ← encoding (output.writeU16 0)
  let output ← encoding (output.writeU32 magicCookie)
  let output ← encoding (output.extendFromSlice builder.transactionId.toList)
  let output ← encodeAttributes output builder.attributes
  let output ← encodeIntegrity digests output builder.integrity
  let output ← encodeFingerprint digests output builder.fingerprint
  return output.bytes

end MessageBuilder

end Fluvora.Stun
