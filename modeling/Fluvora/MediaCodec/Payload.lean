import Fluvora.Lib.Bytes

/-!
# Payload inspection

`inspect_payload` of `crates/webrtc/media-codec`: the few fields of an encoded payload that the SFU
routes by, read from the payload descriptors of VP8, VP9, H.264 and AV1.
-/

namespace Fluvora.MediaCodec

/-- Media codec whose payload can be routed without decoding. -/
inductive Codec
  | opus
  | vp8
  | vp9
  | h264
  | av1
  | unknown
deriving DecidableEq

/-- Routing metadata derived from one encoded RTP payload. -/
structure PayloadInfo where
  startOfFrame : Bool
  endOfFrame : Bool
  keyframe : Bool
  temporalId : Option UInt8
  spatialId : Option UInt8
deriving DecidableEq

/-- Encoded payload inspection failure. -/
inductive PayloadError
  | emptyPayload
  | truncatedDescriptor
  | unsupportedH264NalType (nalType : UInt8)
  | invalidAggregationUnit
deriving DecidableEq

def readByte (payload : Bytes) (position : ℕ) : Except PayloadError UInt8 :=
  payload[position]?.elim (.error .truncatedDescriptor) .ok

def readU16 (payload : Bytes) (position : ℕ) : Except PayloadError UInt16 :=
  (payload.u16At position).elim (.error .truncatedDescriptor) .ok

def requirePosition (payload : Bytes) (position : ℕ) : Except PayloadError Unit :=
  if position < payload.length then .ok () else .error .truncatedDescriptor

/-- The descriptor byte that every payload starts with. -/
def firstByte (payload : Bytes) : Except PayloadError UInt8 :=
  payload.head?.elim (.error .emptyPayload) .ok

/-! ## VP8 -/

/-- Skips a picture identifier of one or two bytes. -/
def skipPictureId (payload : Bytes) (position : ℕ) : Except PayloadError ℕ := do
  let pictureId ← readByte payload position
  let position := position + if pictureId &&& 0x80 ≠ 0 then 2 else 1
  requirePosition payload position
  return position

/-- Skips a field of one byte. -/
def skipByte (payload : Bytes) (position : ℕ) : Except PayloadError ℕ := do
  requirePosition payload (position + 1)
  return position + 1

/-- Reads the layer byte of a VP8 extension. -/
def readVp8Layer (payload : Bytes) (extension : UInt8) (position : ℕ) :
    Except PayloadError (Option UInt8 × ℕ) := do
  let layer ← readByte payload position
  return (if extension &&& 0x20 ≠ 0 then some (layer >>> 6) else none, position + 1)

/-- The extension of a VP8 descriptor: its temporal layer and where it ends. -/
def parseVp8Extension (payload : Bytes) : Except PayloadError (Option UInt8 × ℕ) := do
  let extension ← readByte payload 1
  let position ← if extension &&& 0x80 ≠ 0 then skipPictureId payload 2 else .ok 2
  let position ← if extension &&& 0x40 ≠ 0 then skipByte payload position else .ok position
  if extension &&& 0x30 ≠ 0 then readVp8Layer payload extension position
  else .ok (none, position)

/-- Whether a frame that starts at the position is a keyframe. -/
def readVp8Keyframe (payload : Bytes) (starts : Bool) (position : ℕ) : Except PayloadError Bool :=
  if starts then (readByte payload position).map fun byte => byte &&& 0x01 == 0 else .ok false

def inspectVp8 (payload : Bytes) (marker : Bool) : Except PayloadError PayloadInfo := do
  let descriptor ← firstByte payload
  let (temporalId, position) ←
    if descriptor &&& 0x80 ≠ 0 then parseVp8Extension payload else .ok (none, 1)
  let starts := descriptor &&& 0x10 != 0 && descriptor &&& 0x0f == 0
  let keyframe ← readVp8Keyframe payload starts position
  return {
    startOfFrame := starts
    endOfFrame := marker
    keyframe
    temporalId
    spatialId := none }

/-! ## VP9 -/

/-- The loop over the reference indices of flexible mode; it ends at one whose last bit is clear. -/
def skipReferences : Bytes → ℕ → Except PayloadError ℕ
  | [], _ => .error .truncatedDescriptor
  | reference :: rest, position =>
      if reference &&& 0x01 = 0 then .ok (position + 1) else skipReferences rest (position + 1)

/-- The loop over the picture groups of a scalability structure. -/
def skipGroups (payload : Bytes) : ℕ → ℕ → Except PayloadError ℕ
  | 0, position => .ok position
  | groups + 1, position => do
      let group ← readByte payload position
      let position := position + 1 + (group &&& 0x03).toNat
      requirePosition payload position
      skipGroups payload groups position

/-- Skips the frame sizes of a scalability structure. -/
def skipResolutions (payload : Bytes) (spatialLayers position : ℕ) : Except PayloadError ℕ := do
  requirePosition payload (position + spatialLayers * 4)
  return position + spatialLayers * 4

/-- Skips the picture groups of a scalability structure. -/
def skipGroupList (payload : Bytes) (position : ℕ) : Except PayloadError ℕ := do
  let groups ← readByte payload position
  skipGroups payload groups.toNat (position + 1)

def parseVp9ScalabilityStructure (payload : Bytes) (position : ℕ) : Except PayloadError ℕ := do
  let header ← readByte payload position
  let spatialLayers := (header >>> 5).toNat + 1
  let position ←
    if header &&& 0x10 ≠ 0 then skipResolutions payload spatialLayers (position + 1)
    else .ok (position + 1)
  if header &&& 0x08 ≠ 0 then skipGroupList payload position else .ok position

/-- The layer indices of a VP9 descriptor; without flexible mode a byte follows them. -/
def readVp9Layer (payload : Bytes) (flexible : Bool) (position : ℕ) :
    Except PayloadError (Option UInt8 × Option UInt8 × ℕ) := do
  let layer ← readByte payload position
  let position ← if flexible then .ok (position + 1) else skipByte payload (position + 1)
  return (some (layer >>> 5), some (layer >>> 1 &&& 0x07), position)

def inspectVp9 (payload : Bytes) (marker : Bool) : Except PayloadError PayloadInfo := do
  let descriptor ← firstByte payload
  let interPicture := descriptor &&& 0x40 != 0
  let flexible := descriptor &&& 0x10 != 0
  let beginsFrame := descriptor &&& 0x08 != 0
  let endsFrame := descriptor &&& 0x04 != 0
  let position ← if descriptor &&& 0x80 ≠ 0 then skipPictureId payload 1 else .ok 1
  let (temporalId, spatialId, position) ←
    if descriptor &&& 0x20 ≠ 0 then readVp9Layer payload flexible position
    else .ok (none, none, position)
  let position ←
    if flexible && interPicture then skipReferences (payload.drop position) position
    else .ok position
  let position ←
    if descriptor &&& 0x02 ≠ 0 then parseVp9ScalabilityStructure payload position
    else .ok position
  requirePosition payload position
  return {
    startOfFrame := beginsFrame
    endOfFrame := endsFrame || marker
    keyframe := beginsFrame && !interPicture
    temporalId
    spatialId }

/-! ## H.264 -/

/-- The loop over the units of a STAP-A payload: how many there are, and whether one of them is a
keyframe.  Every round consumes bytes, so the length is fuel enough. -/
def stapUnits : ℕ → Bytes → Except PayloadError (ℕ × Bool)
  | 0, _ => .ok (0, false)
  | _ + 1, [] => .ok (0, false)
  | fuel + 1, rest => do
      let length ← readU16 rest 0
      if length = 0 then
        .error .invalidAggregationUnit
      else if rest.length < 2 + length.toNat then
        .error .invalidAggregationUnit
      else
        let (units, keyframe) ← stapUnits fuel (rest.drop (2 + length.toNat))
        return (units + 1, rest.getD 2 0 &&& 0x1f == 5 || keyframe)

def inspectH264StapA (payload : Bytes) (marker : Bool) : Except PayloadError PayloadInfo := do
  let (units, keyframe) ← stapUnits payload.length (payload.drop 1)
  if units = 0 then
    .error .invalidAggregationUnit
  else
    return {
      startOfFrame := true
      endOfFrame := marker
      keyframe
      temporalId := none
      spatialId := none }

def inspectH264FuA (payload : Bytes) (marker : Bool) : Except PayloadError PayloadInfo := do
  let fuHeader ← readByte payload 1
  return {
    startOfFrame := fuHeader &&& 0x80 != 0
    endOfFrame := fuHeader &&& 0x40 != 0 || marker
    keyframe := fuHeader &&& 0x1f == 5
    temporalId := none
    spatialId := none }

def inspectH264 (payload : Bytes) (marker : Bool) : Except PayloadError PayloadInfo := do
  let nalHeader ← firstByte payload
  let nalType := nalHeader &&& 0x1f
  if 1 ≤ nalType ∧ nalType ≤ 23 then
    return {
      startOfFrame := true
      endOfFrame := marker
      keyframe := nalType == 5
      temporalId := none
      spatialId := none }
  else if nalType = 24 then
    inspectH264StapA payload marker
  else if nalType = 28 then
    inspectH264FuA payload marker
  else
    .error (.unsupportedH264NalType nalType)

/-! ## AV1 and dispatch -/

def inspectAv1 (payload : Bytes) (marker : Bool) : Except PayloadError PayloadInfo := do
  let aggregation ← firstByte payload
  let continuesPrevious := aggregation &&& 0x80 != 0
  let continuesNext := aggregation &&& 0x40 != 0
  let newCodedSequence := aggregation &&& 0x08 != 0
  if payload.length = 1 then
    .error .truncatedDescriptor
  else
    return {
      startOfFrame := !continuesPrevious
      endOfFrame := !continuesNext || marker
      keyframe := !continuesPrevious && newCodedSequence
      temporalId := none
      spatialId := none }

/-- Parses only the payload metadata needed for forwarding and layer switching. -/
def inspectPayload (codec : Codec) (payload : Bytes) (marker : Bool) :
    Except PayloadError PayloadInfo :=
  match codec with
  | .opus => .ok {
      startOfFrame := true
      endOfFrame := true
      keyframe := true
      temporalId := none
      spatialId := none }
  | .vp8 => inspectVp8 payload marker
  | .vp9 => inspectVp9 payload marker
  | .h264 => inspectH264 payload marker
  | .av1 => inspectAv1 payload marker
  | .unknown => .ok {
      startOfFrame := false
      endOfFrame := marker
      keyframe := false
      temporalId := none
      spatialId := none }

end Fluvora.MediaCodec
