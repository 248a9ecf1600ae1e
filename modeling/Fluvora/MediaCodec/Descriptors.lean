import Fluvora.Lib.Scans
import Fluvora.MediaCodec.Payload

/-!
# Payload descriptors

The payload descriptors of VP8 and VP9 as the RTP payload formats lay them out, field by field, what they
say about a packet, and the units of an H.264 aggregation packet.
-/

namespace Fluvora.MediaCodec

open Scans

/-! ## The layout -/

/-- A byte of bit fields. -/
def octet (fields : BitVec 8) : UInt8 := .ofBitVec fields

/-- A field of one bit. -/
def flag (value : Bool) : BitVec 1 := .ofBool value

/-- A field as a byte of its own. -/
def field {width : ℕ} (value : BitVec width) : UInt8 := .ofBitVec (value.setWidth 8)

/-- A picture identifier; its first bit says how long it is. -/
inductive PictureId
  | short (value : BitVec 7)
  | long (high : BitVec 7) (low : UInt8)

def PictureId.bytes : PictureId → Bytes
  | .short value => [octet (flag false ++ value)]
  | .long high low => [octet (flag true ++ high), low]

/-- The extension of a VP8 descriptor.  The last byte is there when one of its two fields is used. -/
structure Vp8Extension where
  pictureId : Option PictureId
  tl0PicIdx : Option UInt8
  hasTid : Bool
  hasKeyIdx : Bool
  reserved : BitVec 4
  tid : BitVec 2
  layerSync : Bool
  keyIdx : BitVec 5

namespace Vp8Extension

def header (e : Vp8Extension) : UInt8 :=
  octet (flag e.pictureId.isSome ++ flag e.tl0PicIdx.isSome ++ flag e.hasTid ++ flag e.hasKeyIdx ++
    e.reserved)

def layer (e : Vp8Extension) : UInt8 := octet (e.tid ++ flag e.layerSync ++ e.keyIdx)

def layerBytes (e : Vp8Extension) : Bytes := if e.hasTid || e.hasKeyIdx then [e.layer] else []

def bytes (e : Vp8Extension) : Bytes :=
  e.header :: (e.pictureId.elim [] PictureId.bytes ++ e.tl0PicIdx.toList ++ e.layerBytes)

end Vp8Extension

/-- A VP8 payload descriptor.  Receivers ignore its reserved bits. -/
structure Vp8Descriptor where
  extension : Option Vp8Extension
  reservedHigh : Bool
  nonReference : Bool
  start : Bool
  reservedLow : Bool
  partition : BitVec 3

namespace Vp8Descriptor

def header (d : Vp8Descriptor) : UInt8 :=
  octet (flag d.extension.isSome ++ flag d.reservedHigh ++ flag d.nonReference ++ flag d.start ++
    flag d.reservedLow ++ d.partition)

def bytes (d : Vp8Descriptor) : Bytes := d.header :: d.extension.elim [] Vp8Extension.bytes

/-- The packet begins a frame. -/
def begins (d : Vp8Descriptor) : Bool := d.start && d.partition == 0

/-- What the descriptor says in front of coded data: a frame's first byte has its last bit clear when the
frame is a keyframe. -/
def info (d : Vp8Descriptor) (marker : Bool) (first : UInt8) : PayloadInfo where
  startOfFrame := d.begins
  endOfFrame := marker
  keyframe := d.begins && first &&& 0x01 == 0
  temporalId := d.extension.bind fun e => if e.hasTid then some (field e.tid) else none
  spatialId := none

/-- The reserved bit in front of the partition index is not set in a packet that begins a frame. -/
def ReservedClear (d : Vp8Descriptor) : Prop := d.begins → d.reservedLow = false

end Vp8Descriptor

/-- The layer indices of a VP9 descriptor. -/
structure Vp9Layer where
  tid : BitVec 3
  switchUp : Bool
  sid : BitVec 3
  interLayer : Bool

def Vp9Layer.byte (l : Vp9Layer) : UInt8 := octet (l.tid ++ flag l.switchUp ++ l.sid ++ flag l.interLayer)

/-- One picture of a picture group, with the differences to the pictures it refers to. -/
structure Picture where
  tid : BitVec 3
  switchUp : Bool
  differences : List UInt8
  fits : differences.length < 4
  reserved : BitVec 2

namespace Picture

/-- Two bits of a picture's first byte count the differences that follow. -/
def header (p : Picture) : UInt8 :=
  octet (p.tid ++ flag p.switchUp ++ BitVec.ofNat 2 p.differences.length ++ p.reserved)

def bytes (p : Picture) : Bytes := p.header :: p.differences

end Picture

/-- The scalability structure of a VP9 descriptor: a frame size for every spatial layer and the pictures
of a picture group, both optional. -/
structure ScalabilityStructure where
  lastLayer : BitVec 3
  sizes : Option (List (UInt16 × UInt16))
  sizeOfLayer : ∀ s ∈ sizes, s.length = lastLayer.toNat + 1
  pictures : Option (List Picture)
  picturesFit : ∀ p ∈ pictures, p.length < 256
  reserved : BitVec 3

namespace ScalabilityStructure

def header (s : ScalabilityStructure) : UInt8 :=
  octet (s.lastLayer ++ flag s.sizes.isSome ++ flag s.pictures.isSome ++ s.reserved)

def sizeBytes (s : ScalabilityStructure) : Bytes :=
  s.sizes.elim [] fun sizes => sizes.flatMap fun size => Bytes.ofU16 size.1 ++ Bytes.ofU16 size.2

/-- The count of the pictures. -/
def countByte (s : ScalabilityStructure) : Bytes :=
  s.pictures.elim [] fun pictures => [.ofNat pictures.length]

/-- The structure up to the pictures of its picture group. -/
def front (s : ScalabilityStructure) : Bytes := s.header :: (s.sizeBytes ++ s.countByte)

def pictureList (s : ScalabilityStructure) : List Picture := s.pictures.getD []

end ScalabilityStructure

/-- A VP9 payload descriptor.  A reference index has a last bit that says whether another one follows. -/
structure Vp9Descriptor where
  pictureId : Option PictureId
  interPicture : Bool
  layer : Option Vp9Layer
  flexible : Bool
  begins : Bool
  ends : Bool
  scalability : Option ScalabilityStructure
  notReference : Bool
  tl0PicIdx : UInt8
  references : List (BitVec 7)
  referred : references ≠ []

/-- The bytes of reference indices. -/
def referenceBytes (references : List (BitVec 7)) : Bytes :=
  match references with
  | [] => []
  | [last] => [octet (last ++ flag false)]
  | reference :: others => octet (reference ++ flag true) :: referenceBytes others

namespace Vp9Descriptor

def header (d : Vp9Descriptor) : UInt8 :=
  octet (flag d.pictureId.isSome ++ flag d.interPicture ++ flag d.layer.isSome ++ flag d.flexible ++
    flag d.begins ++ flag d.ends ++ flag d.scalability.isSome ++ flag d.notReference)

def layerBytes (d : Vp9Descriptor) : Bytes :=
  d.layer.elim [] fun l => l.byte :: if d.flexible then [] else [d.tl0PicIdx]

def flexibleBytes (d : Vp9Descriptor) : Bytes :=
  if d.flexible && d.interPicture then referenceBytes d.references else []

/-- The descriptor up to the pictures of its picture group. -/
def front (d : Vp9Descriptor) : Bytes :=
  d.header :: (d.pictureId.elim [] PictureId.bytes ++ d.layerBytes ++ d.flexibleBytes ++
    d.scalability.elim [] ScalabilityStructure.front)

def pictures (d : Vp9Descriptor) : List Picture := d.scalability.elim [] (·.pictureList)

def pictureBytes (d : Vp9Descriptor) : Bytes := d.pictures.flatMap Picture.bytes

def bytes (d : Vp9Descriptor) : Bytes := d.front ++ d.pictureBytes

/-- What the descriptor says. -/
def info (d : Vp9Descriptor) (marker : Bool) : PayloadInfo where
  startOfFrame := d.begins
  endOfFrame := d.ends || marker
  keyframe := d.begins && !d.interPicture
  temporalId := d.layer.map fun l => field l.tid
  spatialId := d.layer.map fun l => field l.sid

end Vp9Descriptor

/-- Where pictures end when the reserved bits of a picture's first byte are taken for the count of the
bytes behind it. -/
def groupsEnd (pictures : ℕ) (bytes : Bytes) : Option ℕ :=
  itemsEnd (fun byte : UInt8 => (byte &&& 0x03).toNat) pictures bytes

/-- With the reserved bits as the counts, the pictures end where they do, or one byte earlier. -/
def Vp9Descriptor.Aligned (d : Vp9Descriptor) : Prop :=
  ∃ stop, groupsEnd d.pictures.length d.pictureBytes = some stop ∧
    (stop = d.pictureBytes.length ∨ stop + 1 = d.pictureBytes.length)

/-- The units of an H.264 aggregation packet behind its header, each with its length in front. -/
def unitBytes (units : List Bytes) : Bytes :=
  units.flatMap fun bytes => Bytes.ofU16 (.ofNat bytes.length) ++ bytes

/-- A unit of an instantaneous decoder refresh. -/
def isIdr (bytes : Bytes) : Bool := bytes.getD 0 0 &&& 0x1f == 5

/-! ## Bits -/

section Bits

variable (a b c d e f g h : Bool) (tid : BitVec 2) (three sid : BitVec 3) (four : BitVec 4)
  (five : BitVec 5) (seven : BitVec 7)

theorem octet_first : octet (flag a ++ seven) &&& 0x80 ≠ 0 ↔ a := by
  revert a seven
  decide

theorem octet_last : octet (seven ++ flag a) &&& 0x01 = 0 ↔ a = false := by
  revert a seven
  decide

theorem octet_extension :
    (octet (flag a ++ flag b ++ flag c ++ flag d ++ four) &&& 0x80 ≠ 0 ↔ a) ∧
      (octet (flag a ++ flag b ++ flag c ++ flag d ++ four) &&& 0x40 ≠ 0 ↔ b) ∧
      (octet (flag a ++ flag b ++ flag c ++ flag d ++ four) &&& 0x20 ≠ 0 ↔ c) ∧
      (octet (flag a ++ flag b ++ flag c ++ flag d ++ four) &&& 0x30 ≠ 0 ↔ c || d) := by
  revert a b c d four
  decide

theorem octet_vp8_layer : octet (tid ++ flag a ++ five) >>> 6 = field tid := by
  revert tid a five
  decide

theorem octet_vp8 :
    (octet (flag a ++ flag b ++ flag c ++ flag d ++ flag e ++ three) &&& 0x80 ≠ 0 ↔ a) ∧
      (octet (flag a ++ flag b ++ flag c ++ flag d ++ flag e ++ three) &&& 0x10 != 0) = d ∧
      (octet (flag a ++ flag b ++ flag c ++ flag d ++ flag e ++ three) &&& 0x0f == 0) =
        (!e && three == 0) := by
  revert a b c d e three
  decide

theorem octet_vp9_layer :
    octet (three ++ flag a ++ sid ++ flag b) >>> 5 = field three ∧
      octet (three ++ flag a ++ sid ++ flag b) >>> 1 &&& 0x07 = field sid := by
  revert three a sid b
  decide

theorem octet_scalability :
    (octet (three ++ flag a ++ flag b ++ sid) >>> 5).toNat = three.toNat ∧
      (octet (three ++ flag a ++ flag b ++ sid) &&& 0x10 ≠ 0 ↔ a) ∧
      (octet (three ++ flag a ++ flag b ++ sid) &&& 0x08 ≠ 0 ↔ b) := by
  revert three a b sid
  decide

theorem octet_vp9 :
    (octet (flag a ++ flag b ++ flag c ++ flag d ++ flag e ++ flag f ++ flag g ++ flag h) &&& 0x80 ≠ 0 ↔
        a) ∧
      (octet (flag a ++ flag b ++ flag c ++ flag d ++ flag e ++ flag f ++ flag g ++ flag h) &&& 0x40 !=
        0) = b ∧
      (octet (flag a ++ flag b ++ flag c ++ flag d ++ flag e ++ flag f ++ flag g ++ flag h) &&& 0x20 ≠
        0 ↔ c) ∧
      (octet (flag a ++ flag b ++ flag c ++ flag d ++ flag e ++ flag f ++ flag g ++ flag h) &&& 0x10 !=
        0) = d ∧
      (octet (flag a ++ flag b ++ flag c ++ flag d ++ flag e ++ flag f ++ flag g ++ flag h) &&& 0x08 !=
        0) = e ∧
      (octet (flag a ++ flag b ++ flag c ++ flag d ++ flag e ++ flag f ++ flag g ++ flag h) &&& 0x04 !=
        0) = f ∧
      (octet (flag a ++ flag b ++ flag c ++ flag d ++ flag e ++ flag f ++ flag g ++ flag h) &&& 0x02 ≠
        0 ↔ g) := by
  revert a b c d e f g h
  decide

end Bits

end Fluvora.MediaCodec
