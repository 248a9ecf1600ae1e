import Fluvora.Net.Codec

/-!
# Realtime data envelopes

The version-1 frame of `crates/foundation/protocol`.  A frame is its fixed header of 60 bytes and
the payload (`Envelope.frame`); `encode` succeeds with exactly these bytes when the payload is
within its limits (`encode_eq_ok`), and `decode` reads them back (`decode_frame`).  The two agree up
to two things: several kinds have the same number on the wire, and the reader has no counterpart of
the writer's limit.
-/

namespace Fluvora.Protocol

open Results

def magic : Bytes := [0x46, 0x4c, 0x55, 0x56]
def version : UInt8 := 1
def headerLen : ℕ := 60
def maxWireLen : ℕ := headerLen + 65535 * 16

/-- Realtime application message category. -/
inductive DataKind
  | presence
  | chat
  | gift
  | control
  | custom (value : UInt16)
  | unknown (value : UInt16)
deriving DecidableEq

namespace DataKind

def toWire : DataKind → UInt16
  | .presence => 1
  | .chat => 2
  | .gift => 3
  | .control => 4
  | .custom value | .unknown value => value

def fromWire (value : UInt16) : DataKind :=
  if value = 1 then .presence
  else if value = 2 then .chat
  else if value = 3 then .gift
  else if value = 4 then .control
  else if 0x8000 ≤ value then .custom value
  else .unknown value

/-- The number of an extension is in the reserved range, and that of a future type is neither there
nor taken. -/
def InRange : DataKind → Prop
  | .custom value => 0x8000 ≤ value
  | .unknown value => value < 0x8000 ∧ value ≠ 1 ∧ value ≠ 2 ∧ value ≠ 3 ∧ value ≠ 4
  | _ => True

instance : DecidablePred InRange := fun kind => by
  cases kind <;> unfold InRange <;> infer_instance

end DataKind

/-- Delivery hints: the bits for reliable, ordered and acknowledged delivery. -/
structure EnvelopeFlags where
  bits : UInt8
  allowed : bits &&& ~~~0x07 = 0
deriving DecidableEq

structure Envelope where
  flags : EnvelopeFlags
  kind : DataKind
  roomId : BitVec 128
  senderId : BitVec 128
  sequence : UInt64
  timestampMillis : UInt64
  payload : Bytes
deriving DecidableEq

inductive ProtocolError
  | frameTooShort (length : ℕ)
  | invalidMagic
  | unsupportedVersion (version : UInt8)
  | unknownFlags (flags : UInt8)
  | payloadTooLarge (actual maximum : ℕ)
  | trailingBytes (length : ℕ)
  | decode (error : DecodeError)
  | encode (error : EncodeError)
deriving DecidableEq

/-- `?` on a read. -/
def decoding {α : Type} (x : Except DecodeError α) : Except ProtocolError α := x.mapError .decode

/-- `?` on a write. -/
def encoding {α : Type} (x : Except EncodeError α) : Except ProtocolError α := x.mapError .encode

/-! ## The codec -/

def highWord (value : BitVec 128) : UInt64 := .ofNat (value >>> 64).toNat

def lowWord (value : BitVec 128) : UInt64 := .ofNat (value &&& 0xffffffffffffffff).toNat

def writeU128 (output : WriteBuffer) (value : BitVec 128) : Except EncodeError WriteBuffer := do
  let output ← output.writeU64 (highWord value)
  output.writeU64 (lowWord value)

def joinWords (high low : UInt64) : BitVec 128 :=
  BitVec.ofNat 128 high.toNat <<< 64 ||| BitVec.ofNat 128 low.toNat

def readU128 (cursor : ReadCursor) : Except DecodeError (BitVec 128 × ReadCursor) := do
  let (high, cursor) ← cursor.readU64
  let (low, cursor) ← cursor.readU64
  return (joinWords high low, cursor)

namespace Envelope

/-- Encodes a bounded version-1 frame. -/
def encode (envelope : Envelope) (maximumPayload : ℕ) : Except ProtocolError Bytes := do
  if maximumPayload < envelope.payload.length then
    .error (.payloadTooLarge envelope.payload.length maximumPayload)
  else if 4294967295 < envelope.payload.length then
    .error (.payloadTooLarge envelope.payload.length 4294967295)
  else
    let output := WriteBuffer.withLimit maxWireLen
    let output ← encoding (output.extendFromSlice magic)
    let output ← encoding (output.writeU8 version)
    let output ← encoding (output.writeU8 envelope.flags.bits)
    let output ← encoding (output.writeU16 envelope.kind.toWire)
    let output ← encoding (writeU128 output envelope.roomId)
    let output ← encoding (writeU128 output envelope.senderId)
    let output ← encoding (output.writeU64 envelope.sequence)
    let output ← encoding (output.writeU64 envelope.timestampMillis)
    let output ← encoding (output.writeU32 (.ofNat envelope.payload.length))
    let output ← encoding (output.extendFromSlice envelope.payload)
    return output.bytes

/-- Decodes one exact bounded frame.  A `usize` has the range of a `u32`, so `FrameTooLarge` is
never returned. -/
def decode (input : Bytes) (maximumPayload : ℕ) : Except ProtocolError Envelope := do
  if input.length < headerLen then
    .error (.frameTooShort input.length)
  else
    let (found, cursor) ← decoding ((ReadCursor.new input).take 4)
    if found ≠ magic then
      .error .invalidMagic
    else
      let (found, cursor) ← decoding cursor.readU8
      if found ≠ version then
        .error (.unsupportedVersion found)
      else
        let (flags, cursor) ← decoding cursor.readU8
        if allowed : flags &&& ~~~0x07 = 0 then
          let (kind, cursor) ← decoding cursor.readU16
          let (roomId, cursor) ← decoding (readU128 cursor)
          let (senderId, cursor) ← decoding (readU128 cursor)
          let (sequence, cursor) ← decoding cursor.readU64
          let (timestampMillis, cursor) ← decoding cursor.readU64
          let (payloadLen, cursor) ← decoding cursor.readU32
          if maximumPayload < payloadLen.toNat then
            .error (.payloadTooLarge payloadLen.toNat maximumPayload)
          else
            let (payload, cursor) ← decoding (cursor.take payloadLen.toNat)
            if !cursor.isEmpty then
              .error (.trailingBytes cursor.remaining)
            else
              return ⟨⟨flags, allowed⟩, .fromWire kind, roomId, senderId, sequence, timestampMillis,
                payload⟩
        else
          .error (.unknownFlags flags)

end Envelope

/-! ## Words and kinds -/

theorem toNat_highWord (value : BitVec 128) : (highWord value).toNat = value.toNat / 2 ^ 64 := by
  have hlt := value.isLt
  rw [highWord, UInt64.toNat_ofNat', BitVec.toNat_ushiftRight, Nat.shiftRight_eq_div_pow]
  omega

theorem toNat_lowWord (value : BitVec 128) : (lowWord value).toNat = value.toNat % 2 ^ 64 := by
  have hand : (value &&& 0xffffffffffffffff).toNat = value.toNat % 2 ^ 64 := by
    rw [BitVec.toNat_and]
    exact Nat.and_two_pow_sub_one_eq_mod value.toNat 64
  rw [lowWord, UInt64.toNat_ofNat', hand, Nat.mod_mod]

theorem toNat_joinWords (high low : UInt64) :
    (joinWords high low).toNat = high.toNat * 2 ^ 64 + low.toNat := by
  have hhigh := high.toNat_lt
  have hlow := low.toNat_lt
  have hshift : (BitVec.ofNat 128 high.toNat <<< 64).toNat = high.toNat <<< 64 := by
    rw [BitVec.toNat_shiftLeft, BitVec.toNat_ofNat, Nat.shiftLeft_eq, Nat.shiftLeft_eq]
    omega
  have hword : (BitVec.ofNat 128 low.toNat).toNat = low.toNat := by
    rw [BitVec.toNat_ofNat]
    omega
  rw [joinWords, BitVec.toNat_or, hshift, hword, ← Nat.shiftLeft_add_eq_or_of_lt hlow,
    Nat.shiftLeft_eq]

theorem joinWords_words (value : BitVec 128) : joinWords (highWord value) (lowWord value) = value := by
  apply BitVec.eq_of_toNat_eq
  rw [toNat_joinWords, toNat_highWord, toNat_lowWord]
  omega

theorem highWord_joinWords (high low : UInt64) : highWord (joinWords high low) = high := by
  have hlow := low.toNat_lt
  apply UInt64.toNat_inj.mp
  rw [toNat_highWord, toNat_joinWords]
  omega

theorem lowWord_joinWords (high low : UInt64) : lowWord (joinWords high low) = low := by
  have hlow := low.toNat_lt
  apply UInt64.toNat_inj.mp
  rw [toNat_lowWord, toNat_joinWords]
  omega

namespace DataKind

theorem toWire_fromWire (value : UInt16) : (fromWire value).toWire = value := by
  unfold fromWire
  split_ifs with h1 h2 h3 h4 <;> simp [toWire, *]

/-- A kind is read back exactly when its number is in its range. -/
theorem fromWire_toWire_iff (kind : DataKind) : fromWire kind.toWire = kind ↔ kind.InRange := by
  cases kind with
  | presence => exact iff_of_true rfl trivial
  | chat => exact iff_of_true rfl trivial
  | gift => exact iff_of_true rfl trivial
  | control => exact iff_of_true rfl trivial
  | custom value =>
    show fromWire value = .custom value ↔ 0x8000 ≤ value
    unfold fromWire
    split_ifs with h1 h2 h3 h4 h5
    · simp [h1]
    · simp [h2]
    · simp [h3]
    · simp [h4]
    · exact iff_of_true rfl h5
    · simp [h5]
  | unknown value =>
    show fromWire value = .unknown value ↔
      value < 0x8000 ∧ value ≠ 1 ∧ value ≠ 2 ∧ value ≠ 3 ∧ value ≠ 4
    unfold fromWire
    split_ifs with h1 h2 h3 h4 h5
    · simp [h1]
    · simp [h2]
    · simp [h3]
    · simp [h4]
    · simp [UInt16.not_lt.mpr h5]
    · exact iff_of_true rfl ⟨UInt16.not_le.mp h5, h1, h2, h3, h4⟩

end DataKind

/-! ## Writing a frame -/

def ofU128 (value : BitVec 128) : Bytes :=
  Bytes.ofNat 8 (highWord value).toNat ++ Bytes.ofNat 8 (lowWord value).toNat

theorem length_ofU128 (value : BitVec 128) : (ofU128 value).length = 16 := by
  simp [ofU128]

theorem writeU128_eq_ok {output next : WriteBuffer} {value : BitVec 128} :
    writeU128 output value = .ok next ↔ output.len + 16 ≤ output.limit ∧
      next = ⟨output.bytes ++ ofU128 value, output.limit⟩ := by
  simp only [writeU128, WriteBuffer.writeU64, bind_eq_ok, WriteBuffer.extendFromSlice_eq_ok,
    Bytes.length_ofNat, WriteBuffer.len]
  constructor
  · rintro ⟨-, ⟨-, rfl⟩, hlow, rfl⟩
    simp only [List.length_append, Bytes.length_ofNat] at hlow
    exact ⟨hlow, by rw [ofU128, List.append_assoc]⟩
  · rintro ⟨hfits, rfl⟩
    refine ⟨_, ⟨by omega, rfl⟩, ?_, by rw [ofU128, List.append_assoc]⟩
    simp only [List.length_append, Bytes.length_ofNat]
    exact hfits

/-- A write in front of further ones. -/
theorem write_bind_eq_ok {output : WriteBuffer} {value : Bytes}
    {f : WriteBuffer → Except ProtocolError Bytes} {bytes : Bytes} :
    encoding (output.extendFromSlice value) >>= f = .ok bytes ↔
      output.len + value.length ≤ output.limit ∧
        f ⟨output.bytes ++ value, output.limit⟩ = .ok bytes := by
  rw [bind_eq_ok]
  constructor
  · rintro ⟨next, hwrite, hrest⟩
    obtain ⟨hfits, rfl⟩ := WriteBuffer.extendFromSlice_eq_ok.mp (mapError_eq_ok.mp hwrite)
    exact ⟨hfits, hrest⟩
  · rintro ⟨hfits, hrest⟩
    exact ⟨_, mapError_eq_ok.mpr (WriteBuffer.extendFromSlice_eq_ok.mpr ⟨hfits, rfl⟩), hrest⟩

theorem writeU128_bind_eq_ok {output : WriteBuffer} {value : BitVec 128}
    {f : WriteBuffer → Except ProtocolError Bytes} {bytes : Bytes} :
    encoding (writeU128 output value) >>= f = .ok bytes ↔
      output.len + 16 ≤ output.limit ∧
        f ⟨output.bytes ++ ofU128 value, output.limit⟩ = .ok bytes := by
  rw [bind_eq_ok]
  constructor
  · rintro ⟨next, hwrite, hrest⟩
    obtain ⟨hfits, rfl⟩ := writeU128_eq_ok.mp (mapError_eq_ok.mp hwrite)
    exact ⟨hfits, hrest⟩
  · rintro ⟨hfits, hrest⟩
    exact ⟨_, mapError_eq_ok.mpr (writeU128_eq_ok.mpr ⟨hfits, rfl⟩), hrest⟩

namespace Envelope

/-- The bytes of an envelope. -/
def frame (envelope : Envelope) : Bytes :=
  magic ++ ([version] ++ ([envelope.flags.bits] ++ (Bytes.ofU16 envelope.kind.toWire ++
    (ofU128 envelope.roomId ++ (ofU128 envelope.senderId ++
      (Bytes.ofNat 8 envelope.sequence.toNat ++ (Bytes.ofNat 8 envelope.timestampMillis.toNat ++
        (Bytes.ofU32 (.ofNat envelope.payload.length) ++ envelope.payload))))))))

theorem length_frame (envelope : Envelope) :
    envelope.frame.length = headerLen + envelope.payload.length := by
  simp [frame, magic, length_ofU128, headerLen]
  omega

/-- `encode` gives the frame, as long as the payload is within the three limits. -/
theorem encode_eq_ok {envelope : Envelope} {maximumPayload : ℕ} {bytes : Bytes} :
    envelope.encode maximumPayload = .ok bytes ↔
      envelope.payload.length ≤ maximumPayload ∧ envelope.payload.length ≤ 4294967295 ∧
        envelope.frame.length ≤ maxWireLen ∧ bytes = envelope.frame := by
  have hlen := envelope.length_frame
  simp only [encode, ite_error_eq_ok, Nat.not_lt, WriteBuffer.writeU8, WriteBuffer.writeU16,
    WriteBuffer.writeU32, WriteBuffer.writeU64, write_bind_eq_ok, writeU128_bind_eq_ok,
    WriteBuffer.withLimit, WriteBuffer.len, pure_eq_ok, List.length_append, Bytes.length_ofU16,
    Bytes.length_ofU32, Bytes.length_ofNat, length_ofU128, List.length_nil, List.length_singleton]
  refine and_congr_right fun _ => and_congr_right fun _ => ?_
  have hmagic : magic.length = 4 := rfl
  have hheader : headerLen = 60 := rfl
  constructor
  · rintro ⟨-, -, -, -, -, -, -, -, -, hfits, rfl⟩
    exact ⟨by omega, by simp [frame]⟩
  · rintro ⟨hfits, rfl⟩
    refine ⟨?_, ?_, ?_, ?_, ?_, ?_, ?_, ?_, ?_, ?_, by simp [frame]⟩ <;> omega

end Envelope

/-! ## Reading a frame -/

theorem decoding_bind_eq_ok {α : Type} {x : Except DecodeError α}
    {f : α → Except ProtocolError Envelope} {envelope : Envelope} :
    decoding x >>= f = .ok envelope ↔ ∃ a, x = .ok a ∧ f a = .ok envelope := by
  rw [bind_eq_ok]
  exact exists_congr fun a => and_congr_left fun _ => mapError_eq_ok

theorem decoding_bind_of_ok {α : Type} {x : Except DecodeError α} {a : α}
    (f : α → Except ProtocolError Envelope) (h : x = .ok a) : decoding x >>= f = f a := by
  rw [h]
  rfl

theorem readU128_rest {cursor : ReadCursor} {value : BitVec 128} {rest : Bytes}
    (h : cursor.rest = ofU128 value ++ rest) :
    ∃ next, readU128 cursor = .ok (value, next) ∧ next.rest = rest := by
  rw [ofU128, List.append_assoc] at h
  obtain ⟨middle, hhigh, -, hmiddle⟩ := ReadCursor.readU64_rest h
  obtain ⟨next, hlow, -, hnext⟩ := ReadCursor.readU64_rest hmiddle
  refine ⟨next, ?_, hnext⟩
  rw [readU128, hhigh, bind_ok]
  dsimp only
  rw [hlow, bind_ok]
  show Except.ok (joinWords (highWord value) (lowWord value), next) = _
  rw [joinWords_words]

theorem readU128_passed {cursor next : ReadCursor} {value : BitVec 128}
    (h : readU128 cursor = .ok (value, next)) : ReadCursor.Passed cursor (ofU128 value) next := by
  unfold readU128 at h
  obtain ⟨⟨high, middle⟩, hhigh, h⟩ := bind_eq_ok.mp h
  obtain ⟨⟨low, last⟩, hlow, h⟩ := bind_eq_ok.mp h
  cases h
  rw [ofU128, highWord_joinWords, lowWord_joinWords]
  exact (ReadCursor.readU64_passed hhigh).trans (ReadCursor.readU64_passed hlow)

namespace Envelope

/-- What `decode` reads out of a frame: all of it, the kind by its number. -/
theorem decode_frame (envelope : Envelope) {maximumPayload : ℕ}
    (hmaximum : envelope.payload.length ≤ maximumPayload)
    (hword : envelope.payload.length ≤ 4294967295) :
    decode envelope.frame maximumPayload =
      .ok { envelope with kind := .fromWire envelope.kind.toWire } := by
  have hlong : ¬envelope.frame.length < headerLen := by
    rw [length_frame]
    omega
  have hlen : (UInt32.ofNat envelope.payload.length).toNat = envelope.payload.length := by
    rw [UInt32.toNat_ofNat']
    omega
  obtain ⟨c1, h1, -, r1⟩ := ReadCursor.take_rest (ReadCursor.rest_new envelope.frame)
  obtain ⟨c2, h2, -, r2⟩ := ReadCursor.readU8_rest r1
  obtain ⟨c3, h3, -, r3⟩ := ReadCursor.readU8_rest r2
  obtain ⟨c4, h4, -, r4⟩ := ReadCursor.readU16_rest r3
  obtain ⟨c5, h5, r5⟩ := readU128_rest r4
  obtain ⟨c6, h6, r6⟩ := readU128_rest r5
  obtain ⟨c7, h7, -, r7⟩ := ReadCursor.readU64_rest r6
  obtain ⟨c8, h8, -, r8⟩ := ReadCursor.readU64_rest r7
  obtain ⟨c9, h9, -, r9⟩ := ReadCursor.readU32_rest r8
  obtain ⟨c10, h10, -, r10⟩ := ReadCursor.take_rest (r9.trans (List.append_nil _).symm)
  have hempty : c10.isEmpty = true := c10.isEmpty_iff.mpr r10
  have h1 : (ReadCursor.new envelope.frame).take 4 = .ok (magic, c1) := h1
  rw [decode, if_neg hlong, decoding_bind_of_ok _ h1]
  dsimp only
  rw [if_neg (not_not_intro rfl), decoding_bind_of_ok _ h2]
  dsimp only
  rw [if_neg (not_not_intro rfl), decoding_bind_of_ok _ h3]
  dsimp only
  rw [dif_pos envelope.flags.allowed, decoding_bind_of_ok _ h4]
  dsimp only
  rw [decoding_bind_of_ok _ h5]
  dsimp only
  rw [decoding_bind_of_ok _ h6]
  dsimp only
  rw [decoding_bind_of_ok _ h7]
  dsimp only
  rw [decoding_bind_of_ok _ h8]
  dsimp only
  rw [decoding_bind_of_ok _ h9]
  dsimp only
  rw [hlen, if_neg (Nat.not_lt.mpr hmaximum), decoding_bind_of_ok _ h10]
  dsimp only
  rw [hempty]
  rfl

/-- What `decode` accepts is the frame of the envelope that it returns. -/
theorem eq_frame_of_decode {input : Bytes} {maximumPayload : ℕ} {envelope : Envelope}
    (h : decode input maximumPayload = .ok envelope) :
    input = envelope.frame ∧ envelope.payload.length ≤ maximumPayload ∧
      envelope.payload.length ≤ 4294967295 := by
  rw [decode, ite_error_eq_ok] at h
  obtain ⟨-, h⟩ := h
  obtain ⟨⟨found, c1⟩, h1, h⟩ := decoding_bind_eq_ok.mp h
  obtain ⟨hmagic, h⟩ := ite_error_eq_ok.mp h
  obtain ⟨⟨word, c2⟩, h2, h⟩ := decoding_bind_eq_ok.mp h
  obtain ⟨hversion, h⟩ := ite_error_eq_ok.mp h
  obtain ⟨⟨flags, c3⟩, h3, h⟩ := decoding_bind_eq_ok.mp h
  dsimp only at h
  split at h
  case isFalse => cases h
  rename_i allowed
  obtain ⟨⟨kind, c4⟩, h4, h⟩ := decoding_bind_eq_ok.mp h
  obtain ⟨⟨roomId, c5⟩, h5, h⟩ := decoding_bind_eq_ok.mp h
  obtain ⟨⟨senderId, c6⟩, h6, h⟩ := decoding_bind_eq_ok.mp h
  obtain ⟨⟨sequence, c7⟩, h7, h⟩ := decoding_bind_eq_ok.mp h
  obtain ⟨⟨timestampMillis, c8⟩, h8, h⟩ := decoding_bind_eq_ok.mp h
  obtain ⟨⟨payloadLen, c9⟩, h9, h⟩ := decoding_bind_eq_ok.mp h
  obtain ⟨hmaximum, h⟩ := ite_error_eq_ok.mp h
  obtain ⟨⟨payload, c10⟩, h10, h⟩ := decoding_bind_eq_ok.mp h
  obtain ⟨hempty, h⟩ := ite_error_eq_ok.mp h
  cases h
  obtain ⟨p10, hlen⟩ := ReadCursor.take_passed h10
  have hrest : c10.rest = [] := c10.isEmpty_iff.mp (by simpa using hempty)
  have hword : UInt32.ofNat payload.length = payloadLen := by
    rw [hlen, UInt32.ofNat_toNat]
  have hbound : payload.length < 2 ^ 32 := hlen ▸ payloadLen.toNat_lt
  have hmaximum : payload.length ≤ maximumPayload := hlen ▸ Nat.not_lt.mp hmaximum
  refine ⟨?_, hmaximum, Nat.le_of_lt_succ hbound⟩
  have hmagic : found = magic := not_not.mp hmagic
  have hversion : word = version := not_not.mp hversion
  have hread := (ReadCursor.take_passed h1).1.rest
  rw [(ReadCursor.readU8_passed h2).rest, (ReadCursor.readU8_passed h3).rest,
    (ReadCursor.readU16_passed h4).rest, (readU128_passed h5).rest, (readU128_passed h6).rest,
    (ReadCursor.readU64_passed h7).rest, (ReadCursor.readU64_passed h8).rest,
    (ReadCursor.readU32_passed h9).rest, p10.rest, hrest, List.append_nil, hmagic, hversion] at hread
  show input = _
  rw [frame, DataKind.toWire_fromWire, hword]
  exact hread

/-- What `encode` writes is read back unless the number of its kind is outside the kind's range, and
what `decode` accepts is written back unless it is longer than the writer's limit. -/
theorem decode_encode_iff (maximumPayload : ℕ) :
    (∀ (envelope : Envelope) (bytes : Bytes),
      envelope.encode maximumPayload = .ok bytes →
        (decode bytes maximumPayload = .ok envelope ↔ envelope.kind.InRange)) ∧
    (∀ (bytes : Bytes) (envelope : Envelope),
      decode bytes maximumPayload = .ok envelope →
        (envelope.encode maximumPayload = .ok bytes ↔ bytes.length ≤ maxWireLen)) := by
  constructor
  · intro envelope bytes hencode
    obtain ⟨hmaximum, hword, -, rfl⟩ := encode_eq_ok.mp hencode
    rw [decode_frame envelope hmaximum hword, ← DataKind.fromWire_toWire_iff, Except.ok.injEq]
    constructor
    · intro h
      exact congrArg kind h
    · intro h
      rw [h]
  · intro bytes envelope hdecode
    obtain ⟨rfl, hmaximum, hword⟩ := eq_frame_of_decode hdecode
    rw [encode_eq_ok]
    constructor
    · rintro ⟨-, -, hfits, -⟩
      exact hfits
    · intro hfits
      exact ⟨hmaximum, hword, hfits, rfl⟩

/-- An application extension outside the reserved range. -/
def Sample.misnumbered : Envelope where
  flags := ⟨0, by decide⟩
  kind := .custom 1
  roomId := 7
  senderId := 9
  sequence := 1
  timestampMillis := 0
  payload := [42]

/-- It is encoded, and comes back as a presence update. -/
theorem misnumbered_read_as_presence :
    ∃ bytes, Sample.misnumbered.encode 16 = .ok bytes ∧
      decode bytes 16 = .ok { Sample.misnumbered with kind := .presence } ∧
      decode bytes 16 ≠ .ok Sample.misnumbered := by
  have hencode : Sample.misnumbered.encode 16 = .ok Sample.misnumbered.frame :=
    encode_eq_ok.mpr ⟨by decide, by decide, by decide, rfl⟩
  have hdecode : decode Sample.misnumbered.frame 16 =
      .ok { Sample.misnumbered with kind := .presence } :=
    decode_frame Sample.misnumbered (by decide) (by decide)
  refine ⟨_, hencode, hdecode, ?_⟩
  rw [hdecode]
  intro h
  cases congrArg Except.toOption h

end Envelope

end Fluvora.Protocol
