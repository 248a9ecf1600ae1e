import Fluvora.Lib.Frames
import Fluvora.Stun.Message
import Fluvora.Turn.ChannelData

/-!
# TURN over TCP

`ClientSender::send` and `read_turn_tcp_frame` of `crates/services/turn-server`.  On a stream a
`ChannelData` message is padded to a multiple of four bytes, and the reader finds out where a frame
ends from the two highest bits of its first byte and the length in its third and fourth byte: the
length of the body of a STUN message, or that of a payload without its padding.

The stream is what a client has written, and ends behind it; `AsyncRead` is not modelled beyond that.
-/

namespace Fluvora.TurnServer

open Results Frames Turn

def maxDatagramBytes : ℕ := 65535

inductive FrameError
  | malformedRequest
  /-- The stream ends inside a frame. -/
  | io
deriving DecidableEq

def isChannelDataFrame (first : UInt8) : Bool := first &&& (0xc0 : UInt8) = 0x40

def isStunFrame (first : UInt8) : Bool := first &&& (0xc0 : UInt8) = 0

/-- The frame that `ClientSender::send` writes to a TCP connection. -/
def tcpFrame (frame : Bytes) : Bytes :=
  if frame.head?.any isChannelDataFrame then
    frame ++ List.replicate ((4 - frame.length % 4) % 4) 0
  else frame

/-- The length of a frame, from its first four bytes. -/
def totalLength (first : UInt8) (bodyLength : ℕ) : Except FrameError ℕ :=
  if !isChannelDataFrame first && !isStunFrame first then .error .malformedRequest
  else if isChannelDataFrame first then .ok (4 + Bytes.pad4 bodyLength)
  else if bodyLength % 4 ≠ 0 then .error .malformedRequest
  else .ok (20 + bodyLength)

def withinLimit (length : ℕ) : Bool := 4 ≤ length && length ≤ maxDatagramBytes + 4

def readTurnTcpFrame : Reader UInt8 FrameError
  | b0 :: b1 :: b2 :: b3 :: rest => do
      let length ← totalLength b0 (Bytes.toU16 b2 b3).toNat
      if !withinLimit length then .error .malformedRequest
      else
        let frame := b0 :: b1 :: b2 :: b3 :: rest
        if frame.length < length then .error .io
        else .ok (some (frame.take length, frame.drop length))
  | _ => .ok none

/-- The frames that the two sides of a connection write. -/
inductive IsFrame : Bytes → Prop
  | stun {message : Bytes} {parsed : Stun.Message} (h : Stun.Message.parse message = .ok parsed) :
      IsFrame message
  | channelData {channelNumber : UInt16} {data encoded : Bytes}
      (h : ChannelData.encode channelNumber data = .ok encoded) : IsFrame (tcpFrame encoded)

/-! ## First bytes -/

theorem toNat_highByte (n : UInt16) : (n >>> 8).toUInt8.toNat = n.toNat / 256 := by
  have hlt := n.toNat_lt
  rw [UInt16.toNat_toUInt8, UInt16.toNat_shiftRight, Nat.shiftRight_eq_div_pow]
  have hshift : (8 : UInt16).toNat % 16 = 8 := rfl
  rw [hshift]
  omega

theorem isChannelDataFrame_highByte {n : UInt16} (h : minChannelNumber ≤ n)
    (h' : n ≤ maxChannelNumber) : isChannelDataFrame (n >>> 8).toUInt8 = true := by
  have hbytes : ∀ high < 80, 64 ≤ high → isChannelDataFrame (.ofNat high) = true := by decide
  have hmin : (minChannelNumber).toNat = 16384 := rfl
  have hmax : (maxChannelNumber).toNat = 20479 := rfl
  rw [UInt16.le_iff_toNat_le] at h h'
  have hhigh := hbytes (n.toNat / 256) (by omega) (by omega)
  rwa [← toNat_highByte, UInt8.ofNat_toNat] at hhigh

theorem isStunFrame_highByte {n : UInt16} (h : n &&& (0xc000 : UInt16) = 0) :
    isStunFrame (n >>> 8).toUInt8 = true := by
  have hbytes : ∀ high < 64, isStunFrame (.ofNat high) = true := by decide
  have hlt : n.toNat < 2 ^ 14 := by
    apply Nat.lt_pow_two_of_testBit
    intro i hi
    by_cases hbits : i < 16
    · have hand : (n.toNat &&& 0xc000).testBit i = false := by
        have hnat := congrArg UInt16.toNat h
        rw [UInt16.toNat_and] at hnat
        rw [show (0xc000 : ℕ) = (0xc000 : UInt16).toNat from rfl, hnat]
        exact Nat.zero_testBit i
      rw [Nat.testBit_and] at hand
      obtain rfl | rfl : i = 14 ∨ i = 15 := by omega
      · rwa [show Nat.testBit 0xc000 14 = true by decide, Bool.and_true] at hand
      · rwa [show Nat.testBit 0xc000 15 = true by decide, Bool.and_true] at hand
    · exact Nat.testBit_lt_two_pow (lt_of_lt_of_le n.toNat_lt
        (Nat.pow_le_pow_right (by decide) (by omega)))
  have hhigh := hbytes (n.toNat / 256) (by omega)
  rwa [← toNat_highByte, UInt8.ofNat_toNat] at hhigh

theorem not_isChannelDataFrame {first : UInt8} (h : isStunFrame first = true) :
    isChannelDataFrame first = false := by
  rw [isStunFrame, decide_eq_true_iff] at h
  rw [isChannelDataFrame, h]
  decide

/-! ## Reading a frame -/

theorem length_frame (first second : UInt16) (body : Bytes) :
    (Bytes.ofU16 first ++ Bytes.ofU16 second ++ body).length = 4 + body.length := by
  rw [List.length_append]
  rfl

/-- A frame that has the length its first bytes say is taken off whatever follows. -/
theorem takes_readTurnTcpFrame {first second : UInt16} {body : Bytes}
    (hlength : totalLength (first >>> 8).toUInt8 second.toNat = .ok (4 + body.length))
    (hlimit : withinLimit (4 + body.length) = true) :
    Takes readTurnTcpFrame (Bytes.ofU16 first ++ Bytes.ofU16 second ++ body) := by
  intro rest
  have hlen := length_frame first second body
  have hframe : (first >>> 8).toUInt8 :: first.toUInt8 :: (second >>> 8).toUInt8 ::
      second.toUInt8 :: (body ++ rest) =
    Bytes.ofU16 first ++ Bytes.ofU16 second ++ body ++ rest := rfl
  rw [← hframe, readTurnTcpFrame, Bytes.toU16_ofU16, hlength, bind_ok, if_neg (by simp [hlimit]),
    hframe]
  rw [if_neg (by rw [List.length_append]; omega), List.take_left' hlen, List.drop_left' hlen]

/-- What the parser says about the first bytes of a message that it accepts. -/
theorem parse_header {message : Bytes} {parsed : Stun.Message}
    (h : Stun.Message.parse message = .ok parsed) :
    ∃ (word length : UInt16) (body : Bytes),
      message = Bytes.ofU16 word ++ Bytes.ofU16 length ++ body ∧
        word &&& (0xc000 : UInt16) = 0 ∧ length.toNat % 4 = 0 ∧
        message.length = 20 + length.toNat := by
  obtain ⟨⟨messageType, transactionId, attributes⟩, hheader, -⟩ := bind_eq_ok.mp h
  unfold Stun.parseHeader at hheader
  rw [ite_error_eq_ok] at hheader
  obtain ⟨-, hheader⟩ := hheader
  obtain ⟨⟨word, afterWord⟩, hword, hheader⟩ := bind_eq_ok.mp hheader
  obtain ⟨decoded, hdecode, hheader⟩ := bind_eq_ok.mp hheader
  obtain ⟨⟨length, afterLength⟩, hlength, hheader⟩ := bind_eq_ok.mp hheader
  rw [ite_error_eq_ok] at hheader
  obtain ⟨haligned, hheader⟩ := hheader
  obtain ⟨⟨cookie, afterCookie⟩, -, hheader⟩ := bind_eq_ok.mp hheader
  rw [ite_error_eq_ok] at hheader
  obtain ⟨-, hheader⟩ := hheader
  obtain ⟨⟨bytes, afterBytes⟩, -, hheader⟩ := bind_eq_ok.mp hheader
  have hdeclared : message.length = 20 + length.toNat := by
    dsimp only at hheader
    split at hheader
    next =>
      rw [ite_error_eq_ok] at hheader
      have hheaderLen : Stun.headerLen = 20 := rfl
      omega
    next => cases hheader
  have hfirst := ReadCursor.readU16_passed (mapError_eq_ok.mp hword)
  have hsecond := ReadCursor.readU16_passed (mapError_eq_ok.mp hlength)
  have hmask : word &&& (0xc000 : UInt16) = 0 := by
    unfold Stun.MessageType.decode at hdecode
    by_contra hne
    rw [if_pos hne] at hdecode
    cases hdecode
  refine ⟨word, length, afterLength.rest, ?_, hmask, by omega, hdeclared⟩
  have hpassed := (hfirst.trans hsecond).rest
  rwa [ReadCursor.rest_new] at hpassed

theorem takes_stun {message : Bytes} {parsed : Stun.Message}
    (h : Stun.Message.parse message = .ok parsed) (hlimit : withinLimit message.length = true) :
    Takes readTurnTcpFrame message := by
  obtain ⟨word, length, body, rfl, hword, haligned, hlength⟩ := parse_header h
  have hstun := isStunFrame_highByte hword
  rw [length_frame] at hlength hlimit
  refine takes_readTurnTcpFrame ?_ hlimit
  simp [totalLength, not_isChannelDataFrame hstun, hstun, haligned, hlength]

/-- The padding of a `ChannelData` message on a stream. -/
theorem tcpFrame_encode {channelNumber : UInt16} {data encoded : Bytes}
    (h : ChannelData.encode channelNumber data = .ok encoded) :
    tcpFrame encoded = encoded ++ List.replicate (Bytes.pad4 data.length - data.length) 0 := by
  obtain ⟨⟨hmin, hmax⟩, -, rfl⟩ := ChannelData.encode_eq_ok.mp h
  have hhead : (Bytes.ofU16 channelNumber ++ Bytes.ofU16 (.ofNat data.length) ++ data).head? =
      some (channelNumber >>> 8).toUInt8 := rfl
  rw [tcpFrame, hhead, Option.any_some, isChannelDataFrame_highByte hmin hmax, if_pos rfl]
  congr 2
  simp only [List.length_append, Bytes.length_ofU16, Bytes.pad4]
  omega

theorem takes_channelData {channelNumber : UInt16} {data encoded : Bytes}
    (h : ChannelData.encode channelNumber data = .ok encoded)
    (hlimit : withinLimit (tcpFrame encoded).length = true) :
    Takes readTurnTcpFrame (tcpFrame encoded) := by
  rw [tcpFrame_encode h] at hlimit ⊢
  obtain ⟨⟨hmin, hmax⟩, hlength, rfl⟩ := ChannelData.encode_eq_ok.mp h
  have hnat : (UInt16.ofNat data.length).toNat = data.length := by
    rw [UInt16.toNat_ofNat']
    omega
  have hpadded : (data ++ List.replicate (Bytes.pad4 data.length - data.length) 0).length =
      Bytes.pad4 data.length := by
    rw [List.length_append, List.length_replicate, Bytes.pad4]
    omega
  rw [List.append_assoc, length_frame] at hlimit
  rw [List.append_assoc]
  refine takes_readTurnTcpFrame ?_ hlimit
  rw [hnat, hpadded]
  simp [totalLength, isChannelDataFrame_highByte hmin hmax]

theorem takes_of_isFrame {frame : Bytes} (h : IsFrame frame)
    (hlimit : withinLimit frame.length = true) : Takes readTurnTcpFrame frame := by
  cases h with
  | stun h => exact takes_stun h hlimit
  | channelData h => exact takes_channelData h hlimit

/-- A STUN message is written as it is. -/
theorem tcpFrame_stun {message : Bytes} {parsed : Stun.Message}
    (h : Stun.Message.parse message = .ok parsed) : tcpFrame message = message := by
  obtain ⟨word, length, body, rfl, hword, -⟩ := parse_header h
  have hhead : (Bytes.ofU16 word ++ Bytes.ofU16 length ++ body).head? =
      some (word >>> 8).toUInt8 := rfl
  rw [tcpFrame, hhead, Option.any_some, not_isChannelDataFrame (isStunFrame_highByte hword)]
  rfl

/-- The frames of a connection are read back from its stream in order, with nothing left of it, and a
padded `ChannelData` message is parsed as what was encoded. -/
theorem readAll_frames (frames : List Bytes)
    (hframes : ∀ frame ∈ frames, IsFrame frame ∧ withinLimit frame.length = true) :
    (∀ fuel, frames.length < fuel →
        readAll readTurnTcpFrame fuel frames.flatten = (frames, .finished [])) ∧
      ∀ channelNumber data encoded, ChannelData.encode channelNumber data = .ok encoded →
        ChannelData.parse (tcpFrame encoded) = .ok ⟨channelNumber, data⟩ := by
  constructor
  · intro fuel hfuel
    exact readAll_flatten (fun frame hframe =>
      takes_of_isFrame (hframes frame hframe).1 (hframes frame hframe).2) rfl hfuel
  · intro channelNumber data encoded h
    rw [tcpFrame_encode h]
    exact ChannelData.parse_encode h (by rw [Bytes.pad4]; omega)

/-- A binding request, and a message of three bytes on the channel 0x4001 with its padding. -/
def sampleFrames : List Bytes :=
  [[0, 1, 0, 0, 0x21, 0x12, 0xa4, 0x42, 1, 2, 3, 4, 5, 6, 7, 8, 9, 10, 11, 12],
    [0x40, 1, 0, 3, 7, 8, 9, 0]]

theorem isFrame_sampleFrames {frame : Bytes} (h : frame ∈ sampleFrames) :
    IsFrame frame ∧ withinLimit frame.length = true := by
  obtain rfl | h := List.mem_cons.mp h
  · have hparse : Stun.Message.parse
        [0, 1, 0, 0, 0x21, 0x12, 0xa4, 0x42, 1, 2, 3, 4, 5, 6, 7, 8, 9, 10, 11, 12] =
      .ok ⟨[0, 1, 0, 0, 0x21, 0x12, 0xa4, 0x42, 1, 2, 3, 4, 5, 6, 7, 8, 9, 10, 11, 12],
        ⟨.binding, .request⟩, ⟨#[1, 2, 3, 4, 5, 6, 7, 8, 9, 10, 11, 12], rfl⟩, []⟩ := by
      decide
    exact ⟨.stun hparse, by decide⟩
  · obtain rfl := List.mem_singleton.mp h
    have hencode : ChannelData.encode 0x4001 [7, 8, 9] = .ok [0x40, 1, 0, 3, 7, 8, 9] := by
      decide
    exact ⟨.channelData hencode, by decide⟩

theorem readAll_frames_sample :
    (∀ fuel, 2 < fuel →
        readAll readTurnTcpFrame fuel sampleFrames.flatten = (sampleFrames, .finished [])) ∧
      ∀ channelNumber data encoded, ChannelData.encode channelNumber data = .ok encoded →
        ChannelData.parse (tcpFrame encoded) = .ok ⟨channelNumber, data⟩ :=
  readAll_frames sampleFrames fun _ => isFrame_sampleFrames

end Fluvora.TurnServer
