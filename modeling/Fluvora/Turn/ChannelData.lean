import Fluvora.Lib.Bytes
import Fluvora.Turn.Allocation

/-!
# `ChannelData` messages

The codec of `crates/webrtc/turn` for the messages of a bound channel: a channel number, a length and
the payload, which `parse` also takes with up to three zero bytes behind it.
-/

namespace Fluvora.Turn

/-- The failures of the codec. -/
inductive ChannelDataError
  | truncatedChannelData
  | invalidChannelNumber (channelNumber : UInt16)
  | trailingChannelData
  | dataTooLarge
deriving DecidableEq

structure ChannelData where
  channelNumber : UInt16
  data : Bytes
deriving DecidableEq

namespace ChannelData

def parse (datagram : Bytes) : Except ChannelDataError ChannelData :=
  match datagram with
  | b0 :: b1 :: b2 :: b3 :: body =>
      let channelNumber := Bytes.toU16 b0 b1
      if ¬(minChannelNumber ≤ channelNumber ∧ channelNumber ≤ maxChannelNumber) then
        .error (.invalidChannelNumber channelNumber)
      else
        let length := (Bytes.toU16 b2 b3).toNat
        if body.length < length then .error .truncatedChannelData
        else
          let padding := body.drop length
          if 3 < padding.length ∨ padding.any (· ≠ 0) then .error .trailingChannelData
          else .ok ⟨channelNumber, body.take length⟩
  | _ => .error .truncatedChannelData

def encode (channelNumber : UInt16) (data : Bytes) : Except ChannelDataError Bytes :=
  if ¬(minChannelNumber ≤ channelNumber ∧ channelNumber ≤ maxChannelNumber) then
    .error (.invalidChannelNumber channelNumber)
  else if 65535 < data.length then .error .dataTooLarge
  else .ok (Bytes.ofU16 channelNumber ++ Bytes.ofU16 (.ofNat data.length) ++ data)

theorem encode_eq_ok {channelNumber : UInt16} {data encoded : Bytes} :
    encode channelNumber data = .ok encoded ↔
      (minChannelNumber ≤ channelNumber ∧ channelNumber ≤ maxChannelNumber) ∧
        data.length ≤ 65535 ∧
        encoded = Bytes.ofU16 channelNumber ++ Bytes.ofU16 (.ofNat data.length) ++ data := by
  unfold encode
  split
  next hnumber => simp [hnumber]
  next hnumber =>
    rw [not_not] at hnumber
    split
    next hlength =>
      simp only [reduceCtorEq, false_iff]
      omega
    next hlength =>
      rw [Except.ok.injEq, eq_comm]
      exact ⟨fun h => ⟨hnumber, by omega, h⟩, fun h => h.2.2⟩

/-- A payload comes back, with up to three zero bytes behind the message. -/
theorem parse_encode {channelNumber : UInt16} {data encoded : Bytes}
    (h : encode channelNumber data = .ok encoded) {padding : ℕ} (hpadding : padding ≤ 3) :
    parse (encoded ++ List.replicate padding (0 : UInt8)) = .ok ⟨channelNumber, data⟩ := by
  obtain ⟨hnumber, hlength, rfl⟩ := encode_eq_ok.mp h
  have hshape : Bytes.ofU16 channelNumber ++ Bytes.ofU16 (.ofNat data.length) ++ data ++
      List.replicate padding (0 : UInt8) =
    (channelNumber >>> 8).toUInt8 :: channelNumber.toUInt8 ::
      ((.ofNat data.length : UInt16) >>> 8).toUInt8 :: (.ofNat data.length : UInt16).toUInt8 ::
        (data ++ List.replicate padding 0) := rfl
  have hnat : (UInt16.ofNat data.length).toNat = data.length := by
    rw [UInt16.toNat_ofNat']
    omega
  rw [hshape, parse]
  simp only [Bytes.toU16_ofU16, hnat]
  rw [if_neg (not_not.mpr hnumber), if_neg (by simp), List.drop_left, List.take_left, if_neg]
  rw [List.length_replicate, not_or, not_lt]
  refine ⟨hpadding, ?_⟩
  simp

end ChannelData

end Fluvora.Turn
