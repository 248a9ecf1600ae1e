import Fluvora.Lib.Bytes

/-!
# Kinds of datagrams

`classify` of `crates/webrtc/rtc-datagram`: which protocol a datagram of a shared UDP socket belongs
to, by its first bytes.
-/

namespace Fluvora

inductive DatagramKind
  | stun
  | turnChannelData
  | dtls
  | rtp
  | rtcp
  | unknown
deriving DecidableEq

def isStun (input : Bytes) : Bool :=
  20 ≤ input.length && (input.drop 4).take 4 = [0x21, 0x12, 0xa4, 0x42]

def isTurnChannelData (input : Bytes) : Bool :=
  (input.u16At 0).any fun channel => 0x4000 ≤ channel && channel ≤ 0x7fff

def classify (input : Bytes) : DatagramKind :=
  match input with
  | [] => .unknown
  | first :: rest =>
      if first ≤ 3 && isStun input then .stun
      else if 64 ≤ first && first ≤ 79 && isTurnChannelData input then .turnChannelData
      else if 20 ≤ first && first ≤ 63 then .dtls
      else if 128 ≤ first && first ≤ 191 then
        match rest with
        | [] => .unknown
        | second :: _ => if 192 ≤ second && second ≤ 223 then .rtcp else .rtp
      else .unknown

end Fluvora
