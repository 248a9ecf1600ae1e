import Fluvora.Srtp.Context

/-!
# What an SRTP context protects

One statement for each operation about the send side of a context: `protectRtp` advances the index of
its SSRC and encrypts under it, `protectRtcp` takes the next RTCP index, and the other two operations
leave both alone.  `Call` and `runCalls` are runs of the four operations in any order.
-/

open Std (ExtTreeMap)

namespace Fluvora.Srtp

open Fallible

/-! ## Advancing an index -/

theorem OutboundRtpState.advance_run (sequenceNumber : UInt16) (state : OutboundRtpState) :
    let index := estimateIndex state.highestIndex sequenceNumber
    (∃ error, (OutboundRtpState.advance sequenceNumber).run state = (.error error, state)) ∨
    ((∀ highest, state.highestIndex = some highest → highest < index) ∧ index ≤ maxSrtpIndex ∧
      (OutboundRtpState.advance sequenceNumber).run state =
        (.ok index, { highestIndex := some index })) := by
  intro index
  simp only [OutboundRtpState.advance, run_get_bind, run_ensure_bind]
  by_cases hmono : (state.highestIndex.all fun highest => decide (highest < index)) = true
  swap
  · rw [if_neg hmono]
    exact .inl ⟨_, rfl⟩
  rw [if_pos hmono]
  by_cases hmax : index ≤ maxSrtpIndex
  swap
  · rw [if_neg hmax]
    exact .inl ⟨_, rfl⟩
  · rw [if_pos hmax]
    refine .inr ⟨?_, hmax, rfl⟩
    intro highest hhighest
    simpa [hhighest] using hmono

namespace SrtpContext

/-- The highest index sent for an SSRC. -/
def highest (s : SrtpContext) (ssrc : UInt32) : Option ℕ :=
  (s.outboundRtp[ssrc]?.getD {}).highestIndex

/-- The wire form of a packet that is protected under an index. -/
def sealRtp (crypto : Crypto) (s : SrtpContext) (parsed : Rtp.Packet) (packet : Bytes)
    (index : ℕ) : Bytes :=
  let encrypted := packet.take parsed.headerLen ++
    crypt crypto (packet.drop parsed.headerLen) s.outboundRtpKeys parsed.header.ssrc index
  encrypted ++ (authenticateRtp crypto s.outboundRtpKeys encrypted (index / 2 ^ 16)).take
    s.profile.rtpTagLen

/-- The context after the index of an SSRC has moved. -/
def withHighest (s : SrtpContext) (ssrc : UInt32) (index : ℕ) : SrtpContext :=
  { s with outboundRtp := s.outboundRtp.insert ssrc { highestIndex := some index } }

theorem highest_withHighest (s : SrtpContext) (ssrc : UInt32) (index : ℕ) :
    (s.withHighest ssrc index).highest ssrc = some index := by
  simp [highest, withHighest]

theorem highest_withHighest_of_ne (s : SrtpContext) {ssrc other : UInt32} (index : ℕ)
    (h : ssrc ≠ other) : (s.withHighest ssrc index).highest other = s.highest other := by
  simp [highest, withHighest, Maps.getElem?_insert_of_ne h]

/-- Two contexts with the same keys and the same send indices. -/
structure SameOutbound (s t : SrtpContext) : Prop where
  profile : t.profile = s.profile
  rtpKeys : t.outboundRtpKeys = s.outboundRtpKeys
  rtcpKeys : t.outboundRtcpKeys = s.outboundRtcpKeys
  highest : ∀ ssrc, t.highest ssrc = s.highest ssrc
  rtcpIndex : t.outboundRtcpIndex = s.outboundRtcpIndex

theorem SameOutbound.refl (s : SrtpContext) : SameOutbound s s := ⟨rfl, rfl, rfl, fun _ => rfl, rfl⟩

/-- Storing an unchanged state again changes no index. -/
theorem sameOutbound_insert (s : SrtpContext) (ssrc : UInt32) :
    SameOutbound s { s with
      outboundRtp := s.outboundRtp.insert ssrc (s.outboundRtp[ssrc]?.getD {}) } := by
  refine ⟨rfl, rfl, rfl, ?_, rfl⟩
  intro other
  by_cases h : ssrc = other
  · subst h
    simp [SrtpContext.highest]
  · simp [SrtpContext.highest, Maps.getElem?_insert_of_ne h]

/-- `protectRtp` fails without moving an index, or seals the packet under a new highest index. -/
theorem protectRtp_run (crypto : Crypto) (packet : Bytes) (s : SrtpContext) :
    (∃ error t, (protectRtp crypto packet).run s = (.error error, t) ∧ SameOutbound s t) ∨
    ∃ parsed index, Rtp.Packet.parse packet = .ok parsed ∧
      index = estimateIndex (s.highest parsed.header.ssrc) parsed.header.sequenceNumber ∧
      (∀ h, s.highest parsed.header.ssrc = some h → h < index) ∧ index ≤ maxSrtpIndex ∧
      (protectRtp crypto packet).run s =
        (.ok (sealRtp crypto s parsed packet index), s.withHighest parsed.header.ssrc index) := by
  rw [protectRtp, run_ofExcept_bind]
  rcases Rtp.Packet.parse packet with error | parsed
  · exact .inl ⟨_, s, rfl, .refl s⟩
  dsimp only [Except.mapError]
  rw [run_bind, advanceOutbound, run_get_bind]
  obtain ⟨error, hrun⟩ | ⟨hmono, hmax, hrun⟩ := OutboundRtpState.advance_run
    parsed.header.sequenceNumber (s.outboundRtp[parsed.header.ssrc]?.getD {})
  · left
    rw [hrun]
    exact ⟨error, _, rfl, sameOutbound_insert s parsed.header.ssrc⟩
  · right
    obtain ⟨index, hindex⟩ : ∃ index, index =
      estimateIndex (s.highest parsed.header.ssrc) parsed.header.sequenceNumber := ⟨_, rfl⟩
    rw [← highest, ← hindex] at hmono hmax hrun
    have hroc : rolloverCounter index = .ok (index / 2 ^ 16) := by
      rw [rolloverCounter, if_pos]
      unfold maxSrtpIndex at hmax
      omega
    refine ⟨parsed, index, rfl, hindex, hmono, hmax, ?_⟩
    rw [hrun]
    show run _ (s.withHighest parsed.header.ssrc index) = _
    rw [run_get_bind, run_ofExcept_bind, hroc]
    rfl

/-- Receiving writes nothing on the send side. -/
theorem sameOutbound_unprotectRtp (crypto : Crypto) (packet : Bytes) (s : SrtpContext) :
    SameOutbound s ((unprotectRtp crypto packet).run s).2 := by
  have hs : SameOutbound s s := .refl s
  rw [unprotectRtp, run_get_bind]
  refine run_ensure_bind_invariant hs fun _ => ?_
  refine run_ofExcept_bind_invariant hs fun headerLen _ => ?_
  refine run_ofExcept_bind_invariant hs fun sequenceNumber _ => ?_
  refine run_ofExcept_bind_invariant hs fun ssrc _ => ?_
  refine run_ofExcept_bind_invariant hs fun _ _ => ?_
  refine run_ofExcept_bind_invariant hs fun roc _ => ?_
  refine run_ofExcept_bind_invariant hs fun _ _ => ?_
  refine run_ofExcept_bind_invariant hs fun _ _ => ?_
  exact ⟨rfl, rfl, rfl, fun _ => rfl, rfl⟩

theorem sameOutbound_unprotectRtcp (crypto : Crypto) (packet : Bytes) (s : SrtpContext) :
    SameOutbound s ((unprotectRtcp crypto packet).run s).2 := by
  have hs : SameOutbound s s := .refl s
  rw [unprotectRtcp, run_get_bind]
  refine run_ensure_bind_invariant hs fun _ => ?_
  refine run_ofExcept_bind_invariant hs fun indexWord _ => ?_
  refine run_ofExcept_bind_invariant hs fun ssrc _ => ?_
  refine run_ofExcept_bind_invariant hs fun _ _ => ?_
  refine run_ofExcept_bind_invariant hs fun _ _ => ?_
  refine run_ofExcept_bind_invariant hs fun _ _ => ?_
  exact ⟨rfl, rfl, rfl, fun _ => rfl, rfl⟩

/-- The wire form of a compound packet that is protected under an index. -/
def sealRtcp (crypto : Crypto) (s : SrtpContext) (packet : Bytes) (ssrc : UInt32) (index : ℕ) :
    Bytes :=
  let authenticated := packet.take 8 ++
    crypt crypto (packet.drop 8) s.outboundRtcpKeys ssrc index ++ Bytes.ofNat 4 (index + 2 ^ 31)
  authenticated ++ (authenticate crypto s.outboundRtcpKeys authenticated).take s.profile.rtcpTagLen

/-- `protectRtcp` fails and changes nothing, or seals the packet under the next index. -/
theorem protectRtcp_run (crypto : Crypto) (packet : Bytes) (s : SrtpContext) :
    (∃ error, (protectRtcp crypto packet).run s = (.error error, s)) ∨
    ∃ ssrc, packet.u32At 4 = some ssrc ∧ s.outboundRtcpIndex ≤ maxSrtcpIndex ∧
      (protectRtcp crypto packet).run s =
        (.ok (sealRtcp crypto s packet ssrc s.outboundRtcpIndex),
          { s with outboundRtcpIndex := s.outboundRtcpIndex + 1 }) := by
  rw [protectRtcp, run_ofExcept_bind]
  rcases Rtcp.parseCompound packet with error | packets
  · exact .inl ⟨_, rfl⟩
  dsimp only [Except.mapError]
  rw [run_ensure_bind]
  by_cases hlen : 8 ≤ packet.length
  swap
  · rw [if_neg hlen]
    exact .inl ⟨_, rfl⟩
  rw [if_pos hlen, run_get_bind, run_ensure_bind]
  by_cases hmax : s.outboundRtcpIndex ≤ maxSrtcpIndex
  swap
  · rw [if_neg hmax]
    exact .inl ⟨_, rfl⟩
  obtain ⟨ssrc, hssrc⟩ := Bytes.exists_u32At packet 4 (by omega)
  refine .inr ⟨ssrc, hssrc, hmax, ?_⟩
  have hread : readU32 packet 4 = .ok ssrc := by
    rw [readU32, hssrc]
    rfl
  rw [if_pos hmax, run_bind, run_set]
  dsimp only
  rw [run_ofExcept_bind, hread]
  rfl

/-! ## Runs -/

/-- One call on a context. -/
inductive Call
  | protectRtp (packet : Bytes)
  | unprotectRtp (packet : Bytes)
  | protectRtcp (packet : Bytes)
  | unprotectRtcp (packet : Bytes)
deriving DecidableEq

def step (crypto : Crypto) (s : SrtpContext) : Call → SrtpContext
  | .protectRtp packet => ((protectRtp crypto packet).run s).2
  | .unprotectRtp packet => ((unprotectRtp crypto packet).run s).2
  | .protectRtcp packet => ((protectRtcp crypto packet).run s).2
  | .unprotectRtcp packet => ((unprotectRtcp crypto packet).run s).2

def runCalls (crypto : Crypto) (calls : List Call) (s : SrtpContext) : SrtpContext :=
  calls.foldl (step crypto) s

end SrtpContext

/-! ## Sample contexts -/

/-- Stand-ins for the primitives that mix the key into the message. -/
def Sample.crypto : Crypto where
  aes key block := .ofFn fun i => key.toList.getD i 0 ^^^ block.getD i 0
  hmac key message :=
    .ofFn fun i => key.toList.getD i 0 ^^^ UInt8.ofNat (Bytes.toNat message / 256 ^ i.val)

def Sample.material : KeyingMaterial where
  masterKey := .ofFn fun i => .ofNat (i.val * 7 + 3)
  masterSalt := .ofFn fun i => .ofNat (i.val * 5 + 1)

/-- An RTP packet without extensions. -/
def Sample.rtpPacket (sequenceNumber : UInt16) (ssrc : UInt32) : Bytes :=
  [0x80, 96] ++ Bytes.ofU16 sequenceNumber ++ [0, 0, 0, 0] ++ Bytes.ofU32 ssrc ++ [1, 2, 3, 4]

/-- A receiver report without blocks. -/
def Sample.rtcpPacket (ssrc : UInt32) : Bytes := [0x80, 201, 0, 1] ++ Bytes.ofU32 ssrc

end Fluvora.Srtp
