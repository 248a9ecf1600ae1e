import Fluvora.Lib.Runs
import Fluvora.Srtp.Outbound

/-!
# No counter block is used twice

The IV of a packet is the salt with the SSRC and the packet index mixed in, and a zero 16-bit block
counter.  A packet of at most 65535 bytes needs at most 4096 blocks, so the counter never reaches the
index bits, and packets with another SSRC or another index use other blocks.  `rtpUses` and
`rtcpUses` are the counter blocks of the successful protect calls of a run; no two of them meet.
-/

open Std (ExtTreeMap)

namespace Fluvora.Srtp

open Fallible

/-! ## Initialization vectors -/

/-- An IV without its block counter. -/
def ivFront (salt : Vector UInt8 14) (ssrc : UInt32) (index : ℕ) : Bytes :=
  (Bytes.xorAt salt.toList 4 (Bytes.ofU32 ssrc)).xorAt 8 (Bytes.ofNat 6 index)

@[simp] theorem length_ivFront (salt : Vector UInt8 14) (ssrc : UInt32) (index : ℕ) :
    (ivFront salt ssrc index).length = 14 := by
  simp [ivFront]

theorem makeIv_eq (salt : Vector UInt8 14) (ssrc : UInt32) (index : ℕ) :
    makeIv salt ssrc index = ivFront salt ssrc index ++ [0, 0] := by
  rw [makeIv, ivFront, Bytes.drop_ofNat 6 2, Bytes.xorAt_append _ (by simp),
    Bytes.xorAt_append _ (by simp)]

/-- The index is mixed in behind the first eight bytes. -/
theorem take_ivFront (salt : Vector UInt8 14) (ssrc : UInt32) (index : ℕ) :
    (ivFront salt ssrc index).take 8 = Bytes.xorAt (salt.toList.take 8) 4 (Bytes.ofU32 ssrc) := by
  have hlen : (Bytes.xorAt (salt.toList.take 8) 4 (Bytes.ofU32 ssrc)).length ≤ 8 := by simp
  rw [ivFront, Bytes.take_xorAt, Bytes.take_xorAt, Bytes.xorAt_of_le _ hlen]

/-- An IV tells the SSRC and the index. -/
theorem ivFront_inj {salt : Vector UInt8 14} {ssrc ssrc' : UInt32} {index index' : ℕ}
    (hindex : index ≤ maxSrtpIndex) (hindex' : index' ≤ maxSrtpIndex)
    (h : ivFront salt ssrc index = ivFront salt ssrc' index') : ssrc = ssrc' ∧ index = index' := by
  have hssrc : ssrc = ssrc' := by
    have hfront := congrArg (List.take 8) h
    rw [take_ivFront, take_ivFront] at hfront
    exact Bytes.ofU32_inj (Bytes.xorAt_inj (by simp) (by simp) hfront)
  subst hssrc
  have hbytes : Bytes.ofNat 6 index = Bytes.ofNat 6 index' :=
    Bytes.xorAt_inj (by simp) (by simp) h
  have hnat := congrArg Bytes.toNat hbytes
  rw [Bytes.toNat_ofNat, Bytes.toNat_ofNat] at hnat
  unfold maxSrtpIndex at hindex hindex'
  exact ⟨rfl, by omega⟩

/-! ## Counter blocks -/

/-- The longest payload of a datagram needs less than 2^16 blocks. -/
theorem mem_counterBlocks {iv block : Bytes} {length : ℕ} (hlen : length ≤ 65535)
    (h : block ∈ counterBlocks iv length) :
    ∃ k < 2 ^ 16, block = Bytes.ofNat 16 (iv.toNat + k) := by
  obtain ⟨k, hk, rfl⟩ := List.mem_map.mp h
  rw [List.mem_range] at hk
  exact ⟨k, by omega, rfl⟩

/-- The number of a counter block: the IV above, the block counter below. -/
theorem toNat_block {front : Bytes} (hlen : front.length = 14) {k : ℕ} (hk : k < 2 ^ 16) :
    (Bytes.ofNat 16 (Bytes.toNat (front ++ [0, 0]) + k)).toNat = front.toNat * 2 ^ 16 + k := by
  have hfront := front.toNat_lt
  rw [hlen] at hfront
  have hiv : Bytes.toNat (front ++ [0, 0]) = front.toNat * 2 ^ 16 := by
    rw [show front ++ [0, 0] = front ++ [0] ++ [0] by simp, Bytes.toNat_append_singleton,
      Bytes.toNat_append_singleton]
    simp
    omega
  rw [hiv, Bytes.toNat_ofNat, Nat.mod_eq_of_lt]
  omega

/-- Payloads under different IVs use different blocks. -/
theorem disjoint_counterBlocks {front front' : Bytes} (hfront : front.length = 14)
    (hfront' : front'.length = 14) (hne : front ≠ front') {length length' : ℕ}
    (hlen : length ≤ 65535) (hlen' : length' ≤ 65535) :
    (counterBlocks (front ++ [0, 0]) length).Disjoint
      (counterBlocks (front' ++ [0, 0]) length') := by
  intro block hblock hblock'
  obtain ⟨k, hk, rfl⟩ := mem_counterBlocks hlen hblock
  obtain ⟨k', hk', heq⟩ := mem_counterBlocks hlen' hblock'
  have hnat := congrArg Bytes.toNat heq
  rw [toNat_block hfront hk, toNat_block hfront' hk'] at hnat
  apply hne
  apply Bytes.toNat_inj (hfront.trans hfront'.symm)
  omega

/-- The counter blocks with which `crypt` encrypts a payload. -/
def cryptBlocks (payload : Bytes) (keys : SessionKeys) (ssrc : UInt32) (index : ℕ) : List Bytes :=
  counterBlocks (makeIv keys.salt ssrc index) payload.length

theorem crypt_eq (crypto : Crypto) (payload : Bytes) (keys : SessionKeys) (ssrc : UInt32)
    (index : ℕ) :
    crypt crypto payload keys ssrc index = List.zipWith (· ^^^ ·) payload
      ((cryptBlocks payload keys ssrc index).flatMap fun block =>
        (crypto.aes keys.encryption block).toList) := rfl

theorem disjoint_cryptBlocks {keys : SessionKeys} {payload payload' : Bytes}
    {ssrc ssrc' : UInt32} {index index' : ℕ} (hlen : payload.length ≤ 65535)
    (hlen' : payload'.length ≤ 65535) (hindex : index ≤ maxSrtpIndex)
    (hindex' : index' ≤ maxSrtpIndex) (hne : ssrc = ssrc' → index ≠ index') :
    (cryptBlocks payload keys ssrc index).Disjoint (cryptBlocks payload' keys ssrc' index') := by
  rw [cryptBlocks, cryptBlocks, makeIv_eq, makeIv_eq]
  refine disjoint_counterBlocks (by simp) (by simp) ?_ hlen hlen'
  intro heq
  obtain ⟨hssrc, hindices⟩ := ivFront_inj hindex hindex' heq
  exact hne hssrc hindices

namespace SrtpContext

/-! ## What the calls encrypt with -/

/-- The counter blocks of a successful `protectRtp`: its index is the one that it leaves as the
highest of the SSRC. -/
def rtpBlocks (crypto : Crypto) (s : SrtpContext) : Call → Option (List Bytes)
  | .protectRtp packet =>
    match (protectRtp crypto packet).run s, Rtp.Packet.parse packet with
    | (.ok _, t), .ok parsed =>
      (t.highest parsed.header.ssrc).map
        (cryptBlocks (packet.drop parsed.headerLen) s.outboundRtpKeys parsed.header.ssrc)
    | _, _ => none
  | _ => none

/-- The counter blocks of a successful `protectRtcp`: it takes the next index of the context. -/
def rtcpBlocks (crypto : Crypto) (s : SrtpContext) : Call → Option (List Bytes)
  | .protectRtcp packet =>
    match (protectRtcp crypto packet).run s, packet.u32At 4 with
    | (.ok _, _), some ssrc =>
      some (cryptBlocks (packet.drop 8) s.outboundRtcpKeys ssrc s.outboundRtcpIndex)
    | _, _ => none
  | _ => none

/-- A packet that `protectRtp` returns is its header, its payload mixed with AES of these blocks, and
then the tag. -/
theorem protectRtp_blocks {crypto : Crypto} {packet wire : Bytes} {s t : SrtpContext}
    (h : (protectRtp crypto packet).run s = (.ok wire, t)) :
    ∃ parsed blocks, Rtp.Packet.parse packet = .ok parsed ∧
      rtpBlocks crypto s (.protectRtp packet) = some blocks ∧
      packet.take parsed.headerLen ++ List.zipWith (· ^^^ ·) (packet.drop parsed.headerLen)
        (blocks.flatMap fun block =>
          (crypto.aes s.outboundRtpKeys.encryption block).toList) <+: wire := by
  obtain ⟨error, u, hrun, -⟩ | ⟨parsed, index, hparsed, -, -, -, hrun⟩ :=
    protectRtp_run crypto packet s
  · rw [hrun] at h
    simp at h
  · refine ⟨parsed, cryptBlocks (packet.drop parsed.headerLen) s.outboundRtpKeys
      parsed.header.ssrc index, hparsed, ?_, ?_⟩
    · simp [rtpBlocks, hrun, hparsed, highest_withHighest]
    · rw [hrun] at h
      simp only [Prod.mk.injEq, Except.ok.injEq] at h
      rw [← h.1, sealRtp, crypt_eq]
      exact List.prefix_append _ _

theorem protectRtcp_blocks {crypto : Crypto} {packet wire : Bytes} {s t : SrtpContext}
    (h : (protectRtcp crypto packet).run s = (.ok wire, t)) :
    ∃ blocks, rtcpBlocks crypto s (.protectRtcp packet) = some blocks ∧
      packet.take 8 ++ List.zipWith (· ^^^ ·) (packet.drop 8)
        (blocks.flatMap fun block =>
          (crypto.aes s.outboundRtcpKeys.encryption block).toList) <+: wire := by
  obtain ⟨error, hrun⟩ | ⟨ssrc, hssrc, -, hrun⟩ := protectRtcp_run crypto packet s
  · rw [hrun] at h
    simp at h
  · refine ⟨cryptBlocks (packet.drop 8) s.outboundRtcpKeys ssrc s.outboundRtcpIndex, ?_, ?_⟩
    · simp [rtcpBlocks, hrun, hssrc]
    · rw [hrun] at h
      simp only [Prod.mk.injEq, Except.ok.injEq] at h
      rw [← h.1, sealRtcp, crypt_eq, List.append_assoc]
      exact List.prefix_append _ _

/-- The counter blocks of the RTP packets that a run protects. -/
def rtpUses (crypto : Crypto) (s : SrtpContext) (calls : List Call) : List (List Bytes) :=
  Runs.produced (step crypto) (rtpBlocks crypto) s calls

/-- The counter blocks of the RTCP packets that a run protects. -/
def rtcpUses (crypto : Crypto) (s : SrtpContext) (calls : List Call) : List (List Bytes) :=
  Runs.produced (step crypto) (rtcpBlocks crypto) s calls

/-! ## Send indices only grow -/

/-- A context that is later in a run: the keys are the same, and no send index has gone back. -/
structure Advanced (s t : SrtpContext) : Prop where
  profile : t.profile = s.profile
  rtpKeys : t.outboundRtpKeys = s.outboundRtpKeys
  rtcpKeys : t.outboundRtcpKeys = s.outboundRtcpKeys
  highest : ∀ ssrc index, s.highest ssrc = some index →
    ∃ index', t.highest ssrc = some index' ∧ index ≤ index'
  rtcpIndex : s.outboundRtcpIndex ≤ t.outboundRtcpIndex

theorem SameOutbound.advanced {s t : SrtpContext} (h : SameOutbound s t) : Advanced s t where
  profile := h.profile
  rtpKeys := h.rtpKeys
  rtcpKeys := h.rtcpKeys
  highest ssrc index hindex := ⟨index, (h.highest ssrc).trans hindex, le_rfl⟩
  rtcpIndex := h.rtcpIndex.ge

theorem advanced_withHighest {s : SrtpContext} {ssrc : UInt32} {index : ℕ}
    (h : ∀ highest, s.highest ssrc = some highest → highest < index) :
    Advanced s (s.withHighest ssrc index) where
  profile := rfl
  rtpKeys := rfl
  rtcpKeys := rfl
  highest other old hold := by
    by_cases hother : ssrc = other
    · subst hother
      exact ⟨index, highest_withHighest s ssrc index, (h old hold).le⟩
    · exact ⟨old, (highest_withHighest_of_ne s index hother).trans hold, le_rfl⟩
  rtcpIndex := le_rfl

theorem advanced_step (crypto : Crypto) (s : SrtpContext) (call : Call) :
    Advanced s (step crypto s call) := by
  cases call with
  | protectRtp packet =>
    obtain ⟨error, t, hrun, hsame⟩ | ⟨parsed, index, -, -, hmono, -, hrun⟩ :=
      protectRtp_run crypto packet s
    · rw [step, hrun]
      exact hsame.advanced
    · rw [step, hrun]
      exact advanced_withHighest hmono
  | unprotectRtp packet => exact (sameOutbound_unprotectRtp crypto packet s).advanced
  | protectRtcp packet =>
    obtain ⟨error, hrun⟩ | ⟨ssrc, -, -, hrun⟩ := protectRtcp_run crypto packet s
    · rw [step, hrun]
      exact (SameOutbound.refl s).advanced
    · rw [step, hrun]
      exact ⟨rfl, rfl, rfl, fun ssrc index h => ⟨index, h, le_rfl⟩, Nat.le_succ _⟩
  | unprotectRtcp packet => exact (sameOutbound_unprotectRtcp crypto packet s).advanced

/-! ## Ahead of a context -/

/-- The packet of a call. -/
def Call.packet : Call → Bytes
  | .protectRtp packet => packet
  | .unprotectRtp packet => packet
  | .protectRtcp packet => packet
  | .unprotectRtcp packet => packet

/-- Blocks of an index that the context has not reached. -/
def AheadRtp (s : SrtpContext) (blocks : List Bytes) : Prop :=
  ∃ payload ssrc index, blocks = cryptBlocks payload s.outboundRtpKeys ssrc index ∧
    payload.length ≤ 65535 ∧ index ≤ maxSrtpIndex ∧
    ∀ highest, s.highest ssrc = some highest → highest < index

def AheadRtcp (s : SrtpContext) (blocks : List Bytes) : Prop :=
  ∃ payload ssrc index, blocks = cryptBlocks payload s.outboundRtcpKeys ssrc index ∧
    payload.length ≤ 65535 ∧ index ≤ maxSrtcpIndex ∧ s.outboundRtcpIndex ≤ index

theorem AheadRtp.of_advanced {s t : SrtpContext} {blocks : List Bytes} (hst : Advanced s t)
    (h : AheadRtp t blocks) : AheadRtp s blocks := by
  obtain ⟨payload, ssrc, index, rfl, hlen, hmax, hahead⟩ := h
  refine ⟨payload, ssrc, index, by rw [hst.rtpKeys], hlen, hmax, ?_⟩
  intro highest hhighest
  obtain ⟨later, hlater, hle⟩ := hst.highest ssrc highest hhighest
  exact hle.trans_lt (hahead later hlater)

theorem AheadRtcp.of_advanced {s t : SrtpContext} {blocks : List Bytes} (hst : Advanced s t)
    (h : AheadRtcp t blocks) : AheadRtcp s blocks := by
  obtain ⟨payload, ssrc, index, rfl, hlen, hmax, hahead⟩ := h
  exact ⟨payload, ssrc, index, by rw [hst.rtcpKeys], hlen, hmax, hst.rtcpIndex.trans hahead⟩

/-- A call that encrypts an RTP payload takes an index above the highest, and leaves it as the
highest. -/
theorem rtpBlocks_eq_some {crypto : Crypto} {s : SrtpContext} {call : Call} {blocks : List Bytes}
    (h : rtpBlocks crypto s call = some blocks) :
    ∃ (parsed : Rtp.Packet) (index : ℕ),
      blocks = cryptBlocks (call.packet.drop parsed.headerLen) s.outboundRtpKeys
        parsed.header.ssrc index ∧ index ≤ maxSrtpIndex ∧
      (∀ highest, s.highest parsed.header.ssrc = some highest → highest < index) ∧
      step crypto s call = s.withHighest parsed.header.ssrc index := by
  cases call with
  | protectRtp packet =>
    obtain ⟨error, t, hrun, -⟩ | ⟨parsed, index, hparsed, -, hmono, hmax, hrun⟩ :=
      protectRtp_run crypto packet s
    · simp [rtpBlocks, hrun] at h
    · simp only [rtpBlocks, hrun, hparsed, highest_withHighest, Option.map_some,
        Option.some.injEq] at h
      exact ⟨parsed, index, h.symm, hmax, hmono, by rw [step, hrun]⟩
  | unprotectRtp packet => simp [rtpBlocks] at h
  | protectRtcp packet => simp [rtpBlocks] at h
  | unprotectRtcp packet => simp [rtpBlocks] at h

theorem rtcpBlocks_eq_some {crypto : Crypto} {s : SrtpContext} {call : Call}
    {blocks : List Bytes} (h : rtcpBlocks crypto s call = some blocks) :
    ∃ ssrc, blocks = cryptBlocks (call.packet.drop 8) s.outboundRtcpKeys ssrc
        s.outboundRtcpIndex ∧ s.outboundRtcpIndex ≤ maxSrtcpIndex ∧
      step crypto s call = { s with outboundRtcpIndex := s.outboundRtcpIndex + 1 } := by
  cases call with
  | protectRtcp packet =>
    obtain ⟨error, hrun⟩ | ⟨ssrc, hssrc, hmax, hrun⟩ := protectRtcp_run crypto packet s
    · simp [rtcpBlocks, hrun] at h
    · simp only [rtcpBlocks, hrun, hssrc, Option.some.injEq] at h
      exact ⟨ssrc, h.symm, hmax, by rw [step, hrun]⟩
  | protectRtp packet => simp [rtcpBlocks] at h
  | unprotectRtp packet => simp [rtcpBlocks] at h
  | unprotectRtcp packet => simp [rtcpBlocks] at h

theorem length_drop_packet_le {call : Call} (hlen : call.packet.length ≤ 65535) (n : ℕ) :
    (call.packet.drop n).length ≤ 65535 := by
  rw [List.length_drop]
  omega

theorem aheadRtp_rtpBlocks {crypto : Crypto} {s : SrtpContext} {call : Call}
    {blocks : List Bytes} (hlen : call.packet.length ≤ 65535)
    (h : rtpBlocks crypto s call = some blocks) : AheadRtp s blocks := by
  obtain ⟨parsed, index, rfl, hmax, hmono, -⟩ := rtpBlocks_eq_some h
  exact ⟨_, _, index, rfl, length_drop_packet_le hlen _, hmax, hmono⟩

theorem aheadRtcp_rtcpBlocks {crypto : Crypto} {s : SrtpContext} {call : Call}
    {blocks : List Bytes} (hlen : call.packet.length ≤ 65535)
    (h : rtcpBlocks crypto s call = some blocks) : AheadRtcp s blocks := by
  obtain ⟨ssrc, rfl, hmax, -⟩ := rtcpBlocks_eq_some h
  exact ⟨_, ssrc, _, rfl, length_drop_packet_le hlen _, hmax, le_rfl⟩

/-- What is ahead after a call uses no block of the call. -/
theorem disjoint_of_aheadRtp {crypto : Crypto} {s : SrtpContext} {call : Call}
    {blocks later : List Bytes} (hlen : call.packet.length ≤ 65535)
    (h : rtpBlocks crypto s call = some blocks) (hlater : AheadRtp (step crypto s call) later) :
    blocks.Disjoint later := by
  obtain ⟨parsed, index, rfl, hmax, -, hstep⟩ := rtpBlocks_eq_some h
  obtain ⟨payload, ssrc, index', rfl, hlen', hmax', hahead⟩ := hlater
  rw [(advanced_step crypto s call).rtpKeys]
  refine disjoint_cryptBlocks (length_drop_packet_le hlen _) hlen' hmax hmax' ?_
  rintro rfl
  rw [hstep, highest_withHighest] at hahead
  exact (hahead index rfl).ne

theorem disjoint_of_aheadRtcp {crypto : Crypto} {s : SrtpContext} {call : Call}
    {blocks later : List Bytes} (hlen : call.packet.length ≤ 65535)
    (h : rtcpBlocks crypto s call = some blocks) (hlater : AheadRtcp (step crypto s call) later) :
    blocks.Disjoint later := by
  obtain ⟨ssrc, rfl, hmax, hstep⟩ := rtcpBlocks_eq_some h
  obtain ⟨payload, ssrc', index', rfl, hlen', hmax', hahead⟩ := hlater
  rw [(advanced_step crypto s call).rtcpKeys]
  have hrange : maxSrtcpIndex ≤ maxSrtpIndex := by decide
  refine disjoint_cryptBlocks (length_drop_packet_le hlen _) hlen' (hmax.trans hrange)
    (hmax'.trans hrange) fun _ => ?_
  rw [hstep] at hahead
  exact (Nat.lt_of_succ_le hahead).ne

/-- No two packets that a context protects are encrypted with a common counter block. -/
theorem counterBlocks_never_reused (crypto : Crypto) (profile : ProtectionProfile)
    (outbound inbound : KeyingMaterial) (calls : List Call)
    (hlen : ∀ call ∈ calls, call.packet.length ≤ 65535) :
    (rtpUses crypto (new crypto profile outbound inbound) calls).Pairwise List.Disjoint ∧
    (rtcpUses crypto (new crypto profile outbound inbound) calls).Pairwise List.Disjoint := by
  constructor
  · exact Runs.pairwise_produced AheadRtp (fun s call blocks => aheadRtp_rtpBlocks)
      (fun s call blocks => AheadRtp.of_advanced (advanced_step crypto s call))
      (fun s call blocks later => disjoint_of_aheadRtp) hlen _
  · exact Runs.pairwise_produced AheadRtcp (fun s call blocks => aheadRtcp_rtcpBlocks)
      (fun s call blocks => AheadRtcp.of_advanced (advanced_step crypto s call))
      (fun s call blocks later => disjoint_of_aheadRtcp) hlen _

/-- Two SSRCs, a wraparound and two compound packets: every call encrypts. -/
def Sample.calls : List Call :=
  [.protectRtp (Srtp.Sample.rtpPacket 65535 7), .protectRtcp (Srtp.Sample.rtcpPacket 7),
    .protectRtp (Srtp.Sample.rtpPacket 0 7), .protectRtp (Srtp.Sample.rtpPacket 65535 9),
    .protectRtcp (Srtp.Sample.rtcpPacket 7)]

theorem sample_counterBlocks_never_reused :
    let s := new Srtp.Sample.crypto .aes128CmSha1_80 Srtp.Sample.material Srtp.Sample.material
    (rtpUses Srtp.Sample.crypto s Sample.calls).length = 3 ∧
    (rtcpUses Srtp.Sample.crypto s Sample.calls).length = 2 ∧
    (rtpUses Srtp.Sample.crypto s Sample.calls).Pairwise List.Disjoint ∧
    (rtcpUses Srtp.Sample.crypto s Sample.calls).Pairwise List.Disjoint := by
  refine ⟨by decide, by decide, ?_⟩
  exact counterBlocks_never_reused _ _ _ _ Sample.calls (by decide)

end SrtpContext

end Fluvora.Srtp
