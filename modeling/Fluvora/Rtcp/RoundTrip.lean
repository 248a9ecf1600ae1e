import Fluvora.Rtcp.TransportFeedback

/-!
# Round trips of RTCP compound datagrams

`encodeCompound` accepts more than `parseCompound` returns: an SDES item with the type of the END
marker, a raw packet with the type of a known packet, and a raw packet whose body does not end on a
word, which is filled up with zeros without the padding bit.  A list of packets is read back exactly
if it has none of these (`parseCompound_encodeCompound_iff`).
-/

namespace Fluvora.Rtcp

open Results

/-- The types and formats that have a parser of their own. -/
def recognised (packetType count : UInt8) : Bool :=
  packetType = 200 || packetType = 201 || packetType = 202 || (packetType = 205 && count = 1) ||
    (packetType = 205 && count = 15) || (packetType = 206 && count = 1)

/-- The wire has a place for everything that the packet holds. -/
def Packet.representable : Packet → Bool
  | .sourceDescription description =>
      description.chunks.all fun chunk => chunk.items.all fun item => item.itemType != 0
  | .raw packet => !recognised packet.packetType packet.count && packet.body.length % 4 == 0
  | _ => true

/-! ## One packet -/

theorem map_eq_ok_iff {α β : Type} {f : α → β} (hf : Function.Injective f)
    {x : Except RtcpError α} {a : α} : f <$> x = .ok (f a) ↔ x = .ok a := by
  cases x with
  | error => simp
  | ok b => simp [hf.eq_iff]

theorem parsePacket_raw {packetType count : UInt8} (h : recognised packetType count = false)
    (body : Bytes) : parsePacket count packetType body = .ok (.raw ⟨count, packetType, body⟩) := by
  simp only [recognised, Bool.or_eq_false_iff, Bool.and_eq_false_iff, decide_eq_false_iff_not] at h
  rw [parsePacket, if_neg (by tauto), if_neg (by tauto), if_neg (by tauto), if_neg (by tauto),
    if_neg (by tauto), if_neg (by tauto)]

/-- A recognised packet is never read as a raw one. -/
theorem recognised_of_parsePacket {packetType count : UInt8} {body : Bytes} {packet : RawPacket}
    (h : parsePacket count packetType body = .ok (.raw packet)) :
    recognised packetType count = false := by
  by_contra hrecognised
  rw [Bool.not_eq_false] at hrecognised
  have hmap : ∀ {α : Type} (f : α → Packet) (x : Except RtcpError α), (∀ a, f a ≠ .raw packet) →
      f <$> x ≠ .ok (.raw packet) := by
    intro α f x hf hx
    cases x with
    | error => simp at hx
    | ok a => exact hf a (by simpa using hx)
  simp only [recognised, Bool.or_eq_true, Bool.and_eq_true, decide_eq_true_eq] at hrecognised
  unfold parsePacket at h
  split_ifs at h with h200 h201 h202 h205 h205' h206
  · exact hmap _ _ (by simp) h
  · exact hmap _ _ (by simp) h
  · exact hmap _ _ (by simp) h
  · exact hmap _ _ (by simp) h
  · exact hmap _ _ (by simp) h
  · exact hmap _ _ (by simp) h
  · tauto

/-- A packet is read back from its aligned body exactly if it is representable. -/
theorem parsePacket_encode_iff {packet : Packet} {count packetType : UInt8} {body : Bytes}
    (h : encodePacket packet = .ok (count, packetType, body)) :
    parsePacket count packetType (align body) = .ok packet ↔ packet.representable = true := by
  cases packet with
  | senderReport report =>
    obtain ⟨rfl, hlen, hparse⟩ := parseSenderReport_encode h
    rw [align_of_mod hlen, parsePacket, if_pos rfl, hparse]
    simp [Packet.representable]
  | receiverReport report =>
    obtain ⟨rfl, hlen, hparse⟩ := parseReceiverReport_encode h
    rw [align_of_mod hlen, parsePacket, if_neg (by decide), if_pos rfl, hparse]
    simp [Packet.representable]
  | sourceDescription description =>
    obtain ⟨rfl, hlen, hparse⟩ := parseSourceDescription_encode_iff h
    rw [align_of_mod hlen, parsePacket, if_neg (by decide), if_neg (by decide), if_pos rfl,
      map_eq_ok_iff fun _ _ => Packet.sourceDescription.inj, hparse]
    simp [Packet.representable]
  | genericNack nack =>
    rw [encodePacket, Except.ok.injEq, Prod.mk.injEq, Prod.mk.injEq] at h
    obtain ⟨rfl, rfl, rfl⟩ := h
    have hlen : (encodeNack nack).length % 4 = 0 := by
      rw [length_encodeNack]
      omega
    rw [align_of_mod hlen, parsePacket, if_neg (by decide), if_neg (by decide), if_neg (by decide),
      if_pos (by decide), parseNack_encode]
    simp [Packet.representable]
  | pictureLossIndication pli =>
    rw [encodePacket, Except.ok.injEq, Prod.mk.injEq, Prod.mk.injEq] at h
    obtain ⟨rfl, rfl, rfl⟩ := h
    rw [align_of_mod (show (encodePli pli).length % 4 = 0 by simp [encodePli]), parsePacket, if_neg (by decide),
      if_neg (by decide), if_neg (by decide), if_neg (by decide), if_neg (by decide),
      if_pos (by decide), parsePli_encode]
    simp [Packet.representable]
  | transportWideFeedback feedback =>
    rw [encodePacket, bind_eq_ok] at h
    obtain ⟨bytes, hbytes, h⟩ := h
    rw [pure_eq_ok, Prod.mk.injEq, Prod.mk.injEq] at h
    obtain ⟨rfl, rfl, rfl⟩ := h
    obtain ⟨hlen, hparse⟩ := parseTwcc_encode hbytes
    rw [align_of_mod hlen, parsePacket, if_neg (by decide), if_neg (by decide), if_neg (by decide),
      if_neg (by decide), if_pos (by decide), hparse]
    simp [Packet.representable]
  | raw packet =>
    rw [encodePacket, Except.ok.injEq, Prod.mk.injEq, Prod.mk.injEq] at h
    obtain ⟨rfl, rfl, rfl⟩ := h
    rw [Packet.representable, Bool.and_eq_true, Bool.not_eq_true', beq_iff_eq]
    constructor
    · intro hparse
      have hraw := recognised_of_parsePacket hparse
      refine ⟨hraw, ?_⟩
      rw [parsePacket_raw hraw, Except.ok.injEq, Packet.raw.injEq] at hparse
      have hbody : align packet.body = packet.body := congrArg RawPacket.body hparse
      rw [← hbody, length_align]
      exact pad4_mod _
    · rintro ⟨hraw, hlen⟩
      rw [align_of_mod hlen, parsePacket_raw hraw]

/-! ## Frames -/

/-- The fields of the first byte of a packet without padding. -/
theorem first_byte {count : UInt8} (h : count ≤ 31) :
    (0x80 ||| count) >>> 6 = 2 ∧ (0x80 ||| count) &&& 0x20 = 0 ∧
      (0x80 ||| count) &&& 0x1f = count := by
  have hall : ∀ n : Fin 32, (0x80 ||| UInt8.ofNat n.val) >>> 6 = 2 ∧
      (0x80 ||| UInt8.ofNat n.val) &&& 0x20 = 0 ∧
        (0x80 ||| UInt8.ofNat n.val) &&& 0x1f = .ofNat n.val := by
    decide
  rw [UInt8.le_iff_toNat_le] at h
  have hbyte := hall ⟨count.toNat, Nat.lt_succ_of_le h⟩
  rwa [UInt8.ofNat_toNat] at hbyte

theorem encodeFrame_eq_ok {packet : Packet} {frame : Bytes} (h : encodeFrame packet = .ok frame) :
    ∃ count packetType body, encodePacket packet = .ok (count, packetType, body) ∧ count ≤ 31 ∧
      (align body).length / 4 ≤ 65535 ∧ frame = [0x80 ||| count, packetType] ++
        Bytes.ofU16 (.ofNat ((align body).length / 4)) ++ align body := by
  rw [encodeFrame, bind_eq_ok] at h
  obtain ⟨⟨count, packetType, body⟩, hpacket, h⟩ := h
  have hwords : ((align body).length + headerLen) / 4 - 1 = (align body).length / 4 := by
    unfold headerLen
    omega
  dsimp only at h
  rw [hwords, ite_error_eq_ok, ite_error_eq_ok, pure_eq_ok] at h
  obtain ⟨hfit, hcount, rfl⟩ := h
  exact ⟨count, packetType, body, hpacket, UInt8.not_lt.mp hcount, by omega, rfl⟩

/-- The parser cuts off the first frame and goes on behind it. -/
theorem parsePackets_frame {packet : Packet} {frame : Bytes} (h : encodeFrame packet = .ok frame)
    (fuel : ℕ) (tail : Bytes) (packets : List Packet) :
    parsePackets (fuel + 1) (frame ++ tail) = .ok (packet :: packets) ↔
      packet.representable = true ∧ parsePackets fuel tail = .ok packets := by
  obtain ⟨count, packetType, body, hpacket, hcount, hwords, rfl⟩ := encodeFrame_eq_ok h
  obtain ⟨hversion, hpadding, hcountBits⟩ := first_byte hcount
  have hmod : (align body).length % 4 = 0 := by
    rw [length_align]
    exact pad4_mod _
  have hlength : ((Bytes.toU16 (UInt16.ofNat ((align body).length / 4) >>> 8).toUInt8
      (UInt16.ofNat ((align body).length / 4)).toUInt8).toNat + 1) * 4 =
        (align body).length + 4 := by
    rw [Bytes.toU16_ofU16, UInt16.toNat_ofNat']
    omega
  have hparse : parsePackets (fuel + 1) ([0x80 ||| count, packetType] ++
      Bytes.ofU16 (.ofNat ((align body).length / 4)) ++ align body ++ tail) = (do
        let packet ← parsePacket count packetType (align body)
        let packets ← parsePackets fuel tail
        return packet :: packets) := by
    generalize UInt16.ofNat ((align body).length / 4) = words at hlength
    have hbytes : [0x80 ||| count, packetType] ++ Bytes.ofU16 words ++ align body ++ tail =
        (0x80 ||| count) :: packetType :: (words >>> 8).toUInt8 :: words.toUInt8 ::
          (align body ++ tail) := by
      simp [Bytes.ofU16]
    rw [hbytes, parsePackets]
    simp only [List.isEmpty_cons, Bool.false_eq_true, if_false]
    rw [if_neg (not_not.mpr hversion), hlength, if_neg (by simp), hpadding, hcountBits]
    simp only [List.take_succ_cons, List.drop_succ_cons, List.drop_zero, List.take_left,
      List.drop_left]
    rfl
  rw [hparse, bind_eq_ok]
  constructor
  · rintro ⟨first, hfirst, hrest⟩
    rw [bind_eq_ok] at hrest
    obtain ⟨others, hothers, hrest⟩ := hrest
    rw [pure_eq_ok, List.cons.injEq] at hrest
    obtain ⟨rfl, rfl⟩ := hrest
    exact ⟨(parsePacket_encode_iff hpacket).mp hfirst, hothers⟩
  · rintro ⟨hrepresentable, hothers⟩
    refine ⟨packet, (parsePacket_encode_iff hpacket).mpr hrepresentable, ?_⟩
    rw [hothers]
    rfl

/-! ## Compound datagrams -/

/-- What the encoder appends is read back exactly if every packet is representable. -/
theorem parsePackets_encodePackets {packets : List Packet} {output bytes : Bytes}
    (h : encodePackets output packets = .ok bytes) :
    ∃ tail, bytes = output ++ tail ∧ packets.length ≤ tail.length ∧
      ∀ fuel, packets.length ≤ fuel →
        (parsePackets fuel tail = .ok packets ↔
          ∀ packet ∈ packets, packet.representable = true) := by
  induction packets generalizing output with
  | nil =>
    cases h
    refine ⟨[], (List.append_nil _).symm, le_rfl, fun fuel _ => ?_⟩
    have hnil : parsePackets fuel [] = .ok [] := by cases fuel <;> rfl
    simp [hnil]
  | cons packet packets ih =>
    rw [encodePackets, bind_eq_ok] at h
    obtain ⟨frame, hframe, h⟩ := h
    dsimp only at h
    rw [ite_error_eq_ok] at h
    obtain ⟨tail, rfl, hlen, hparse⟩ := ih h.2
    have hframeLen : 4 ≤ frame.length := by
      obtain ⟨count, packetType, body, -, -, -, rfl⟩ := encodeFrame_eq_ok hframe
      simp
    refine ⟨frame ++ tail, List.append_assoc _ _ _, ?_, fun fuel hfuel => ?_⟩
    · rw [List.length_cons, List.length_append]
      omega
    · rw [List.length_cons] at hfuel
      obtain ⟨fuel, rfl⟩ := Nat.exists_eq_add_one_of_ne_zero (show fuel ≠ 0 by omega)
      rw [parsePackets_frame hframe, hparse fuel (by omega), List.forall_mem_cons]

/-- For every list of packets that `encodeCompound` accepts, apart from the empty one, the datagram
parses to the same list exactly if no SDES item has the type of the END marker and every raw packet
has a type without a parser of its own and a body of whole words. -/
theorem parseCompound_encodeCompound_iff {packets : List Packet} {bytes : Bytes}
    (hne : packets ≠ []) (h : encodeCompound packets = .ok bytes) :
    parseCompound bytes = .ok packets ↔ ∀ packet ∈ packets, packet.representable = true := by
  obtain ⟨_, rfl, hlen, hparse⟩ := parsePackets_encodePackets h
  rw [← hparse _ hlen, parseCompound]
  constructor
  · intro hcompound
    rw [bind_eq_ok] at hcompound
    obtain ⟨parsed, hparsed, hcompound⟩ := hcompound
    rw [ite_error_eq_ok, pure_eq_ok] at hcompound
    rw [hparsed, hcompound.2]
  · intro hpackets
    rw [hpackets, bind_ok, if_neg (by simpa using hne)]
    rfl

namespace Sample

/-- A NACK, a source description and a BYE. -/
def packets : List Packet :=
  [.genericNack ⟨2, 1, [⟨100, 5⟩]⟩, .sourceDescription ⟨[⟨1, [⟨1, [102, 108, 117]⟩]⟩]⟩,
    .raw ⟨1, 203, [0, 0, 0, 1]⟩]

/-- A BYE that had a byte of padding. -/
def unaligned : List Packet := [.raw ⟨1, 203, [0, 0, 1]⟩]

end Sample

/-- The sample is encoded, and read back by the theorem. -/
theorem sample_parseCompound_encodeCompound_iff :
    (encodeCompound Sample.packets).toOption.map List.length = some 40 ∧
      ∀ bytes, encodeCompound Sample.packets = .ok bytes →
        parseCompound bytes = .ok Sample.packets := by
  refine ⟨by decide, fun bytes h => ?_⟩
  exact (parseCompound_encodeCompound_iff (by decide) h).mpr (by decide)

/-- A raw packet with a body of three bytes comes back with four. -/
theorem unaligned_raw_not_read_back :
    ((encodeCompound Sample.unaligned).toOption.bind fun bytes => (parseCompound bytes).toOption) =
        some [.raw ⟨1, 203, [0, 0, 1, 0]⟩] ∧
      ¬∀ bytes, encodeCompound Sample.unaligned = .ok bytes →
        parseCompound bytes = .ok Sample.unaligned := by
  have hbytes : encodeCompound Sample.unaligned = .ok [0x81, 203, 0, 1, 0, 0, 1, 0] := rfl
  refine ⟨by decide, fun hall => ?_⟩
  have hparse := hall _ hbytes
  have hother : parseCompound [0x81, 203, 0, 1, 0, 0, 1, 0] =
      .ok [.raw ⟨1, 203, [0, 0, 1, 0]⟩] := rfl
  rw [hother] at hparse
  revert hparse
  simp [Sample.unaligned]

end Fluvora.Rtcp
