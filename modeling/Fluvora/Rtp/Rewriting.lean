import Fluvora.Rtp.Header

/-!
# Rewriting RTP packets

What the two rewrites of the SFU do to a packet.  `Rewrite.apply` replaces the fixed header and
leaves the first byte and everything behind the header alone (`apply_eq`), and a packet with another
fixed header parses to the same contents (`parse_of_body`).  `rewriteHeaderExtensions` keeps the
fixed header, and whether it succeeds does not depend on it.
-/

namespace Fluvora.Rtp

open Results

/-- A packet from its first two bytes, the other fields of its fixed header and what follows it. -/
def headed (first second : UInt8) (sequenceNumber : UInt16) (timestamp ssrc : UInt32)
    (body : Bytes) : Bytes :=
  [first, second] ++ Bytes.ofU16 sequenceNumber ++ Bytes.ofU32 timestamp ++ Bytes.ofU32 ssrc ++ body

/-- The fixed header fields of a packet on the wire. -/
structure Carries (packet : Bytes) (payloadType : UInt8) (sequenceNumber : UInt16)
    (timestamp ssrc : UInt32) : Prop where
  payloadType : packet.getD 1 0 &&& 0x7f = payloadType
  sequenceNumber : packet.u16At 2 = some sequenceNumber
  timestamp : packet.u32At 4 = some timestamp
  ssrc : packet.u32At 8 = some ssrc

theorem carries_headed {first second payloadType : UInt8} {sequenceNumber : UInt16}
    {timestamp ssrc : UInt32} {body : Bytes} (h : second &&& 0x7f = payloadType) :
    Carries (headed first second sequenceNumber timestamp ssrc body) payloadType sequenceNumber
      timestamp ssrc where
  payloadType := h
  sequenceNumber := Bytes.u16At_of_drop
    (show _ = Bytes.ofU16 sequenceNumber ++ (Bytes.ofU32 timestamp ++ (Bytes.ofU32 ssrc ++ body))
      from rfl)
  timestamp := Bytes.u32At_of_drop
    (show _ = Bytes.ofU32 timestamp ++ (Bytes.ofU32 ssrc ++ body) from rfl)
  ssrc := Bytes.u32At_of_drop (show _ = Bytes.ofU32 ssrc ++ body from rfl)

theorem exists_headed {input : Bytes} (h : fixedHeaderLen ≤ input.length) :
    ∃ b2 b3 b4 b5 b6 b7 b8 b9 b10 b11, input = [input.getD 0 0, input.getD 1 0, b2, b3, b4, b5, b6,
      b7, b8, b9, b10, b11] ++ input.drop fixedHeaderLen := by
  unfold fixedHeaderLen at h
  match input, h with
  | b0 :: b1 :: b2 :: b3 :: b4 :: b5 :: b6 :: b7 :: b8 :: b9 :: b10 :: b11 :: rest, _ =>
    exact ⟨b2, b3, b4, b5, b6, b7, b8, b9, b10, b11, rfl⟩

theorem Rewrite.apply_eq {input : Bytes} {parsed : Packet} (hparse : Packet.parse input = .ok parsed)
    {payloadType : UInt8} (hsafe : payloadType ≤ 127) (sequenceNumber : UInt16)
    (timestamp ssrc : UInt32) :
    (⟨none, some payloadType, some sequenceNumber, some timestamp, some ssrc⟩ : Rewrite).apply input =
      .ok (headed (input.getD 0 0) (input.getD 1 0 &&& 0x80 ||| payloadType) sequenceNumber timestamp
        ssrc (input.drop fixedHeaderLen)) := by
  have hheader := Packet.headerOf_parse hparse
  have hlen : fixedHeaderLen ≤ input.length := hheader.fixed.trans hheader.inside
  have hfilter : Option.filter (fun payloadType => decide (127 < payloadType)) (some payloadType) =
      none := by
    simpa [Option.filter] using hsafe
  rw [Rewrite.apply, hparse, bind_ok]
  dsimp only
  rw [hfilter]
  obtain ⟨b2, b3, b4, b5, b6, b7, b8, b9, b10, b11, hinput⟩ := exists_headed hlen
  generalize input.getD 0 0 = b0 at hinput ⊢
  generalize input.getD 1 0 = b1 at hinput ⊢
  generalize input.drop fixedHeaderLen = body at hinput ⊢
  subst hinput
  rfl

/-! ## Another fixed header -/

/-- Seven bits are a payload type. -/
theorem and_le_127 (byte : UInt8) : byte &&& 0x7f ≤ 127 := by
  rw [UInt8.le_iff_toNat_le, UInt8.toNat_and]
  exact Nat.and_le_right

/-- The end of the extension block lies behind the position at which it starts. -/
theorem le_stop_of_parseOptionalExtension {input : Bytes} {hasExtension : Bool} {position : ℕ}
    {block : ExtensionBlock} (h : parseOptionalExtension input hasExtension position = .ok block) :
    position ≤ block.stop := by
  unfold parseOptionalExtension at h
  split_ifs at h
  · obtain ⟨words, -, hstop, -⟩ := parseExtensionBlock_stop h
    omega
  · cases h
    exact le_rfl

section Body

variable {input other : Bytes} (hlen : other.length = input.length)
  (hbody : other.drop fixedHeaderLen = input.drop fixedHeaderLen)
include hbody

theorem drop_eq_of_body {position : ℕ} (h : fixedHeaderLen ≤ position) :
    other.drop position = input.drop position := by
  obtain ⟨n, rfl⟩ := Nat.exists_eq_add_of_le h
  rw [← List.drop_drop, ← List.drop_drop, hbody]

theorem readU16_eq_of_body {position : ℕ} (h : fixedHeaderLen ≤ position) :
    readU16 other position = readU16 input position := by
  rw [readU16, readU16, Bytes.u16At, Bytes.u16At, drop_eq_of_body hbody h]

theorem readCsrcs_eq_of_body {position : ℕ} (h : fixedHeaderLen ≤ position) (count : ℕ) :
    readCsrcs other position count = readCsrcs input position count := by
  induction count generalizing position with
  | zero => rfl
  | succ count ih =>
    rw [readCsrcs, readCsrcs, readU32, readU32, Bytes.u32At, Bytes.u32At, drop_eq_of_body hbody h,
      ih (by omega)]

include hlen

theorem parseOptionalExtension_eq_of_body (hasExtension : Bool) {position : ℕ}
    (h : fixedHeaderLen ≤ position) :
    parseOptionalExtension other hasExtension position =
      parseOptionalExtension input hasExtension position := by
  rw [parseOptionalExtension, parseOptionalExtension, parseExtensionBlock, parseExtensionBlock,
    readU16_eq_of_body hbody h, readU16_eq_of_body hbody (h.trans (Nat.le_add_right _ _)), hlen]
  dsimp only
  rw [drop_eq_of_body hbody (h.trans (Nat.le_add_right _ _))]

/-- A packet with another fixed header, but the same first byte and the same bytes behind the
header, parses to the same contents. -/
theorem Packet.parse_of_body {parsed : Packet} (hfirst : other.getD 0 0 = input.getD 0 0)
    (h : Packet.parse input = .ok parsed) :
    ∃ header, Packet.parse other = .ok { parsed with header } ∧
      header.csrcs = parsed.header.csrcs ∧ header.payloadType ≤ 127 := by
  rw [Packet.parse, ite_error_eq_ok] at h
  obtain ⟨hlong, h⟩ := h
  dsimp only at h
  rw [ite_error_eq_ok, bind_eq_ok] at h
  obtain ⟨hversion, csrcs, hcsrcs, h⟩ := h
  rw [bind_eq_ok] at h
  obtain ⟨block, hblock, h⟩ := h
  rw [bind_eq_ok] at h
  obtain ⟨paddingLen, hpadding, h⟩ := h
  rw [bind_eq_ok] at h
  obtain ⟨sequenceNumber, hsequence, h⟩ := h
  rw [bind_eq_ok] at h
  obtain ⟨timestamp, htimestamp, h⟩ := h
  rw [bind_eq_ok] at h
  obtain ⟨ssrc, hssrc, h⟩ := h
  rw [pure_eq_ok] at h
  have hstop : fixedHeaderLen ≤ block.stop :=
    (Nat.le_add_right _ _).trans (le_stop_of_parseOptionalExtension hblock)
  have hroom : 12 ≤ other.length := by
    unfold fixedHeaderLen at hlong
    omega
  obtain ⟨sequenceNumber', hsequence'⟩ := Bytes.exists_u16At other 2 (by omega)
  obtain ⟨timestamp', htimestamp'⟩ := Bytes.exists_u32At other 4 (by omega)
  obtain ⟨ssrc', hssrc'⟩ := Bytes.exists_u32At other 8 (by omega)
  refine ⟨⟨other.getD 1 0 &&& 0x80 != 0, other.getD 1 0 &&& 0x7f, sequenceNumber', timestamp', ssrc',
    csrcs⟩, ?_, ?_, and_le_127 _⟩
  · subst h
    rw [Packet.parse, hlen, if_neg hlong]
    dsimp only
    rw [hfirst, if_neg hversion, readCsrcs_eq_of_body hbody le_rfl, hcsrcs, bind_ok,
      parseOptionalExtension_eq_of_body hlen hbody _ (Nat.le_add_right _ _), hblock, bind_ok,
      drop_eq_of_body hbody hstop, hpadding, bind_ok, readU16_eq_ok.mpr hsequence', bind_ok,
      readU32_eq_ok.mpr htimestamp', bind_ok, readU32_eq_ok.mpr hssrc', bind_ok]
    rfl
  · subst h
    rfl

end Body

/-- The parsed header is the one on the wire. -/
theorem Packet.carries_parse {input : Bytes} {parsed : Packet}
    (h : Packet.parse input = .ok parsed) :
    Carries input parsed.header.payloadType parsed.header.sequenceNumber parsed.header.timestamp
      parsed.header.ssrc := by
  rw [Packet.parse, ite_error_eq_ok] at h
  obtain ⟨-, h⟩ := h
  dsimp only at h
  rw [ite_error_eq_ok, bind_eq_ok] at h
  obtain ⟨-, csrcs, -, h⟩ := h
  rw [bind_eq_ok] at h
  obtain ⟨block, -, h⟩ := h
  rw [bind_eq_ok] at h
  obtain ⟨paddingLen, -, h⟩ := h
  rw [bind_eq_ok] at h
  obtain ⟨sequenceNumber, hsequence, h⟩ := h
  rw [bind_eq_ok] at h
  obtain ⟨timestamp, htimestamp, h⟩ := h
  rw [bind_eq_ok] at h
  obtain ⟨ssrc, hssrc, h⟩ := h
  rw [pure_eq_ok] at h
  subst h
  exact ⟨rfl, readU16_eq_ok.mp hsequence, readU32_eq_ok.mp htimestamp, readU32_eq_ok.mp hssrc⟩

theorem Carries.unique {packet : Bytes} {payloadType payloadType' : UInt8}
    {sequenceNumber sequenceNumber' : UInt16} {timestamp timestamp' ssrc ssrc' : UInt32}
    (h : Carries packet payloadType sequenceNumber timestamp ssrc)
    (h' : Carries packet payloadType' sequenceNumber' timestamp' ssrc') :
    payloadType = payloadType' ∧ sequenceNumber = sequenceNumber' ∧ timestamp = timestamp' ∧
      ssrc = ssrc' := by
  refine ⟨h.payloadType.symm.trans h'.payloadType, ?_, ?_, ?_⟩
  · exact Option.some.inj (h.sequenceNumber.symm.trans h'.sequenceNumber)
  · exact Option.some.inj (h.timestamp.symm.trans h'.timestamp)
  · exact Option.some.inj (h.ssrc.symm.trans h'.ssrc)

/-! ## Building -/

/-- The extension block and the length that a builder comes to. -/
theorem PacketBuilder.build_eq_ok {builder : PacketBuilder} {out : Bytes} :
    builder.build = .ok out ↔
      validateBuilder builder = .ok () ∧ ∃ block,
        buildExtensionBlock builder.extensionFormat builder.extensions = .ok block ∧
        ¬maxPacketLen < fixedHeaderLen + builder.header.csrcs.length * 4 + block.length +
          builder.payload.length + builder.paddingLen ∧
        encodeFixedHeader builder.header builder.extensionFormat.isSome builder.paddingLen ++
          builder.header.csrcs.flatMap Bytes.ofU32 ++ block ++ builder.payload ++
          encodePadding builder.paddingLen = out := by
  rw [PacketBuilder.build, bind_eq_ok]
  constructor
  · rintro ⟨⟨⟩, hvalid, h⟩
    rw [bind_eq_ok] at h
    obtain ⟨block, hblock, h⟩ := h
    rw [ite_error_eq_ok, pure_eq_ok] at h
    exact ⟨hvalid, block, hblock, h⟩
  · rintro ⟨hvalid, block, hblock, h⟩
    refine ⟨(), hvalid, ?_⟩
    rw [hblock, bind_ok, ite_error_eq_ok, pure_eq_ok]
    exact h

theorem validateBuilder_eq_ok {builder : PacketBuilder} :
    validateBuilder builder = .ok () ↔ builder.header.payloadType ≤ 127 ∧
      builder.header.csrcs.length ≤ 15 ∧ builder.paddingLen ≤ 255 := by
  rw [validateBuilder, ite_error_eq_ok, ite_error_eq_ok, ite_error_eq_ok]
  simp

/-- Whether a packet can be built does not depend on its fixed header. -/
theorem PacketBuilder.exists_build_iff {builder : PacketBuilder} {header : Header}
    (hcsrcs : header.csrcs = builder.header.csrcs) (hsafe : header.payloadType ≤ 127)
    (hsafe' : builder.header.payloadType ≤ 127) :
    (∃ out, ({ builder with header } : PacketBuilder).build = .ok out) ↔
      ∃ out, builder.build = .ok out := by
  simp only [PacketBuilder.build_eq_ok, validateBuilder_eq_ok, hcsrcs, hsafe, hsafe']
  constructor
  · rintro ⟨out, hvalid, block, hblock, hlen, -⟩
    exact ⟨_, hvalid, block, hblock, hlen, rfl⟩
  · rintro ⟨out, hvalid, block, hblock, hlen, -⟩
    exact ⟨_, hvalid, block, hblock, hlen, rfl⟩

/-- The marker bit is above the payload type. -/
theorem marker_or_and {marker payloadType : UInt8} (hmarker : marker.toNat % 2 ^ 7 = 0)
    (h : payloadType ≤ 127) : (marker ||| payloadType) &&& 0x7f = payloadType := by
  rw [UInt8.le_iff_toNat_le] at h
  apply UInt8.toNat_inj.mp
  have hpayload : payloadType.toNat < 2 ^ 7 := Nat.lt_succ_of_le h
  rw [UInt8.toNat_and, UInt8.toNat_or, show (0x7f : UInt8).toNat = 2 ^ 7 - 1 from rfl,
    Nat.and_two_pow_sub_one_eq_mod, Nat.or_mod_two_pow, hmarker, Nat.zero_or,
    Nat.mod_eq_of_lt hpayload]

/-- The marker bit of a byte. -/
theorem toNat_and_128_mod (byte : UInt8) : (byte &&& 0x80).toNat % 2 ^ 7 = 0 := by
  rw [UInt8.toNat_and, Nat.and_mod_two_pow]
  exact Nat.and_zero _

/-- The rewrite of the header extensions keeps the fixed header. -/
theorem rewriteHeaderExtensions_carries {packet out : Bytes} {rewrites : List ExtensionRewrite}
    {payloadType : UInt8} {sequenceNumber : UInt16} {timestamp ssrc : UInt32}
    (h : rewriteHeaderExtensions packet rewrites = .ok out)
    (hcarries : Carries packet payloadType sequenceNumber timestamp ssrc) :
    Carries out payloadType sequenceNumber timestamp ssrc := by
  unfold rewriteHeaderExtensions at h
  split_ifs at h
  · rw [pure_eq_ok] at h
    exact h ▸ hcarries
  rw [bind_eq_ok] at h
  obtain ⟨parsed, hparse, h⟩ := h
  obtain ⟨rfl, rfl, rfl, rfl⟩ := hcarries.unique (Packet.carries_parse hparse)
  have hbuilt : ∀ format, PacketBuilder.build ⟨parsed.header, parsed.payload, some format,
      parsed.extensions.filterMap (rewriteExtension rewrites), parsed.paddingLen⟩ = .ok out →
      Carries out parsed.header.payloadType parsed.header.sequenceNumber parsed.header.timestamp
        parsed.header.ssrc := by
    intro format hbuild
    obtain ⟨hvalid, block, -, -, rfl⟩ := PacketBuilder.build_eq_ok.mp hbuild
    have hsafe := (validateBuilder_eq_ok.mp hvalid).1
    have hmarker : (parsed.header.marker.toUInt8 <<< 7).toNat % 2 ^ 7 = 0 := by
      cases parsed.header.marker <;> decide
    rw [List.append_assoc, List.append_assoc, List.append_assoc]
    exact carries_headed (marker_or_and hmarker hsafe)
  split at h
  · cases h
  · cases h
  · exact hbuilt _ h

/-- Whether the header extensions can be rewritten does not depend on the fixed header. -/
theorem exists_rewriteHeaderExtensions_iff {input other : Bytes} {parsed : Packet}
    (hparse : Packet.parse input = .ok parsed) (hlen : other.length = input.length)
    (hfirst : other.getD 0 0 = input.getD 0 0)
    (hbody : other.drop fixedHeaderLen = input.drop fixedHeaderLen)
    (rewrites : List ExtensionRewrite) :
    (∃ out, rewriteHeaderExtensions other rewrites = .ok out) ↔
      ∃ out, rewriteHeaderExtensions input rewrites = .ok out := by
  obtain ⟨header, hother, hcsrcs, hsafe⟩ := Packet.parse_of_body hlen hbody hfirst hparse
  have hsafe' : parsed.header.payloadType ≤ 127 :=
    (Packet.carries_parse hparse).payloadType ▸ and_le_127 _
  unfold rewriteHeaderExtensions
  split_ifs
  · exact ⟨fun _ => ⟨_, rfl⟩, fun _ => ⟨_, rfl⟩⟩
  rw [hparse, hother, bind_ok, bind_ok]
  dsimp only
  have hbuild : ∀ format,
      (∃ out, PacketBuilder.build ⟨header, parsed.payload, some format,
        parsed.extensions.filterMap (rewriteExtension rewrites), parsed.paddingLen⟩ = .ok out) ↔
      ∃ out, PacketBuilder.build ⟨parsed.header, parsed.payload, some format,
        parsed.extensions.filterMap (rewriteExtension rewrites), parsed.paddingLen⟩ = .ok out :=
    fun format => @PacketBuilder.exists_build_iff ⟨parsed.header, parsed.payload, some format,
      parsed.extensions.filterMap (rewriteExtension rewrites), parsed.paddingLen⟩ header hcsrcs
      hsafe hsafe'
  split
  · simp
  · simp
  · exact hbuild _

end Fluvora.Rtp
