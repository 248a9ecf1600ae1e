import Fluvora.Rtp.Rewriting

/-!
# Round trips of RTP packets

A packet that a builder has encoded parses to the fields of the builder (`parse_build`).  The parts
are read back one after the other, each behind a known front of the datagram: the fixed header, the
CSRCs, the extension block with its zero padding, the payload and the RTP padding.  Both header
walkers agree on every datagram that parses.
-/

namespace Fluvora.Rtp

open Results

/-! ## Builders -/

/-- A packet with no CSRCs, extensions, marker or padding. -/
def PacketBuilder.new (payloadType : UInt8) (sequenceNumber : UInt16) (timestamp ssrc : UInt32)
    (payload : Bytes) : PacketBuilder where
  header := ⟨false, payloadType, sequenceNumber, timestamp, ssrc, []⟩
  payload := payload
  extensionFormat := none
  extensions := []
  paddingLen := 0

/-- The calls that set the optional fields of a builder. -/
inductive BuilderCall
  | marker (marker : Bool)
  | csrcs (csrcs : List UInt32)
  | extensions (format : ExtensionFormat) (extensions : List HeaderExtension)
  | padding (paddingLen : ℕ)

def PacketBuilder.call (builder : PacketBuilder) : BuilderCall → PacketBuilder
  | .marker marker => { builder with header.marker := marker }
  | .csrcs csrcs => { builder with header.csrcs := csrcs }
  | .extensions format extensions => { builder with extensionFormat := some format, extensions }
  | .padding paddingLen => { builder with paddingLen }

/-- The elements of a builder have a format. -/
def PacketBuilder.Formatted (builder : PacketBuilder) : Prop :=
  builder.extensionFormat = none → builder.extensions = []

theorem PacketBuilder.formatted_call {builder : PacketBuilder} (h : builder.Formatted)
    (call : BuilderCall) : (builder.call call).Formatted := by
  cases call with
  | marker => exact h
  | csrcs => exact h
  | extensions => intro hnone; cases hnone
  | padding => exact h

theorem PacketBuilder.formatted_foldl {builder : PacketBuilder} (h : builder.Formatted)
    (calls : List BuilderCall) : (calls.foldl PacketBuilder.call builder).Formatted := by
  induction calls generalizing builder with
  | nil => exact h
  | cons call calls ih => exact ih (formatted_call h call)

/-! ## Bytes of the header -/

/-- The fields of the first byte. -/
theorem first_byte (hasPadding hasExtension : Bool) {count : ℕ} (h : count ≤ 15) :
    let first := (2 : UInt8) <<< 6 ||| hasPadding.toUInt8 <<< 5 ||| hasExtension.toUInt8 <<< 4 |||
      .ofNat count
    first >>> 6 = 2 ∧ (first &&& 0x0f).toNat = count ∧ (first &&& 0x10 ≠ 0 ↔ hasExtension = true) ∧
      (first &&& 0x20 ≠ 0 ↔ hasPadding = true) := by
  have hall : ∀ (hasPadding hasExtension : Bool) (count : Fin 16),
      let first := (2 : UInt8) <<< 6 ||| hasPadding.toUInt8 <<< 5 |||
        hasExtension.toUInt8 <<< 4 ||| .ofNat count.val
      first >>> 6 = 2 ∧ (first &&& 0x0f).toNat = count.val ∧
        (first &&& 0x10 ≠ 0 ↔ hasExtension = true) ∧ (first &&& 0x20 ≠ 0 ↔ hasPadding = true) := by
    decide
  exact hall hasPadding hasExtension ⟨count, Nat.lt_succ_of_le h⟩

/-- The marker of the second byte. -/
theorem second_byte_marker (marker : Bool) {payloadType : UInt8} (h : payloadType ≤ 127) :
    ((marker.toUInt8 <<< 7 ||| payloadType) &&& 0x80 != 0) = marker := by
  have hall : ∀ (marker : Bool) (payloadType : Fin 128),
      ((marker.toUInt8 <<< 7 ||| .ofNat payloadType.val) &&& 0x80 != (0 : UInt8)) = marker := by
    decide
  rw [UInt8.le_iff_toNat_le] at h
  have hmarker := hall marker ⟨payloadType.toNat, Nat.lt_succ_of_le h⟩
  rwa [UInt8.ofNat_toNat] at hmarker

theorem second_byte_payloadType (marker : Bool) {payloadType : UInt8} (h : payloadType ≤ 127) :
    (marker.toUInt8 <<< 7 ||| payloadType) &&& 0x7f = payloadType := by
  refine marker_or_and ?_ h
  cases marker <;> decide

/-- The header of a one-byte element. -/
theorem element_byte {id : UInt8} {length : ℕ} (hid : 1 ≤ id ∧ id ≤ 14)
    (hlength : 1 ≤ length ∧ length ≤ 16) :
    let header := id <<< 4 ||| .ofNat (length - 1)
    header ≠ 0 ∧ header >>> 4 = id ∧ ((header &&& 0x0f) + 1).toNat = length := by
  have hall : ∀ (id : Fin 15) (length : Fin 16), id ≠ 0 →
      let header := (UInt8.ofNat id.val) <<< 4 ||| .ofNat length.val
      header ≠ 0 ∧ header >>> 4 = .ofNat id.val ∧
        ((header &&& 0x0f) + 1).toNat = length.val + 1 := by
    decide
  rw [UInt8.le_iff_toNat_le, UInt8.le_iff_toNat_le] at hid
  have hne : (⟨id.toNat, Nat.lt_succ_of_le hid.2⟩ : Fin 15) ≠ 0 := by
    intro hzero
    have hval := congrArg Fin.val hzero
    have hone := hid.1
    simp at hval hone
    omega
  have hbyte := hall ⟨id.toNat, Nat.lt_succ_of_le hid.2⟩ ⟨length - 1, by omega⟩ hne
  rw [UInt8.ofNat_toNat, Nat.sub_add_cancel hlength.1] at hbyte
  exact hbyte

/-! ## Extension blocks -/

/-- Padding holds no elements. -/
theorem parseOneByte_zeros (fuel k : ℕ) : parseOneByte fuel (List.replicate k 0) = .ok [] := by
  induction fuel generalizing k with
  | zero => rfl
  | succ fuel ih =>
    cases k with
    | zero => rfl
    | succ k => exact ih k

theorem parseTwoByte_zeros (fuel k : ℕ) : parseTwoByte fuel (List.replicate k 0) = .ok [] := by
  induction fuel generalizing k with
  | zero => rfl
  | succ fuel ih =>
    cases k with
    | zero => rfl
    | succ k => exact ih k

theorem parseOneByte_encode {extensions : List HeaderExtension} {data : Bytes} {fuel : ℕ}
    (h : encodeOneByte extensions = .ok data) (hfuel : data.length ≤ fuel) (k : ℕ) :
    parseOneByte fuel (data ++ List.replicate k 0) = .ok extensions := by
  induction extensions generalizing data fuel with
  | nil =>
    cases h
    exact parseOneByte_zeros fuel k
  | cons extension rest ih =>
    rw [encodeOneByte, ite_error_eq_ok, ite_error_eq_ok, bind_eq_ok] at h
    obtain ⟨hid, hlength, others, hothers, h⟩ := h
    rw [not_not] at hid hlength
    rw [pure_eq_ok] at h
    subst h
    obtain ⟨hnonzero, hidentifier, hlen⟩ := element_byte hid hlength
    have hfifteen : ¬extension.id = 15 := by
      rintro heq
      rw [heq] at hid
      exact absurd hid.2 (by decide)
    obtain ⟨fuel, rfl⟩ : ∃ n, fuel = n + 1 := by
      exact ⟨fuel - 1, by simp at hfuel; omega⟩
    rw [List.length_cons, List.length_append] at hfuel
    rw [List.cons_append, parseOneByte, if_neg hnonzero, hidentifier, if_neg hfifteen]
    dsimp only
    rw [hlen, if_neg (by simp), List.append_assoc, List.drop_left, List.take_left,
      ih hothers (by omega), bind_ok]
    rfl

theorem parseTwoByte_encode {extensions : List HeaderExtension} {data : Bytes} {fuel : ℕ}
    (h : encodeTwoByte extensions = .ok data) (hfuel : data.length ≤ fuel) (k : ℕ) :
    parseTwoByte fuel (data ++ List.replicate k 0) = .ok extensions := by
  induction extensions generalizing data fuel with
  | nil =>
    cases h
    exact parseTwoByte_zeros fuel k
  | cons extension rest ih =>
    rw [encodeTwoByte, ite_error_eq_ok, ite_error_eq_ok, bind_eq_ok] at h
    obtain ⟨hid, hlength, others, hothers, h⟩ := h
    rw [pure_eq_ok] at h
    subst h
    have hlen : (UInt8.ofNat extension.value.length).toNat = extension.value.length := by
      rw [UInt8.toNat_ofNat']
      omega
    obtain ⟨fuel, rfl⟩ : ∃ n, fuel = n + 1 := by
      exact ⟨fuel - 1, by simp at hfuel; omega⟩
    rw [List.length_cons, List.length_cons, List.length_append] at hfuel
    rw [List.cons_append, List.cons_append, parseTwoByte, if_neg hid, hlen,
      if_neg (by simp), List.append_assoc, List.drop_left, List.take_left, ih hothers (by omega),
      bind_ok]
    rfl

/-- The elements of an extension block are read back, under the format that its profile names. -/
theorem parseExtensions_encode {format : ExtensionFormat} {extensions : List HeaderExtension}
    {data : Bytes} (h : encodeExtensions format extensions = .ok data) (k : ℕ) :
    parseExtensions (.fromProfile format.profile) (data ++ List.replicate k 0) = .ok extensions := by
  have hfuel : data.length ≤ (data ++ List.replicate k 0).length := by simp
  cases format with
  | oneByte => exact parseOneByte_encode h hfuel k
  | twoByte => exact parseTwoByte_encode h hfuel k
  | opaqueProfile profile =>
    -- a builder may name a known profile as an opaque one, but only without elements
    rw [encodeExtensions] at h
    split_ifs at h with hempty
    cases h
    rw [List.isEmpty_iff] at hempty
    subst hempty
    rw [List.nil_append, ExtensionFormat.profile, ExtensionFormat.fromProfile]
    split_ifs
    · exact parseOneByte_zeros _ k
    · exact parseTwoByte_zeros _ k
    · rfl

/-! ## The parts behind the fixed header -/

theorem readCsrcs_of_drop {input rest : Bytes} {position : ℕ} {csrcs : List UInt32}
    (h : input.drop position = csrcs.flatMap Bytes.ofU32 ++ rest) :
    readCsrcs input position csrcs.length = .ok csrcs := by
  induction csrcs generalizing position with
  | nil => rfl
  | cons csrc csrcs ih =>
    rw [List.flatMap_cons, List.append_assoc] at h
    have hnext : input.drop (position + 4) = csrcs.flatMap Bytes.ofU32 ++ rest := by
      rw [← List.drop_drop, h]
      rfl
    rw [List.length_cons, readCsrcs, readU32_eq_ok.mpr (Bytes.u32At_of_drop h), bind_ok, ih hnext,
      bind_ok]
    rfl

theorem length_encodeExtensionBlock (format : ExtensionFormat) (data : Bytes) :
    (encodeExtensionBlock format data).length = 4 + Bytes.pad4 data.length := by
  have hpad : data.length ≤ Bytes.pad4 data.length := by
    unfold Bytes.pad4
    omega
  simp only [encodeExtensionBlock, List.length_append, Bytes.length_ofU16, List.length_replicate]
  omega

theorem parseExtensionBlock_of_drop {input rest : Bytes} {position : ℕ} {format : ExtensionFormat}
    {extensions : List HeaderExtension} {data : Bytes}
    (hencode : encodeExtensions format extensions = .ok data)
    (hwords : Bytes.pad4 data.length / 4 ≤ 65535)
    (h : input.drop position = encodeExtensionBlock format data ++ rest) :
    ∃ block, parseExtensionBlock input position = .ok block ∧ block.extensions = extensions ∧
      block.stop = position + (encodeExtensionBlock format data).length := by
  have hpad : Bytes.pad4 data.length = Bytes.pad4 data.length / 4 * 4 ∧
      data.length ≤ Bytes.pad4 data.length := by
    unfold Bytes.pad4
    omega
  have hcount : (UInt16.ofNat (Bytes.pad4 data.length / 4)).toNat = Bytes.pad4 data.length / 4 := by
    rw [UInt16.toNat_ofNat']
    omega
  have hlength := length_encodeExtensionBlock format data
  have hlong : position + (4 + Bytes.pad4 data.length) ≤ input.length := by
    have hdrop := congrArg List.length h
    rw [List.length_drop, List.length_append, hlength] at hdrop
    omega
  rw [encodeExtensionBlock, List.append_assoc, List.append_assoc, List.append_assoc] at h
  have hcountAt : input.drop (position + 2) = Bytes.ofU16 (.ofNat (Bytes.pad4 data.length / 4)) ++
      (data ++ (List.replicate (Bytes.pad4 data.length - data.length) 0 ++ rest)) := by
    rw [← List.drop_drop, h]
    rfl
  have hdataAt : input.drop (position + 4) =
      data ++ List.replicate (Bytes.pad4 data.length - data.length) 0 ++ rest := by
    rw [List.append_assoc, show position + 4 = position + 2 + 2 by omega, ← List.drop_drop,
      hcountAt]
    rfl
  have hdata : (input.drop (position + 4)).take (Bytes.pad4 data.length / 4 * 4) =
      data ++ List.replicate (Bytes.pad4 data.length - data.length) 0 := by
    rw [hdataAt]
    apply List.take_left'
    rw [List.length_append, List.length_replicate]
    omega
  have hparse : parseExtensionBlock input position = .ok ⟨some (.fromProfile format.profile),
      some (data ++ List.replicate (Bytes.pad4 data.length - data.length) 0), extensions,
      position + 4 + Bytes.pad4 data.length / 4 * 4⟩ := by
    rw [parseExtensionBlock, readU16_eq_ok.mpr (Bytes.u16At_of_drop h), bind_ok,
      readU16_eq_ok.mpr (Bytes.u16At_of_drop hcountAt), bind_ok]
    dsimp only
    rw [hcount, if_neg (by omega), hdata, parseExtensions_encode hencode, bind_ok]
    rfl
  refine ⟨_, hparse, rfl, ?_⟩
  show position + 4 + Bytes.pad4 data.length / 4 * 4 = _
  omega

/-- The extension block of a builder is read back behind the CSRCs. -/
theorem parseOptionalExtension_of_drop {input rest block : Bytes} {position : ℕ}
    {format : Option ExtensionFormat} {extensions : List HeaderExtension}
    (hformatted : format = none → extensions = [])
    (hbuild : buildExtensionBlock format extensions = .ok block)
    (h : input.drop position = block ++ rest) :
    ∃ parsed, parseOptionalExtension input format.isSome position = .ok parsed ∧
      parsed.extensions = extensions ∧ parsed.stop = position + block.length := by
  cases format with
  | none =>
    cases hbuild
    exact ⟨_, rfl, (hformatted rfl).symm, rfl⟩
  | some format =>
    rw [buildExtensionBlock, bind_eq_ok] at hbuild
    obtain ⟨data, hencode, hbuild⟩ := hbuild
    rw [ite_error_eq_ok, pure_eq_ok] at hbuild
    obtain ⟨hwords, rfl⟩ := hbuild
    exact parseExtensionBlock_of_drop hencode (not_lt.mp hwords) h

theorem length_encodePadding (paddingLen : ℕ) : (encodePadding paddingLen).length = paddingLen := by
  unfold encodePadding
  split_ifs with h
  · rw [List.length_append, List.length_replicate, List.length_singleton]
    omega
  · rw [List.length_nil]
    omega

theorem parsePadding_encode (payload : Bytes) {paddingLen : ℕ} (h : paddingLen ≤ 255) :
    parsePadding (decide (0 < paddingLen)) (payload ++ encodePadding paddingLen) =
      .ok paddingLen := by
  unfold parsePadding
  by_cases hpadded : 0 < paddingLen
  · have hlast : (payload ++ encodePadding paddingLen).getLast? = some (.ofNat paddingLen) := by
      rw [encodePadding, if_pos hpadded, ← List.append_assoc, List.getLast?_concat]
    have hbyte : (UInt8.ofNat paddingLen).toNat = paddingLen := by
      rw [UInt8.toNat_ofNat']
      omega
    have hfit : ¬(paddingLen = 0 ∨ (payload ++ encodePadding paddingLen).length < paddingLen) := by
      rw [List.length_append, length_encodePadding]
      omega
    simp only [hpadded, decide_true, Bool.not_true, Bool.false_eq_true, if_false, hlast]
    rw [hbyte, if_neg hfit]
  · have hzero : paddingLen = 0 := by omega
    simp [hzero]

/-! ## Whole packets -/

/-- The packet that a builder encodes has the fields of the builder. -/
theorem parse_of_build {builder : PacketBuilder} {out : Bytes} (hformatted : builder.Formatted)
    (h : builder.build = .ok out) :
    ∃ packet, Packet.parse out = .ok packet ∧ packet.header = builder.header ∧
      packet.extensions = builder.extensions ∧ packet.payload = builder.payload ∧
      packet.paddingLen = builder.paddingLen := by
  obtain ⟨hvalid, block, hblock, -, rfl⟩ := PacketBuilder.build_eq_ok.mp h
  obtain ⟨hsafe, hcount, hpadding⟩ := validateBuilder_eq_ok.mp hvalid
  obtain ⟨hversion, hcsrcCount, hextension, hpadded⟩ := first_byte (decide (0 < builder.paddingLen))
    builder.extensionFormat.isSome hcount
  generalize hfirst : (2 : UInt8) <<< 6 ||| (decide (0 < builder.paddingLen)).toUInt8 <<< 5 |||
    builder.extensionFormat.isSome.toUInt8 <<< 4 ||| .ofNat builder.header.csrcs.length = first
    at hversion hcsrcCount hextension hpadded
  have hout : encodeFixedHeader builder.header builder.extensionFormat.isSome builder.paddingLen ++
      builder.header.csrcs.flatMap Bytes.ofU32 ++ block ++ builder.payload ++
      encodePadding builder.paddingLen = headed first
        (builder.header.marker.toUInt8 <<< 7 ||| builder.header.payloadType)
        builder.header.sequenceNumber builder.header.timestamp builder.header.ssrc
        (builder.header.csrcs.flatMap Bytes.ofU32 ++
          (block ++ (builder.payload ++ encodePadding builder.paddingLen))) := by
    rw [← hfirst, List.append_assoc, List.append_assoc, List.append_assoc]
    rfl
  rw [hout]
  generalize hinput : headed first _ _ _ _ _ = input
  have hcarries : Carries input builder.header.payloadType builder.header.sequenceNumber
      builder.header.timestamp builder.header.ssrc := by
    rw [← hinput]
    exact carries_headed (second_byte_payloadType _ hsafe)
  have hlong : ¬input.length < fixedHeaderLen := by
    rw [← hinput]
    simp [headed, fixedHeaderLen]
    omega
  have hfirstAt : input.getD 0 0 = first := by
    rw [← hinput]
    rfl
  have hmarker : (input.getD 1 0 &&& 0x80 != 0) = builder.header.marker := by
    rw [← hinput]
    exact second_byte_marker _ hsafe
  have hcsrcs : input.drop fixedHeaderLen = builder.header.csrcs.flatMap Bytes.ofU32 ++
      (block ++ (builder.payload ++ encodePadding builder.paddingLen)) := by
    rw [← hinput]
    rfl
  have hcsrcsLen : (builder.header.csrcs.flatMap Bytes.ofU32).length =
      builder.header.csrcs.length * 4 := by
    simp [List.length_flatMap]
  have hblockAt : input.drop (fixedHeaderLen + builder.header.csrcs.length * 4) =
      block ++ (builder.payload ++ encodePadding builder.paddingLen) := by
    rw [← List.drop_drop, hcsrcs]
    exact List.drop_left' hcsrcsLen
  obtain ⟨parsed, hparsed, hextensions, hstop⟩ :=
    parseOptionalExtension_of_drop hformatted hblock hblockAt
  have hpayloadAt : input.drop parsed.stop =
      builder.payload ++ encodePadding builder.paddingLen := by
    rw [hstop, ← List.drop_drop, hblockAt]
    exact List.drop_left
  have hextensionBit : decide (first &&& 0x10 ≠ 0) = builder.extensionFormat.isSome := by
    rw [Bool.eq_iff_iff, decide_eq_true_eq]
    exact hextension
  have hpaddingBit : decide (first &&& 0x20 ≠ 0) = decide (0 < builder.paddingLen) := by
    rw [Bool.eq_iff_iff, decide_eq_true_eq]
    exact hpadded
  have hparse : Packet.parse input = .ok ⟨builder.header, parsed.stop, parsed.format, parsed.data,
      parsed.extensions, builder.payload, builder.paddingLen⟩ := by
    rw [Packet.parse, if_neg hlong]
    dsimp only
    rw [hfirstAt, if_neg (not_not.mpr hversion), hcsrcCount, readCsrcs_of_drop hcsrcs, bind_ok,
      hextensionBit, hparsed, bind_ok, hpaddingBit, hpayloadAt, parsePadding_encode _ hpadding, bind_ok,
      readU16_eq_ok.mpr hcarries.sequenceNumber, bind_ok, readU32_eq_ok.mpr hcarries.timestamp,
      bind_ok, readU32_eq_ok.mpr hcarries.ssrc, bind_ok, hmarker, hcarries.payloadType,
      List.length_append, length_encodePadding, Nat.add_sub_cancel, List.take_left]
    rfl
  exact ⟨_, hparse, rfl, hextensions, rfl, rfl⟩

/-- For every builder, made with any calls of its setters, whose `build` succeeds, the packet parses
to the fields of the builder; and on every datagram that parses, both header walkers agree. -/
theorem parse_build (payloadType : UInt8) (sequenceNumber : UInt16) (timestamp ssrc : UInt32)
    (payload : Bytes) (calls : List BuilderCall) :
    let builder := calls.foldl PacketBuilder.call
      (.new payloadType sequenceNumber timestamp ssrc payload)
    (∀ out, builder.build = .ok out → ∃ packet, Packet.parse out = .ok packet ∧
      packet.header = builder.header ∧ packet.extensions = builder.extensions ∧
      packet.payload = builder.payload ∧ packet.paddingLen = builder.paddingLen) ∧
    ∀ input packet, Packet.parse input = .ok packet →
      parseHeaderLength input = .ok packet.headerLen := by
  intro builder
  have hformatted : builder.Formatted := by
    apply PacketBuilder.formatted_foldl
    exact fun _ => rfl
  refine ⟨fun out h => parse_of_build hformatted h, fun input packet h => ?_⟩
  exact (Packet.headerOf_parse h).headerLength

namespace Sample

/-- A builder with a marker, two CSRCs, an empty and a full element, and padding. -/
def calls : List BuilderCall :=
  [.marker true, .csrcs [7, 8], .extensions .twoByte [⟨1, []⟩, ⟨20, [1, 2, 3]⟩], .padding 4]

def builder : PacketBuilder := calls.foldl PacketBuilder.call (.new 96 65535 1 2 [9, 9, 9])

end Sample

/-- The sample builds, and its packet parses back by the theorem. -/
theorem sample_parse_build :
    (Sample.builder.build.toOption.map List.length) = some 39 ∧
      ∀ out, Sample.builder.build = .ok out → ∃ packet, Packet.parse out = .ok packet ∧
        packet.header = ⟨true, 96, 65535, 1, 2, [7, 8]⟩ ∧
        packet.extensions = [⟨1, []⟩, ⟨20, [1, 2, 3]⟩] ∧ packet.payload = [9, 9, 9] ∧
        packet.paddingLen = 4 := by
  refine ⟨by decide, fun out h => ?_⟩
  exact (parse_build 96 65535 1 2 [9, 9, 9] Sample.calls).1 out h

end Fluvora.Rtp
