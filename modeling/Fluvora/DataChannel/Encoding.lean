import Fluvora.DataChannel.Wire
import Fluvora.Lib.Results

/-!
# What is built is read back

`ParsedPacket.parse` reads the packet that `buildPacket` builds, and `parseParameters` the
parameters that `pushParameter` writes one after the other.
-/

namespace Fluvora.DataChannel

open Results

/-! ## Packets -/

theorem u32LeAt_ofU32Le {bytes : Bytes} {offset : ℕ} {n : UInt32} {rest : Bytes}
    (h : bytes.drop offset = Bytes.ofU32Le n ++ rest) : bytes.u32LeAt offset = some n := by
  have hword : Bytes.u32At (Bytes.ofU32 n) 0 = some n :=
    @Bytes.u32At_of_drop _ 0 n [] rfl
  rw [Bytes.u32LeAt, h]
  exact hword

/-- The register after the bytes of a packet from an index on, the checksum field taken as zero. -/
def crcFrom (index : ℕ) (crc : UInt32) (input : Bytes) : UInt32 :=
  (input.zipIdx index).foldl
    (fun crc (supplied, index) => crcByte crc (if 8 ≤ index ∧ index < 12 then 0 else supplied)) crc

theorem crcFrom_append (index : ℕ) (crc : UInt32) (front rest : Bytes) :
    crcFrom index crc (front ++ rest) =
      crcFrom (index + front.length) (crcFrom index crc front) rest := by
  rw [crcFrom, List.zipIdx_append, List.foldl_append]
  rfl

/-- The checksum field itself does not enter the checksum. -/
theorem crcFrom_field {field field' : Bytes} (hlen : field.length = 4) (hlen' : field'.length = 4)
    (crc : UInt32) : crcFrom 8 crc field = crcFrom 8 crc field' := by
  match field, field', hlen, hlen' with
  | [_, _, _, _], [_, _, _, _], _, _ => rfl

theorem checksum_overwrite {front field field' rest : Bytes} (hfront : front.length = 8)
    (hlen : field.length = 4) (hlen' : field'.length = 4) :
    checksum (front ++ field ++ rest) = checksum (front ++ field' ++ rest) := by
  have h : ∀ field : Bytes, field.length = 4 → checksum (front ++ field ++ rest) =
      ~~~(crcFrom 12 (crcFrom 8 (crcFrom 0 0xffffffff front) field) rest) := by
    intro field hlen
    show ~~~(crcFrom 0 0xffffffff (front ++ field ++ rest)) = _
    rw [crcFrom_append, crcFrom_append, List.length_append, hfront, hlen]
  rw [h field hlen, h field' hlen', crcFrom_field hlen hlen']

theorem parseChunks_build {fuel : ℕ} {kind flags : UInt8} {value : Bytes}
    (h : chunkHeaderLen + value.length ≤ 65535) :
    parseChunks (fuel + 1) ([kind, flags] ++ Bytes.ofU16 (.ofNat (chunkHeaderLen + value.length)) ++
      value ++ List.replicate (Bytes.pad4 (chunkHeaderLen + value.length) -
        (chunkHeaderLen + value.length)) 0) = .ok [⟨kind, flags, value⟩] := by
  have hpad : chunkHeaderLen + value.length ≤ Bytes.pad4 (chunkHeaderLen + value.length) := by
    unfold Bytes.pad4
    omega
  generalize hpadding : List.replicate (Bytes.pad4 (chunkHeaderLen + value.length) -
    (chunkHeaderLen + value.length)) (0 : UInt8) = padding
  have hlength : padding.length = Bytes.pad4 (chunkHeaderLen + value.length) -
      (chunkHeaderLen + value.length) := by
    rw [← hpadding, List.length_replicate]
  show parseChunks (fuel + 1) (kind :: flags :: _ :: _ :: (value ++ padding)) = _
  have hsize : (Bytes.toU16 (UInt16.ofNat (chunkHeaderLen + value.length) >>> 8).toUInt8
      (UInt16.ofNat (chunkHeaderLen + value.length)).toUInt8).toNat = chunkHeaderLen + value.length := by
    rw [Bytes.toU16_ofU16, UInt16.toNat_ofNat']
    omega
  unfold parseChunks
  dsimp only
  rw [hsize]
  have htotal : (kind :: flags ::
      (UInt16.ofNat (chunkHeaderLen + value.length) >>> 8).toUInt8 ::
      (UInt16.ofNat (chunkHeaderLen + value.length)).toUInt8 :: (value ++ padding)).length =
      Bytes.pad4 (chunkHeaderLen + value.length) := by
    simp only [List.length_cons, List.length_append, hlength]
    unfold chunkHeaderLen at *
    omega
  rw [htotal, if_neg (by omega), if_neg (by omega), List.drop_eq_nil_of_le (by rw [htotal])]
  have hvalue : ((kind :: flags ::
      (UInt16.ofNat (chunkHeaderLen + value.length) >>> 8).toUInt8 ::
      (UInt16.ofNat (chunkHeaderLen + value.length)).toUInt8 :: (value ++ padding)).take
        (chunkHeaderLen + value.length)).drop 4 = value := by
    rw [List.drop_take]
    simp [chunkHeaderLen]
  rw [hvalue]
  cases fuel <;> rfl

theorem parse_buildPacket {sourcePort destinationPort : UInt16} {verificationTag : UInt32}
    {kind flags : UInt8} {value packet : Bytes}
    (h : buildPacket sourcePort destinationPort verificationTag kind flags value = .ok packet) :
    ParsedPacket.parse packet =
      .ok ⟨sourcePort, destinationPort, verificationTag, [⟨kind, flags, value⟩]⟩ := by
  simp only [buildPacket, ite_error_eq_ok, not_lt, Except.ok.injEq] at h
  obtain ⟨hchunk, htotal, hpacket⟩ := h
  generalize hchunks : [kind, flags] ++ Bytes.ofU16 (.ofNat (chunkHeaderLen + value.length)) ++
    value ++ List.replicate (Bytes.pad4 (chunkHeaderLen + value.length) -
      (chunkHeaderLen + value.length)) 0 = chunks
  have hsize : chunks.length = Bytes.pad4 (chunkHeaderLen + value.length) := by
    rw [← hchunks]
    simp only [List.length_append, List.length_cons, List.length_nil, Bytes.length_ofU16,
      List.length_replicate]
    unfold chunkHeaderLen Bytes.pad4
    omega
  have hunsigned : unsignedPacket sourcePort destinationPort verificationTag kind flags
      (.ofNat (chunkHeaderLen + value.length)) value =
        (Bytes.ofU16 sourcePort ++ Bytes.ofU16 destinationPort ++ Bytes.ofU32 verificationTag) ++
          [0, 0, 0, 0] ++ chunks := by
    rw [← hchunks]
    simp only [unsignedPacket, List.append_assoc]
  generalize hfront : Bytes.ofU16 sourcePort ++ Bytes.ofU16 destinationPort ++
    Bytes.ofU32 verificationTag = front at hunsigned
  have hfrontlen : front.length = 8 := by
    rw [← hfront]
    rfl
  generalize hfield : Bytes.ofU32Le (checksum (unsignedPacket sourcePort destinationPort
    verificationTag kind flags (.ofNat (chunkHeaderLen + value.length)) value)) = field at hpacket
  have hfieldlen : field.length = 4 := by
    rw [← hfield, Bytes.ofU32Le, List.length_reverse, Bytes.length_ofU32]
  have hbuilt : packet = front ++ field ++ chunks := by
    rw [← hpacket, hunsigned]
    congr 1
    · rw [List.append_assoc, List.take_append_of_le_length hfrontlen.ge,
        List.take_of_length_le hfrontlen.le]
    · rw [List.drop_left']
      rw [List.length_append, hfrontlen]
      rfl
  have hsum : packet.u32LeAt 8 = some (checksum packet) := by
    have hzero : ([0, 0, 0, 0] : Bytes).length = 4 := rfl
    rw [hbuilt, checksum_overwrite hfrontlen hfieldlen hzero, ← hunsigned]
    refine @u32LeAt_ofU32Le _ _ _ chunks ?_
    rw [List.append_assoc, List.drop_left' hfrontlen, hfield]
  have hlength : packet.length = 12 + Bytes.pad4 (chunkHeaderLen + value.length) := by
    rw [hbuilt, List.length_append, List.length_append, hfrontlen, hfieldlen, hsize]
  have hparsed : parseChunks packet.length (packet.drop commonHeaderLen) =
      .ok [⟨kind, flags, value⟩] := by
    have hrest : packet.drop commonHeaderLen = chunks := by
      rw [hbuilt, List.drop_left']
      rw [List.length_append, hfrontlen, hfieldlen]
      rfl
    rw [hrest, ← hchunks, hlength, show 12 + Bytes.pad4 (chunkHeaderLen + value.length) =
      11 + Bytes.pad4 (chunkHeaderLen + value.length) + 1 by omega]
    exact parseChunks_build hchunk
  have hwords : packet.u16At 0 = some sourcePort ∧ packet.u16At 2 = some destinationPort ∧
      packet.u32At 4 = some verificationTag := by
    rw [hbuilt, ← hfront]
    refine ⟨?_, ?_, ?_⟩
    · exact @Bytes.u16At_of_drop _ 0 sourcePort
        (Bytes.ofU16 destinationPort ++ Bytes.ofU32 verificationTag ++ field ++ chunks) (by simp)
    · exact @Bytes.u16At_of_drop _ 2 destinationPort
        (Bytes.ofU32 verificationTag ++ field ++ chunks) (by simp [Bytes.ofU16])
    · exact @Bytes.u32At_of_drop _ 4 verificationTag (field ++ chunks) (by simp [Bytes.ofU16])
  have hpad : 4 ≤ Bytes.pad4 (chunkHeaderLen + value.length) := by
    unfold Bytes.pad4 chunkHeaderLen
    omega
  unfold ParsedPacket.parse
  rw [if_neg (by unfold commonHeaderLen chunkHeaderLen at *; omega), readU32Le, hsum]
  simp only [Option.elim, bind_ok]
  rw [if_neg (by simp), hparsed]
  simp only [bind_ok, readU16, readU32, hwords, Option.elim]
  rfl

/-! ## Parameters -/

theorem length_pushParameter {kind : UInt16} {value bytes : Bytes}
    (h : pushParameter kind value = .ok bytes) : bytes.length = Bytes.pad4 (4 + value.length) := by
  simp only [pushParameter, ite_error_eq_ok, Except.ok.injEq] at h
  rw [← h.2]
  simp only [List.length_append, Bytes.length_ofU16, List.length_replicate]
  unfold Bytes.pad4
  omega

/-- A written parameter is read back, in front of whatever follows it. -/
theorem parseParametersFrom_push {kind : UInt16} {value bytes : Bytes}
    (h : pushParameter kind value = .ok bytes) (fuel : ℕ) (rest : Bytes) :
    parseParametersFrom (fuel + 1) (bytes ++ rest) =
      (parseParametersFrom fuel rest).map (⟨kind, value⟩ :: ·) := by
  have hlen := length_pushParameter h
  simp only [pushParameter, ite_error_eq_ok, not_lt, Except.ok.injEq] at h
  obtain ⟨hbound, hbytes⟩ := h
  generalize hpadding : List.replicate ((4 - (4 + value.length) % 4) % 4) (0 : UInt8) = padding
    at hbytes
  have hinput : bytes ++ rest = (kind >>> 8).toUInt8 :: kind.toUInt8 ::
      (UInt16.ofNat (4 + value.length) >>> 8).toUInt8 ::
      (UInt16.ofNat (4 + value.length)).toUInt8 :: (value ++ (padding ++ rest)) := by
    rw [← hbytes]
    simp [Bytes.ofU16]
  have hsize : (Bytes.toU16 (UInt16.ofNat (4 + value.length) >>> 8).toUInt8
      (UInt16.ofNat (4 + value.length)).toUInt8).toNat = 4 + value.length := by
    rw [Bytes.toU16_ofU16, UInt16.toNat_ofNat']
    omega
  have htotal : (bytes ++ rest).length = Bytes.pad4 (4 + value.length) + rest.length := by
    rw [List.length_append, hlen]
  have hpad : 4 + value.length ≤ Bytes.pad4 (4 + value.length) := by
    unfold Bytes.pad4
    omega
  have hrest : (bytes ++ rest).drop (Bytes.pad4 (4 + value.length)) = rest := List.drop_left' hlen
  have hvalue : ((bytes ++ rest).take (4 + value.length)).drop 4 = value := by
    rw [List.drop_take, hinput]
    simp
  generalize htail : parseParametersFrom fuel rest = tail
  rw [hinput] at htotal hrest hvalue ⊢
  unfold parseParametersFrom
  dsimp only
  rw [hsize, Bytes.toU16_ofU16, htotal, hvalue, hrest, htail, if_neg (by omega)]
  split_ifs with hlast hshort
  · have hnil : rest = [] := List.eq_nil_of_length_eq_zero (by omega)
    subst hnil
    cases fuel <;> cases htail <;> rfl
  · omega
  · rcases tail with error | parameters <;> rfl

/-- More fuel than bytes changes nothing. -/
theorem parseParametersFrom_fuel {fuel : ℕ} {input : Bytes} (h : input.length ≤ fuel) :
    parseParametersFrom fuel input = parseParameters input := by
  unfold parseParameters
  induction hn : input.length using Nat.strong_induction_on generalizing input fuel with
  | _ n ih =>
    match input, fuel with
    | [], fuel => cases fuel <;> subst hn <;> rfl
    | [_], fuel + 1 => subst hn; rfl
    | [_, _], fuel + 1 => subst hn; rfl
    | [_, _, _], fuel + 1 => subst hn; rfl
    | a :: b :: hi :: lo :: rest, fuel + 1 =>
      subst hn
      simp only [List.length_cons] at h ih ⊢
      unfold parseParametersFrom
      dsimp only
      generalize hinput : a :: b :: hi :: lo :: rest = input
      have hlen : input.length = rest.length + 4 := by rw [← hinput]; rfl
      split_ifs with hshort hlast hpad
      · rfl
      · rfl
      · rfl
      · have hsmaller : (input.drop (Bytes.pad4 (Bytes.toU16 hi lo).toNat)).length <
            rest.length + 1 + 1 + 1 + 1 := by
          rw [List.length_drop]
          unfold Bytes.pad4
          omega
        rw [@ih _ hsmaller fuel _ (by omega) rfl, @ih _ hsmaller (rest.length + 3) _ (by omega) rfl]

theorem parseParameters_push {kind : UInt16} {value bytes : Bytes}
    (h : pushParameter kind value = .ok bytes) (rest : Bytes) :
    parseParameters (bytes ++ rest) = (parseParameters rest).map (⟨kind, value⟩ :: ·) := by
  have hlen := length_pushParameter h
  have hpos : 4 ≤ bytes.length := by
    rw [hlen]
    unfold Bytes.pad4
    omega
  obtain ⟨fuel, hfuel⟩ : ∃ fuel, (bytes ++ rest).length = fuel + 1 :=
    ⟨(bytes ++ rest).length - 1, by rw [List.length_append]; omega⟩
  rw [parseParameters, hfuel, parseParametersFrom_push h, parseParametersFrom_fuel]
  rw [List.length_append] at hfuel
  omega

theorem parseParameters_pushAll {parameters : List Parameter} {pieces : List Bytes}
    (h : parameters.mapM (fun parameter => pushParameter parameter.kind parameter.value) =
      .ok pieces) : parseParameters pieces.flatten = .ok parameters := by
  induction parameters generalizing pieces with
  | nil =>
    cases h
    rfl
  | cons parameter parameters ih =>
    rw [List.mapM_cons] at h
    obtain ⟨first, hfirst, h⟩ := bind_eq_ok.mp h
    obtain ⟨rest, hrest, h⟩ := bind_eq_ok.mp h
    cases h
    rw [List.flatten_cons, parseParameters_push hfirst, ih hrest]
    rfl

/-- A packet that can be built is read as its one chunk, and the parameters that can be written one
after the other are read as they are. -/
theorem framing_round_trip :
    (∀ (sourcePort destinationPort : UInt16) (verificationTag : UInt32) (kind flags : UInt8)
        (value packet : Bytes),
      buildPacket sourcePort destinationPort verificationTag kind flags value = .ok packet →
        ParsedPacket.parse packet =
          .ok ⟨sourcePort, destinationPort, verificationTag, [⟨kind, flags, value⟩]⟩) ∧
    ∀ (parameters : List Parameter) (pieces : List Bytes),
      parameters.mapM (fun parameter => pushParameter parameter.kind parameter.value) =
        .ok pieces → parseParameters pieces.flatten = .ok parameters :=
  ⟨fun _ _ _ _ _ _ _ h => parse_buildPacket h, fun _ _ h => parseParameters_pushAll h⟩

/-- A chunk of five bytes, and a parameter of one byte in front of an empty one. -/
theorem framing_round_trip_sample :
    (∃ packet, buildPacket 5000 5001 7 typeHeartbeat 1 [9, 8, 7, 6, 5] = .ok packet ∧
      ParsedPacket.parse packet = .ok ⟨5000, 5001, 7, [⟨typeHeartbeat, 1, [9, 8, 7, 6, 5]⟩]⟩) ∧
    parseParameters ([[0, 7, 0, 5, 1, 0, 0, 0], [192, 0, 0, 4]] : List Bytes).flatten =
      .ok [⟨parameterStateCookie, [1]⟩, ⟨parameterForwardTsnSupported, []⟩] :=
  ⟨⟨_, rfl, framing_round_trip.1 _ _ _ _ _ _ _ rfl⟩, framing_round_trip.2 _ _ (by decide)⟩

end Fluvora.DataChannel
