import Fluvora.Lib.ShiftRegister
import Fluvora.DataChannel.Encoding

/-!
# What the checksum of a packet detects

The CRC32C loop is a shift register that absorbs a packet byte by byte.  Four bytes fit the register,
so that a burst of at most four bytes outside the checksum field changes the checksum
(`checksum_burst`), whatever the length of the packet; inside the field it changes the checksum that
is expected.
-/

namespace Fluvora.DataChannel

/-! ## The register of the checksum -/

/-- The reflected CRC32C polynomial. -/
def crcFeedback : BitVec 32 := 0x82f63b78#32

theorem toBitVec_crcStep (crc : UInt32) :
    (crcStep crc).toBitVec = ShiftRegister.step crcFeedback crc.toBitVec := by
  have hmask : ((0 : UInt32) - (crc &&& 1)).toBitVec =
      if crc.toBitVec.getLsbD 0 then 0xffffffff#32 else 0#32 := by
    rw [UInt32.toBitVec_sub, UInt32.toBitVec_and]
    change (0#32 - (crc.toBitVec &&& 1#32)) = _
    rw [BitVec.and_one_eq_setWidth_ofBool_getLsbD]
    cases crc.toBitVec.getLsbD 0 <;> rfl
  unfold crcStep ShiftRegister.step
  rw [UInt32.toBitVec_xor, UInt32.toBitVec_and, hmask, UInt32.toBitVec_shiftRight]
  congr 1
  cases crc.toBitVec.getLsbD 0 <;> rfl

theorem toBitVec_crcByte (crc : UInt32) (byte : UInt8) :
    (crcByte crc byte).toBitVec =
      ShiftRegister.absorb crcFeedback 8 crc.toBitVec byte.toUInt32.toBitVec := by
  have hiterate (k : ℕ) (crc : UInt32) :
      (crcStep^[k] crc).toBitVec = (ShiftRegister.step crcFeedback)^[k] crc.toBitVec := by
    induction k generalizing crc with
    | zero => rfl
    | succ k ih =>
      rw [Function.iterate_succ_apply, Function.iterate_succ_apply, ih, toBitVec_crcStep]
  rw [crcByte, ShiftRegister.absorb, hiterate, UInt32.toBitVec_xor]

theorem fits_toBitVec (byte : UInt8) : ShiftRegister.Fits 8 byte.toUInt32.toBitVec := by
  intro i hi
  have hbyte : byte.toNat < 2 ^ i :=
    Nat.lt_of_lt_of_le byte.toNat_lt (Nat.pow_le_pow_right Nat.two_pos hi)
  exact Nat.testBit_lt_two_pow hbyte

theorem crcByte_injective (byte : UInt8) : Function.Injective (crcByte · byte) := by
  intro crc crc' h
  have hbits := congrArg UInt32.toBitVec h
  simp only [toBitVec_crcByte, ShiftRegister.absorb] at hbits
  have hregister := (ShiftRegister.step_injective crcFeedback (by decide)).iterate _ hbits
  exact UInt32.toBitVec_inj.mp ((BitVec.xor_left_inj _).mp hregister)

/-- What follows is absorbed into different registers from different registers. -/
theorem crcFrom_injective (index : ℕ) (input : Bytes) :
    Function.Injective (crcFrom index · input) := by
  induction input generalizing index with
  | nil => exact fun _ _ h => h
  | cons supplied input ih =>
    intro crc crc' h
    exact crcByte_injective _ (ih (index + 1) h)

theorem crcFrom_outside {index : ℕ} {word : Bytes} (h : index + word.length ≤ 8 ∨ 12 ≤ index)
    (crc : UInt32) : (crcFrom index crc word).toBitVec =
      (word.map fun byte => byte.toUInt32.toBitVec).foldl (ShiftRegister.absorb crcFeedback 8)
        crc.toBitVec := by
  induction word generalizing index crc with
  | nil => rfl
  | cons byte word ih =>
    rw [List.length_cons] at h
    have hfield : ¬(8 ≤ index ∧ index < 12) := by omega
    have hstep : crcFrom index crc (byte :: word) =
        crcFrom (index + 1) (crcByte crc (if 8 ≤ index ∧ index < 12 then 0 else byte)) word := rfl
    rw [hstep, if_neg hfield, ih (by omega), toBitVec_crcByte]
    rfl

/-- At most four bytes outside the checksum field can be told from the register behind them. -/
theorem crcFrom_word_injective {index : ℕ} {word word' : Bytes}
    (h : index + word.length ≤ 8 ∨ 12 ≤ index) (hlength : word.length = word'.length)
    (hfour : word.length ≤ 4) {crc : UInt32} (heq : crcFrom index crc word = crcFrom index crc word') :
    word = word' := by
  have hbits := congrArg UInt32.toBitVec heq
  rw [crcFrom_outside h, crcFrom_outside (hlength ▸ h)] at hbits
  have hfits (bytes : Bytes) : ∀ digit ∈ bytes.map fun byte => byte.toUInt32.toBitVec,
      ShiftRegister.Fits 8 digit := by
    intro digit hdigit
    obtain ⟨byte, -, rfl⟩ := List.mem_map.mp hdigit
    exact fits_toBitVec byte
  have hdigits := ShiftRegister.foldl_absorb_injective crcFeedback (by decide)
    (by simpa using hlength) (by rw [List.length_map]; omega) (hfits word) (hfits word') hbits
  refine (List.map_injective_iff.mpr ?_) hdigits
  intro byte byte' hbyte
  have hnat := congrArg BitVec.toNat hbyte
  exact UInt8.toNat_inj.mp hnat

/-! ## Bursts -/

/-- Two packets of one length agree but for the bytes from `start` up to `stop`. -/
def AgreeOutside (start stop : ℕ) (packet modified : Bytes) : Prop :=
  modified.length = packet.length ∧
    ∀ i, ¬(start ≤ i ∧ i < stop) → modified[i]? = packet[i]?

theorem AgreeOutside.take_eq {start stop : ℕ} {packet modified : Bytes}
    (h : AgreeOutside start stop packet modified) : modified.take start = packet.take start := by
  apply List.ext_getElem?
  intro i
  rw [List.getElem?_take, List.getElem?_take]
  split_ifs with hi
  · exact h.2 i (by omega)
  · rfl

theorem AgreeOutside.drop_eq {start stop : ℕ} {packet modified : Bytes}
    (h : AgreeOutside start stop packet modified) : modified.drop stop = packet.drop stop := by
  apply List.ext_getElem?
  intro i
  rw [List.getElem?_drop, List.getElem?_drop]
  exact h.2 (stop + i) (by omega)

theorem split_at (bytes : Bytes) {start stop : ℕ} (h : start ≤ stop) :
    bytes = bytes.take start ++ (bytes.take stop).drop start ++ bytes.drop stop := by
  have hfront : bytes.take start ++ (bytes.take stop).drop start = bytes.take stop := by
    conv_rhs => rw [← List.take_append_drop start (bytes.take stop), List.take_take, min_eq_left h]
  rw [hfront, List.take_append_drop]

/-- The checksum tells packets apart that differ in at most four bytes outside its field. -/
theorem checksum_burst {start : ℕ} {packet modified : Bytes}
    (h : AgreeOutside start (start + 4) packet modified) (hfield : start + 4 ≤ 8 ∨ 12 ≤ start)
    (hsum : checksum modified = checksum packet) : modified = packet := by
  by_cases hinside : packet.length ≤ start
  · have hprefix := h.take_eq
    rwa [List.take_of_length_le hinside, List.take_of_length_le (h.1.trans_le hinside)] at hprefix
  generalize hword : (packet.take (start + 4)).drop start = word
  generalize hword' : (modified.take (start + 4)).drop start = word'
  have hsize : word'.length = word.length := by
    rw [← hword, ← hword']
    simp [h.1]
  have hfour : word'.length ≤ 4 := by
    rw [← hword', List.length_drop, List.length_take]
    omega
  have hfront : (packet.take start).length = start :=
    List.length_take_of_le (Nat.le_of_not_le hinside)
  have hpacket := split_at packet (Nat.le_add_right start 4)
  have hmodified := split_at modified (Nat.le_add_right start 4)
  rw [hword] at hpacket
  rw [hword', h.take_eq, h.drop_eq] at hmodified
  have hcrc (word : Bytes) : checksum (packet.take start ++ word ++ packet.drop (start + 4)) =
      ~~~(crcFrom (start + word.length)
        (crcFrom start (crcFrom 0 0xffffffff (packet.take start)) word)
        (packet.drop (start + 4))) := by
    show ~~~(crcFrom 0 0xffffffff _) = _
    rw [crcFrom_append, crcFrom_append, List.length_append, hfront, Nat.zero_add, Nat.zero_add]
  have hsums : checksum (packet.take start ++ word' ++ packet.drop (start + 4)) =
      checksum (packet.take start ++ word ++ packet.drop (start + 4)) := by
    rw [← hmodified, ← hpacket, hsum]
  rw [hcrc, hcrc, hsize] at hsums
  have hregister := crcFrom_injective _ _ (UInt32.not_inj.mp hsums)
  have hsame := crcFrom_word_injective (by omega) hsize hfour hregister
  rw [hmodified, hsame, ← hpacket]

/-- The checksum field of a packet that has one. -/
theorem exists_readU32Le {input : Bytes} (h : 12 ≤ input.length) :
    ∃ a b c d, (input.take 12).drop 8 = [a, b, c, d] ∧
      readU32Le input 8 = .ok (Bytes.toU32 d c b a) := by
  have hlength : 4 ≤ (input.drop 8).length := by
    rw [List.length_drop]
    omega
  have htake : (input.take 12).drop 8 = (input.drop 8).take 4 := List.drop_take
  unfold readU32Le Bytes.u32LeAt
  rw [htake]
  match input.drop 8, hlength with
  | a :: b :: c :: d :: _, _ => exact ⟨a, b, c, d, rfl, rfl⟩

/-- A packet with another checksum than it says is rejected. -/
theorem parse_of_checksum_ne {input : Bytes}
    (hlength : 16 ≤ input.length ∧ input.length ≤ 65535)
    (hsum : readU32Le input 8 ≠ .ok (checksum input)) :
    ParsedPacket.parse input = .error .invalidChecksum := by
  obtain ⟨a, b, c, d, -, hread⟩ := @exists_readU32Le input (by omega)
  have hshort : ¬(input.length < commonHeaderLen + chunkHeaderLen ∨ 65535 < input.length) := by
    unfold commonHeaderLen chunkHeaderLen
    omega
  have hne : checksum input ≠ Bytes.toU32 d c b a := by
    intro heq
    exact hsum (by rw [hread, heq])
  unfold ParsedPacket.parse
  rw [if_neg hshort, hread, Results.bind_ok, if_pos hne]

/-- An accepted packet has the checksum that it says. -/
theorem checksum_of_parse {packet : Bytes} {parsed : ParsedPacket}
    (h : ParsedPacket.parse packet = .ok parsed) :
    (16 ≤ packet.length ∧ packet.length ≤ 65535) ∧
      readU32Le packet 8 = .ok (checksum packet) := by
  have hlength : 16 ≤ packet.length ∧ packet.length ≤ 65535 := by
    unfold ParsedPacket.parse at h
    split_ifs at h with hshort
    unfold commonHeaderLen chunkHeaderLen at hshort
    omega
  refine ⟨hlength, ?_⟩
  by_contra hsum
  rw [parse_of_checksum_ne hlength hsum] at h
  cases h

/-- Every modification of an accepted packet that is confined to four bytes in a row outside the
checksum field, or to the field, is rejected for its checksum. -/
theorem parse_of_burst {packet modified : Bytes} {parsed : ParsedPacket}
    (hparse : ParsedPacket.parse packet = .ok parsed) (hne : modified ≠ packet)
    (hburst : (∃ start, (start + 4 ≤ 8 ∨ 12 ≤ start) ∧
        AgreeOutside start (start + 4) packet modified) ∨ AgreeOutside 8 12 packet modified) :
    ParsedPacket.parse modified = .error .invalidChecksum := by
  obtain ⟨hlength, hsum⟩ := checksum_of_parse hparse
  have hsame : modified.length = packet.length := by
    rcases hburst with ⟨start, -, hagree⟩ | hagree
    · exact hagree.1
    · exact hagree.1
  obtain ⟨a, b, c, d, hfield, hread⟩ := @exists_readU32Le packet (by omega)
  obtain ⟨a', b', c', d', hfield', hread'⟩ := @exists_readU32Le modified (by omega)
  refine parse_of_checksum_ne (hsame ▸ hlength) fun hmodified => hne ?_
  rw [hread, Except.ok.injEq] at hsum
  rw [hread', Except.ok.injEq] at hmodified
  rcases hburst with ⟨start, houtside, hagree⟩ | hagree
  · have hfields : (modified.take 12).drop 8 = (packet.take 12).drop 8 := by
      apply List.ext_getElem?
      intro i
      rw [List.getElem?_drop, List.getElem?_drop, List.getElem?_take, List.getElem?_take]
      split_ifs
      · exact hagree.2 (8 + i) (by omega)
      · rfl
    rw [hfield, hfield', List.cons.injEq, List.cons.injEq, List.cons.injEq, List.cons.injEq]
      at hfields
    obtain ⟨rfl, rfl, rfl, rfl, -⟩ := hfields
    exact checksum_burst hagree houtside (hmodified.symm.trans hsum)
  · have hpacket := split_at packet (by decide : 8 ≤ 12)
    have hmodified' := split_at modified (by decide : 8 ≤ 12)
    rw [hfield] at hpacket
    rw [hfield', hagree.take_eq, hagree.drop_eq] at hmodified'
    have hfront : (packet.take 8).length = 8 := List.length_take_of_le (by omega)
    have hequal : checksum modified = checksum packet := by
      conv_lhs => rw [hmodified']
      conv_rhs => rw [hpacket]
      exact checksum_overwrite hfront rfl rfl
    have hwords := congrArg Bytes.ofU32 (hsum.trans (hequal.symm.trans hmodified.symm))
    rw [Bytes.ofU32_toU32, Bytes.ofU32_toU32] at hwords
    simp only [List.cons.injEq, and_true] at hwords
    obtain ⟨rfl, rfl, rfl, rfl⟩ := hwords
    rw [hmodified', ← hpacket]

def Sample.cookieAck : Bytes := (buildPacket 5000 5000 1 typeCookieAck 0 []).toOption.getD []

/-- A COOKIE ACK with one bit of its chunk type turned over. -/
theorem parse_of_burst_sample :
    ParsedPacket.parse Sample.cookieAck = .ok ⟨5000, 5000, 1, [⟨typeCookieAck, 0, []⟩]⟩ ∧
      ParsedPacket.parse (Sample.cookieAck.set 12 10) = .error .invalidChecksum := by
  have hparse : ParsedPacket.parse Sample.cookieAck =
      .ok ⟨5000, 5000, 1, [⟨typeCookieAck, 0, []⟩]⟩ := by
    decide +kernel
  refine ⟨hparse, ?_⟩
  refine parse_of_burst hparse (by decide +kernel) (.inl ⟨12, by decide, ?_, ?_⟩)
  · exact List.length_set
  · intro i hi
    exact List.getElem?_set_ne (by omega)

end Fluvora.DataChannel
