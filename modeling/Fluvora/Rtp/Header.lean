import Fluvora.Lib.Results
import Fluvora.Rtp.Packet

/-!
# The clear header of an RTP packet

What a successful parse says about the header: it lies inside the packet, `parseHeaderLength` finds
its end, and the sequence number and the SSRC are read at their offsets.  The header length depends
on the header bytes and the length of the packet only, so it survives the encryption of the payload.
-/

namespace Fluvora.Rtp

open Results

theorem readU16_eq_ok {input : Bytes} {position : ℕ} {n : UInt16} :
    readU16 input position = .ok n ↔ input.u16At position = some n := by
  rw [readU16]
  cases input.u16At position <;> simp

theorem readU32_eq_ok {input : Bytes} {position : ℕ} {n : UInt32} :
    readU32 input position = .ok n ↔ input.u32At position = some n := by
  rw [readU32]
  cases input.u32At position <;> simp

theorem readCsrcs_length {input : Bytes} {position count : ℕ} {csrcs : List UInt32}
    (h : readCsrcs input position count = .ok csrcs) (hpos : position ≤ input.length) :
    position + count * 4 ≤ input.length := by
  induction count generalizing position csrcs with
  | zero => omega
  | succ count ih =>
    rw [readCsrcs, bind_eq_ok] at h
    obtain ⟨csrc, hread, h⟩ := h
    rw [bind_eq_ok] at h
    obtain ⟨rest, hrest, -⟩ := h
    have hlen := Bytes.length_of_u32At (readU32_eq_ok.mp hread)
    have hstop := ih hrest hlen
    omega

/-- Where the extension block of a packet ends. -/
theorem parseExtensionBlock_stop {input : Bytes} {position : ℕ} {block : ExtensionBlock}
    (h : parseExtensionBlock input position = .ok block) :
    ∃ words, readU16 input (position + 2) = .ok words ∧
      block.stop = position + 4 + words.toNat * 4 ∧ block.stop ≤ input.length := by
  rw [parseExtensionBlock, bind_eq_ok] at h
  obtain ⟨profile, -, h⟩ := h
  rw [bind_eq_ok] at h
  obtain ⟨words, hwords, h⟩ := h
  rw [ite_error_eq_ok, bind_eq_ok] at h
  obtain ⟨hfit, extensions, -, h⟩ := h
  rw [pure_eq_ok] at h
  subst h
  exact ⟨words, hwords, rfl, not_lt.mp hfit⟩

/-- The fields of a parsed packet that the header holds in clear. -/
structure Packet.HeaderOf (input : Bytes) (parsed : Packet) : Prop where
  headerLength : parseHeaderLength input = .ok parsed.headerLen
  fixed : fixedHeaderLen ≤ parsed.headerLen
  inside : parsed.headerLen ≤ input.length
  sequenceNumber : input.u16At 2 = some parsed.header.sequenceNumber
  ssrc : input.u32At 8 = some parsed.header.ssrc

theorem Packet.headerOf_parse {input : Bytes} {parsed : Packet}
    (h : Packet.parse input = .ok parsed) : HeaderOf input parsed := by
  rw [Packet.parse, ite_error_eq_ok] at h
  obtain ⟨hlong, h⟩ := h
  dsimp only at h
  rw [ite_error_eq_ok, bind_eq_ok] at h
  obtain ⟨hversion, csrcs, hcsrcs, h⟩ := h
  rw [bind_eq_ok] at h
  obtain ⟨block, hblock, h⟩ := h
  rw [bind_eq_ok] at h
  obtain ⟨paddingLen, -, h⟩ := h
  rw [bind_eq_ok] at h
  obtain ⟨sequenceNumber, hsequence, h⟩ := h
  rw [bind_eq_ok] at h
  obtain ⟨timestamp, -, h⟩ := h
  rw [bind_eq_ok] at h
  obtain ⟨ssrc, hssrc, h⟩ := h
  rw [pure_eq_ok] at h
  have hcount := readCsrcs_length hcsrcs (not_lt.mp hlong)
  have hstop : parseHeaderLength input = .ok block.stop ∧ fixedHeaderLen ≤ block.stop ∧
      block.stop ≤ input.length := by
    rw [parseHeaderLength, if_neg hlong]
    dsimp only
    rw [if_neg hversion, if_neg (not_lt.mpr hcount)]
    rw [parseOptionalExtension] at hblock
    simp only [decide_eq_true_eq] at hblock
    split_ifs at hblock ⊢ with hextension
    · obtain ⟨words, hwords, hstop, hinside⟩ := parseExtensionBlock_stop hblock
      rw [hwords, bind_ok, if_neg (by omega), hstop]
      exact ⟨rfl, by omega, by omega⟩
    · rw [Except.ok.injEq] at hblock
      subst hblock
      exact ⟨rfl, Nat.le_add_right _ _, hcount⟩
  subst h
  exact ⟨hstop.1, hstop.2.1, hstop.2.2, readU16_eq_ok.mp hsequence, readU32_eq_ok.mp hssrc⟩

/-- The header length depends on the header and the length of the packet only. -/
theorem parseHeaderLength_of_take {input other : Bytes} {headerLen : ℕ}
    (h : parseHeaderLength input = .ok headerLen) (hfixed : fixedHeaderLen ≤ headerLen)
    (hlen : other.length = input.length) (hfront : other.take headerLen = input.take headerLen) :
    parseHeaderLength other = .ok headerLen := by
  have hfirst : other.getD 0 0 = input.getD 0 0 := by
    rw [List.getD_eq_getElem?_getD, List.getD_eq_getElem?_getD,
      Bytes.getElem?_eq_of_take hfront (by unfold fixedHeaderLen at hfixed; omega)]
  rw [parseHeaderLength, ite_error_eq_ok] at h ⊢
  dsimp only at h ⊢
  rw [ite_error_eq_ok, ite_error_eq_ok] at h ⊢
  rw [hlen, hfirst]
  obtain ⟨hlong, hversion, hcsrcs, h⟩ := h
  refine ⟨hlong, hversion, hcsrcs, ?_⟩
  split_ifs at h ⊢ with hextension
  · rw [bind_eq_ok] at h
    obtain ⟨words, hwords, h⟩ := h
    rw [ite_error_eq_ok, pure_eq_ok] at h
    obtain ⟨hfit, hstop⟩ := h
    rw [readU16_eq_ok] at hwords
    rw [bind_eq_ok]
    refine ⟨words, readU16_eq_ok.mpr ?_, ?_⟩
    · rw [Bytes.u16At_eq_of_take hfront (by omega), hwords]
    · rw [ite_error_eq_ok, pure_eq_ok]
      exact ⟨hfit, hstop⟩
  · exact h

end Fluvora.Rtp
