import Fluvora.Rtcp.Encoding

/-!
# Round trips of transport-wide feedback

The encoder writes status vector chunks of seven two-bit symbols, then the deltas of the received
packets; the parser reads as many symbols as the header declares.  A chunk that is not full has
zeros behind its symbols, which the declared count cuts off.
-/

namespace Fluvora.Rtcp

open Results

/-! ## Status vector chunks -/

/-- The symbol of a status, as the parser has it. -/
def TwccStatus.code (status : TwccStatus) : UInt8 := status.symbol.toUInt8

/-- The bits under a mask behind a shift. -/
def bits (shift mask word : UInt16) : UInt16 := word >>> shift &&& mask

theorem bits_or (shift mask a b : UInt16) :
    bits shift mask (a ||| b) = bits shift mask a ||| bits shift mask b := by
  rw [bits, bits, bits, UInt16.shiftRight_or]
  apply UInt16.toNat_inj.mp
  simp only [UInt16.toNat_and, UInt16.toNat_or, Nat.and_or_distrib_right]

theorem exists_symbol (status : TwccStatus) : ∃ c : Fin 3, status.symbol = .ofNat c.val := by
  cases status with
  | notReceived => exact ⟨0, rfl⟩
  | receivedSmallDelta => exact ⟨1, rfl⟩
  | receivedLargeDelta => exact ⟨2, rfl⟩

/-- A symbol is read at its own place and nowhere else. -/
theorem bits_symbol (status : TwccStatus) {index place : ℕ} (hindex : index < 7) (hplace : place < 7) :
    bits (.ofNat (12 - place * 2)) 0x03 (status.symbol <<< .ofNat (12 - index * 2)) =
      if index = place then status.symbol else 0 := by
  have hall : ∀ (c : Fin 3) (index place : Fin 7),
      bits (.ofNat (12 - place.val * 2)) 0x03 (.ofNat c.val <<< .ofNat (12 - index.val * 2)) =
        if index.val = place.val then .ofNat c.val else 0 := by
    decide
  obtain ⟨c, hc⟩ := exists_symbol status
  rw [hc]
  exact hall c ⟨index, hindex⟩ ⟨place, hplace⟩

/-- The two bits that say what kind a chunk is are not touched by symbols. -/
theorem bits_symbol_kind (status : TwccStatus) {index : ℕ} (hindex : index < 7) :
    bits 0 0xc000 (status.symbol <<< .ofNat (12 - index * 2)) = 0 := by
  have hall : ∀ (c : Fin 3) (index : Fin 7),
      bits 0 0xc000 (.ofNat c.val <<< .ofNat (12 - index.val * 2)) = 0 := by
    decide
  obtain ⟨c, hc⟩ := exists_symbol status
  rw [hc]
  exact hall c ⟨index, hindex⟩

/-- The fold of `statusChunk` from an index on. -/
def addSymbols (chunk : UInt16) (statuses : List TwccStatus) (index : ℕ) : UInt16 :=
  (statuses.zipIdx index).foldl
    (fun chunk entry => chunk ||| entry.1.symbol <<< .ofNat (12 - entry.2 * 2)) chunk

theorem addSymbols_cons (chunk : UInt16) (status : TwccStatus) (statuses : List TwccStatus)
    (index : ℕ) :
    addSymbols chunk (status :: statuses) index =
      addSymbols (chunk ||| status.symbol <<< .ofNat (12 - index * 2)) statuses (index + 1) := rfl

theorem bits_addSymbols_kind (chunk : UInt16) {statuses : List TwccStatus} {index : ℕ}
    (h : index + statuses.length ≤ 7) :
    bits 0 0xc000 (addSymbols chunk statuses index) = bits 0 0xc000 chunk := by
  induction statuses generalizing chunk index with
  | nil => rfl
  | cons status statuses ih =>
    rw [List.length_cons] at h
    rw [addSymbols_cons, ih _ (by omega), bits_or, bits_symbol_kind status (by omega), UInt16.or_zero]

theorem bits_addSymbols (chunk : UInt16) {statuses : List TwccStatus} {index place : ℕ}
    (h : index + statuses.length ≤ 7) (hplace : place < 7) :
    bits (.ofNat (12 - place * 2)) 0x03 (addSymbols chunk statuses index) =
      bits (.ofNat (12 - place * 2)) 0x03 chunk |||
        if index ≤ place then (statuses[place - index]?).elim 0 TwccStatus.symbol else 0 := by
  induction statuses generalizing chunk index with
  | nil =>
    simp [addSymbols]
  | cons status statuses ih =>
    rw [List.length_cons] at h
    rw [addSymbols_cons, ih _ (by omega), bits_or, bits_symbol status (by omega) hplace,
      UInt16.or_assoc]
    congr 1
    rcases Nat.lt_trichotomy index place with hlt | rfl | hgt
    · obtain ⟨k, rfl⟩ : ∃ k, place = index + 1 + k := ⟨place - index - 1, by omega⟩
      rw [if_neg (by omega), if_pos (by omega), if_pos (by omega),
        show index + 1 + k - index = k + 1 by omega, show index + 1 + k - (index + 1) = k by omega]
      simp
    · simp
    · rw [if_neg (by omega), if_neg (by omega), if_neg (by omega)]
      rfl

theorem kind_statusChunk {statuses : List TwccStatus} (h : statuses.length ≤ 7) :
    statusChunk statuses &&& 0x8000 ≠ 0 ∧ statusChunk statuses &&& 0x4000 ≠ 0 := by
  have hkind : statusChunk statuses &&& 0xc000 = 0xc000 := by
    have hbits : bits 0 0xc000 (statusChunk statuses) = bits 0 0xc000 0xc000 :=
      @bits_addSymbols_kind 0xc000 statuses 0 (by omega)
    simpa [bits] using hbits
  have hmask : ∀ mask : UInt16, 0xc000 &&& mask ≠ 0 → statusChunk statuses &&& mask ≠ 0 := by
    intro mask hmask hzero
    apply hmask
    rw [← hkind, UInt16.and_assoc, UInt16.and_comm 0xc000, ← UInt16.and_assoc, hzero,
      UInt16.zero_and]
  exact ⟨hmask _ (by decide), hmask _ (by decide)⟩

/-- The symbols of a chunk, cut to the statuses that are left, are those that were written. -/
theorem take_vectorSymbols (statuses : List TwccStatus) :
    (vectorSymbols (statusChunk (statuses.take 7))).take statuses.length =
      (statuses.take 7).map TwccStatus.code := by
  have hpiece : (statuses.take 7).length ≤ 7 := List.length_take_le _ _
  apply List.ext_getElem?
  intro place
  rw [vectorSymbols, if_pos (kind_statusChunk hpiece).2, List.getElem?_take, List.getElem?_map,
    List.getElem?_map, List.getElem?_take]
  by_cases hin : place < statuses.length ∧ place < 7
  · have hbits := @bits_addSymbols 0xc000 (statuses.take 7) 0 place (by omega) hin.2
    have hempty : ∀ place : Fin 7, bits (.ofNat (12 - place.val * 2)) 0x03 0xc000 = 0 := by decide
    rw [hempty ⟨place, hin.2⟩, UInt16.zero_or, if_pos (Nat.zero_le _), Nat.sub_zero,
      List.getElem?_take, if_pos hin.2, List.getElem?_eq_getElem hin.1] at hbits
    rw [if_pos hin.1, if_pos hin.2, List.getElem?_range hin.2, List.getElem?_eq_getElem hin.1]
    exact congrArg (fun word : UInt16 => some word.toUInt8) hbits
  · by_cases hplace : place < 7
    · have hout : statuses.length ≤ place := by omega
      rw [if_neg (by omega), if_pos hplace, List.getElem?_eq_none hout]
      rfl
    · rw [if_neg hplace, List.getElem?_eq_none (by simpa using hplace)]
      simp

theorem code_ne_reserved (status : TwccStatus) : status.code ≠ 3 := by
  cases status with
  | notReceived => decide
  | receivedSmallDelta delta => exact (by decide : (1 : UInt16).toUInt8 ≠ 3)
  | receivedLargeDelta delta => exact (by decide : (2 : UInt16).toUInt8 ≠ 3)

theorem decodeChunk_statusChunk (statuses : List TwccStatus) :
    decodeChunk (statusChunk (statuses.take 7)) statuses.length =
      .ok ((statuses.take 7).map TwccStatus.code) := by
  have hpiece : (statuses.take 7).length ≤ 7 := List.length_take_le _ _
  have hreserved : ((statuses.take 7).map TwccStatus.code).contains 3 = false := by
    rw [← Bool.not_eq_true, List.contains_iff_mem, List.mem_map]
    rintro ⟨status, -, hstatus⟩
    exact code_ne_reserved status hstatus
  rw [decodeChunk, if_neg (kind_statusChunk hpiece).1]
  dsimp only
  rw [take_vectorSymbols, hreserved]
  rfl

theorem decodeSymbols_encode {statuses : List TwccStatus} {body rest : Bytes}
    {fuel fuel' position : ℕ} (hfuel : statuses.length ≤ fuel) (hfuel' : statuses.length ≤ fuel')
    (hdrop : body.drop position = encodeStatuses fuel statuses ++ rest) :
    decodeSymbols body fuel' position statuses.length =
      .ok (statuses.map TwccStatus.code, position + (encodeStatuses fuel statuses).length) := by
  induction fuel generalizing statuses fuel' position with
  | zero =>
    have hnil : statuses = [] := List.length_eq_zero_iff.mp (Nat.le_zero.mp hfuel)
    subst hnil
    cases fuel' <;> rfl
  | succ fuel ih =>
    cases hstatuses : statuses with
    | nil => cases fuel' <;> rfl
    | cons status others =>
      rw [← hstatuses]
      have hne : statuses.isEmpty = false := by rw [hstatuses]; rfl
      have hpos : statuses.length ≠ 0 := by rw [hstatuses]; simp
      obtain ⟨fuel', rfl⟩ := Nat.exists_eq_add_one_of_ne_zero (show fuel' ≠ 0 by omega)
      rw [encodeStatuses, hne] at hdrop ⊢
      simp only [Bool.false_eq_true, if_false, List.append_assoc] at hdrop ⊢
      have hnext : body.drop (position + 2) = _ := Bytes.drop_behind hdrop rfl
      have hlen : (statuses.drop 7).length = statuses.length - 7 := List.length_drop
      have hrest := @ih (statuses.drop 7) fuel' (position + 2) (by omega) (by omega) hnext
      have hcut : statuses.length - ((statuses.take 7).map TwccStatus.code).length =
          (statuses.drop 7).length := by
        rw [List.length_map, List.length_take, hlen]
        omega
      rw [decodeSymbols, if_neg hpos, readU16_of_drop hdrop, bind_ok, decodeChunk_statusChunk,
        bind_ok, hcut, hrest, bind_ok]
      refine congrArg Except.ok (Prod.ext ?_ ?_)
      · show (statuses.take 7).map _ ++ (statuses.drop 7).map _ = _
        rw [← List.map_append, List.take_append_drop]
      · show position + 2 + _ = _
        rw [List.length_append, Bytes.length_ofU16]
        omega

/-! ## Deltas -/

theorem decodeStatuses_encode {statuses : List TwccStatus} {body rest : Bytes} {position : ℕ}
    (hdrop : body.drop position = statuses.flatMap TwccStatus.delta ++ rest) :
    decodeStatuses body (statuses.map TwccStatus.code) position =
      .ok (statuses, position + (statuses.flatMap TwccStatus.delta).length) := by
  induction statuses generalizing position with
  | nil => rfl
  | cons status statuses ih =>
    rw [List.flatMap_cons, List.append_assoc] at hdrop
    rw [List.map_cons, List.flatMap_cons, List.length_append, ← Nat.add_assoc]
    have hnext : body.drop (position + status.delta.length) = _ := Bytes.drop_behind hdrop rfl
    cases status with
    | notReceived =>
      rw [TwccStatus.code, decodeStatuses, if_pos (by decide)]
      rw [ih hdrop, bind_ok]
      rfl
    | receivedSmallDelta delta =>
      have hbyte : body[position]? = some delta := by
        have hhead : (body.drop position)[0]? = some delta := by rw [hdrop]; rfl
        simpa using hhead
      have hrest := @ih (position + 1) hnext
      rw [TwccStatus.code, TwccStatus.symbol, decodeStatuses, if_neg (by decide), if_pos (by decide),
        hbyte]
      dsimp only
      rw [hrest, bind_ok]
      rfl
    | receivedLargeDelta delta =>
      have hword : body.u16At position = some delta.toUInt16 := Bytes.u16At_of_drop hdrop
      have hrest := @ih (position + 2) hnext
      rw [TwccStatus.code, TwccStatus.symbol, decodeStatuses, if_neg (by decide), if_neg (by decide),
        if_pos (by decide), hword]
      dsimp only
      rw [hrest, bind_ok, Int16.toInt16_toUInt16]
      rfl

/-- Transport-wide feedback is read back. -/
theorem parseTwcc_encode {feedback : TransportWideFeedback} {body : Bytes}
    (h : encodeTwcc feedback = .ok body) :
    body.length % 4 = 0 ∧ parseTwcc body = .ok feedback := by
  rw [encodeTwcc, ite_error_eq_ok, ite_error_eq_ok] at h
  obtain ⟨hcount, hfits, h⟩ := h
  rw [Bool.not_eq_true', Bool.not_eq_false] at hfits
  cases h
  generalize hfields : Bytes.ofU32 feedback.senderSsrc ++ _ = fields
  have hlength : fields.length = 16 + ((encodeStatuses feedback.statuses.length
      feedback.statuses).length + (feedback.statuses.flatMap TwccStatus.delta).length) := by
    rw [← hfields]
    simp
    omega
  have hpad := length_align fields
  refine ⟨by rw [hpad]; exact pad4_mod _, ?_⟩
  have h0 : (align fields).drop 0 = Bytes.ofU32 feedback.senderSsrc ++
      (Bytes.ofU32 feedback.mediaSsrc ++ (Bytes.ofU16 feedback.baseSequenceNumber ++
        (Bytes.ofU16 (.ofNat feedback.statuses.length) ++ (ofI24 feedback.referenceTime ++
          ([feedback.feedbackPacketCount] ++
            (encodeStatuses feedback.statuses.length feedback.statuses ++
              (feedback.statuses.flatMap TwccStatus.delta ++
                List.replicate (Bytes.pad4 fields.length - fields.length) 0))))))) := by
    rw [List.drop_zero, align, ← hfields]
    simp only [List.append_assoc]
  have h1 : (align fields).drop 4 = _ := Bytes.drop_behind h0 rfl
  have h2 : (align fields).drop 8 = _ := Bytes.drop_behind h1 rfl
  have h3 : (align fields).drop 10 = _ := Bytes.drop_behind h2 rfl
  have h4 : (align fields).drop 12 = _ := Bytes.drop_behind h3 rfl
  have h5 : (align fields).drop 15 = _ := Bytes.drop_behind h4 (by simp)
  have h6 : (align fields).drop 16 = _ := Bytes.drop_behind h5 rfl
  have h7 : (align fields).drop
      (16 + (encodeStatuses feedback.statuses.length feedback.statuses).length) = _ :=
    Bytes.drop_behind h6 rfl
  have h8 : (align fields).drop (16 +
      (encodeStatuses feedback.statuses.length feedback.statuses).length +
      (feedback.statuses.flatMap TwccStatus.delta).length) =
        List.replicate (Bytes.pad4 fields.length - fields.length) 0 := Bytes.drop_behind h7 rfl
  have hnumber : (UInt16.ofNat feedback.statuses.length).toNat = feedback.statuses.length := by
    rw [UInt16.toNat_ofNat']
    omega
  have hlong : ¬(align fields).length < 16 := by
    rw [hpad, Bytes.pad4]
    omega
  have htrailing : ¬((List.replicate (Bytes.pad4 fields.length - fields.length) (0 : UInt8)).any
      (· ≠ 0) = true ∨ 3 < (align fields).length - (16 +
        (encodeStatuses feedback.statuses.length feedback.statuses).length +
        (feedback.statuses.flatMap TwccStatus.delta).length)) := by
    rw [not_or]
    refine ⟨by simp, ?_⟩
    rw [hpad, Bytes.pad4]
    omega
  rw [parseTwcc, if_neg hlong, readU32_of_drop h0, bind_ok, readU32_of_drop h1, bind_ok,
    readU16_of_drop h2, bind_ok, readU16_of_drop h3, bind_ok, readI24_of_drop hfits h4, bind_ok,
    readU8_of_drop h5, bind_ok]
  dsimp only
  rw [hnumber, decodeSymbols_encode le_rfl le_rfl h6, bind_ok]
  dsimp only
  rw [decodeStatuses_encode h7, bind_ok]
  dsimp only
  rw [h8, if_neg htrailing]
  rfl

end Fluvora.Rtcp
