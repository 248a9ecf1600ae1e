import Fluvora.Lib.Results
import Fluvora.Rtcp.Packet

/-!
# Encoding RTCP packets

`encodeCompound` and the encoders of the packet kinds, from `crates/webrtc/rtcp`, and the bodies
that are read back: reports, source descriptions, NACKs and picture loss indications.  The fields of
a body are read one after the other, each behind the bytes before it.
-/

namespace Fluvora.Rtcp

open Results

/-! ## Writers -/

def ofU64 (n : UInt64) : Bytes := Bytes.ofU32 (n >>> 32).toUInt32 ++ Bytes.ofU32 n.toUInt32

/-- The low three bytes of an `i32`. -/
def ofI24 (value : ℤ) : Bytes := Bytes.ofNat 3 (value % 2 ^ 24).toNat

/-- The values that fit into three bytes. -/
def fitsI24 (value : ℤ) : Bool := -8388608 ≤ value && value ≤ 8388607

/-- The zero bytes that fill up the last word. -/
def align (bytes : Bytes) : Bytes :=
  bytes ++ List.replicate (Bytes.pad4 bytes.length - bytes.length) 0

/-! ## Packet bodies -/

def checkedCount (count : ℕ) : Except RtcpError UInt8 :=
  if 31 < count then .error (.countTooLarge count) else .ok (.ofNat count)

def encodeReportBlocks : List ReportBlock → Except RtcpError Bytes
  | [] => .ok []
  | report :: rest => do
      if !fitsI24 report.cumulativeLost then
        .error (.invalidCumulativeLoss report.cumulativeLost)
      else
        let others ← encodeReportBlocks rest
        return Bytes.ofU32 report.ssrc ++ ([report.fractionLost] ++ (ofI24 report.cumulativeLost ++
          (Bytes.ofU32 report.extendedHighestSequence ++ (Bytes.ofU32 report.jitter ++
            (Bytes.ofU32 report.lastSenderReport ++
              (Bytes.ofU32 report.delaySinceLastSenderReport ++ others))))))

def encodeSenderReport (report : SenderReport) : Except RtcpError (UInt8 × UInt8 × Bytes) := do
  let count ← checkedCount report.reports.length
  let reports ← encodeReportBlocks report.reports
  return (count, 200, Bytes.ofU32 report.senderSsrc ++ (ofU64 report.ntpTimestamp ++
    (Bytes.ofU32 report.rtpTimestamp ++ (Bytes.ofU32 report.senderPacketCount ++
      (Bytes.ofU32 report.senderOctetCount ++ reports)))))

def encodeReceiverReport (report : ReceiverReport) : Except RtcpError (UInt8 × UInt8 × Bytes) := do
  let count ← checkedCount report.reports.length
  let reports ← encodeReportBlocks report.reports
  return (count, 201, Bytes.ofU32 report.senderSsrc ++ reports)

def encodeItems : List SdesItem → Except RtcpError Bytes
  | [] => .ok []
  | item :: rest => do
      if 255 < item.value.length then
        .error (.sdesItemTooLarge item.value.length)
      else
        let others ← encodeItems rest
        return item.itemType :: .ofNat item.value.length :: (item.value ++ others)

/-- The items of a chunk, the END marker and the alignment. -/
def encodeChunk (chunk : SdesChunk) : Except RtcpError Bytes := do
  let items ← encodeItems chunk.items
  return align (Bytes.ofU32 chunk.ssrc ++ (items ++ [0]))

def encodeChunks : List SdesChunk → Except RtcpError Bytes
  | [] => .ok []
  | chunk :: rest => do
      let bytes ← encodeChunk chunk
      let others ← encodeChunks rest
      return bytes ++ others

def encodeSdes (description : SourceDescription) : Except RtcpError (UInt8 × UInt8 × Bytes) := do
  let count ← checkedCount description.chunks.length
  let chunks ← encodeChunks description.chunks
  return (count, 202, chunks)

def encodeNack (nack : GenericNack) : Bytes :=
  Bytes.ofU32 nack.senderSsrc ++ (Bytes.ofU32 nack.mediaSsrc ++
    nack.entries.flatMap fun entry =>
      Bytes.ofU16 entry.packetId ++ Bytes.ofU16 entry.lostPacketBitmask)

def encodePli (pli : PictureLossIndication) : Bytes :=
  Bytes.ofU32 pli.senderSsrc ++ Bytes.ofU32 pli.mediaSsrc

/-! ## Transport-wide feedback -/

def TwccStatus.symbol : TwccStatus → UInt16
  | .notReceived => 0
  | .receivedSmallDelta _ => 1
  | .receivedLargeDelta _ => 2

/-- A status vector chunk of two-bit symbols. -/
def statusChunk (statuses : List TwccStatus) : UInt16 :=
  statuses.zipIdx.foldl
    (fun chunk entry => chunk ||| entry.1.symbol <<< .ofNat (12 - entry.2 * 2)) 0xc000

/-- The chunks of seven statuses; every round takes one, so the length is fuel enough. -/
def encodeStatuses : ℕ → List TwccStatus → Bytes
  | 0, _ => []
  | fuel + 1, statuses =>
      if statuses.isEmpty then []
      else Bytes.ofU16 (statusChunk (statuses.take 7)) ++ encodeStatuses fuel (statuses.drop 7)

def TwccStatus.delta : TwccStatus → Bytes
  | .notReceived => []
  | .receivedSmallDelta delta => [delta]
  | .receivedLargeDelta delta => Bytes.ofU16 delta.toUInt16

def encodeTwcc (feedback : TransportWideFeedback) : Except RtcpError Bytes :=
  if 65535 < feedback.statuses.length then
    .error .invalidTwccStatusCount
  else if !fitsI24 feedback.referenceTime then
    .error (.invalidReferenceTime feedback.referenceTime)
  else
    .ok (align (Bytes.ofU32 feedback.senderSsrc ++ (Bytes.ofU32 feedback.mediaSsrc ++
      (Bytes.ofU16 feedback.baseSequenceNumber ++ (Bytes.ofU16 (.ofNat feedback.statuses.length) ++
        (ofI24 feedback.referenceTime ++ ([feedback.feedbackPacketCount] ++
          (encodeStatuses feedback.statuses.length feedback.statuses ++
            feedback.statuses.flatMap TwccStatus.delta))))))))

/-! ## Compound datagrams -/

def headerLen : ℕ := 4
def maxPacketLen : ℕ := 262144

/-- The count, the type and the body of a packet. -/
def encodePacket : Packet → Except RtcpError (UInt8 × UInt8 × Bytes)
  | .senderReport report => encodeSenderReport report
  | .receiverReport report => encodeReceiverReport report
  | .sourceDescription description => encodeSdes description
  | .genericNack nack => .ok (1, 205, encodeNack nack)
  | .pictureLossIndication pli => .ok (1, 206, encodePli pli)
  | .transportWideFeedback feedback => do
      let body ← encodeTwcc feedback
      return (15, 205, body)
  | .raw packet => .ok (packet.count, packet.packetType, packet.body)

/-- One round of `encode_compound`: the common header and the aligned body of a packet. -/
def encodeFrame (packet : Packet) : Except RtcpError Bytes := do
  let (count, packetType, body) ← encodePacket packet
  let wordsMinusOne := ((align body).length + headerLen) / 4 - 1
  if 65535 < wordsMinusOne then
    .error .packetTooLarge
  else if 31 < count then
    .error (.countTooLarge count.toNat)
  else
    return [0x80 ||| count, packetType] ++ Bytes.ofU16 (.ofNat wordsMinusOne) ++ align body

/-- The loop of `encode_compound`, behind what has been written before. -/
def encodePackets : Bytes → List Packet → Except RtcpError Bytes
  | output, [] => .ok output
  | output, packet :: rest => do
      let frame ← encodeFrame packet
      let output := output ++ frame
      if maxPacketLen < output.length then .error .packetTooLarge else encodePackets output rest

/-- Encodes packets into one RTCP compound datagram. -/
def encodeCompound (packets : List Packet) : Except RtcpError Bytes := encodePackets [] packets

/-! ## Reading back -/

section Reading

variable {body rest : Bytes} {position : ℕ}

theorem readU8_of_drop {byte : UInt8} (h : body.drop position = [byte] ++ rest) :
    readU8 body position = .ok byte := by
  have hbyte : body[position]? = some byte := by
    have hhead : (body.drop position)[0]? = some byte := by rw [h]; rfl
    simpa using hhead
  rw [readU8, hbyte]
  rfl

theorem readU16_of_drop {word : UInt16} (h : body.drop position = Bytes.ofU16 word ++ rest) :
    readU16 body position = .ok word := by
  rw [readU16, Bytes.u16At_of_drop h]
  rfl

theorem readU32_of_drop {word : UInt32} (h : body.drop position = Bytes.ofU32 word ++ rest) :
    readU32 body position = .ok word := by
  rw [readU32, Bytes.u32At_of_drop h]
  rfl

theorem halves_eq (word : UInt64) :
    (word >>> 32).toUInt32.toUInt64 <<< 32 ||| word.toUInt32.toUInt64 = word := by
  apply UInt64.toNat_inj.mp
  have hword := word.toNat_lt
  have hlow : word.toNat % 2 ^ 32 < 2 ^ 32 := Nat.mod_lt _ (by decide)
  have hhigh : ((word >>> 32).toUInt32.toUInt64 <<< 32).toNat = (word.toNat / 2 ^ 32) <<< 32 := by
    simp [Nat.shiftRight_eq_div_pow, Nat.shiftLeft_eq]
    omega
  have hlowWord : word.toUInt32.toUInt64.toNat = word.toNat % 2 ^ 32 := by simp
  rw [UInt64.toNat_or, hhigh, hlowWord, ← Nat.shiftLeft_add_eq_or_of_lt hlow, Nat.shiftLeft_eq]
  omega

theorem readU64_of_drop {word : UInt64} (h : body.drop position = ofU64 word ++ rest) :
    readU64 body position = .ok word := by
  rw [ofU64, List.append_assoc] at h
  have hlow : body.drop (position + 4) = _ := Bytes.drop_behind h rfl
  rw [readU64, readU32_of_drop h, bind_ok, readU32_of_drop hlow, bind_ok, halves_eq]
  rfl

@[simp] theorem length_ofI24 (value : ℤ) : (ofI24 value).length = 3 := Bytes.length_ofNat 3 _

theorem signed_ofI24 {value : ℤ} (h : fitsI24 value = true) : signed (ofI24 value) = value := by
  have hrange : -8388608 ≤ value ∧ value ≤ 8388607 := by simpa [fitsI24] using h
  have hnat : Bytes.toNat (ofI24 value) = (value % 2 ^ 24).toNat := by
    rw [ofI24, Bytes.toNat_ofNat]
    omega
  show (if Bytes.toNat (ofI24 value) < 256 ^ (ofI24 value).length / 2 then
    (Bytes.toNat (ofI24 value) : ℤ)
    else (Bytes.toNat (ofI24 value) : ℤ) - 256 ^ (ofI24 value).length) = value
  rw [length_ofI24, hnat]
  split_ifs <;> omega

theorem readI24_of_drop {value : ℤ} (hfits : fitsI24 value = true)
    (h : body.drop position = ofI24 value ++ rest) : readI24 body position = .ok value := by
  have htake : (body.drop position).take 3 = ofI24 value := by
    rw [h]
    exact List.take_left' (length_ofI24 value)
  rw [readI24, htake, if_neg (by simp), signed_ofI24 hfits]

end Reading

theorem toNat_of_checkedCount {n : ℕ} {count : UInt8} (h : checkedCount n = .ok count) :
    count.toNat = n := by
  rw [checkedCount, ite_error_eq_ok] at h
  cases h.2
  rw [UInt8.toNat_ofNat']
  omega

/-! ## Reports -/

theorem length_encodeReportBlocks {reports : List ReportBlock} {bytes : Bytes}
    (h : encodeReportBlocks reports = .ok bytes) :
    bytes.length = reports.length * reportBlockLen := by
  induction reports generalizing bytes with
  | nil =>
    cases h
    rfl
  | cons report reports ih =>
    rw [encodeReportBlocks, ite_error_eq_ok, bind_eq_ok] at h
    obtain ⟨-, others, hothers, h⟩ := h
    rw [pure_eq_ok] at h
    subst h
    have hlen := ih hothers
    simp [ofI24, hlen, reportBlockLen]
    omega

theorem parseReportBlocks_encode {reports : List ReportBlock} {body bytes rest : Bytes}
    {position : ℕ} (h : encodeReportBlocks reports = .ok bytes)
    (hdrop : body.drop position = bytes ++ rest) :
    parseReportBlocks body position reports.length = .ok reports := by
  induction reports generalizing bytes position with
  | nil => rfl
  | cons report reports ih =>
    rw [encodeReportBlocks, ite_error_eq_ok, bind_eq_ok] at h
    obtain ⟨hfits, others, hothers, h⟩ := h
    rw [Bool.not_eq_true', Bool.not_eq_false] at hfits
    rw [pure_eq_ok] at h
    subst h
    simp only [List.append_assoc] at hdrop
    have h1 : body.drop (position + 4) = _ := Bytes.drop_behind hdrop rfl
    have h2 : body.drop (position + 5) = _ := Bytes.drop_behind h1 rfl
    have h3 : body.drop (position + 8) = _ := Bytes.drop_behind h2 (by simp)
    have h4 : body.drop (position + 12) = _ := Bytes.drop_behind h3 rfl
    have h5 : body.drop (position + 16) = _ := Bytes.drop_behind h4 rfl
    have h6 : body.drop (position + 20) = _ := Bytes.drop_behind h5 rfl
    have h7 : body.drop (position + reportBlockLen) = _ := Bytes.drop_behind h6 rfl
    rw [List.length_cons, parseReportBlocks, readU32_of_drop hdrop, bind_ok, readU8_of_drop h1, bind_ok,
      readI24_of_drop hfits h2, bind_ok, readU32_of_drop h3, bind_ok, readU32_of_drop h4, bind_ok,
      readU32_of_drop h5, bind_ok, readU32_of_drop h6, bind_ok, ih hothers h7, bind_ok]
    rfl

theorem parseSenderReport_encode {report : SenderReport} {count packetType : UInt8} {body : Bytes}
    (h : encodeSenderReport report = .ok (count, packetType, body)) :
    packetType = 200 ∧ body.length % 4 = 0 ∧ parseSenderReport count body = .ok report := by
  rw [encodeSenderReport, bind_eq_ok] at h
  obtain ⟨number, hcount, h⟩ := h
  rw [bind_eq_ok] at h
  obtain ⟨reports, hreports, h⟩ := h
  rw [pure_eq_ok, Prod.mk.injEq, Prod.mk.injEq] at h
  obtain ⟨rfl, rfl, hbody⟩ := h
  have hnumber := toNat_of_checkedCount hcount
  have hlen := length_encodeReportBlocks hreports
  have hlength : body.length = 24 + number.toNat * reportBlockLen := by
    rw [← hbody, hnumber]
    simp [ofU64, hlen]
    omega
  have h0 : body.drop 0 = _ := hbody.symm
  have h1 : body.drop 4 = _ := Bytes.drop_behind h0 rfl
  have h2 : body.drop 12 = _ := Bytes.drop_behind h1 rfl
  have h3 : body.drop 16 = _ := Bytes.drop_behind h2 rfl
  have h4 : body.drop 20 = _ := Bytes.drop_behind h3 rfl
  have h5 : body.drop 24 = reports ++ [] := (Bytes.drop_behind h4 rfl).trans (List.append_nil _).symm
  refine ⟨rfl, by rw [hlength, reportBlockLen]; omega, ?_⟩
  rw [parseSenderReport, requireBodyLen, if_pos hlength, bind_ok, readU32_of_drop h0, bind_ok,
    readU64_of_drop h1, bind_ok, readU32_of_drop h2, bind_ok, readU32_of_drop h3, bind_ok,
    readU32_of_drop h4, bind_ok, hnumber, parseReportBlocks_encode hreports h5, bind_ok]
  rfl

theorem parseReceiverReport_encode {report : ReceiverReport} {count packetType : UInt8}
    {body : Bytes} (h : encodeReceiverReport report = .ok (count, packetType, body)) :
    packetType = 201 ∧ body.length % 4 = 0 ∧ parseReceiverReport count body = .ok report := by
  rw [encodeReceiverReport, bind_eq_ok] at h
  obtain ⟨number, hcount, h⟩ := h
  rw [bind_eq_ok] at h
  obtain ⟨reports, hreports, h⟩ := h
  rw [pure_eq_ok, Prod.mk.injEq, Prod.mk.injEq] at h
  obtain ⟨rfl, rfl, hbody⟩ := h
  have hnumber := toNat_of_checkedCount hcount
  have hlen := length_encodeReportBlocks hreports
  have hlength : body.length = 4 + number.toNat * reportBlockLen := by
    rw [← hbody, hnumber]
    simp [hlen]
  have h0 : body.drop 0 = _ := hbody.symm
  have h1 : body.drop 4 = reports ++ [] := (Bytes.drop_behind h0 rfl).trans (List.append_nil _).symm
  refine ⟨rfl, by rw [hlength, reportBlockLen]; omega, ?_⟩
  rw [parseReceiverReport, requireBodyLen, if_pos hlength, bind_ok, readU32_of_drop h0, bind_ok,
    hnumber, parseReportBlocks_encode hreports h1, bind_ok]
  rfl

/-! ## Feedback on packets and pictures -/

theorem parseNackEntries_encode (entries : List NackEntry) :
    parseNackEntries (entries.flatMap fun entry =>
      Bytes.ofU16 entry.packetId ++ Bytes.ofU16 entry.lostPacketBitmask) = entries := by
  induction entries with
  | nil => rfl
  | cons entry entries ih =>
    have hentry : (⟨Bytes.toU16 (entry.packetId >>> 8).toUInt8 entry.packetId.toUInt8,
        Bytes.toU16 (entry.lostPacketBitmask >>> 8).toUInt8 entry.lostPacketBitmask.toUInt8⟩ :
          NackEntry) = entry := by
      rw [Bytes.toU16_ofU16, Bytes.toU16_ofU16]
    exact congrArg₂ List.cons hentry ih

theorem length_encodeNack (nack : GenericNack) :
    (encodeNack nack).length = 8 + nack.entries.length * 4 := by
  simp [encodeNack, List.length_flatMap]
  omega

theorem parseNack_encode (nack : GenericNack) : parseNack (encodeNack nack) = .ok nack := by
  have hlength := length_encodeNack nack
  have h0 : (encodeNack nack).drop 0 = _ := List.drop_zero
  have h1 : (encodeNack nack).drop 4 = _ := Bytes.drop_behind h0 rfl
  have h2 : (encodeNack nack).drop 8 = _ := Bytes.drop_behind h1 rfl
  rw [parseNack, if_neg (by omega), readU32_of_drop h0, bind_ok, readU32_of_drop h1, bind_ok, h2,
    parseNackEntries_encode]
  rfl

theorem parsePli_encode (pli : PictureLossIndication) : parsePli (encodePli pli) = .ok pli := by
  have h0 : (encodePli pli).drop 0 = _ := List.drop_zero
  have h1 : (encodePli pli).drop 4 = Bytes.ofU32 pli.mediaSsrc ++ [] := Bytes.drop_behind h0 rfl
  rw [parsePli, requireBodyLen, if_pos (by rfl), bind_ok, readU32_of_drop h0, bind_ok,
    readU32_of_drop h1, bind_ok]
  rfl

/-! ## Source descriptions -/

theorem length_le_encodeItems {items : List SdesItem} {bytes : Bytes}
    (h : encodeItems items = .ok bytes) : items.length ≤ bytes.length := by
  induction items generalizing bytes with
  | nil => simp
  | cons item items ih =>
    rw [encodeItems, ite_error_eq_ok, bind_eq_ok] at h
    obtain ⟨-, others, hothers, h⟩ := h
    rw [pure_eq_ok] at h
    subst h
    have hlen := ih hothers
    simp
    omega

/-- The items of a chunk are read back up to the END marker, unless one of them is one. -/
theorem parseItems_encode {items : List SdesItem} {body bytes rest : Bytes} {fuel position : ℕ}
    (h : encodeItems items = .ok bytes) (hend : ∀ item ∈ items, item.itemType ≠ 0)
    (hfuel : items.length < fuel) (hdrop : body.drop position = bytes ++ ([0] ++ rest)) :
    parseItems body fuel position = .ok (items, position + bytes.length + 1) := by
  induction items generalizing bytes fuel position with
  | nil =>
    cases h
    obtain ⟨fuel, rfl⟩ := Nat.exists_eq_add_one_of_ne_zero (Nat.ne_of_gt hfuel)
    rw [parseItems, readU8_of_drop hdrop, bind_ok, if_pos rfl]
    rfl
  | cons item items ih =>
    rw [encodeItems, ite_error_eq_ok, bind_eq_ok] at h
    obtain ⟨hlength, others, hothers, h⟩ := h
    rw [pure_eq_ok] at h
    subst h
    obtain ⟨fuel, rfl⟩ := Nat.exists_eq_add_one_of_ne_zero (Nat.ne_of_gt (Nat.zero_lt_of_lt hfuel))
    have hlen : (UInt8.ofNat item.value.length).toNat = item.value.length := by
      rw [UInt8.toNat_ofNat']
      omega
    have h0 : body.drop position = [item.itemType] ++ ([.ofNat item.value.length] ++
        (item.value ++ (others ++ ([0] ++ rest)))) := by
      rw [hdrop]
      simp
    have h1 : body.drop (position + 1) = _ := Bytes.drop_behind h0 rfl
    have h2 : body.drop (position + 2) = _ := Bytes.drop_behind h1 rfl
    have h3 : body.drop (position + 2 + item.value.length) = _ := Bytes.drop_behind h2 rfl
    have hroom : position + 2 + item.value.length ≤ body.length := by
      have htail := congrArg List.length h2
      rw [List.length_drop, List.length_append, List.length_append, List.length_append] at htail
      simp at htail
      omega
    have hrest := ih hothers (fun item hitem => hend item (List.mem_cons_of_mem _ hitem))
      (Nat.lt_of_succ_lt_succ hfuel) h3
    rw [parseItems, readU8_of_drop h0, bind_ok, if_neg (hend item List.mem_cons_self),
      readU8_of_drop h1, bind_ok]
    dsimp only
    rw [hlen, if_neg (by omega), hrest, bind_ok, h2, List.take_left]
    refine congrArg Except.ok (Prod.ext rfl ?_)
    simp
    omega

theorem skipAlignment_zeros {body rest : Bytes} {position : ℕ} (k : ℕ)
    (h : body.drop position = List.replicate k 0 ++ rest) :
    skipAlignment body k position = .ok (position + k) := by
  induction k generalizing position with
  | zero => rfl
  | succ k ih =>
    have h0 : body.drop position = [0] ++ (List.replicate k 0 ++ rest) := h
    have h1 : body.drop (position + 1) = _ := Bytes.drop_behind h0 rfl
    rw [skipAlignment, readU8_of_drop h0, bind_ok, if_pos rfl, ih h1]
    refine congrArg Except.ok ?_
    omega

theorem length_align (bytes : Bytes) : (align bytes).length = Bytes.pad4 bytes.length := by
  have hpad : bytes.length ≤ Bytes.pad4 bytes.length := by
    unfold Bytes.pad4
    omega
  rw [align, List.length_append, List.length_replicate]
  omega

theorem pad4_mod (n : ℕ) : Bytes.pad4 n % 4 = 0 := by
  unfold Bytes.pad4
  omega

theorem align_of_mod {bytes : Bytes} (h : bytes.length % 4 = 0) : align bytes = bytes := by
  have hpad : Bytes.pad4 bytes.length - bytes.length = 0 := by
    unfold Bytes.pad4
    omega
  rw [align, hpad, List.replicate_zero, List.append_nil]

theorem parseChunks_encode {chunks : List SdesChunk} {body bytes rest : Bytes} {position : ℕ}
    (h : encodeChunks chunks = .ok bytes)
    (hend : ∀ chunk ∈ chunks, ∀ item ∈ chunk.items, item.itemType ≠ 0)
    (hdrop : body.drop position = bytes ++ rest) :
    parseChunks body position chunks.length = .ok (chunks, position + bytes.length) := by
  induction chunks generalizing bytes position with
  | nil =>
    cases h
    rfl
  | cons chunk chunks ih =>
    rw [encodeChunks, bind_eq_ok] at h
    obtain ⟨front, hfront, h⟩ := h
    rw [bind_eq_ok] at h
    obtain ⟨others, hothers, h⟩ := h
    rw [pure_eq_ok] at h
    subst h
    rw [encodeChunk, bind_eq_ok] at hfront
    obtain ⟨items, hitems, hfront⟩ := hfront
    rw [pure_eq_ok] at hfront
    subst hfront
    have hsize : (Bytes.ofU32 chunk.ssrc ++ (items ++ [0])).length = items.length + 5 := by
      simp
      omega
    have hzeros := length_align (Bytes.ofU32 chunk.ssrc ++ (items ++ [0]))
    have hpadded : items.length + 5 ≤ Bytes.pad4 (items.length + 5) := by
      unfold Bytes.pad4
      omega
    rw [hsize] at hzeros
    have h0 : body.drop position = Bytes.ofU32 chunk.ssrc ++ (items ++ ([0] ++
        (List.replicate (Bytes.pad4 (items.length + 5) - (items.length + 5)) 0 ++
          (others ++ rest)))) := by
      rw [hdrop, align, hsize]
      simp only [List.append_assoc]
    have h1 : body.drop (position + 4) = _ := Bytes.drop_behind h0 rfl
    have h2 : body.drop (position + 4 + items.length) = _ := Bytes.drop_behind h1 rfl
    have h3 : body.drop (position + 4 + items.length + 1) = _ := Bytes.drop_behind h2 rfl
    have h4 : body.drop (position + Bytes.pad4 (items.length + 5)) = _ :=
      Bytes.drop_behind h3 (by rw [List.length_replicate]; omega)
    have hfew : chunk.items.length < body.length + 1 := by
      have htail := congrArg List.length h1
      rw [List.length_drop, List.length_append] at htail
      have hcount := length_le_encodeItems hitems
      omega
    have hgap : Bytes.pad4 (position + 4 + items.length + 1 - position) -
        (position + 4 + items.length + 1 - position) =
          Bytes.pad4 (items.length + 5) - (items.length + 5) := by
      rw [show position + 4 + items.length + 1 - position = items.length + 5 by omega]
    have hstop : position + 4 + items.length + 1 +
        (Bytes.pad4 (items.length + 5) - (items.length + 5)) =
          position + Bytes.pad4 (items.length + 5) := by omega
    have hrest := ih hothers (fun chunk hchunk => hend chunk (List.mem_cons_of_mem _ hchunk)) h4
    rw [List.length_cons, parseChunks, readU32_of_drop h0, bind_ok,
      parseItems_encode hitems (hend chunk List.mem_cons_self) hfew h1, bind_ok]
    dsimp only
    rw [hgap, skipAlignment_zeros _ h3, bind_ok, hstop, hrest, bind_ok]
    refine congrArg Except.ok (Prod.ext rfl ?_)
    show position + Bytes.pad4 (items.length + 5) + others.length = _
    rw [List.length_append, hzeros]
    omega

theorem length_encodeChunks {chunks : List SdesChunk} {bytes : Bytes}
    (h : encodeChunks chunks = .ok bytes) : bytes.length % 4 = 0 := by
  induction chunks generalizing bytes with
  | nil =>
    cases h
    rfl
  | cons chunk chunks ih =>
    rw [encodeChunks, bind_eq_ok] at h
    obtain ⟨front, hfront, h⟩ := h
    rw [bind_eq_ok] at h
    obtain ⟨others, hothers, h⟩ := h
    rw [pure_eq_ok] at h
    subst h
    rw [encodeChunk, bind_eq_ok] at hfront
    obtain ⟨items, -, hfront⟩ := hfront
    rw [pure_eq_ok] at hfront
    have hlen : front.length % 4 = 0 := by
      rw [← hfront, length_align]
      exact pad4_mod _
    have hothersLen := ih hothers
    rw [List.length_append]
    omega

/-- An item with the type of the END marker is never read. -/
theorem itemType_of_parseItems {body : Bytes} {fuel position stop : ℕ} {items : List SdesItem}
    (h : parseItems body fuel position = .ok (items, stop)) :
    ∀ item ∈ items, item.itemType ≠ 0 := by
  induction fuel generalizing position items stop with
  | zero => cases h
  | succ fuel ih =>
    rw [parseItems, bind_eq_ok] at h
    obtain ⟨itemType, -, h⟩ := h
    split_ifs at h with hend
    · cases h
      simp
    · rw [bind_eq_ok] at h
      obtain ⟨length, -, h⟩ := h
      dsimp only at h
      rw [ite_error_eq_ok, bind_eq_ok] at h
      obtain ⟨-, ⟨others, last⟩, hothers, h⟩ := h
      cases h
      intro item hitem
      rcases List.mem_cons.mp hitem with rfl | hitem
      · exact hend
      · exact ih hothers item hitem

theorem itemType_of_parseChunks {body : Bytes} {position count stop : ℕ} {chunks : List SdesChunk}
    (h : parseChunks body position count = .ok (chunks, stop)) :
    ∀ chunk ∈ chunks, ∀ item ∈ chunk.items, item.itemType ≠ 0 := by
  induction count generalizing position chunks stop with
  | zero =>
    cases h
    simp
  | succ count ih =>
    rw [parseChunks, bind_eq_ok] at h
    obtain ⟨ssrc, -, h⟩ := h
    rw [bind_eq_ok] at h
    obtain ⟨⟨items, behind⟩, hitems, h⟩ := h
    dsimp only at h
    rw [bind_eq_ok] at h
    obtain ⟨next, -, h⟩ := h
    rw [bind_eq_ok] at h
    obtain ⟨⟨others, last⟩, hothers, h⟩ := h
    cases h
    intro chunk hchunk
    rcases List.mem_cons.mp hchunk with rfl | hchunk
    · exact itemType_of_parseItems hitems
    · exact ih hothers chunk hchunk

/-- A source description is read back exactly if no item has the type of the END marker. -/
theorem parseSourceDescription_encode_iff {description : SourceDescription}
    {count packetType : UInt8} {body : Bytes}
    (h : encodeSdes description = .ok (count, packetType, body)) :
    packetType = 202 ∧ body.length % 4 = 0 ∧
      (parseSourceDescription count body = .ok description ↔
        ∀ chunk ∈ description.chunks, ∀ item ∈ chunk.items, item.itemType ≠ 0) := by
  rw [encodeSdes, bind_eq_ok] at h
  obtain ⟨number, hcount, h⟩ := h
  rw [bind_eq_ok] at h
  obtain ⟨chunks, hchunks, h⟩ := h
  rw [pure_eq_ok, Prod.mk.injEq, Prod.mk.injEq] at h
  obtain ⟨rfl, rfl, rfl⟩ := h
  refine ⟨rfl, length_encodeChunks hchunks, ?_⟩
  rw [parseSourceDescription, toNat_of_checkedCount hcount]
  constructor
  · intro h
    rw [bind_eq_ok] at h
    obtain ⟨⟨parsed, position⟩, hparsed, h⟩ := h
    dsimp only at h
    rw [ite_error_eq_ok, pure_eq_ok] at h
    obtain ⟨-, rfl⟩ := h
    exact itemType_of_parseChunks hparsed
  · intro hend
    have h0 : chunks.drop 0 = chunks ++ [] := by simp
    rw [parseChunks_encode hchunks hend h0, bind_ok]
    dsimp only
    rw [Nat.zero_add, if_neg (by simp)]
    rfl

end Fluvora.Rtcp
