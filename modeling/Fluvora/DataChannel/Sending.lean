import Fluvora.Lib.Maps
import Fluvora.DataChannel.Association

/-!
# What the send side of an association does

One statement for each function that writes the send side: `enqueueMessage` either finds the window
full and changes nothing, or assigns the next TSNs to its fragments; a SACK only removes outstanding
chunks after it has moved the cumulative TSN; `tick` moves chunks from the outstanding to the
abandoned ones.  Later modules cite these and do not unfold the functions.
-/

open Std (ExtTreeMap)

namespace Fluvora.DataChannel

open Fallible

/-! ## Packets that fit -/

theorem buildPacket_ok (sourcePort destinationPort : UInt16) (tag : UInt32) (kind flags : UInt8)
    {value : Bytes} (h : value.length ≤ 65516) :
    ∃ packet, buildPacket sourcePort destinationPort tag kind flags value = .ok packet := by
  have hpad : Bytes.pad4 (chunkHeaderLen + value.length) ≤ 65520 := by
    unfold Bytes.pad4 chunkHeaderLen
    omega
  have hchunk : ¬65535 < chunkHeaderLen + value.length := by
    unfold chunkHeaderLen
    omega
  have hpacket : ¬65535 < commonHeaderLen + Bytes.pad4 (chunkHeaderLen + value.length) := by
    unfold commonHeaderLen
    omega
  unfold buildPacket
  simp only [if_neg hchunk, if_neg hpacket]
  exact ⟨_, rfl⟩

namespace Association

theorem peerTag_eq {s : Association} {tag : UInt32} (h : s.peerVerificationTag = some tag) :
    s.peerTag = .ok tag := by
  rw [peerTag, h]
  rfl

theorem packetWithChunk_ok (s : Association) (tag : UInt32) (kind flags : UInt8) {value : Bytes}
    (h : value.length ≤ 65516) : ∃ packet, s.packetWithChunk tag kind flags value = .ok packet :=
  buildPacket_ok _ _ _ _ _ h

/-! ## Queueing a message -/

/-- An outstanding chunk belongs to a message of this stream, number and order. -/
def Outstanding.carries (entry : Outstanding) (message : OutboundMessage) : Prop :=
  entry.streamId = message.streamId ∧ entry.streamSequence = message.streamSequence ∧
    entry.ordered = message.ordered

theorem enqueueFragment_run (now : ℕ) (message : OutboundMessage) (messageId : UInt64)
    (index count : ℕ) {fragment : Bytes} (s : Association) {tag : UInt32}
    (htag : s.peerVerificationTag = some tag) (hlen : fragment.length ≤ maxDataPayload) :
    ∃ packet entry, (enqueueFragment now message messageId index count fragment).run s =
        (.ok packet, { s with
          nextTsn := s.nextTsn + 1
          outstanding := s.outstanding.insert s.nextTsn entry }) ∧
      Outstanding.carries entry message := by
  have hvalue : (dataValue s.nextTsn message fragment).length ≤ 65516 := by
    simp only [dataValue, List.length_append, Bytes.length_ofU16, Bytes.length_ofU32,
      maxDataPayload, maxPacketBytes, commonHeaderLen, dataFixedLen] at hlen ⊢
    omega
  obtain ⟨packet, hpacket⟩ := s.packetWithChunk_ok tag typeData
    (fragmentFlags message.ordered index count) hvalue
  simp only [enqueueFragment, run_get_bind, run_modify_bind, peerTag_eq htag, hpacket,
    run_ofExcept_bind, run_pure]
  exact ⟨packet, _, rfl, rfl, rfl, rfl⟩

/-- The fragment loop assigns consecutive TSNs and keeps every fragment outstanding. -/
theorem enqueueFragments_run (now : ℕ) (message : OutboundMessage) (messageId : UInt64)
    (count index : ℕ) (fragments : List Bytes) (s : Association) {tag : UInt32}
    (htag : s.peerVerificationTag = some tag)
    (hlen : ∀ fragment ∈ fragments, fragment.length ≤ maxDataPayload) :
    ∃ packets outstanding,
      (enqueueFragments now message messageId count index fragments).run s =
        (.ok packets, { s with nextTsn := s.nextTsn + .ofNat fragments.length, outstanding }) ∧
      ∀ tsn, tsn ∈ outstanding ↔
        tsn ∈ s.outstanding ∨ ∃ i < fragments.length, tsn = s.nextTsn + .ofNat i := by
  induction fragments generalizing s index with
  | nil =>
    refine ⟨[], s.outstanding, ?_, ?_⟩
    · simp [enqueueFragments]
    · simp
  | cons fragment rest ih =>
    obtain ⟨packet, entry, hfirst, -⟩ := enqueueFragment_run now message messageId index count s
      htag (hlen fragment List.mem_cons_self)
    obtain ⟨packets, outstanding, hrest, hmem⟩ := ih (index + 1)
      { s with nextTsn := s.nextTsn + 1, outstanding := s.outstanding.insert s.nextTsn entry }
      htag fun fragment h => hlen fragment (List.mem_cons_of_mem _ h)
    have hshift : ∀ i : ℕ, s.nextTsn + 1 + UInt32.ofNat i = s.nextTsn + UInt32.ofNat (i + 1) := by
      intro i
      rw [UInt32.ofNat_add]
      grind
    refine ⟨packet :: packets, outstanding, ?_, ?_⟩
    · simp only [enqueueFragments, run_bind, hfirst, hrest, hshift, run_pure, List.length_cons]
    · intro tsn
      simp only [hmem, ExtTreeMap.mem_insert, Std.compare_eq_iff_eq, hshift, List.length_cons]
      constructor
      · rintro ((rfl | h) | ⟨i, hi, rfl⟩)
        · exact .inr ⟨0, by omega, by simp⟩
        · exact .inl h
        · exact .inr ⟨i + 1, by omega, rfl⟩
      · rintro (h | ⟨_ | i, hi, rfl⟩)
        · exact .inl (.inr h)
        · exact .inl (.inl (by simp))
        · exact .inr ⟨i, by omega, rfl⟩

/-- What the fragment loop writes under a TSN belongs to the message. -/
theorem enqueueFragments_carries (now : ℕ) (message : OutboundMessage) (messageId : UInt64)
    (count index : ℕ) (fragments : List Bytes) (s : Association) {tag : UInt32}
    (htag : s.peerVerificationTag = some tag)
    (hlen : ∀ fragment ∈ fragments, fragment.length ≤ maxDataPayload) (tsn : UInt32)
    (h : (tsn = s.nextTsn ∧ fragments ≠ []) ∨
      ∃ entry, s.outstanding[tsn]? = some entry ∧ Outstanding.carries entry message) :
    ∃ entry, ((enqueueFragments now message messageId count index fragments).run s).2.outstanding[
      tsn]? = some entry ∧ Outstanding.carries entry message := by
  induction fragments generalizing s index with
  | nil => simpa [enqueueFragments] using h
  | cons fragment rest ih =>
    obtain ⟨packet, entry, hfirst, hcarries⟩ := enqueueFragment_run now message messageId index
      count s htag (hlen fragment List.mem_cons_self)
    rw [enqueueFragments, run_bind, hfirst]
    dsimp only
    rw [state_run_bind_pure]
    apply ih
    · exact htag
    · exact fun fragment h => hlen fragment (List.mem_cons_of_mem _ h)
    · right
      dsimp only
      rw [ExtTreeMap.getElem?_insert]
      by_cases htsn : s.nextTsn = tsn
      · exact ⟨entry, by simp [htsn], hcarries⟩
      · obtain ⟨rfl, -⟩ | ⟨old, hold, hcarries'⟩ := h
        · exact absurd rfl htsn
        · exact ⟨old, by simp [htsn, hold], hcarries'⟩

/-- The message that is queued starts at the next TSN. -/
theorem enqueueMessage_queued (now : ℕ) (message : OutboundMessage) {payload : Bytes}
    (s : Association) {tag : UInt32} (htag : s.peerVerificationTag = some tag)
    (hroom : s.hasRoom (Bytes.chunks maxDataPayload payload).length = true)
    (hne : Bytes.chunks maxDataPayload payload ≠ []) :
    ∃ entry, ((enqueueMessage now message payload).run s).2.outstanding[s.nextTsn]? = some entry ∧
      Outstanding.carries entry message := by
  rw [enqueueMessage, run_get_bind, run_ensure_bind, if_pos hroom, run_modify_bind]
  apply enqueueFragments_carries
  · exact htag
  · exact fun _ h => Bytes.length_le_of_mem_chunks h
  · exact .inl ⟨rfl, hne⟩

/-- A full window refuses the whole message; otherwise every fragment gets a TSN. -/
theorem enqueueMessage_run (now : ℕ) (message : OutboundMessage) (payload : Bytes)
    (s : Association) {tag : UInt32} (htag : s.peerVerificationTag = some tag) :
    let count := (Bytes.chunks maxDataPayload payload).length
    (s.hasRoom count = false ∧
      (enqueueMessage now message payload).run s = (.error .sendWindowFull, s)) ∨
    (s.hasRoom count = true ∧ ∃ packets outstanding,
      (enqueueMessage now message payload).run s = (.ok packets, { s with
        nextTsn := s.nextTsn + .ofNat count
        nextMessageId := s.nextMessageId + 1
        outstanding }) ∧
      ∀ tsn, tsn ∈ outstanding ↔
        tsn ∈ s.outstanding ∨ ∃ i < count, tsn = s.nextTsn + .ofNat i) := by
  intro count
  simp only [enqueueMessage, run_get_bind, run_ensure_bind, run_modify_bind]
  by_cases hroom : s.hasRoom count = true
  · right
    refine ⟨hroom, ?_⟩
    obtain ⟨packets, outstanding, hrun, hmem⟩ := enqueueFragments_run now message s.nextMessageId
      count 0 (Bytes.chunks maxDataPayload payload)
      { s with nextMessageId := s.nextMessageId + 1 } htag
      fun _ h => Bytes.length_le_of_mem_chunks h
    rw [if_pos hroom]
    exact ⟨packets, outstanding, hrun, hmem⟩
  · left
    rw [if_neg hroom]
    exact ⟨by simpa using hroom, rfl⟩

/-- A channel only counts the message it sends; the rest is `enqueueMessage`. -/
theorem sendMessage_run (now : ℕ) (streamId : UInt16) (kind : MessageKind) (payload : Bytes)
    (s : Association) :
    (∃ error, (sendMessage now streamId kind payload).run s = (.error error, s)) ∨
    (s.state = .established ∧ ∃ channel message wirePayload, s.channels[streamId]? = some channel ∧
      (sendMessage now streamId kind payload).run s =
        (enqueueMessage now message wirePayload).run { s with
          channels := s.channels.insert streamId
            { channel with nextOutgoingSequence := channel.nextOutgoingSequence + 1 } }) := by
  unfold sendMessage
  rw [run_get_bind, run_ensure_bind]
  by_cases hstate : s.state = .established
  swap
  · rw [if_neg hstate]
    exact .inl ⟨_, rfl⟩
  rw [if_pos hstate, run_ensure_bind]
  by_cases hlen : payload.length ≤ s.config.maximumMessageBytes
  swap
  · rw [if_neg hlen]
    exact .inl ⟨_, rfl⟩
  rw [if_pos hlen, run_ensure_bind]
  split_ifs
  swap
  · exact .inl ⟨_, rfl⟩
  rw [run_ofOption_bind]
  rcases hchannel : s.channels[streamId]? with _ | channel
  · exact .inl ⟨_, rfl⟩
  · exact .inr ⟨hstate, channel, _, _, rfl, rfl⟩

/-! ## Acknowledgements -/

theorem mem_ackRange {cumulative tsn : UInt32} {start stop : ℕ}
    {outstanding : ExtTreeMap UInt32 Outstanding} :
    tsn ∈ ackRange cumulative start stop outstanding ↔ tsn ∈ outstanding ∧
      ∀ delta, start ≤ delta → delta ≤ stop → tsn ≠ cumulative + .ofNat delta := by
  have hfold : ∀ (deltas : List ℕ) (outstanding : ExtTreeMap UInt32 Outstanding),
      tsn ∈ deltas.foldl (fun o delta => o.erase (cumulative + .ofNat delta)) outstanding ↔
        tsn ∈ outstanding ∧ ∀ delta ∈ deltas, tsn ≠ cumulative + .ofNat delta := by
    intro deltas
    induction deltas with
    | nil => simp
    | cons delta rest ih =>
      intro outstanding
      rw [List.foldl_cons, ih, ExtTreeMap.mem_erase, ne_eq, Std.compare_eq_iff_eq]
      simp only [List.mem_cons, forall_eq_or_imp]
      grind
  rw [ackRange, hfold]
  refine and_congr_right fun _ => forall_congr' fun delta => ?_
  rw [List.mem_range'_1]
  constructor
  · intro h hstart hstop
    exact h ⟨hstart, by omega⟩
  · intro h hmem
    exact h hmem.1 (by omega)

/-- The gap blocks of a SACK that are applied: those before the first malformed one. -/
def appliedGaps (value : Bytes) : ℕ → ℕ → List (UInt16 × UInt16)
  | _, 0 => []
  | index, count + 1 =>
      match readU16 value (12 + index * 4), readU16 value (12 + index * 4 + 2) with
      | .ok start, .ok stop =>
          if start ≠ 0 ∧ start ≤ stop then (start, stop) :: appliedGaps value (index + 1) count
          else []
      | _, _ => []

/-- The outstanding chunks a list of gap blocks leaves. -/
def ackBlocks (cumulative : UInt32) (blocks : List (UInt16 × UInt16))
    (outstanding : ExtTreeMap UInt32 Outstanding) : ExtTreeMap UInt32 Outstanding :=
  blocks.foldl (fun o block => ackRange cumulative block.1.toNat block.2.toNat o) outstanding

theorem ackGaps_run (value : Bytes) (cumulative : UInt32) (index count : ℕ) (s : Association) :
    ∃ result, (ackGaps value cumulative index count).run s = (result, { s with
        outstanding := ackBlocks cumulative (appliedGaps value index count) s.outstanding }) ∧
      (result.isOk = true ↔ (appliedGaps value index count).length = count) := by
  induction count generalizing index s with
  | zero => exact ⟨.ok (), rfl, by simp [appliedGaps, Except.isOk, Except.toBool]⟩
  | succ count ih =>
    simp only [ackGaps, run_ofExcept_bind, run_ensure_bind, run_modify_bind, appliedGaps]
    rcases readU16 value (12 + index * 4) with error | start
    · exact ⟨.error error, rfl, by simp [Except.isOk, Except.toBool]⟩
    rcases readU16 value (12 + index * 4 + 2) with error | stop
    · exact ⟨.error error, rfl, by simp [Except.isOk, Except.toBool]⟩
    by_cases hblock : start ≠ 0 ∧ start ≤ stop
    · obtain ⟨result, hrun, hok⟩ := ih (index + 1)
        { s with outstanding := ackRange cumulative start.toNat stop.toNat s.outstanding }
      refine ⟨result, ?_, ?_⟩
      · simp only [if_pos hblock, hrun]
        rfl
      · simp [if_pos hblock, hok]
    · refine ⟨.error .malformedChunk, ?_, ?_⟩
      · simp only [if_neg hblock]
        rfl
      · simp [if_neg hblock, Except.isOk, Except.toBool]

theorem mem_ackBlocks {cumulative tsn : UInt32} {blocks : List (UInt16 × UInt16)}
    {outstanding : ExtTreeMap UInt32 Outstanding} :
    tsn ∈ ackBlocks cumulative blocks outstanding ↔ tsn ∈ outstanding ∧
      ∀ block ∈ blocks, ∀ delta, block.1.toNat ≤ delta → delta ≤ block.2.toNat →
        tsn ≠ cumulative + .ofNat delta := by
  induction blocks generalizing outstanding with
  | nil => simp [ackBlocks]
  | cons block rest ih =>
    rw [ackBlocks, List.foldl_cons]
    refine ih.trans ?_
    rw [mem_ackRange, List.forall_mem_cons, and_assoc]

/-- The cumulative TSN and the two counts of a SACK whose header passes. -/
def sackHeader (value : Bytes) : Option (UInt32 × ℕ) :=
  match readU32 value 0, readU16 value 8, readU16 value 10 with
  | .ok cumulative, .ok gapCount, .ok duplicateCount =>
      if sackFixedLen - 4 ≤ value.length ∧
          12 + gapCount.toNat * 4 + duplicateCount.toNat * 4 ≤ value.length then
        some (cumulative, gapCount.toNat)
      else none
  | _, _, _ => none

/-- A SACK with a bad header changes nothing; otherwise its cumulative TSN and its gap blocks up
to the first malformed one are applied. -/
theorem handleSack_run (value : Bytes) (s : Association) :
    match sackHeader value with
    | none => ∃ error, (handleSack value).run s = (.error error, s)
    | some (cumulative, gapCount) =>
        ∃ result, (handleSack value).run s = (result, { ackCumulative cumulative s with
          outstanding := ackBlocks cumulative (appliedGaps value 0 gapCount)
            (ackCumulative cumulative s).outstanding }) ∧
        (result.isOk = true ↔ (appliedGaps value 0 gapCount).length = gapCount) := by
  unfold sackHeader handleSack
  simp only [run_ensure_bind, run_ofExcept_bind, run_modify_bind]
  rcases readU32 value 0 with error | cumulative
  · exact ⟨if sackFixedLen - 4 ≤ value.length then error else .malformedChunk, by split_ifs <;> rfl⟩
  rcases readU16 value 8 with error | gapCount
  · exact ⟨if sackFixedLen - 4 ≤ value.length then error else .malformedChunk, by split_ifs <;> rfl⟩
  rcases readU16 value 10 with error | duplicateCount
  · exact ⟨if sackFixedLen - 4 ≤ value.length then error else .malformedChunk, by split_ifs <;> rfl⟩
  by_cases hfixed : sackFixedLen - 4 ≤ value.length
  · by_cases hcounts : 12 + gapCount.toNat * 4 + duplicateCount.toNat * 4 ≤ value.length
    · simp only [hfixed, hcounts, and_self, if_true]
      exact ackGaps_run value cumulative 0 gapCount.toNat (ackCumulative cumulative s)
    · simp only [hfixed, hcounts, and_false, if_false, if_true]
      exact ⟨_, rfl⟩
  · simp only [hfixed, false_and, if_false]
    exact ⟨_, rfl⟩

/-! ## The timer -/

/-- The retransmission loop rewrites entries under their own TSN. -/
theorem mem_scanOutstanding (now : ℕ) (entries : List (UInt32 × Outstanding)) (scan : Scan)
    (h : ∀ entry ∈ entries, entry.1 ∈ scan.outstanding) (tsn : UInt32) :
    tsn ∈ (scanOutstanding now entries scan).outstanding ↔ tsn ∈ scan.outstanding := by
  induction entries generalizing scan with
  | nil => rfl
  | cons entry rest ih =>
    obtain ⟨key, outstanding⟩ := entry
    have hkey : key ∈ scan.outstanding := h _ List.mem_cons_self
    have hrest : ∀ entry ∈ rest, entry.1 ∈ scan.outstanding :=
      fun entry hmem => h entry (List.mem_cons_of_mem _ hmem)
    unfold scanOutstanding
    split_ifs
    · exact ih _ hrest
    · exact ih _ hrest
    · rfl
    · rw [ih]
      · rw [ExtTreeMap.mem_insert, Std.compare_eq_iff_eq]
        grind
      · intro entry hmem
        exact ExtTreeMap.mem_insert.mpr (.inr (hrest entry hmem))

theorem mem_abandonMessage (messageId : UInt64) (s : Association) (tsn : UInt32) :
    (tsn ∈ (abandonMessage messageId s).outstanding → tsn ∈ s.outstanding) ∧
    (tsn ∈ (abandonMessage messageId s).abandoned → tsn ∈ s.abandoned ∨ tsn ∈ s.outstanding) := by
  constructor
  · intro h
    exact (ExtTreeMap.mem_filter.mp h).1
  · have hfold : ∀ (entries : List (UInt32 × Outstanding)) (abandoned : ExtTreeMap UInt32 Abandoned),
        tsn ∈ entries.foldl
          (fun abandoned entry =>
            if entry.2.messageId = messageId then
              abandoned.insert entry.1
                ⟨entry.2.streamId, entry.2.streamSequence, entry.2.ordered⟩
            else abandoned) abandoned →
        tsn ∈ abandoned ∨ tsn ∈ entries.map Prod.fst := by
      intro entries
      induction entries with
      | nil => exact fun _ h => .inl h
      | cons entry rest ih =>
        intro abandoned h
        obtain ⟨key, outstanding⟩ := entry
        rw [List.foldl_cons] at h
        rcases ih _ h with h | h
        · simp only at h
          split_ifs at h
          · rw [ExtTreeMap.mem_insert, Std.compare_eq_iff_eq] at h
            rcases h with rfl | h
            · exact .inr (by simp)
            · exact .inl h
          · exact .inl h
        · exact .inr (by simp [h])
    intro h
    rcases hfold _ _ h with h | h
    · exact .inl h
    · rw [ExtTreeMap.map_fst_toList_eq_keys, ExtTreeMap.mem_keys] at h
      exact .inr h

/-- Building a FORWARD TSN writes nothing but the copy kept for its retransmission. -/
theorem buildForwardTsn_run (now : ℕ) (s : Association) :
    ∃ result pendingForwardTsn, (buildForwardTsn now).run s =
      (result, { s with pendingForwardTsn }) := by
  simp only [buildForwardTsn, run_get_bind]
  split_ifs
  · exact ⟨_, s.pendingForwardTsn, rfl⟩
  · exact ⟨_, s.pendingForwardTsn, rfl⟩
  · simp only [run_ofExcept_bind]
    rcases s.peerTag with error | tag
    · exact ⟨.error error, s.pendingForwardTsn, rfl⟩
    simp only
    split
    · exact ⟨_, _, rfl⟩
    · exact ⟨_, s.pendingForwardTsn, rfl⟩

theorem abandonAll_run (messages : List (UInt64 × UInt16 × UInt16)) (s : Association) :
    ∃ outstanding abandoned,
      messages.foldl (fun s entry => abandonMessage entry.1 s) s =
        { s with outstanding, abandoned } ∧
      (∀ tsn ∈ outstanding, tsn ∈ s.outstanding) ∧
      (∀ tsn ∈ abandoned, tsn ∈ s.abandoned ∨ tsn ∈ s.outstanding) := by
  induction messages generalizing s with
  | nil => exact ⟨s.outstanding, s.abandoned, rfl, fun _ h => h, fun _ h => .inl h⟩
  | cons message rest ih =>
    obtain ⟨outstanding, abandoned, hrun, hout, haband⟩ := ih (abandonMessage message.1 s)
    refine ⟨outstanding, abandoned, hrun, ?_, ?_⟩
    · intro tsn h
      exact (mem_abandonMessage message.1 s tsn).1 (hout tsn h)
    · intro tsn h
      rcases haband tsn h with h | h
      · exact (mem_abandonMessage message.1 s tsn).2 h
      · exact .inr ((mem_abandonMessage message.1 s tsn).1 h)

/-- `tick` may give the association up; otherwise it moves chunks from the outstanding to the
abandoned ones. -/
theorem tick_run (now : ℕ) (s : Association) :
    ∃ state outstanding abandoned pendingForwardTsn,
      (tick now s).2 = { s with state, outstanding, abandoned, pendingForwardTsn } ∧
      (state = s.state ∨ state = .failed) ∧
      (∀ tsn ∈ outstanding, tsn ∈ s.outstanding) ∧
      (∀ tsn ∈ abandoned, tsn ∈ s.abandoned ∨ tsn ∈ s.outstanding) := by
  unfold tick
  by_cases hstate : s.state ≠ .established
  · rw [if_pos hstate]
    exact ⟨s.state, s.outstanding, s.abandoned, s.pendingForwardTsn, rfl, .inl rfl,
      fun _ h => h, fun _ h => .inl h⟩
  rw [if_neg hstate]
  simp only
  generalize hscan : scanOutstanding now s.outstanding.toList { outstanding := s.outstanding } = scan
  have hkeys : ∀ tsn, tsn ∈ scan.outstanding ↔ tsn ∈ s.outstanding := by
    intro tsn
    rw [← hscan]
    refine mem_scanOutstanding now _ _ ?_ tsn
    intro entry hentry
    exact Maps.mem_of_getElem? (ExtTreeMap.mem_toList_iff_getElem?_eq_some.mp hentry)
  by_cases hfailed : scan.failed = true
  · rw [if_pos hfailed]
    exact ⟨.failed, scan.outstanding, s.abandoned, s.pendingForwardTsn, rfl, .inr rfl,
      fun tsn h => (hkeys tsn).mp h, fun _ h => .inl h⟩
  rw [if_neg hfailed]
  obtain ⟨outstanding, abandoned, hrun, hout, haband⟩ := abandonAll_run
    scan.abandonedMessages.toList { s with outstanding := scan.outstanding }
  rw [hrun]
  have hout' : ∀ tsn ∈ outstanding, tsn ∈ s.outstanding :=
    fun tsn h => (hkeys tsn).mp (hout tsn h)
  have haband' : ∀ tsn ∈ abandoned, tsn ∈ s.abandoned ∨ tsn ∈ s.outstanding :=
    fun tsn h => (haband tsn h).imp id (hkeys tsn).mp
  split_ifs
  · obtain ⟨result, pendingForwardTsn, hforward⟩ := buildForwardTsn_run now
      { s with outstanding, abandoned }
    refine ⟨s.state, outstanding, abandoned, pendingForwardTsn, ?_, .inl rfl, hout', haband'⟩
    rw [hforward]
    rcases result with _ | _ | _ <;> rfl
  · exact ⟨s.state, outstanding, abandoned, s.pendingForwardTsn, rfl, .inl rfl, hout', haband'⟩

end Association

end Fluvora.DataChannel
