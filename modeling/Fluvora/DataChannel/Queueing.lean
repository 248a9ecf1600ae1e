import Fluvora.Lib.Results
import Fluvora.DataChannel.Rejection
import Fluvora.DataChannel.SendNumbering
import Fluvora.DataChannel.Timer

/-!
# What is queued

`Queued` says what queueing a message writes: one outstanding chunk under each of the next TSNs, all
with the same message, time and number of retransmissions, and one packet for each of them.
`SameSend` says that the send side is left alone.  Every processed DATA chunk and every call of
`sendMessage` does one or the other.
-/

open Std (ExtTreeMap)

namespace Fluvora.DataChannel

open Fallible

/-! ## The length of a packet -/

theorem length_of_buildPacket {sourcePort destinationPort : UInt16} {tag : UInt32}
    {kind flags : UInt8} {value packet : Bytes}
    (h : buildPacket sourcePort destinationPort tag kind flags value = .ok packet) :
    packet.length = commonHeaderLen + Bytes.pad4 (chunkHeaderLen + value.length) := by
  simp only [buildPacket, Results.ite_error_eq_ok, not_lt, Except.ok.injEq] at h
  obtain ⟨-, -, rfl⟩ := h
  simp only [unsignedPacket, Bytes.ofU32Le, List.length_append, List.length_take, List.length_drop,
    List.length_reverse, Bytes.length_ofU16, Bytes.length_ofU32, List.length_cons, List.length_nil,
    List.length_replicate]
  unfold commonHeaderLen chunkHeaderLen Bytes.pad4
  omega

/-- A packet of the association with one DATA chunk of a fragment's size. -/
def DataPacket (config : AssociationConfig) (packet : Bytes) : Prop :=
  ∃ tag flags value, buildPacket config.localPort config.remotePort tag typeData flags value =
    .ok packet ∧ value.length ≤ dataFixedLen - chunkHeaderLen + maxDataPayload

/-- DATA packets are what the packet size is divided for. -/
theorem DataPacket.length_le {config : AssociationConfig} {packet : Bytes}
    (h : DataPacket config packet) : packet.length ≤ maxPacketBytes := by
  obtain ⟨tag, flags, value, hbuilt, hvalue⟩ := h
  rw [length_of_buildPacket hbuilt]
  unfold maxDataPayload dataFixedLen chunkHeaderLen commonHeaderLen maxPacketBytes at *
  unfold Bytes.pad4
  omega

namespace Association

variable {s t u : Association} {now : ℕ} {message : OutboundMessage}

/-! ## Queueing -/

/-- A fragment as it is when it is first sent. -/
def freshChunk (now : ℕ) (message : OutboundMessage) (messageId : UInt64) (packet : Bytes) :
    Outstanding where
  packet := packet
  messageId := messageId
  streamId := message.streamId
  streamSequence := message.streamSequence
  ordered := message.ordered
  reliability := message.reliability
  firstSentAt := now
  sentAt := now
  retransmissions := 0

/-- Chunks under consecutive TSNs. -/
def insertFrom (tsn : UInt32) : List Outstanding → ExtTreeMap UInt32 Outstanding →
    ExtTreeMap UInt32 Outstanding
  | [], outstanding => outstanding
  | chunk :: rest, outstanding => insertFrom (tsn + 1) rest (outstanding.insert tsn chunk)

/-- What a TSN at an offset holds after chunks have been put under consecutive TSNs. -/
theorem getElem?_insertFrom (tsn : UInt32) {chunks : List Outstanding} (hlen : chunks.length < 2 ^ 32)
    (outstanding : ExtTreeMap UInt32 Outstanding) (other : UInt32) :
    (insertFrom tsn chunks outstanding)[other]? =
      if (other - tsn).toNat < chunks.length then chunks[(other - tsn).toNat]?
      else outstanding[other]? := by
  induction chunks generalizing tsn outstanding with
  | nil => rfl
  | cons chunk rest ih =>
    rw [List.length_cons] at hlen
    rw [insertFrom, ih (tsn + 1) (by omega), List.length_cons]
    have hbound := (other - tsn).toNat_lt
    by_cases hfirst : tsn = other
    · subst hfirst
      have hlast : (tsn - (tsn + 1)).toNat = 2 ^ 32 - 1 := by
        have hminus : tsn - (tsn + 1) = -1 := by grind
        rw [hminus]
        rfl
      rw [hlast, if_neg (by omega), ExtTreeMap.getElem?_insert_self, UInt32.sub_self]
      simp
    · have hpos : 0 < (other - tsn).toNat := by
        by_contra hzero
        have heq : (other - tsn).toNat = (tsn - tsn).toNat := by
          rw [UInt32.sub_self]
          simpa using hzero
        exact hfirst (Serial.toNat_sub_inj.mp heq).symm
      have hshift : (other - (tsn + 1)).toNat = (other - tsn).toNat - 1 :=
        Serial.toNat_sub_add_ofNat hpos
      rw [hshift, Maps.getElem?_insert_of_ne hfirst]
      obtain ⟨index, hindex⟩ := Nat.exists_eq_succ_of_ne_zero hpos.ne'
      rw [hindex]
      simp

/-- The association has failed or is closed, and only a new INIT starts it again. -/
def Halted (s : Association) : Prop := s.state = .failed ∨ s.state = .closed

/-- The send side is left alone. -/
structure SameSend (s t : Association) : Prop where
  config : t.config = s.config
  nextTsn : t.nextTsn = s.nextTsn
  outboundCumulativeTsn : t.outboundCumulativeTsn = s.outboundCumulativeTsn
  nextMessageId : t.nextMessageId = s.nextMessageId
  outstanding : t.outstanding = s.outstanding
  abandoned : t.abandoned = s.abandoned
  halted : s.Halted → t.Halted

theorem SameSend.refl (s : Association) : SameSend s s := ⟨rfl, rfl, rfl, rfl, rfl, rfl, id⟩

theorem SameSend.trans (h : SameSend s t) (h' : SameSend t u) : SameSend s u :=
  ⟨h'.config.trans h.config, h'.nextTsn.trans h.nextTsn,
    h'.outboundCumulativeTsn.trans h.outboundCumulativeTsn,
    h'.nextMessageId.trans h.nextMessageId, h'.outstanding.trans h.outstanding,
    h'.abandoned.trans h.abandoned, h'.halted ∘ h.halted⟩

theorem SameSend.hasRoom (h : SameSend s t) (count : ℕ) : t.hasRoom count = s.hasRoom count := by
  rw [Association.hasRoom, Association.hasRoom, flightSpan, flightSpan, h.outstanding, h.nextTsn,
    h.outboundCumulativeTsn]

/-- One message is queued, in as many packets as it has fragments. -/
structure Queued (now : ℕ) (message : OutboundMessage) (packets : List Bytes) (s t : Association) :
    Prop where
  nonempty : packets ≠ []
  room : s.hasRoom packets.length = true
  data : ∀ packet ∈ packets, DataPacket s.config packet
  config : t.config = s.config
  nextTsn : t.nextTsn = s.nextTsn + .ofNat packets.length
  outboundCumulativeTsn : t.outboundCumulativeTsn = s.outboundCumulativeTsn
  nextMessageId : t.nextMessageId = s.nextMessageId + 1
  outstanding : t.outstanding =
    insertFrom s.nextTsn (packets.map (freshChunk now message s.nextMessageId)) s.outstanding
  abandoned : t.abandoned = s.abandoned
  halted : s.Halted → t.Halted

/-- The send side may have been touched elsewhere before and after the queueing. -/
theorem Queued.congr {packets : List Bytes} {s' t' : Association} (hbefore : SameSend s s')
    (h : Queued now message packets s' t) (hafter : SameSend t t') :
    Queued now message packets s t' := by
  refine ⟨h.nonempty, ?_, ?_, ?_, ?_, ?_, ?_, ?_, ?_, ?_⟩
  · rw [← hbefore.hasRoom]
    exact h.room
  · rw [← hbefore.config]
    exact h.data
  · rw [hafter.config, h.config, hbefore.config]
  · rw [hafter.nextTsn, h.nextTsn, hbefore.nextTsn]
  · rw [hafter.outboundCumulativeTsn, h.outboundCumulativeTsn, hbefore.outboundCumulativeTsn]
  · rw [hafter.nextMessageId, h.nextMessageId, hbefore.nextMessageId]
  · rw [hafter.outstanding, h.outstanding, hbefore.nextTsn, hbefore.nextMessageId,
      hbefore.outstanding]
  · rw [hafter.abandoned, h.abandoned, hbefore.abandoned]
  · exact fun hs => hafter.halted (h.halted (hbefore.halted hs))

theorem enqueueFragments_queues (now : ℕ) (message : OutboundMessage) (messageId : UInt64)
    (count index : ℕ) (fragments : List Bytes) (s : Association) {tag : UInt32}
    (htag : s.peerVerificationTag = some tag)
    (hlen : ∀ fragment ∈ fragments, fragment.length ≤ maxDataPayload) :
    ∃ packets, packets.length = fragments.length ∧
      (∀ packet ∈ packets, DataPacket s.config packet) ∧
      (enqueueFragments now message messageId count index fragments).run s =
        (.ok packets, { s with
          nextTsn := s.nextTsn + .ofNat packets.length
          outstanding := insertFrom s.nextTsn (packets.map (freshChunk now message messageId))
            s.outstanding }) := by
  induction fragments generalizing s index with
  | nil => exact ⟨[], rfl, by simp, by simp [enqueueFragments, insertFrom]⟩
  | cons fragment rest ih =>
    have hfragment : (dataValue s.nextTsn message fragment).length ≤
        dataFixedLen - chunkHeaderLen + maxDataPayload := by
      have hfirst := hlen fragment List.mem_cons_self
      simp only [dataValue, List.length_append, Bytes.length_ofU16, Bytes.length_ofU32, dataFixedLen,
        chunkHeaderLen]
      omega
    have hfits : (dataValue s.nextTsn message fragment).length ≤ 65516 := by
      unfold dataFixedLen chunkHeaderLen maxDataPayload maxPacketBytes commonHeaderLen dataFixedLen
        at hfragment
      omega
    obtain ⟨packet, hpacket⟩ := s.packetWithChunk_ok tag typeData
      (fragmentFlags message.ordered index count) hfits
    obtain ⟨packets, hcount, hdata, hrest⟩ := ih (index + 1) { s with
        nextTsn := s.nextTsn + 1
        outstanding := s.outstanding.insert s.nextTsn (freshChunk now message messageId packet) }
      htag fun fragment h => hlen fragment (List.mem_cons_of_mem _ h)
    refine ⟨packet :: packets, by simp [hcount], ?_, ?_⟩
    · rintro other (_ | ⟨_, hother⟩)
      · exact ⟨tag, _, _, hpacket, hfragment⟩
      · exact hdata other hother
    · have hfirst : (enqueueFragment now message messageId index count fragment).run s =
          (.ok packet, { s with
            nextTsn := s.nextTsn + 1
            outstanding := s.outstanding.insert s.nextTsn
              (freshChunk now message messageId packet) }) := by
        simp only [enqueueFragment, run_get_bind, run_modify_bind, peerTag_eq htag, hpacket,
          run_ofExcept_bind, run_pure]
        rfl
      have hshift : s.nextTsn + 1 + UInt32.ofNat packets.length =
          s.nextTsn + UInt32.ofNat (packets.length + 1) := by
        rw [UInt32.ofNat_add]
        grind
      simp only [enqueueFragments, run_bind, hfirst, hrest, run_pure, hshift, List.length_cons,
        List.map_cons, insertFrom]

/-- A full window refuses the message, otherwise it is queued. -/
theorem enqueueMessage_queues (now : ℕ) (message : OutboundMessage) {payload : Bytes}
    (hpayload : payload ≠ []) (s : Association) {tag : UInt32}
    (htag : s.peerVerificationTag = some tag) :
    (enqueueMessage now message payload).run s = (.error .sendWindowFull, s) ∨
      ∃ packets t, (enqueueMessage now message payload).run s = (.ok packets, t) ∧
        Queued now message packets s t := by
  simp only [enqueueMessage, run_get_bind, run_ensure_bind, run_modify_bind]
  split_ifs with hroom
  swap
  · exact .inl rfl
  right
  obtain ⟨packets, hcount, hdata, hrun⟩ := enqueueFragments_queues now message s.nextMessageId
    (Bytes.chunks maxDataPayload payload).length 0 (Bytes.chunks maxDataPayload payload)
    { s with nextMessageId := s.nextMessageId + 1 } htag fun _ h => Bytes.length_le_of_mem_chunks h
  refine ⟨packets, _, hrun, ?_, ?_, hdata, rfl, rfl, rfl, rfl, rfl, rfl, id⟩
  · intro hempty
    rw [hempty, List.length_nil, Bytes.length_chunks] at hcount
    have hpos := List.length_pos_iff.mpr hpayload
    rw [show maxDataPayload = 1172 from rfl] at hcount
    omega
  · rw [hcount]
    exact hroom

/-! ## Who queues -/

theorem wirePayload_ne_nil (kind : MessageKind) (payload : Bytes) :
    (wirePayload kind payload).2 ≠ [] := by
  cases kind <;> cases payload <;> simp [wirePayload]

/-- A send leaves the send side alone or queues its message. -/
theorem sendMessage_queues (now : ℕ) (streamId : UInt16) (kind : MessageKind) (payload : Bytes)
    {s : Association} (hs : Sound s) :
    (SameSend s ((sendMessage now streamId kind payload).run s).2 ∧
      ∀ packets, ((sendMessage now streamId kind payload).run s).1 ≠ .ok packets) ∨
    ∃ message packets, ((sendMessage now streamId kind payload).run s).1 = .ok packets ∧
      Queued now message packets s ((sendMessage now streamId kind payload).run s).2 := by
  obtain ⟨-, error, hrun⟩ | ⟨-, hstate, channel, hchannel, hrun⟩ :=
    sendMessage_eq now streamId kind payload s
  · rw [hrun]
    exact .inl ⟨.refl s, fun packets h => by cases h⟩
  obtain ⟨peer, hpeer⟩ := hs.known (.inr hstate)
  have hcounted : SameSend s (s.countMessage streamId channel) := ⟨rfl, rfl, rfl, rfl, rfl, rfl, id⟩
  rw [hrun]
  obtain hfull | ⟨packets, t, hqueue, hqueued⟩ := enqueueMessage_queues now
    (userMessage streamId kind payload channel) (wirePayload_ne_nil kind payload)
    (s.countMessage streamId channel) hpeer
  · rw [hfull]
    exact .inl ⟨hcounted, fun packets h => by cases h⟩
  · rw [hqueue]
    exact .inr ⟨_, packets, rfl, hqueued.congr hcounted (.refl t)⟩

/-- A processed DATA chunk leaves the send side alone or queues the ACK of the channel it opens. -/
theorem processDataMessage_queues (now : ℕ) (data : DataChunk) {tag : UInt32}
    (htag : s.peerVerificationTag = some tag) :
    (SameSend s ((processDataMessage now data).run s).2 ∧
      ∀ output, ((processDataMessage now data).run s).1 = .ok output → output.packets = []) ∨
    ∃ output, ((processDataMessage now data).run s).1 = .ok output ∧
      Queued now (dcepAckMessage data.streamId) output.packets s
        ((processDataMessage now data).run s).2 := by
  by_cases hadmits : s.admits data = true
  swap
  · obtain ⟨error, reassembly, channels, hrun⟩ :=
      processDataMessage_run_of_not_admits now htag (by simpa using hadmits)
    rw [hrun]
    exact .inl ⟨⟨rfl, rfl, rfl, rfl, rfl, rfl, id⟩, fun output h => by cases h⟩
  have hadmits' := hadmits
  unfold admits at hadmits
  rw [Bool.and_eq_true, decide_eq_true_eq] at hadmits
  obtain ⟨hstream, hadmits⟩ := hadmits
  split at hadmits
  next => cases hadmits
  next payload hpayload =>
    simp only [processDataMessage, run_get_bind, run_ensure_bind, if_pos hstream]
    rw [run_bind, assemble_run_of_some hpayload]
    have hassembled : SameSend s { s with reassembly := s.reassemblyAfter data payload } :=
      ⟨rfl, rfl, rfl, rfl, rfl, rfl, id⟩
    by_cases hend : DataChunk.isEnd data = true
    swap
    · rw [Bool.not_eq_true] at hend
      simp only [hend, Bool.not_false, if_true]
      exact .inl ⟨hassembled, by rintro output ⟨⟩; rfl⟩
    simp only [hend, Bool.not_true, Bool.false_eq_true, if_false, if_true] at hadmits ⊢
    by_cases hppid : data.ppid = ppidDcep
    · rw [if_pos hppid, Bool.and_eq_true] at hadmits
      obtain ⟨channel, hparse⟩ := exists_ok_of_isOk hadmits.1
      have hparse' : ChannelOpen.parse { s with reassembly := s.reassemblyAfter data payload }
          data.streamId payload = .ok channel := hparse
      simp only [if_pos hppid, handleDcep, run_get_bind, hparse', run_ofExcept_bind, run_modify_bind]
      have hopened : SameSend s { s with
          reassembly := s.reassemblyAfter data payload
          channels := s.channels.insert data.streamId ⟨channel.ordered, channel.reliability, 0⟩ } :=
        ⟨rfl, rfl, rfl, rfl, rfl, rfl, id⟩
      rw [run_bind]
      obtain hfull | ⟨packets, t, hqueue, hqueued⟩ := enqueueMessage_queues now
        (dcepAckMessage data.streamId) (by simp : [dcepAck] ≠ []) { s with
          reassembly := s.reassemblyAfter data payload
          channels := s.channels.insert data.streamId ⟨channel.ordered, channel.reliability, 0⟩ } htag
      · rw [hfull]
        exact .inl ⟨hopened, fun output h => by cases h⟩
      · rw [hqueue]
        exact .inr ⟨_, rfl, hqueued.congr hopened (.refl t)⟩
    · rw [if_neg hppid, Bool.and_eq_true] at hadmits
      obtain ⟨output, houtput⟩ := exists_ok_of_isOk hadmits.2
      obtain ⟨rfl, -⟩ := handleUserMessage_ok houtput
      have hsame : ({ s with reassembly := s.reassemblyAfter data payload } :
          Association).handleUserMessage data.streamId data.ppid payload =
            s.handleUserMessage data.streamId data.ppid payload := rfl
      rw [if_neg hppid, if_pos hadmits.1, run_get_bind, run_ofExcept, hsame, houtput]
      exact .inl ⟨hassembled, by rintro output ⟨⟩; rfl⟩

end Association

end Fluvora.DataChannel
