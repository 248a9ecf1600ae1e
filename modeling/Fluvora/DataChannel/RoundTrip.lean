import Fluvora.DataChannel.Bounds
import Fluvora.DataChannel.Encoding

/-!
# A message travels whole

What `sendMessage` cuts into DATA chunks an established receiver puts together again: fed with the
packets of one message in TSN order it reports that message once, with its channel, kind and
payload, and the reassembly buffer of the stream is gone.  `Carried` says which packets carry a
list of fragments; the receiver's side is one lemma for one expected chunk (`handlePacket_expected`)
and an induction over the fragments (`feed_carried`).
-/

open Std (ExtTreeMap)

namespace Fluvora.DataChannel

open Fallible

namespace Association

/-! ## The packets of a message -/

/-- The packets carry the fragments of a message from fragment `index` on, under consecutive
TSNs. -/
inductive Carried (source destination : UInt16) (tag : UInt32) (message : OutboundMessage)
    (count : ℕ) : ℕ → UInt32 → List Bytes → List Bytes → Prop
  | nil (index : ℕ) (tsn : UInt32) : Carried source destination tag message count index tsn [] []
  | cons {index : ℕ} {tsn : UInt32} {fragment packet : Bytes} {fragments packets : List Bytes}
      (hpacket : buildPacket source destination tag typeData
        (fragmentFlags message.ordered index count) (dataValue tsn message fragment) = .ok packet)
      (hrest : Carried source destination tag message count (index + 1) (tsn + 1) fragments
        packets) :
      Carried source destination tag message count index tsn (fragment :: fragments)
        (packet :: packets)

theorem Carried.length_eq {source destination : UInt16} {tag : UInt32} {message : OutboundMessage}
    {count index : ℕ} {tsn : UInt32} {fragments packets : List Bytes}
    (h : Carried source destination tag message count index tsn fragments packets) :
    packets.length = fragments.length := by
  induction h with
  | nil => rfl
  | cons hpacket hrest ih => rw [List.length_cons, List.length_cons, ih]

theorem carried_enqueueFragments {now : ℕ} {message : OutboundMessage} {messageId : UInt64}
    {count index : ℕ} {fragments packets : List Bytes} {s t : Association} {tag : UInt32}
    (htag : s.peerVerificationTag = some tag)
    (h : (enqueueFragments now message messageId count index fragments).run s = (.ok packets, t)) :
    Carried s.config.localPort s.config.remotePort tag message count index s.nextTsn fragments
      packets := by
  induction fragments generalizing index packets s with
  | nil =>
    cases h
    exact .nil _ _
  | cons fragment rest ih =>
    rw [enqueueFragments, run_bind_eq_ok] at h
    obtain ⟨packet, u, hfirst, h⟩ := h
    rw [run_bind_eq_ok] at h
    obtain ⟨others, v, hothers, h⟩ := h
    cases h
    simp only [enqueueFragment, run_get_bind, run_modify_bind, peerTag_eq htag,
      run_ofExcept_bind] at hfirst
    rcases hpacket : s.packetWithChunk tag typeData (fragmentFlags message.ordered index count)
      (dataValue s.nextTsn message fragment) with error | built
    · rw [hpacket] at hfirst
      cases hfirst
    · rw [hpacket] at hfirst
      cases hfirst
      have hrest := ih (by exact htag) hothers
      exact .cons hpacket hrest

/-- The message a channel queues for a payload. -/
def outboundMessage (streamId : UInt16) (channel : Channel) (kind : MessageKind) (payload : Bytes) :
    OutboundMessage where
  streamId := streamId
  streamSequence := channel.nextOutgoingSequence
  ppid := (wirePayload kind payload).1
  ordered := channel.ordered
  reliability := channel.reliability

/-- What a successful `sendMessage` has checked, and the packets it returns. -/
theorem carried_sendMessage {now : ℕ} {streamId : UInt16} {kind : MessageKind} {payload : Bytes}
    {packets : List Bytes} {s t : Association} {tag : UInt32}
    (htag : s.peerVerificationTag = some tag)
    (h : (sendMessage now streamId kind payload).run s = (.ok packets, t)) :
    (kind = .text → (String.fromUTF8? ⟨payload.toArray⟩).isSome) ∧ ∃ channel,
      Carried s.config.localPort s.config.remotePort tag
        (outboundMessage streamId channel kind payload)
        (Bytes.chunks maxDataPayload (wirePayload kind payload).2).length 0 s.nextTsn
        (Bytes.chunks maxDataPayload (wirePayload kind payload).2) packets := by
  rw [sendMessage, run_get_bind, run_ensure_bind] at h
  by_cases hstate : s.state = .established
  swap
  · rw [if_neg hstate] at h
    cases h
  rw [if_pos hstate, run_ensure_bind] at h
  by_cases hlength : payload.length ≤ s.config.maximumMessageBytes
  swap
  · rw [if_neg hlength] at h
    cases h
  rw [if_pos hlength, run_ensure_bind] at h
  by_cases htext : kind = .text → (String.fromUTF8? ⟨payload.toArray⟩).isSome
  swap
  · rw [if_neg htext] at h
    cases h
  rw [if_pos htext, run_ofOption_bind] at h
  rcases hchannel : s.channels[streamId]? with _ | channel
  · rw [hchannel] at h
    cases h
  rw [hchannel] at h
  dsimp only at h
  rw [run_modify_bind, enqueueMessage, run_get_bind, run_ensure_bind] at h
  split_ifs at h with hroom
  · rw [run_modify_bind] at h
    have hcarried := carried_enqueueFragments (by exact htag) h
    exact ⟨htext, channel, hcarried⟩
  · cases h

/-! ## One expected chunk -/

/-- The chunk the receiver reads from a fragment. -/
def fragmentChunk (message : OutboundMessage) (index count : ℕ) (tsn : UInt32) (fragment : Bytes) :
    DataChunk where
  flags := fragmentFlags message.ordered index count
  tsn := tsn
  streamId := message.streamId
  streamSequence := message.streamSequence
  ppid := message.ppid
  payload := fragment

theorem isBegin_fragmentChunk (message : OutboundMessage) (index count : ℕ) (tsn : UInt32)
    (fragment : Bytes) :
    DataChunk.isBegin (fragmentChunk message index count tsn fragment) = decide (index = 0) := by
  have hflags : ∀ ordered first last : Bool,
      (((if ordered then 0 else flagDataUnordered) ||| (if first then flagDataBegin else 0) |||
        (if last then flagDataEnd else 0)) &&& flagDataBegin != 0) = first := by decide
  simpa [DataChunk.isBegin, fragmentChunk, fragmentFlags] using
    hflags message.ordered (decide (index = 0)) (decide (index + 1 = count))

theorem isEnd_fragmentChunk (message : OutboundMessage) (index count : ℕ) (tsn : UInt32)
    (fragment : Bytes) : DataChunk.isEnd (fragmentChunk message index count tsn fragment) =
      decide (index + 1 = count) := by
  have hflags : ∀ ordered first last : Bool,
      (((if ordered then 0 else flagDataUnordered) ||| (if first then flagDataBegin else 0) |||
        (if last then flagDataEnd else 0)) &&& flagDataEnd != 0) = last := by decide
  simpa [DataChunk.isEnd, fragmentChunk, fragmentFlags] using
    hflags message.ordered (decide (index = 0)) (decide (index + 1 = count))

theorem parse_dataValue (message : OutboundMessage) (index count : ℕ) (tsn : UInt32)
    (fragment : Bytes) : DataChunk.parse (fragmentFlags message.ordered index count)
      (dataValue tsn message fragment) = .ok (fragmentChunk message index count tsn fragment) := by
  have htsn : (dataValue tsn message fragment).u32At 0 = some tsn :=
    @Bytes.u32At_of_drop _ 0 tsn _ (by simp only [dataValue, List.append_assoc]; rfl)
  have hstream : (dataValue tsn message fragment).u16At 4 = some message.streamId :=
    @Bytes.u16At_of_drop _ 4 message.streamId _ (by simp only [dataValue, List.append_assoc]; rfl)
  have hsequence : (dataValue tsn message fragment).u16At 6 = some message.streamSequence :=
    @Bytes.u16At_of_drop _ 6 message.streamSequence _
      (by simp only [dataValue, List.append_assoc]; rfl)
  have hppid : (dataValue tsn message fragment).u32At 8 = some message.ppid :=
    @Bytes.u32At_of_drop _ 8 message.ppid _ (by simp only [dataValue, List.append_assoc]; rfl)
  simp only [DataChunk.parse, readU32, readU16, htsn, hstream, hsequence, hppid]
  rfl

/-- A gap that stays open behind the next TSN is still a gap behind it. -/
theorem Buffered.succ {cumulative : UInt32} {pending : ExtTreeMap UInt32 DataChunk}
    (h : Buffered cumulative pending) (hnext : cumulative + 1 + 1 ∉ pending) :
    Buffered (cumulative + 1) pending := by
  intro tsn data hdata
  obtain ⟨htsn, hlow, hhigh⟩ := h tsn data hdata
  have hmove : (tsn - (cumulative + 1)).toNat = (tsn - cumulative).toNat - 1 :=
    Serial.toNat_sub_add_ofNat (n := 1) (by omega)
  refine ⟨htsn, ?_, by omega⟩
  by_contra hless
  have hnear : tsn = cumulative + 1 + 1 := Serial.eq_add_one (by omega)
  rw [hnear] at hdata
  exact hnext (Maps.mem_of_getElem? hdata)

/-- The expected chunk, with a gap behind it, releases exactly itself. -/
theorem drain_expected {s : Association} {cumulative : UInt32} {data : DataChunk}
    (hdata : data.tsn = cumulative + 1) (hbuf : Buffered cumulative s.pendingData)
    (hnext : cumulative + 1 + 1 ∉ s.pendingData) :
    drain (s.buffer data).pendingData.size (cumulative + 1) (s.buffer data) =
      ([data], advance (cumulative + 1) s) := by
  have hfree : cumulative + 1 ∉ s.pendingData := Maps.not_mem_iff.mpr hbuf.next_eq_none
  have hfound : (s.buffer data).pendingData[cumulative + 1]? = some data := by
    rw [buffer, hdata]
    exact ExtTreeMap.getElem?_insert_self
  have hbehind : unbuffer (cumulative + 1) (s.buffer data) = s := by
    rw [unbuffer, buffer, hdata]
    dsimp only
    rw [Maps.erase_insert, Maps.erase_of_not_mem hfree]
  obtain ⟨fuel, hfuel⟩ : ∃ fuel, (s.buffer data).pendingData.size = fuel + 1 := by
    refine Nat.exists_eq_succ_of_ne_zero ?_
    intro hempty
    rw [← ExtTreeMap.eq_empty_iff_size_eq_zero] at hempty
    rw [hempty] at hfound
    simp at hfound
  rw [hfuel, drain, hfound]
  dsimp only
  rw [hbehind, drain_of_none fuel]
  exact Maps.not_mem_iff.mp hnext

/-- A DATA packet for this association is one DATA chunk for its handler. -/
theorem handlePacket_data (now : ℕ) {s : Association} {flags : UInt8} {value packet : Bytes}
    (hpacket : buildPacket s.config.remotePort s.config.localPort s.config.verificationTag typeData
      flags value = .ok packet) {output : AssociationOutput} {t : Association}
    (hdata : (handleData now flags value).run s = (.ok output, t)) :
    (handlePacket now packet).run s = (.ok output, t) := by
  have hguarded : (handleChunk now s.config.verificationTag ⟨typeData, flags, value⟩).run s =
      (.ok output, t) := by
    rw [← hdata]
    show (guarded s.config.verificationTag (handleData now flags value)).run s = _
    rw [guarded_run, if_pos rfl]
  rw [handlePacket, parse_buildPacket hpacket, run_ofExcept_bind]
  dsimp only
  rw [run_get_bind, run_ensure_bind, if_pos ⟨rfl, rfl⟩, handleChunks, run_bind, hguarded]
  dsimp only
  rw [handleChunks, run_pure_bind, run_pure, AssociationOutput.append_empty]

/-- The expected chunk is processed in the state that counts it as received. -/
theorem handlePacket_expected (now : ℕ) {s : Association} {tag cumulative : UInt32}
    {message : OutboundMessage} {index count : ℕ} {fragment packet : Bytes}
    (hstate : s.state = .established) (htag : s.peerVerificationTag = some tag)
    (hcum : s.cumulativePeerTsn = some cumulative) (hbuf : Buffered cumulative s.pendingData)
    (hnext : cumulative + 1 + 1 ∉ s.pendingData)
    (hpacket : buildPacket s.config.remotePort s.config.localPort s.config.verificationTag typeData
      (fragmentFlags message.ordered index count) (dataValue (cumulative + 1) message fragment) =
        .ok packet)
    (hadmits : (advance (cumulative + 1) s).admits
      (fragmentChunk message index count (cumulative + 1) fragment) = true) :
    ∃ output t, (handlePacket now packet).run s = (.ok output, t) ∧ ∃ processed,
      output.events = processed.events ∧
      Processed (advance (cumulative + 1) s)
        (fragmentChunk message index count (cumulative + 1) fragment) processed t := by
  generalize hchunk : fragmentChunk message index count (cumulative + 1) fragment = data at hadmits ⊢
  have htsn : data.tsn = cumulative + 1 := by rw [← hchunk]; rfl
  have hdistance : (data.tsn - cumulative).toNat = 1 := by
    rw [htsn]
    exact Serial.toNat_add_ofNat_sub cumulative (n := 1) (by decide)
  have hlength : dataFixedLen - 4 ≤ (dataValue (cumulative + 1) message fragment).length := by
    simp only [dataValue, List.length_append, Bytes.length_ofU32, Bytes.length_ofU16, dataFixedLen]
    omega
  obtain ⟨processed, t, hrun, hprocessed⟩ :=
    processDataMessage_run_of_admits now (s := advance (cumulative + 1) s) htag hadmits
  have hnew : s.duplicate cumulative data.tsn = false := by
    have hfree : s.pendingData.contains (cumulative + 1) = false := by
      rw [Bool.eq_false_iff]
      intro h
      exact Maps.not_mem_iff.mpr hbuf.next_eq_none (ExtTreeMap.contains_iff_mem.mp h)
    have hone : cumulative + 1 - cumulative = 1 := by grind
    rw [duplicate, htsn, hone, hfree]
    decide
  obtain ⟨hguard, -⟩ | ⟨read, -, hread, hcases⟩ := handleData_run now
    (fragmentFlags message.ordered index count) (dataValue (cumulative + 1) message fragment) htag
    hcum hbuf
  · exact absurd ⟨hstate, hlength⟩ hguard
  · rw [parse_dataValue, hchunk] at hread
    cases hread
    have hall : (processAll now [data]).run (advance (cumulative + 1) s) = (.ok processed, t) := by
      rw [processAll, run_bind, hrun]
      dsimp only
      rw [processAll, run_pure_bind, run_pure, AssociationOutput.append_empty]
    rw [drain_expected htsn hbuf hnext] at hcases
    dsimp only at hcases
    rw [hall] at hcases
    obtain ⟨hdup, -⟩ | ⟨-, hfar, -⟩ | ⟨-, -, ⟨error, herror, -⟩ | ⟨output, sack, houtput, hdata⟩⟩ :=
      hcases
    · rw [hnew] at hdup
      cases hdup
    · unfold maxPendingTsn at hfar
      omega
    · cases herror
    · cases houtput
      refine ⟨_, t, handlePacket_data now hpacket hdata, processed, ?_, hprocessed⟩
      rw [AssociationOutput.events_append, List.append_nil]

/-! ## The fragments of a message -/

/-- An association that takes what its peer sends on a stream, up to date with the peer's TSNs. -/
structure Listening (s : Association) (streamId : UInt16) (cumulative : UInt32) : Prop where
  state : s.state = .established
  peer : ∃ tag, s.peerVerificationTag = some tag
  received : s.cumulativePeerTsn = some cumulative
  buffered : Buffered cumulative s.pendingData
  channel : streamId ∈ s.channels
  stream : streamId < s.peerOutboundStreams

theorem Reachable.listening {s : Association} (h : Reachable s) (hstate : s.state = .established)
    {streamId : UInt16} (hopen : streamId ∈ s.channels) {cumulative : UInt32}
    (hcum : s.cumulativePeerTsn = some cumulative) : Listening s streamId cumulative := by
  obtain ⟨config, start, inputs, hnew, rfl⟩ := h
  obtain ⟨hsound, hlimited, -⟩ := within_runInputs hnew inputs
  exact ⟨hstate, hsound.known (.inr hstate), hcum, hsound.buffered cumulative hcum, hopen,
    (hlimited.streams streamId hopen).2⟩

/-- Receiving the next TSN, with a gap behind it, keeps the association up to date. -/
theorem Listening.advance {s : Association} {streamId : UInt16} {cumulative : UInt32}
    (h : Listening s streamId cumulative) (hnext : cumulative + 1 + 1 ∉ s.pendingData)
    (reassembly : ExtTreeMap UInt16 Reassembly) :
    Listening { Association.advance (cumulative + 1) s with reassembly } streamId
      (cumulative + 1) :=
  ⟨h.state, h.peer, rfl, h.buffered.succ hnext, h.channel, h.stream⟩

/-- The receiver holds what precedes fragment `index` of a message. -/
def Collected (s : Association) (message : OutboundMessage) (index : ℕ) (collected : Bytes) : Prop :=
  if index = 0 then collected = []
  else s.reassembly[message.streamId]? =
    some ⟨message.streamSequence, message.ppid, collected⟩

theorem Collected.assembled {s : Association} {message : OutboundMessage} {index : ℕ}
    {collected : Bytes} (h : Collected s message index collected) (count : ℕ) (tsn : UInt32)
    {fragment : Bytes} (hlength : (collected ++ fragment).length ≤ s.config.maximumMessageBytes) :
    s.assembled (fragmentChunk message index count tsn fragment) =
      some (collected ++ fragment) := by
  rw [List.length_append] at hlength
  unfold Association.assembled partialPayload
  rw [isBegin_fragmentChunk, isEnd_fragmentChunk]
  unfold Collected at h
  by_cases hindex : index = 0
  · rw [if_pos hindex] at h
    subst h
    rw [List.length_nil] at hlength
    simp [hindex, fragmentChunk, show fragment.length ≤ s.config.maximumMessageBytes by omega]
  · rw [if_neg hindex] at h
    simp [hindex, fragmentChunk, h, hlength]

theorem reassemblyAfter_fragmentChunk (s : Association) (message : OutboundMessage)
    (index count : ℕ) (tsn : UInt32) (fragment payload : Bytes) :
    s.reassemblyAfter (fragmentChunk message index count tsn fragment) payload =
      if index + 1 = count then
        if index = 0 then s.reassembly else s.reassembly.erase message.streamId
      else s.reassembly.insert message.streamId
        ⟨message.streamSequence, message.ppid, payload⟩ := by
  unfold reassemblyAfter
  rw [isBegin_fragmentChunk, isEnd_fragmentChunk]
  by_cases hend : index + 1 = count
  · by_cases hindex : index = 0
    · rw [hindex] at hend
      simp [← hend, hindex]
    · simp [hend, hindex, fragmentChunk]
  · simp [hend, fragmentChunk]

theorem handleUserMessage_isOk {s : Association} {streamId : UInt16} {ppid : UInt32}
    {payload : Bytes} (hopen : streamId ∈ s.channels) (hppid : userPpid ppid = true)
    (htext : messageKind ppid = .text →
      (String.fromUTF8? ⟨(messagePayload ppid payload).toArray⟩).isSome)
    (hlength : (messagePayload ppid payload).length ≤ s.config.maximumMessageBytes) :
    (s.handleUserMessage streamId ppid payload).isOk = true := by
  unfold handleUserMessage
  have hchannel : (!s.channels.contains streamId) = false := by simpa using hopen
  rw [hchannel, hppid]
  simp only [Bool.false_eq_true, Bool.not_true, if_false]
  by_cases hkind : messageKind ppid = .text
  · obtain ⟨text, hvalid⟩ := Option.isSome_iff_exists.mp (htext hkind)
    rw [if_pos hkind, utf8, hvalid, if_neg (by omega)]
    rfl
  · rw [if_neg hkind, if_neg (by omega)]
    rfl

/-- The next fragment of a message is admitted; the last one if the message is acceptable. -/
theorem Listening.admits {s : Association} {message : OutboundMessage} {cumulative : UInt32}
    (hs : Listening s message.streamId cumulative) (tsn : UInt32) {index : ℕ} (count : ℕ)
    {collected fragment : Bytes}
    (hcollected : Collected s message index collected)
    (hlength : (collected ++ fragment).length ≤ s.config.maximumMessageBytes)
    (hppid : userPpid message.ppid = true)
    (hlast : index + 1 = count →
      (s.handleUserMessage message.streamId message.ppid (collected ++ fragment)).isOk = true) :
    (Association.advance tsn s).admits (fragmentChunk message index count tsn fragment) = true := by
  have hassembled : (Association.advance tsn s).assembled
      (fragmentChunk message index count tsn fragment) = some (collected ++ fragment) :=
    @Collected.assembled (Association.advance tsn s) _ _ _ hcollected count tsn _ hlength
  have hnotDcep : message.ppid ≠ ppidDcep := by
    intro h
    rw [h] at hppid
    exact absurd hppid (by decide)
  unfold Association.admits
  rw [hassembled, isEnd_fragmentChunk, Bool.and_eq_true, decide_eq_true_eq]
  refine ⟨hs.stream, ?_⟩
  dsimp only
  by_cases hend : index + 1 = count
  · have hok := hlast hend
    simp only [hend, decide_true, Bool.not_true, Bool.false_eq_true, if_false]
    rw [if_neg (by exact hnotDcep), Bool.and_eq_true]
    exact ⟨hppid, hok⟩
  · simp [hend]

/-- Hands an association packets one after the other; the events they cause. -/
def feed : List (ℕ × Bytes) → Action (List AssociationEvent)
  | [] => pure []
  | (now, packet) :: rest => do
      let output ← handlePacket now packet
      let events ← feed rest
      return output.events ++ events

/-- Fed with the fragments of an acceptable message from fragment `index` on, where the ones before
are collected, the receiver reports the message with the last one. -/
theorem feed_carried {s : Association} {message : OutboundMessage} {cumulative : UInt32}
    {index count : ℕ} {fragments packets : List Bytes} {collected : Bytes}
    (hs : Listening s message.streamId cumulative)
    (h : Carried s.config.remotePort s.config.localPort s.config.verificationTag message count index
      (cumulative + 1) fragments packets)
    (hcount : index + fragments.length = count) (hne : fragments ≠ [])
    (hgap : ∀ i, 1 ≤ i → i ≤ fragments.length → cumulative + 1 + .ofNat i ∉ s.pendingData)
    (hcollected : Collected s message index collected)
    (hlength : (collected ++ fragments.flatten).length ≤ s.config.maximumMessageBytes)
    (hppid : userPpid message.ppid = true)
    (hok : (s.handleUserMessage message.streamId message.ppid
      (collected ++ fragments.flatten)).isOk = true)
    {inputs : List (ℕ × Bytes)} (hinputs : inputs.map Prod.snd = packets) :
    ∃ t, (feed inputs).run s = (.ok [.message message.streamId (messageKind message.ppid)
        (messagePayload message.ppid (collected ++ fragments.flatten))], t) ∧
      t.reassembly =
        if count = 1 then s.reassembly else s.reassembly.erase message.streamId := by
  induction fragments generalizing s cumulative index packets collected inputs with
  | nil => exact absurd rfl hne
  | cons fragment rest ih =>
    obtain ⟨-⟩ | ⟨hpacket, hrest⟩ := h
    obtain ⟨⟨now, first⟩, later, rfl, hfirst, hlater⟩ := List.map_eq_cons_iff.mp hinputs
    obtain rfl : first = _ := hfirst
    rw [List.flatten_cons, ← List.append_assoc] at hlength hok ⊢
    have hpart : (collected ++ fragment).length ≤ s.config.maximumMessageBytes := by
      rw [List.length_append] at hlength
      omega
    have hnext : cumulative + 1 + 1 ∉ s.pendingData := hgap 1 le_rfl (by simp)
    have hlast : index + 1 = count → rest = [] := by
      intro hend
      rw [List.length_cons] at hcount
      exact List.eq_nil_of_length_eq_zero (by omega)
    have hadmits := hs.admits (cumulative + 1) count hcollected hpart hppid (by
      intro hend
      rw [hlast hend, List.flatten_nil, List.append_nil] at hok
      exact hok)
    have hassembled : (Association.advance (cumulative + 1) s).assembled
        (fragmentChunk message index count (cumulative + 1) fragment) =
          some (collected ++ fragment) :=
      @Collected.assembled (Association.advance (cumulative + 1) s) _ _ _ hcollected count _ _ hpart
    obtain ⟨tag, htag⟩ := hs.peer
    obtain ⟨output, t, hrun, processed, hevents, hprocessed⟩ :=
      handlePacket_expected now hs.state htag hs.received hs.buffered hnext hpacket hadmits
    rw [feed, run_bind, hrun]
    dsimp only
    rw [hevents]
    cases hprocessed with
    | fragment hpayload hend =>
      rw [hassembled, Option.some.injEq] at hpayload
      subst hpayload
      rw [isEnd_fragmentChunk, decide_eq_false_iff_not] at hend
      have hmore : rest ≠ [] := by
        rintro rfl
        simp at hcount
        exact hend hcount
      have hkept : (Association.advance (cumulative + 1) s).reassemblyAfter
          (fragmentChunk message index count (cumulative + 1) fragment) (collected ++ fragment) =
            s.reassembly.insert message.streamId
              ⟨message.streamSequence, message.ppid, collected ++ fragment⟩ := by
        rw [reassemblyAfter_fragmentChunk, if_neg hend]
        rfl
      rw [hkept]
      have hcollected' : Collected { Association.advance (cumulative + 1) s with
          reassembly := s.reassembly.insert message.streamId
            ⟨message.streamSequence, message.ppid, collected ++ fragment⟩ } message (index + 1)
          (collected ++ fragment) := by
        rw [Collected, if_neg (by omega)]
        exact ExtTreeMap.getElem?_insert_self
      have hgap' : ∀ i, 1 ≤ i → i ≤ rest.length →
          cumulative + 1 + 1 + .ofNat i ∉ s.pendingData := by
        intro i hlow hhigh
        have hshift : cumulative + 1 + 1 + UInt32.ofNat i = cumulative + 1 + .ofNat (i + 1) := by
          rw [UInt32.ofNat_add]
          grind
        rw [hshift]
        exact hgap (i + 1) (by omega) (by rw [List.length_cons]; omega)
      rw [List.length_cons] at hcount
      obtain ⟨u, hfeed, hreassembly⟩ := ih (hs.advance hnext _) hrest (by omega) hmore hgap'
        hcollected' hlength hok hlater
      have hcount' : count ≠ 1 := by
        have := List.length_pos_of_ne_nil hmore
        omega
      refine ⟨u, ?_, ?_⟩
      · rw [run_bind, hfeed]
        rfl
      · rw [hreassembly, if_neg hcount', if_neg hcount']
        exact Maps.erase_insert _ _ _
    | message hpayload hend hppid hopen =>
      rw [hassembled, Option.some.injEq] at hpayload
      subst hpayload
      rw [isEnd_fragmentChunk, decide_eq_true_eq] at hend
      obtain rfl := hlast hend
      obtain rfl : later = [] := by
        cases hrest
        exact List.map_eq_nil_iff.mp hlater
      rw [feed, run_pure_bind, run_pure, List.flatten_nil, List.append_nil, List.append_nil]
      refine ⟨_, rfl, ?_⟩
      dsimp only
      rw [reassemblyAfter_fragmentChunk, if_pos hend, ← hend]
      simp only [Nat.add_eq_right]
      rfl
    | opened hpayload hend hdcep =>
      have hppid' : userPpid ppidDcep = true := by
        rw [← hdcep]
        exact hppid
      exact absurd hppid' (by decide)

/-! ## The round trip -/

/-- The wire form of a message names its kind and gives its payload back. -/
theorem wirePayload_read (kind : MessageKind) (payload : Bytes) :
    userPpid (wirePayload kind payload).1 = true ∧
      messageKind (wirePayload kind payload).1 = kind ∧
      messagePayload (wirePayload kind payload).1 (wirePayload kind payload).2 = payload := by
  rcases payload with _ | ⟨byte, rest⟩ <;> cases kind <;>
    simp [wirePayload, userPpid, messageKind, messagePayload, ppidString, ppidBinary,
      ppidStringEmpty, ppidBinaryEmpty]

theorem wirePayload_length (kind : MessageKind) (payload : Bytes) :
    (wirePayload kind payload).2.length = max payload.length 1 := by
  rcases payload with _ | ⟨byte, rest⟩ <;> cases kind <;> simp [wirePayload]

/-- The receiver is the sender's peer and has received all that was sent before: the next `count`
chunks are the ones it expects. -/
structure Connected (sender receiver : Association) (count : ℕ) : Prop where
  source : sender.config.localPort = receiver.config.remotePort
  destination : sender.config.remotePort = receiver.config.localPort
  tag : sender.peerVerificationTag = some receiver.config.verificationTag
  received : receiver.cumulativePeerTsn = some (sender.nextTsn - 1)
  gap : ∀ i ≤ count, sender.nextTsn + .ofNat i ∉ receiver.pendingData

theorem Sound.maximumMessageBytes_pos {s : Association} (h : Sound s) :
    1 ≤ s.config.maximumMessageBytes := by
  have hvalid := h.valid
  unfold AssociationConfig.validate at hvalid
  split_ifs at hvalid with hbad
  simp only [not_or, not_not] at hbad
  exact hbad.2.2.2.2.2.1

/-- Every message that is sent is received once, as it was sent, and its stream is left without a
reassembly buffer; a whole message only leaves alone what the stream had before. -/
theorem feed_sendMessage {sender receiver sender' : Association} {now : ℕ} {streamId : UInt16}
    {kind : MessageKind} {payload : Bytes} {packets : List Bytes}
    (hreachable : Reachable receiver) (hestablished : receiver.state = .established)
    (hopen : streamId ∈ receiver.channels)
    (hfits : payload.length ≤ receiver.config.maximumMessageBytes)
    (hsend : (sendMessage now streamId kind payload).run sender = (.ok packets, sender'))
    (hconnected : Connected sender receiver packets.length) {inputs : List (ℕ × Bytes)}
    (hinputs : inputs.map Prod.snd = packets) :
    ∃ receiver', (feed inputs).run receiver = (.ok [.message streamId kind payload], receiver') ∧
      (∀ other ≠ streamId, receiver'.reassembly[other]? = receiver.reassembly[other]?) ∧
      (streamId ∉ receiver.reassembly ∨ 1 < packets.length →
        streamId ∉ receiver'.reassembly) := by
  obtain ⟨htext, channel, hcarried⟩ := carried_sendMessage hconnected.tag hsend
  obtain ⟨hppid, hkind, hpayload⟩ := wirePayload_read kind payload
  have hlen := wirePayload_length kind payload
  have hcount := hcarried.length_eq
  generalize hfragments : Bytes.chunks maxDataPayload (wirePayload kind payload).2 = fragments at *
  have hflat : fragments.flatten = (wirePayload kind payload).2 := by
    rw [← hfragments]
    exact Bytes.flatten_chunks (by decide) _
  have hne : fragments ≠ [] := by
    rintro rfl
    rw [← hflat, List.flatten_nil, List.length_nil] at hlen
    omega
  have hmax := hreachable.sound.maximumMessageBytes_pos
  have hlistening := hreachable.listening hestablished hopen hconnected.received
  have hnext : sender.nextTsn - 1 + 1 = sender.nextTsn := by grind
  rw [hconnected.source, hconnected.destination, ← hnext] at hcarried
  have hgap : ∀ i, 1 ≤ i → i ≤ fragments.length →
      sender.nextTsn - 1 + 1 + .ofNat i ∉ receiver.pendingData := by
    intro i _ hi
    rw [hnext]
    exact hconnected.gap i (by omega)
  have hcollected : Collected receiver (outboundMessage streamId channel kind payload) 0 [] := rfl
  have hok : (receiver.handleUserMessage streamId (wirePayload kind payload).1
      ([] ++ fragments.flatten)).isOk = true := by
    rw [List.nil_append, hflat]
    refine handleUserMessage_isOk hopen hppid ?_ ?_
    · rw [hkind, hpayload]
      exact htext
    · rw [hpayload]
      exact hfits
  have hlength : ([] ++ fragments.flatten).length ≤ receiver.config.maximumMessageBytes := by
    rw [List.nil_append, hflat, hlen]
    omega
  obtain ⟨receiver', hfeed, hreassembly⟩ := feed_carried hlistening hcarried (Nat.zero_add _) hne
    hgap hcollected hlength hppid hok hinputs
  refine ⟨receiver', ?_, ?_, ?_⟩
  · rw [hfeed]
    simp only [outboundMessage, List.nil_append, hflat, hkind, hpayload]
  · intro other hother
    rw [hreassembly]
    split_ifs
    · rfl
    · exact Maps.getElem?_erase_of_ne fun h => hother h.symm
  · rw [hreassembly, hcount]
    rintro (hnone | hmany)
    · split_ifs
      · exact hnone
      · exact fun h => hnone (ExtTreeMap.mem_erase.mp h).2
    · rw [if_neg (by omega)]
      exact fun h => (ExtTreeMap.mem_erase.mp h).1 Std.ReflCmp.compare_self

namespace Sample

/-- The other end of the sample association: its tags and first TSNs are exchanged. -/
def peerConfig : AssociationConfig :=
  { config with verificationTag := 0xaabbccdd, initialTsn := 500 }

/-- A run that opens stream 0 of an association whose tag and whose peer's tag and first TSN these
are. -/
def openedStream (tag peerTag peerTsn : UInt32) : List Input :=
  [.packet 0 (peerPacket 0 typeInit 0 (Bytes.ofU32 peerTag ++ Bytes.ofU32 65535 ++
      Bytes.ofU16 16 ++ Bytes.ofU16 16 ++ Bytes.ofU32 peerTsn)),
    .packet 1000000 (peerPacket tag typeCookieEcho 0 (List.replicate 32 0x55)),
    .packet 2000000 (peerPacket tag typeData 3 (dataValue peerTsn 0 0 ppidDcep dcepOpenPayload))]

end Sample

/-- A text message between the two ends of one association. -/
theorem feed_sendMessage_sample :
    ∃ start, new Sample.config = .ok start ∧ ∃ peerStart, new Sample.peerConfig = .ok peerStart ∧
      ∃ packets sender', (sendMessage 3000000 0 .text [104, 105]).run
          (runInputs (Sample.openedStream 0x11223344 0xaabbccdd 500) start) =
            (.ok packets, sender') ∧
        ∃ receiver', (feed (packets.map (3000000, ·))).run
            (runInputs (Sample.openedStream 0xaabbccdd 0x11223344 1000) peerStart) =
              (.ok [.message 0 .text [104, 105]], receiver') ∧
          0 ∉ receiver'.reassembly := by
  refine ⟨_, rfl, _, rfl, ?_⟩
  generalize hsender : runInputs (Sample.openedStream 0x11223344 0xaabbccdd 500) _ = sender
  generalize hreceiver : runInputs (Sample.openedStream 0xaabbccdd 0x11223344 1000) _ = receiver
  have hsent : ((sendMessage 3000000 0 .text [104, 105]).run sender).1.isOk = true := by
    rw [← hsender]
    decide +kernel
  obtain ⟨packets, hpackets⟩ := exists_ok_of_isOk hsent
  have hrun : (sendMessage 3000000 0 .text [104, 105]).run sender =
      (.ok packets, ((sendMessage 3000000 0 .text [104, 105]).run sender).2) :=
    Prod.ext hpackets rfl
  have hempty : receiver.pendingData = ∅ := by
    rw [← hreceiver]
    decide +kernel
  have hconnected : Connected sender receiver packets.length := by
    refine ⟨?_, ?_, ?_, ?_, ?_⟩
    · rw [← hsender, ← hreceiver]
      decide +kernel
    · rw [← hsender, ← hreceiver]
      decide +kernel
    · rw [← hsender, ← hreceiver]
      decide +kernel
    · rw [← hsender, ← hreceiver]
      decide +kernel
    · simp [hempty]
  have hreachable : Reachable receiver := ⟨Sample.peerConfig, _, _, rfl, hreceiver⟩
  have hestablished : receiver.state = .established := by
    rw [← hreceiver]
    decide +kernel
  have hopen : 0 ∈ receiver.channels := by
    rw [← hreceiver]
    decide +kernel
  have hfits : ([104, 105] : Bytes).length ≤ receiver.config.maximumMessageBytes := by
    rw [← hreceiver]
    decide +kernel
  have hinputs : (packets.map (3000000, ·)).map Prod.snd = packets := by simp
  obtain ⟨receiver', hfeed, -, hbuffer⟩ := feed_sendMessage hreachable hestablished hopen hfits hrun
    hconnected hinputs
  refine ⟨packets, _, hrun, receiver', hfeed, hbuffer (.inl ?_)⟩
  rw [← hreceiver]
  decide +kernel

end Association

end Fluvora.DataChannel
