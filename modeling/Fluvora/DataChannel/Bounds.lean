import Fluvora.DataChannel.Rejection

/-!
# The resources a peer can hold

Whatever the peer sends, the tables of an association stay within their limits: the reorder buffer
within the receive window, the outstanding chunks within the send window, the channels within the
configured number and the announced streams, and each reassembly buffer within the message limit.
-/

open Std (ExtTreeMap)

namespace Fluvora.DataChannel

open Fallible

namespace Association

/-- The limits of the tables that carry no TSN of the peer. -/
structure Limited (s : Association) : Prop where
  outstanding : s.outstanding.size ≤ maxOutstanding
  channels : s.channels.size ≤ s.config.maximumChannels
  streams : ∀ streamId ∈ s.channels, streamId % 2 = 0 ∧ streamId < s.peerOutboundStreams
  reassembly : ∀ (streamId : UInt16) (assembly : Reassembly),
    s.reassembly[streamId]? = some assembly →
      assembly.payload.length ≤ s.config.maximumMessageBytes

variable {s t : Association}

/-! ## Reassembly -/

/-- Every buffer is within the message limit. -/
def BuffersLimited (limit : ℕ) (reassembly : ExtTreeMap UInt16 Reassembly) : Prop :=
  ∀ (streamId : UInt16) (assembly : Reassembly), reassembly[streamId]? = some assembly →
    assembly.payload.length ≤ limit

theorem BuffersLimited.insert {limit : ℕ} {reassembly : ExtTreeMap UInt16 Reassembly}
    (h : BuffersLimited limit reassembly) (streamId : UInt16) {assembly : Reassembly}
    (hlength : assembly.payload.length ≤ limit) :
    BuffersLimited limit (reassembly.insert streamId assembly) := by
  intro other found hfound
  by_cases hne : streamId = other
  · subst hne
    rw [ExtTreeMap.getElem?_insert_self, Option.some.injEq] at hfound
    rw [← hfound]
    exact hlength
  · rw [Maps.getElem?_insert_of_ne hne] at hfound
    exact h other found hfound

theorem BuffersLimited.erase {limit : ℕ} {reassembly : ExtTreeMap UInt16 Reassembly}
    (h : BuffersLimited limit reassembly) (streamId : UInt16) :
    BuffersLimited limit (reassembly.erase streamId) := by
  intro other found hfound
  exact h other found (Maps.getElem?_erase_eq_some.mp hfound).2

/-- Only the buffers change in a reassembly, and they stay within the limit. -/
def KeepsBuffers (s t : Association) : Prop :=
  ∃ reassembly, t = { s with reassembly } ∧
    (BuffersLimited s.config.maximumMessageBytes s.reassembly →
      BuffersLimited s.config.maximumMessageBytes reassembly)

theorem KeepsBuffers.refl (s : Association) : KeepsBuffers s s := ⟨s.reassembly, rfl, id⟩

theorem KeepsBuffers.limited (h : KeepsBuffers s t) (hs : Limited s) : Limited t := by
  obtain ⟨reassembly, rfl, hkept⟩ := h
  exact ⟨hs.outstanding, hs.channels, hs.streams, hkept hs.reassembly⟩

theorem keepsBuffers_reassemble (data : DataChunk) (s : Association) :
    KeepsBuffers s ((reassemble data).run s).2 := by
  have hbegun : BuffersLimited s.config.maximumMessageBytes s.reassembly →
      BuffersLimited s.config.maximumMessageBytes (s.begun data).reassembly := by
    intro h
    unfold begun
    split_ifs
    · exact h.insert data.streamId (by simp)
    · exact h
  by_cases hfind : ∃ payload, (s.begun data).reassembly[data.streamId]? =
      some ⟨data.streamSequence, data.ppid, payload⟩
  · obtain ⟨payload, hpayload⟩ := hfind
    rw [reassemble_run_of_find hpayload]
    split_ifs with hlong hend
    · exact ⟨_, rfl, fun h => (hbegun h).erase data.streamId⟩
    · exact ⟨_, rfl, fun h => (hbegun h).erase data.streamId⟩
    · refine ⟨_, rfl, fun h => (hbegun h).insert data.streamId ?_⟩
      rw [List.length_append]
      omega
  · rw [not_exists] at hfind
    have hbegin : DataChunk.isBegin data = false := by
      by_contra hbegin
      refine hfind [] ?_
      rw [begun, if_pos (by simpa using hbegin), ExtTreeMap.getElem?_insert_self]
    rw [reassemble_run_of_not_find hbegin (by simpa only [begun_of_not_begin hbegin] using hfind)]
    exact .refl s

theorem keepsBuffers_assemble (data : DataChunk) (s : Association) :
    KeepsBuffers s ((assemble data).run s).2 := by
  unfold assemble
  split_ifs
  · exact .refl s
  · rw [state_run_bind_pure]
    exact keepsBuffers_reassemble data s

theorem keepsBuffers_skipStreams (value : Bytes) (offset count : ℕ) (s : Association) :
    KeepsBuffers s ((skipStreams value offset count).run s).2 := by
  induction count generalizing offset s with
  | zero => exact .refl s
  | succ count ih =>
    rw [skipStreams]
    refine run_ofExcept_bind_invariant (.refl s) fun streamId _ => ?_
    refine run_ofExcept_bind_invariant (.refl s) fun streamSequence _ => ?_
    rw [run_modify_bind]
    split_ifs
    · obtain ⟨reassembly, heq, hkept⟩ :=
        ih (offset + 4) { s with reassembly := s.reassembly.erase streamId }
      exact ⟨reassembly, heq, fun h => hkept (h.erase streamId)⟩
    · exact ih (offset + 4) s

/-! ## Channels -/

/-- What a DCEP OPEN that parses says about the channels. -/
theorem channelOpen_parse_ok {streamId : UInt16} {payload : Bytes} {channel : ChannelOpen}
    (h : ChannelOpen.parse s streamId payload = .ok channel) :
    streamId % 2 = 0 ∧ streamId ∉ s.channels ∧ s.channels.size < s.config.maximumChannels := by
  unfold ChannelOpen.parse at h
  by_cases hguard : payload.head? ≠ some dcepOpen ∨ payload.length < 12 ∨ streamId % 2 ≠ 0 ∨
      s.channels.contains streamId ∨ s.config.maximumChannels ≤ s.channels.size
  · rw [if_pos hguard] at h
    cases h
  · simp only [not_or, not_not, not_le] at hguard
    refine ⟨hguard.2.2.1, ?_, hguard.2.2.2.2⟩
    rw [← ExtTreeMap.contains_iff_mem]
    exact hguard.2.2.2.1

/-- Opening a channel keeps the limits. -/
theorem Limited.open (hs : Limited s) {streamId : UInt16} {payload : Bytes} {channel : ChannelOpen}
    (hparse : ChannelOpen.parse s streamId payload = .ok channel)
    (hstream : streamId < s.peerOutboundStreams) (entry : Channel) :
    Limited { s with channels := s.channels.insert streamId entry } := by
  obtain ⟨heven, hfree, hroom⟩ := channelOpen_parse_ok hparse
  refine ⟨hs.outstanding, ?_, ?_, hs.reassembly⟩
  · show (s.channels.insert streamId entry).size ≤ s.config.maximumChannels
    rw [ExtTreeMap.size_insert, if_neg (by simpa using hfree)]
    omega
  · intro other hother
    rcases Maps.mem_insert_iff.mp hother with rfl | hother
    · exact ⟨heven, hstream⟩
    · exact hs.streams other hother

/-- Queueing chunks for which there is room keeps the limits. -/
theorem Limited.enqueue (hs : Limited s) {count : ℕ} (hroom : s.hasRoom count = true)
    {outstanding : ExtTreeMap UInt32 Outstanding}
    (hmem : ∀ tsn, tsn ∈ outstanding ↔
      tsn ∈ s.outstanding ∨ ∃ i < count, tsn = s.nextTsn + .ofNat i)
    (nextTsn : UInt32) (nextMessageId : UInt64) :
    Limited { s with nextTsn, nextMessageId, outstanding } := by
  refine ⟨?_, hs.channels, hs.streams, hs.reassembly⟩
  have hcovered : ∀ tsn ∈ outstanding,
      tsn ∈ s.outstanding ∨ tsn ∈ (List.range count).map fun i => s.nextTsn + .ofNat i := by
    intro tsn htsn
    rcases (hmem tsn).mp htsn with hold | ⟨i, hi, rfl⟩
    · exact .inl hold
    · exact .inr (List.mem_map.mpr ⟨i, List.mem_range.mpr hi, rfl⟩)
  have hsize := Maps.size_le_add_of_mem hcovered
  rw [List.length_map, List.length_range] at hsize
  have hlimit : s.outstanding.size + count ≤ maxOutstanding := by
    simp only [hasRoom, Bool.and_eq_true, decide_eq_true_eq] at hroom
    exact hroom.1
  exact hsize.trans hlimit

theorem limited_handleDcep (now : ℕ) {streamId : UInt16} (payload : Bytes) {tag : UInt32}
    (htag : s.peerVerificationTag = some tag) (hstream : streamId < s.peerOutboundStreams)
    (hs : Limited s) : Limited ((handleDcep now streamId payload).run s).2 := by
  cases hparse : ChannelOpen.parse s streamId payload with
  | error error =>
    rw [handleDcep, run_get_bind, hparse]
    exact hs
  | ok channel =>
    have hopen := hs.open hparse hstream ⟨channel.ordered, channel.reliability, 0⟩
    obtain ⟨-, hrun⟩ | ⟨hroom, packets, outstanding, hrun, hmem⟩ :=
      handleDcep_run now streamId htag hparse
    · rw [hrun]
      exact hopen
    · rw [hrun]
      refine @Limited.enqueue _ hopen 1 hroom _ ?_ (s.nextTsn + 1) (s.nextMessageId + 1)
      intro tsn
      rw [hmem]
      simp

/-! ## One chunk -/

theorem limited_processDataMessage (now : ℕ) (data : DataChunk) {tag : UInt32}
    (htag : s.peerVerificationTag = some tag) (hs : Limited s) :
    Limited ((processDataMessage now data).run s).2 := by
  rw [processDataMessage, run_get_bind]
  refine run_ensure_bind_invariant hs fun hstream => ?_
  have hkeeps := keepsBuffers_assemble data s
  refine run_bind_invariant (hkeeps.limited hs) fun payload t hrun ht => ?_
  rw [hrun] at hkeeps
  obtain ⟨reassembly, rfl, -⟩ := hkeeps
  split_ifs
  · exact ht
  · exact limited_handleDcep now payload htag hstream ht
  · exact ht
  · exact ht

theorem limited_processAll (now : ℕ) (batch : List DataChunk) {tag : UInt32}
    (htag : s.peerVerificationTag = some tag) (hs : Limited s) :
    Limited ((processAll now batch).run s).2 := by
  induction batch generalizing s with
  | nil => exact hs
  | cons data rest ih =>
    have hframe := processDataMessage_frame now data htag
    refine run_bind_invariant (limited_processDataMessage now data htag hs) fun first t hrun ht => ?_
    rw [hrun] at hframe
    rw [state_run_bind_pure]
    exact ih (hframe.peerVerificationTag.trans htag) ht

theorem limited_releasePending (now fuel : ℕ) (next : UInt32) {tag : UInt32}
    (htag : s.peerVerificationTag = some tag) (hs : Limited s) :
    Limited ((releasePending now fuel next).run s).2 := by
  induction fuel generalizing next s with
  | zero => exact hs
  | succ fuel ih =>
    simp only [releasePending, run_get_bind]
    rcases s.pendingData[next]? with _ | data
    · exact hs
    have htag' : (unbuffer next s).peerVerificationTag = some tag := htag
    have htaken : Limited (unbuffer next s) :=
      ⟨hs.outstanding, hs.channels, hs.streams, hs.reassembly⟩
    have hframe := processDataMessage_frame now data htag'
    simp only [run_modify_bind]
    refine run_bind_invariant (limited_processDataMessage now data htag' htaken)
      fun first t hrun ht => ?_
    rw [hrun] at hframe
    rw [run_modify_bind, state_run_bind_pure]
    refine ih (next + 1) (hframe.peerVerificationTag.trans htag) ?_
    exact ⟨ht.outstanding, ht.channels, ht.streams, ht.reassembly⟩

theorem limited_handleData (now : ℕ) (flags : UInt8) (value : Bytes) (hsound : Sound s)
    (hs : Limited s) : Limited ((handleData now flags value).run s).2 := by
  by_cases hstate : s.state = .established
  swap
  · simp only [handleData, run_get_bind, run_ensure_bind]
    rw [if_neg fun h => hstate h.1]
    exact hs
  obtain ⟨peer, hpeer⟩ := hsound.known (.inr hstate)
  obtain ⟨⟨cumulative, hcum⟩, -⟩ := hsound.started peer hpeer
  have hbuf := hsound.buffered cumulative hcum
  obtain ⟨-, hrun⟩ | ⟨data, -, -, ⟨-, sack, hrun⟩ | ⟨-, -, hrun⟩ | ⟨hnew, hwindow, hrun⟩⟩ :=
    handleData_run now flags value hpeer hcum hbuf
  · rw [hrun]
    exact hs
  · rw [hrun]
    exact hs
  · rw [hrun]
    exact hs
  · obtain ⟨batch, pending, hdrain, -⟩ := receiveStep_drain hcum hbuf hnew hwindow
    rw [hdrain] at hrun
    have hprocessed : Limited ((processAll now batch).run { s with
        pendingData := pending
        cumulativePeerTsn := some (cumulative + .ofNat batch.length) }).2 :=
      limited_processAll now batch hpeer ⟨hs.outstanding, hs.channels, hs.streams, hs.reassembly⟩
    rcases hrun with ⟨error, -, hrun⟩ | ⟨output, sack, -, hrun⟩
    · rw [hrun]
      exact hprocessed
    · rw [hrun]
      exact hprocessed

theorem limited_handleForwardTsn (now : ℕ) (value : Bytes) (hsound : Sound s) (hs : Limited s) :
    Limited ((handleForwardTsn now value).run s).2 := by
  by_cases hstate : s.state = .established
  swap
  · simp only [handleForwardTsn, run_get_bind, run_ensure_bind]
    rw [if_neg fun h => hstate h.1]
    exact hs
  obtain ⟨peer, hpeer⟩ := hsound.known (.inr hstate)
  obtain ⟨⟨current, hcum⟩, -⟩ := hsound.started peer hpeer
  have hbuf := hsound.buffered current hcum
  obtain ⟨-, hrun⟩ | ⟨newCumulativeTsn, -, -, ⟨-, sack, hrun⟩ | ⟨-, hrun⟩⟩ :=
    handleForwardTsn_run now value hpeer hcum hbuf
  · rw [hrun]
    exact hs
  · rw [hrun]
    exact hs
  · have hskipped := keepsBuffers_skipStreams value 4 ((value.length - 4) / 4) s
    have hpeer' : (s.forwarded value newCumulativeTsn).peerVerificationTag = some peer := by
      obtain ⟨reassembly, heq, -⟩ := hskipped
      rw [forwarded, heq]
      exact hpeer
    have hforwarded : Limited (s.forwarded value newCumulativeTsn) := by
      have hlimited := hskipped.limited hs
      exact ⟨hlimited.outstanding, hlimited.channels, hlimited.streams, hlimited.reassembly⟩
    have hreleased := limited_releasePending now
      (s.forwarded value newCumulativeTsn).pendingData.size (newCumulativeTsn + 1) hpeer' hforwarded
    rcases hrun with ⟨error, -, hrun⟩ | ⟨output, sack, -, hrun⟩
    · rw [hrun]
      exact hreleased
    · rw [hrun]
      exact hreleased

theorem ResetFrame.limited (h : ResetFrame s t) (hs : Limited s) : Limited t := by
  obtain ⟨hframe, -, hreassembly, hchannels⟩ := h
  have hkept : ∀ streamId ∈ t.channels, streamId ∈ s.channels := by
    intro streamId hstream
    obtain ⟨channel, hchannel⟩ := Maps.mem_iff_exists.mp hstream
    exact Maps.mem_of_getElem? (hchannels streamId channel hchannel)
  have hsize := Maps.size_le_of_subset hkept
  refine ⟨?_, ?_, ?_, ?_⟩
  · rw [hframe]
    exact hs.outstanding
  · have hlimit := hs.channels
    rw [show t.config = s.config by rw [hframe]]
    omega
  · rw [show t.peerOutboundStreams = s.peerOutboundStreams by rw [hframe]]
    exact fun streamId hstream => hs.streams streamId (hkept streamId hstream)
  · rw [show t.config = s.config by rw [hframe]]
    exact fun streamId assembly h => hs.reassembly streamId assembly (hreassembly streamId assembly h)

theorem limited_restart (init : InitChunk) (s : Association) : Limited (restart init s) := by
  refine ⟨by simp [restart], by simp [restart], ?_, ?_⟩
  · intro streamId hstream
    simp [restart] at hstream
  · intro streamId assembly h
    simp [restart] at h

theorem limited_handleChunk (now : ℕ) (tag : UInt32) (chunk : ParsedChunk) (hsound : Sound s)
    (hs : Limited s) : Limited ((handleChunk now tag chunk).run s).2 := by
  have hguarded : ∀ action : Action AssociationOutput,
      Limited (action.run s).2 → Limited ((guarded tag action).run s).2 := by
    intro action haction
    rw [guarded_run]
    split_ifs
    · exact haction
    · exact hs
  refine handleChunk_elim (P := fun action => Limited (action.run s).2) now tag chunk
    ?_ ?_ ?_ ?_ ?_ ?_ ?_ ?_ ?_ ?_
  · intro _
    have hinit := handleInit_run hsound tag chunk.value
    rcases hparse : InitChunk.parse tag chunk.value with error | init
    · rw [hparse] at hinit
      rw [hinit]
      exact hs
    · rw [hparse] at hinit
      obtain ⟨output, hrun, -⟩ := hinit
      rw [hrun]
      exact limited_restart init s
  · intro _
    obtain hsame | ⟨-, hrun⟩ := handleCookieEcho_state tag chunk.value s
    · rw [hsame]
      exact hs
    · rw [hrun]
      exact ⟨hs.outstanding, hs.channels, hs.streams, hs.reassembly⟩
  · exact fun _ => hguarded _ (limited_handleData now chunk.flags chunk.value hsound hs)
  · refine fun _ => hguarded _ ?_
    rw [state_run_bind_pure]
    have hrun := handleSack_run chunk.value s
    split at hrun
    next =>
      obtain ⟨error, hrun⟩ := hrun
      rw [hrun]
      exact hs
    next cumulative gapCount hheader =>
      obtain ⟨result, hrun, -⟩ := hrun
      rw [hrun]
      refine ⟨?_, hs.channels, hs.streams, hs.reassembly⟩
      have hkept : ∀ tsn ∈ ackBlocks cumulative (appliedGaps chunk.value 0 gapCount)
          (ackCumulative cumulative s).outstanding, tsn ∈ s.outstanding := by
        intro tsn htsn
        exact (ExtTreeMap.mem_filter.mp (mem_ackBlocks.mp htsn).1).1
      exact (Maps.size_le_of_subset hkept).trans hs.outstanding
  · refine fun _ => hguarded _ ?_
    rw [handleHeartbeat_state]
    exact hs
  · exact fun _ => ⟨hs.outstanding, hs.channels, hs.streams, hs.reassembly⟩
  · refine fun _ => hguarded _ ?_
    rw [handleShutdown_state]
    exact ⟨hs.outstanding, hs.channels, hs.streams, hs.reassembly⟩
  · exact fun _ => hguarded _ ((handleReconfiguration_frame chunk.value s).limited hs)
  · exact fun _ => hguarded _ (limited_handleForwardTsn now chunk.value hsound hs)
  · exact fun _ => hs

/-! ## Runs -/

theorem limited_sendMessage (now : ℕ) (streamId : UInt16) (kind : MessageKind) (payload : Bytes)
    (hsound : Sound s) (hs : Limited s) :
    Limited ((sendMessage now streamId kind payload).run s).2 := by
  obtain ⟨error, hrun⟩ | ⟨hstate, channel, message, wire, hchannel, hrun⟩ :=
    sendMessage_run now streamId kind payload s
  · rw [hrun]
    exact hs
  obtain ⟨peer, hpeer⟩ := hsound.known (.inr hstate)
  have hopen := Maps.mem_of_getElem? hchannel
  have hnumbered : Limited { s with
      channels := s.channels.insert streamId
        { channel with nextOutgoingSequence := channel.nextOutgoingSequence + 1 } } := by
    refine ⟨hs.outstanding, ?_, ?_, hs.reassembly⟩
    · show (s.channels.insert streamId _).size ≤ s.config.maximumChannels
      rw [ExtTreeMap.size_insert, if_pos (by simpa using hopen)]
      exact hs.channels
    · intro other hother
      rcases Maps.mem_insert_iff.mp hother with rfl | hother
      · exact hs.streams _ hopen
      · exact hs.streams other hother
  rw [hrun]
  obtain ⟨-, hqueue⟩ | ⟨hroom, packets, outstanding, hqueue, hmem⟩ :=
    enqueueMessage_run now message wire { s with
      channels := s.channels.insert streamId
        { channel with nextOutgoingSequence := channel.nextOutgoingSequence + 1 } } hpeer
  · rw [hqueue]
    exact hnumbered
  · rw [hqueue]
    exact hnumbered.enqueue hroom hmem _ _

theorem limited_tick (now : ℕ) (hs : Limited s) : Limited (tick now s).2 := by
  obtain ⟨state, outstanding, abandoned, pendingForwardTsn, hrun, -, hout, -⟩ := tick_run now s
  rw [hrun]
  exact ⟨(Maps.size_le_of_subset hout).trans hs.outstanding, hs.channels, hs.streams, hs.reassembly⟩

/-- What never changes, and that nothing is buffered before the handshake. -/
structure Configured (config : AssociationConfig) (s : Association) : Prop where
  config : s.config = config
  unstarted : s.cumulativePeerTsn = none → s.pendingData = ∅

theorem ChunkEffect.configured {config : AssociationConfig} {tag : UInt32} {chunk : ParsedChunk}
    (h : ChunkEffect tag chunk s t) (hs : Configured config s) : Configured config t := by
  cases h with
  | unchanged => exact hs
  | restart init => exact ⟨hs.config, fun h => by simp [Association.restart] at h⟩
  | established => exact ⟨hs.config, hs.unstarted⟩
  | closed => exact ⟨hs.config, hs.unstarted⟩
  | receive hsteps hframe hcum hbuf =>
    refine ⟨?_, fun h => by simp [hcum] at h⟩
    rw [hframe]
    exact hs.config
  | sack => exact ⟨hs.config, hs.unstarted⟩
  | reset h =>
    obtain ⟨hframe, -⟩ := h
    rw [hframe]
    exact ⟨hs.config, hs.unstarted⟩

theorem configured_sendMessage {config : AssociationConfig} (now : ℕ) (streamId : UInt16)
    (kind : MessageKind) (payload : Bytes) (hsound : Sound s) (hs : Configured config s) :
    Configured config ((sendMessage now streamId kind payload).run s).2 := by
  obtain ⟨error, hrun⟩ | ⟨hstate, channel, message, wire, -, hrun⟩ :=
    sendMessage_run now streamId kind payload s
  · rw [hrun]
    exact hs
  obtain ⟨peer, hpeer⟩ := hsound.known (.inr hstate)
  rw [hrun]
  obtain ⟨-, hqueue⟩ | ⟨-, packets, outstanding, hqueue, -⟩ :=
    enqueueMessage_run now message wire { s with
      channels := s.channels.insert streamId
        { channel with nextOutgoingSequence := channel.nextOutgoingSequence + 1 } } hpeer
  · rw [hqueue]
    exact ⟨hs.config, hs.unstarted⟩
  · rw [hqueue]
    exact ⟨hs.config, hs.unstarted⟩

theorem configured_tick {config : AssociationConfig} (now : ℕ) (hs : Configured config s) :
    Configured config (tick now s).2 := by
  obtain ⟨state, outstanding, abandoned, pendingForwardTsn, hrun, -, -, -⟩ := tick_run now s
  rw [hrun]
  exact ⟨hs.config, hs.unstarted⟩

/-- The invariant of a run. -/
structure Within (config : AssociationConfig) (s : Association) : Prop where
  sound : Sound s
  limited : Limited s
  configured : Configured config s

theorem within_new {config : AssociationConfig} {start : Association}
    (h : new config = .ok start) : Within config start := by
  refine ⟨sound_new h, ?_, ?_⟩
  all_goals
    unfold new at h
    rcases hvalid : config.validate with error | ⟨⟩
    · rw [hvalid] at h
      cases h
    rw [hvalid] at h
    cases h
  · exact ⟨by simp, by simp, by simp, by simp⟩
  · exact ⟨rfl, fun _ => rfl⟩

theorem within_runInputs {config : AssociationConfig} {start : Association}
    (h : new config = .ok start) (inputs : List Input) :
    Within config (runInputs inputs start) := by
  refine runInputs_invariant ?_ ?_ ?_ inputs (within_new h) (allMeet_true inputs start)
  · intro now tag chunks s hs _
    induction chunks generalizing s with
    | nil => exact hs
    | cons chunk rest ih =>
      have heffect := handleChunk_effect now tag chunk hs.sound
      have hchunk : Within config ((handleChunk now tag chunk).run s).2 :=
        ⟨heffect.sound hs.sound, limited_handleChunk now tag chunk hs.sound hs.limited,
          heffect.configured hs.configured⟩
      refine run_bind_invariant hchunk fun _ t _ ht => ?_
      rw [state_run_bind_pure]
      exact ih t ht
  · intro now streamId kind payload s hs
    exact ⟨sound_sendMessage now streamId kind payload hs.sound,
      limited_sendMessage now streamId kind payload hs.sound hs.limited,
      configured_sendMessage now streamId kind payload hs.sound hs.configured⟩
  · intro now s hs
    exact ⟨sound_tick now hs.sound, limited_tick now hs.limited, configured_tick now hs.configured⟩

/-- In every reachable state the peer holds bounded resources. -/
theorem resources_bounded {config : AssociationConfig} {start : Association}
    (h : new config = .ok start) (inputs : List Input) :
    let s := runInputs inputs start
    (∀ tsn ∈ s.pendingData, ∃ cumulative, s.cumulativePeerTsn = some cumulative ∧
      2 ≤ (tsn - cumulative).toNat ∧ (tsn - cumulative).toNat ≤ 1024) ∧
    s.outstanding.size ≤ 256 ∧
    s.channels.size ≤ config.maximumChannels ∧
    (∀ streamId ∈ s.channels, streamId % 2 = 0 ∧ streamId < s.peerOutboundStreams) ∧
    ∀ (streamId : UInt16) (assembly : Reassembly), s.reassembly[streamId]? = some assembly →
      assembly.payload.length ≤ config.maximumMessageBytes := by
  intro s
  obtain ⟨hsound, hlimited, hconfigured⟩ := within_runInputs h inputs
  refine ⟨?_, hlimited.outstanding, ?_, hlimited.streams, ?_⟩
  · intro tsn htsn
    cases hcum : s.cumulativePeerTsn with
    | none =>
      have hempty : s.pendingData = ∅ := hconfigured.unstarted hcum
      simp [hempty] at htsn
    | some cumulative =>
      obtain ⟨data, hdata⟩ := Maps.mem_iff_exists.mp htsn
      exact ⟨cumulative, rfl, (hsound.buffered cumulative hcum tsn data hdata).2⟩
  · rw [← hconfigured.config]
    exact hlimited.channels
  · rw [← hconfigured.config]
    exact hlimited.reassembly

/-- A run with an open channel, a buffered chunk and a message under reassembly. -/
theorem sample_resources_bounded :
    ∃ start, new Sample.config = .ok start ∧
      let s := runInputs (Sample.establish false ++
        [.packet 2000000 (Sample.data 3 500 0 0 ppidDcep Sample.dcepOpenPayload),
          .packet 3000000 (Sample.data 2 501 0 0 ppidBinary [1, 2]),
          .packet 4000000 (Sample.data 1 503 0 0 ppidBinary [3])]) start
      s.pendingData.keys = [503] ∧ s.channels.keys = [0] ∧ s.reassembly.keys = [0] ∧
        s.outstanding.size ≤ 256 := by
  refine ⟨_, rfl, by decide +kernel, by decide +kernel, by decide +kernel, ?_⟩
  exact (@resources_bounded Sample.config _ rfl _).2.1

end Association

end Fluvora.DataChannel
