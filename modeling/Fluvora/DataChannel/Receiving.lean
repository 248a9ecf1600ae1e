import Fluvora.Lib.Serial
import Fluvora.DataChannel.Sending

/-!
# What the receive side of an association does

`processDataMessage` on one released chunk: `admits` says in closed form when every check on the
chunk passes, `Processed` what an admitted chunk does, and a chunk that is not admitted writes at
most the reassembly buffers and the channels.  `drain_run` says which buffered chunks a new
cumulative TSN releases.
-/

open Std (ExtTreeMap)

namespace Fluvora.DataChannel

open Fallible

namespace Association

/-! ## Reassembly -/

/-- What the stream has collected of the message a fragment continues. -/
def partialPayload (s : Association) (data : DataChunk) : Option Bytes :=
  if DataChunk.isBegin data then some []
  else s.reassembly[data.streamId]?.bind fun assembly =>
    if assembly.streamSequence = data.streamSequence ∧ assembly.ppid = data.ppid then
      some assembly.payload
    else none

/-- The payload collected with a chunk, if the chunk fits the message it continues. -/
def assembled (s : Association) (data : DataChunk) : Option Bytes :=
  if DataChunk.isBegin data && DataChunk.isEnd data then some data.payload
  else (s.partialPayload data).bind fun payload =>
    if payload.length + data.payload.length ≤ s.config.maximumMessageBytes then
      some (payload ++ data.payload)
    else none

/-- The reassembly buffers after a chunk that fits. -/
def reassemblyAfter (s : Association) (data : DataChunk) (payload : Bytes) :
    ExtTreeMap UInt16 Reassembly :=
  if DataChunk.isBegin data && DataChunk.isEnd data then s.reassembly
  else if DataChunk.isEnd data then s.reassembly.erase data.streamId
  else s.reassembly.insert data.streamId ⟨data.streamSequence, data.ppid, payload⟩

/-- The state in which `reassemble` looks its buffer up: a first fragment has started it over. -/
def begun (s : Association) (data : DataChunk) : Association :=
  if DataChunk.isBegin data then
    { s with reassembly := s.reassembly.insert data.streamId ⟨data.streamSequence, data.ppid, []⟩ }
  else s

/-- Where a fragment finds the buffer of its own message, only the length can refuse it. -/
theorem reassemble_run_of_find {s : Association} {data : DataChunk} {payload : Bytes}
    (h : (s.begun data).reassembly[data.streamId]? =
      some ⟨data.streamSequence, data.ppid, payload⟩) :
    (reassemble data).run s =
      if s.config.maximumMessageBytes < payload.length + data.payload.length then
        (.error .messageTooLarge,
          { s with reassembly := (s.begun data).reassembly.erase data.streamId })
      else if DataChunk.isEnd data then
        (.ok (some (payload ++ data.payload)),
          { s with reassembly := (s.begun data).reassembly.erase data.streamId })
      else
        (.ok none, { s with
          reassembly := (s.begun data).reassembly.insert data.streamId
            ⟨data.streamSequence, data.ppid, payload ++ data.payload⟩ }) := by
  unfold reassemble begun at *
  by_cases hbegin : DataChunk.isBegin data = true
  · simp only [hbegin, if_true, run_modify_bind, run_get_bind, run_ofOption_bind,
      run_ensure_bind] at h ⊢
    rw [h]
    simp only [and_self, if_true]
    split_ifs <;> rfl
  · simp only [hbegin, Bool.false_eq_true, if_false, run_get_bind, run_ofOption_bind,
      run_ensure_bind] at h ⊢
    rw [h]
    simp only [and_self, if_true]
    split_ifs <;> rfl

/-- A later fragment that finds no buffer, or that of another message, is refused. -/
theorem reassemble_run_of_not_find {s : Association} {data : DataChunk}
    (hbegin : DataChunk.isBegin data = false)
    (h : ∀ payload, s.reassembly[data.streamId]? ≠
      some ⟨data.streamSequence, data.ppid, payload⟩) :
    (reassemble data).run s = (.error .invalidFragmentSequence, s) := by
  unfold reassemble
  simp only [hbegin, Bool.false_eq_true, if_false, run_get_bind, run_ofOption_bind,
    run_ensure_bind]
  rcases hfind : s.reassembly[data.streamId]? with _ | ⟨sequence, ppid, payload⟩
  · rfl
  · simp only
    rw [if_neg]
    rintro ⟨rfl, rfl⟩
    exact h payload hfind

theorem partialPayload_eq_some {s : Association} {data : DataChunk} {payload : Bytes} :
    s.partialPayload data = some payload ↔ (s.begun data).reassembly[data.streamId]? =
      some ⟨data.streamSequence, data.ppid, payload⟩ := by
  unfold partialPayload begun
  by_cases hbegin : DataChunk.isBegin data = true
  · simp only [hbegin, if_true, ExtTreeMap.getElem?_insert_self]
    simp
  · simp only [hbegin, Bool.false_eq_true, if_false]
    rcases s.reassembly[data.streamId]? with _ | ⟨sequence, ppid, collected⟩
    · simp
    · simp only [Option.bind_some, Option.some.injEq, Reassembly.mk.injEq]
      split_ifs with hsame
      · simp [hsame]
      · simp only [false_iff]
        rintro ⟨rfl, rfl, rfl⟩
        exact hsame ⟨rfl, rfl⟩

theorem begun_of_not_begin {s : Association} {data : DataChunk}
    (hbegin : DataChunk.isBegin data = false) : s.begun data = s := by
  simp [begun, hbegin]

theorem assemble_run_of_some {s : Association} {data : DataChunk} {payload : Bytes}
    (h : s.assembled data = some payload) :
    (assemble data).run s = (.ok (if DataChunk.isEnd data then payload else []),
      { s with reassembly := s.reassemblyAfter data payload }) := by
  unfold assembled at h
  unfold assemble reassemblyAfter
  by_cases hwhole : (DataChunk.isBegin data && DataChunk.isEnd data) = true
  · simp only [hwhole, if_true, Option.some.injEq] at h ⊢
    have hend : DataChunk.isEnd data = true := by
      simp only [Bool.and_eq_true] at hwhole
      exact hwhole.2
    simp [hend, h]
  · simp only [hwhole, Bool.false_eq_true, if_false, Option.bind_eq_some_iff] at h ⊢
    obtain ⟨collected, hcollected, hfits⟩ := h
    split_ifs at hfits with hlen
    obtain rfl : collected ++ data.payload = payload := by simpa using hfits
    rw [partialPayload_eq_some] at hcollected
    rw [run_bind, reassemble_run_of_find hcollected, if_neg (by omega)]
    by_cases hend : DataChunk.isEnd data = true
    · have hbegin : DataChunk.isBegin data = false := by
        simpa [hend] using hwhole
      simp [hend, begun, hbegin]
    · by_cases hbegin : DataChunk.isBegin data = true
      · simp [hend, begun, hbegin, Maps.insert_insert_self]
      · simp [hend, begun, hbegin]

theorem assemble_run_of_none {s : Association} {data : DataChunk} (h : s.assembled data = none) :
    ∃ error reassembly, (assemble data).run s = (.error error, { s with reassembly }) := by
  unfold assembled at h
  unfold assemble
  split_ifs at h with hwhole
  simp only [hwhole, if_false, Bool.false_eq_true]
  rcases hbegun : s.partialPayload data with _ | collected
  · have hnot : ∀ payload, (s.begun data).reassembly[data.streamId]? ≠
        some ⟨data.streamSequence, data.ppid, payload⟩ := by
      intro payload hfind
      rw [partialPayload_eq_some.mpr hfind] at hbegun
      cases hbegun
    have hbegin : DataChunk.isBegin data = false := by
      by_contra hbegin
      rw [Bool.not_eq_false] at hbegin
      simp [partialPayload, hbegin] at hbegun
    rw [begun_of_not_begin hbegin] at hnot
    refine ⟨.invalidFragmentSequence, s.reassembly, ?_⟩
    rw [run_bind, reassemble_run_of_not_find hbegin hnot]
  · rw [hbegun] at h
    simp only [Option.bind_some] at h
    split_ifs at h with hlen
    rw [partialPayload_eq_some] at hbegun
    rw [run_bind, reassemble_run_of_find hbegun, if_pos (by omega)]
    exact ⟨_, _, rfl⟩

/-! ## One released chunk -/

/-- Every check of `processDataMessage` passes. -/
def admits (s : Association) (data : DataChunk) : Bool :=
  decide (data.streamId < s.peerOutboundStreams) &&
    match s.assembled data with
    | none => false
    | some payload =>
        if !DataChunk.isEnd data then true
        else if data.ppid = ppidDcep then
          (ChannelOpen.parse s data.streamId payload).isOk && s.hasRoom 1
        else
          userPpid data.ppid && (s.handleUserMessage data.streamId data.ppid payload).isOk

/-- What an admitted chunk does: it extends a message, completes a user message, or opens a
channel. -/
inductive Processed (s : Association) (data : DataChunk) : AssociationOutput → Association → Prop
  | fragment {payload : Bytes} (hpayload : s.assembled data = some payload)
      (hend : DataChunk.isEnd data = false) :
      Processed s data {} { s with reassembly := s.reassemblyAfter data payload }
  | message {payload : Bytes} (hpayload : s.assembled data = some payload)
      (hend : DataChunk.isEnd data = true) (hppid : userPpid data.ppid = true)
      (hopen : data.streamId ∈ s.channels) :
      Processed s data
        { events := [.message data.streamId (messageKind data.ppid)
            (messagePayload data.ppid payload)] }
        { s with reassembly := s.reassemblyAfter data payload }
  | opened {payload : Bytes} {channel : ChannelOpen} {packets : List Bytes}
      {outstanding : ExtTreeMap UInt32 Outstanding}
      (hpayload : s.assembled data = some payload)
      (hend : DataChunk.isEnd data = true) (hppid : data.ppid = ppidDcep)
      (hroom : s.hasRoom 1 = true)
      (hparse : ChannelOpen.parse s data.streamId payload = .ok channel)
      (hout : ∀ tsn, tsn ∈ outstanding ↔ tsn ∈ s.outstanding ∨ tsn = s.nextTsn) :
      Processed s data
        { packets, events := [.channelOpened data.streamId channel.label channel.protocol
            channel.ordered channel.reliability] }
        { s with
          reassembly := s.reassemblyAfter data payload
          channels := s.channels.insert data.streamId ⟨channel.ordered, channel.reliability, 0⟩
          nextTsn := s.nextTsn + 1
          nextMessageId := s.nextMessageId + 1
          outstanding }

theorem exists_ok_of_isOk {ε α : Type} {r : Except ε α} (h : r.isOk = true) : ∃ a, r = .ok a := by
  cases r with
  | error e => cases h
  | ok a => exact ⟨a, rfl⟩

theorem exists_error_of_isOk {ε α : Type} {r : Except ε α} (h : r.isOk = false) :
    ∃ e, r = .error e := by
  cases r with
  | error e => exact ⟨e, rfl⟩
  | ok a => cases h

theorem handleUserMessage_ok {s : Association} {streamId : UInt16} {ppid : UInt32}
    {payload : Bytes} {output : AssociationOutput}
    (h : s.handleUserMessage streamId ppid payload = .ok output) :
    output = { events := [.message streamId (messageKind ppid) (messagePayload ppid payload)] } ∧
      streamId ∈ s.channels := by
  unfold handleUserMessage at h
  split_ifs at h with hchannel hppid
  have hopen : streamId ∈ s.channels := by simpa using hchannel
  refine ⟨?_, hopen⟩
  simp only [bind, Except.bind, pure, Except.pure] at h
  split_ifs at h with htext hlen hlen
  · split at h <;> cases h
  · split at h
    · cases h
    · cases h
      rfl
  · cases h
    rfl

/-- The DCEP ACK takes one TSN, unless the window is full; the channel is open either way. -/
theorem handleDcep_run (now : ℕ) (streamId : UInt16) {payload : Bytes} {s : Association}
    {tag : UInt32} {channel : ChannelOpen} (htag : s.peerVerificationTag = some tag)
    (hparse : ChannelOpen.parse s streamId payload = .ok channel) :
    (s.hasRoom 1 = false ∧ (handleDcep now streamId payload).run s =
      (.error .sendWindowFull, { s with
        channels := s.channels.insert streamId ⟨channel.ordered, channel.reliability, 0⟩ })) ∨
    (s.hasRoom 1 = true ∧ ∃ packets outstanding, (handleDcep now streamId payload).run s =
      (.ok { packets, events := [.channelOpened streamId channel.label channel.protocol
          channel.ordered channel.reliability] },
        { s with
          channels := s.channels.insert streamId ⟨channel.ordered, channel.reliability, 0⟩
          nextTsn := s.nextTsn + 1
          nextMessageId := s.nextMessageId + 1
          outstanding }) ∧
      ∀ tsn, tsn ∈ outstanding ↔ tsn ∈ s.outstanding ∨ tsn = s.nextTsn) := by
  have hcount : (Bytes.chunks maxDataPayload [dcepAck]).length = 1 := rfl
  have hqueue := enqueueMessage_run now (dcepAckMessage streamId) [dcepAck]
    { s with channels := s.channels.insert streamId ⟨channel.ordered, channel.reliability, 0⟩ } htag
  simp only [hcount] at hqueue
  simp only [handleDcep, run_get_bind, hparse, run_ofExcept_bind, run_modify_bind]
  rcases hqueue with ⟨hroom, hrun⟩ | ⟨hroom, packets, outstanding, hrun, hmem⟩
  · left
    refine ⟨hroom, ?_⟩
    rw [run_bind, hrun]
  · right
    refine ⟨hroom, packets, outstanding, ?_, ?_⟩
    · rw [run_bind, hrun]
      rfl
    · intro tsn
      simpa using hmem tsn

theorem processDataMessage_run_of_admits (now : ℕ) {data : DataChunk} {s : Association}
    {tag : UInt32} (htag : s.peerVerificationTag = some tag) (h : s.admits data = true) :
    ∃ output t, (processDataMessage now data).run s = (.ok output, t) ∧
      Processed s data output t := by
  unfold admits at h
  rw [Bool.and_eq_true, decide_eq_true_eq] at h
  obtain ⟨hstream, h⟩ := h
  split at h
  next => cases h
  next payload hpayload =>
    simp only [processDataMessage, run_get_bind, run_ensure_bind, if_pos hstream]
    rw [run_bind, assemble_run_of_some hpayload]
    by_cases hend : DataChunk.isEnd data = true
    swap
    · rw [Bool.not_eq_true] at hend
      simp only [hend, Bool.not_false, if_true]
      exact ⟨_, _, rfl, .fragment hpayload hend⟩
    simp only [hend, Bool.not_true, Bool.false_eq_true, if_false, if_true] at h ⊢
    by_cases hppid : data.ppid = ppidDcep
    · rw [if_pos hppid, Bool.and_eq_true] at h
      obtain ⟨channel, hparse⟩ := exists_ok_of_isOk h.1
      rw [if_pos hppid]
      obtain ⟨hfull, -⟩ | ⟨-, packets, outstanding, hrun, hmem⟩ := handleDcep_run now data.streamId
        (s := { s with reassembly := s.reassemblyAfter data payload }) htag hparse
      · have hroom : s.hasRoom 1 = false := hfull
        rw [hroom] at h
        exact absurd h.2 Bool.false_ne_true
      · exact ⟨_, _, hrun, .opened hpayload hend hppid h.2 hparse hmem⟩
    · rw [if_neg hppid, Bool.and_eq_true] at h
      obtain ⟨output, houtput⟩ := exists_ok_of_isOk h.2
      obtain ⟨rfl, hopen⟩ := handleUserMessage_ok houtput
      have hsame : ({ s with reassembly := s.reassemblyAfter data payload } :
          Association).handleUserMessage data.streamId data.ppid payload =
            s.handleUserMessage data.streamId data.ppid payload := rfl
      rw [if_neg hppid, if_pos h.1, run_get_bind, run_ofExcept, hsame, houtput]
      exact ⟨_, _, rfl, .message hpayload hend h.1 hopen⟩

theorem processDataMessage_run_of_not_admits (now : ℕ) {data : DataChunk} {s : Association}
    {tag : UInt32} (htag : s.peerVerificationTag = some tag) (h : s.admits data = false) :
    ∃ error reassembly channels, (processDataMessage now data).run s =
      (.error error, { s with reassembly, channels }) := by
  simp only [processDataMessage, run_get_bind, run_ensure_bind]
  by_cases hstream : data.streamId < s.peerOutboundStreams
  swap
  · rw [if_neg hstream]
    exact ⟨_, _, _, rfl⟩
  rw [if_pos hstream, run_bind]
  unfold admits at h
  rw [decide_eq_true hstream, Bool.true_and] at h
  split at h
  next hnone =>
    obtain ⟨error, reassembly, hrun⟩ := assemble_run_of_none hnone
    rw [hrun]
    exact ⟨error, reassembly, s.channels, rfl⟩
  next payload hpayload =>
    rw [assemble_run_of_some hpayload]
    by_cases hend : DataChunk.isEnd data = true
    swap
    · simp [hend] at h
    simp only [hend, Bool.not_true, Bool.false_eq_true, if_false, if_true] at h ⊢
    by_cases hppid : data.ppid = ppidDcep
    · rw [if_pos hppid] at h ⊢
      cases hparse : ChannelOpen.parse s data.streamId payload with
      | error error =>
        have hparse' : ChannelOpen.parse { s with reassembly := s.reassemblyAfter data payload }
            data.streamId payload = .error error := hparse
        simp only [handleDcep, run_get_bind, hparse', run_ofExcept_bind]
        exact ⟨error, _, s.channels, rfl⟩
      | ok channel =>
        rw [hparse] at h
        obtain ⟨-, hrun⟩ | ⟨hroom, -⟩ := handleDcep_run now data.streamId
          (s := { s with reassembly := s.reassemblyAfter data payload }) htag hparse
        · rw [hrun]
          exact ⟨_, _, _, rfl⟩
        · have hroom : s.hasRoom 1 = true := hroom
          rw [hroom] at h
          cases h
    · rw [if_neg hppid] at h ⊢
      by_cases huser : userPpid data.ppid = true
      · rw [huser, Bool.true_and] at h
        obtain ⟨error, herror⟩ := exists_error_of_isOk h
        have hsame : ({ s with reassembly := s.reassemblyAfter data payload } :
            Association).handleUserMessage data.streamId data.ppid payload =
              s.handleUserMessage data.streamId data.ppid payload := rfl
        rw [if_pos huser, run_get_bind, run_ofExcept, hsame, herror]
        exact ⟨error, _, s.channels, rfl⟩
      · rw [if_neg huser]
        exact ⟨_, _, s.channels, rfl⟩

/-- Two states that agree on all that processing released chunks never writes. -/
def ReceiveFrame (s t : Association) : Prop :=
  t = { s with
    channels := t.channels
    reassembly := t.reassembly
    nextTsn := t.nextTsn
    nextMessageId := t.nextMessageId
    outstanding := t.outstanding }

theorem ReceiveFrame.refl (s : Association) : ReceiveFrame s s := rfl

theorem ReceiveFrame.trans {s t u : Association} (hst : ReceiveFrame s t)
    (htu : ReceiveFrame t u) : ReceiveFrame s u := by
  unfold ReceiveFrame at *
  rw [htu, hst]

theorem ReceiveFrame.peerVerificationTag {s t : Association} (h : ReceiveFrame s t) :
    t.peerVerificationTag = s.peerVerificationTag := by
  rw [h]

theorem ReceiveFrame.cumulativePeerTsn {s t : Association} (h : ReceiveFrame s t) :
    t.cumulativePeerTsn = s.cumulativePeerTsn := by
  rw [h]

theorem ReceiveFrame.pendingData {s t : Association} (h : ReceiveFrame s t) :
    t.pendingData = s.pendingData := by
  rw [h]

theorem Processed.frame {s t : Association} {data : DataChunk} {output : AssociationOutput}
    (h : Processed s data output t) : ReceiveFrame s t := by
  cases h <;> rfl

theorem processDataMessage_frame (now : ℕ) (data : DataChunk) {s : Association} {tag : UInt32}
    (htag : s.peerVerificationTag = some tag) :
    ReceiveFrame s ((processDataMessage now data).run s).2 := by
  by_cases h : s.admits data = true
  · obtain ⟨output, t, hrun, hprocessed⟩ := processDataMessage_run_of_admits now htag h
    rw [hrun]
    exact hprocessed.frame
  · obtain ⟨error, reassembly, channels, hrun⟩ :=
      processDataMessage_run_of_not_admits now htag (by simpa using h)
    rw [hrun]
    rfl

/-- Every chunk of a released batch is admitted when its turn comes. -/
def admitsAll (now : ℕ) : List DataChunk → Association → Bool
  | [], _ => true
  | data :: rest, s =>
      s.admits data && admitsAll now rest ((processDataMessage now data).run s).2

theorem processAll_frame (now : ℕ) (batch : List DataChunk) {s : Association} {tag : UInt32}
    (htag : s.peerVerificationTag = some tag) :
    ReceiveFrame s ((processAll now batch).run s).2 := by
  induction batch generalizing s with
  | nil => exact .refl s
  | cons data rest ih =>
    refine run_bind_invariant (processDataMessage_frame now data htag) fun first t _ hframe => ?_
    refine run_bind_invariant ?_ fun _ _ _ h => h
    exact hframe.trans (ih (hframe.peerVerificationTag.trans htag))

theorem processAll_isOk (now : ℕ) (batch : List DataChunk) {s : Association} {tag : UInt32}
    (htag : s.peerVerificationTag = some tag) :
    ((processAll now batch).run s).1.isOk = admitsAll now batch s := by
  induction batch generalizing s with
  | nil => rfl
  | cons data rest ih =>
    rw [processAll, admitsAll, run_bind]
    by_cases h : s.admits data = true
    · obtain ⟨output, t, hrun, hprocessed⟩ := processDataMessage_run_of_admits now htag h
      rw [hrun, h, Bool.true_and, ← ih (hprocessed.frame.peerVerificationTag.trans htag)]
      exact isOk_run_bind_pure _ _ _
    · rw [Bool.not_eq_true] at h
      obtain ⟨error, reassembly, channels, hrun⟩ := processDataMessage_run_of_not_admits now htag h
      rw [hrun, h]
      rfl

/-! ## Releasing buffered chunks -/

/-- The drain loop takes the buffered chunks from `next` on, up to the first gap. -/
theorem drain_run (fuel : ℕ) (next : UInt32) (s : Association)
    (hfuel : s.pendingData.size ≤ fuel) :
    ∃ batch pending,
      drain fuel next s = (batch, { s with
        pendingData := pending
        cumulativePeerTsn :=
          if batch = [] then s.cumulativePeerTsn else some (next + .ofNat batch.length - 1) }) ∧
      (∀ i (h : i < batch.length), s.pendingData[next + .ofNat i]? = some batch[i]) ∧
      next + .ofNat batch.length ∉ pending ∧
      ∀ tsn, pending[tsn]? =
        if ∃ i < batch.length, tsn = next + .ofNat i then none else s.pendingData[tsn]? := by
  induction fuel generalizing next s with
  | zero =>
    have hempty : s.pendingData = ∅ := by
      rw [ExtTreeMap.eq_empty_iff_size_eq_zero]
      omega
    refine ⟨[], s.pendingData, rfl, ?_, ?_, ?_⟩
    · intro i h
      simp at h
    · rw [hempty]
      simp
    · simp
  | succ fuel ih =>
    unfold drain
    rcases hfind : s.pendingData[next]? with _ | data
    · refine ⟨[], s.pendingData, rfl, ?_, ?_, ?_⟩
      · intro i h
        simp at h
      · rw [show next + UInt32.ofNat ([] : List DataChunk).length = next by simp]
        exact Maps.not_mem_iff.mpr hfind
      · simp
    · have hmem : next ∈ s.pendingData := Maps.mem_of_getElem? hfind
      have hsize : (s.pendingData.erase next).size ≤ fuel := by
        rw [ExtTreeMap.size_erase, if_pos (ExtTreeMap.contains_iff_mem.mpr hmem)]
        omega
      obtain ⟨batch, pending, hdrain, hbatch, hgap, hpending⟩ := ih (next + 1)
        (advance next (unbuffer next s)) hsize
      have hshift : ∀ i : ℕ, next + 1 + UInt32.ofNat i = next + UInt32.ofNat (i + 1) := by
        intro i
        rw [UInt32.ofNat_add]
        grind
      simp only [hshift] at hdrain hbatch hgap hpending
      simp only [hdrain]
      have hfirst : ∀ i < batch.length, next + UInt32.ofNat (i + 1) ≠ next := by
        intro i hi heq
        have := hbatch i hi
        rw [heq] at this
        simp [advance, unbuffer] at this
      refine ⟨data :: batch, pending, ?_, ?_, hgap, ?_⟩
      · rw [if_neg (List.cons_ne_nil _ _), List.length_cons]
        by_cases hnil : batch = []
        · subst hnil
          simp [advance, unbuffer, show next + 1 - 1 = next by grind]
        · rw [if_neg hnil]
          rfl
      · intro i h
        cases i with
        | zero => simpa using hfind
        | succ i =>
          have hi : i < batch.length := by simpa using h
          have := hbatch i hi
          rw [advance, unbuffer, ExtTreeMap.getElem?_erase, if_neg] at this
          · simpa using this
          · rw [Std.compare_eq_iff_eq]
            exact (hfirst i hi).symm
      · intro tsn
        rw [hpending, advance, unbuffer, ExtTreeMap.getElem?_erase, List.length_cons]
        simp only [Std.compare_eq_iff_eq]
        by_cases htsn : next = tsn
        · have hzero : ∃ i < batch.length + 1, tsn = next + UInt32.ofNat i :=
            ⟨0, Nat.succ_pos _, by simp [htsn]⟩
          rw [if_pos hzero, if_pos htsn, ite_self]
        · rw [if_neg htsn]
          congr 1
          rw [eq_iff_iff]
          constructor
          · rintro ⟨i, hi, rfl⟩
            exact ⟨i + 1, by omega, rfl⟩
          · rintro ⟨_ | i, hi, rfl⟩
            · simp at htsn
            · exact ⟨i, by omega, rfl⟩

/-- The buffered chunks wait behind a gap, inside the receive window, each under its own TSN. -/
def Buffered (cumulative : UInt32) (pending : ExtTreeMap UInt32 DataChunk) : Prop :=
  ∀ tsn data, pending[tsn]? = some data →
    data.tsn = tsn ∧ 2 ≤ (tsn - cumulative).toNat ∧ (tsn - cumulative).toNat ≤ maxPendingTsn

theorem Buffered.size_lt {cumulative : UInt32} {pending : ExtTreeMap UInt32 DataChunk}
    (h : Buffered cumulative pending) : pending.size < maxPendingTsn := by
  have hwindow : ∀ tsn ∈ pending,
      2 ≤ (tsn - cumulative).toNat ∧ (tsn - cumulative).toNat ≤ maxPendingTsn := by
    intro tsn htsn
    obtain ⟨data, hdata⟩ := Maps.mem_iff_exists.mp htsn
    exact (h tsn data hdata).2
  have hle : pending.size ≤ maxPendingTsn - 1 := by
    refine Maps.size_le_of_forall_mem (fun tsn => (tsn - cumulative).toNat - 2) ?_ ?_
    · intro a ha b hb hab
      have := hwindow a ha
      have := hwindow b hb
      exact Serial.toNat_sub_inj.mp (by omega : (a - cumulative).toNat = (b - cumulative).toNat)
    · intro tsn htsn
      have := hwindow tsn htsn
      omega
  have : 0 < maxPendingTsn := by decide
  omega

/-- Draining from the cumulative TSN on releases consecutive TSNs and restores the gap. -/
theorem drain_buffered {cumulative : UInt32} {s : Association}
    (hcum : s.cumulativePeerTsn = some cumulative)
    (h : ∀ tsn data, s.pendingData[tsn]? = some data → data.tsn = tsn ∧
      1 ≤ (tsn - cumulative).toNat ∧ (tsn - cumulative).toNat ≤ maxPendingTsn) :
    ∃ batch pending,
      drain s.pendingData.size (cumulative + 1) s = (batch, { s with
        pendingData := pending
        cumulativePeerTsn := some (cumulative + .ofNat batch.length) }) ∧
      batch.length ≤ maxPendingTsn ∧
      (∀ i (h : i < batch.length),
        s.pendingData[cumulative + .ofNat (i + 1)]? = some batch[i]) ∧
      (∀ tsn, pending[tsn]? =
        if (tsn - cumulative).toNat ≤ batch.length then none else s.pendingData[tsn]?) ∧
      Buffered (cumulative + .ofNat batch.length) pending := by
  obtain ⟨batch, pending, hdrain, hbatch, hgap, hpending⟩ :=
    drain_run s.pendingData.size (cumulative + 1) s le_rfl
  have hshift : ∀ i : ℕ, cumulative + 1 + UInt32.ofNat i = cumulative + UInt32.ofNat (i + 1) := by
    intro i
    rw [UInt32.ofNat_add]
    grind
  simp only [hshift] at hbatch hgap hpending
  have hlen : batch.length ≤ maxPendingTsn := by
    by_contra hlong
    have hlast := h _ _ (hbatch maxPendingTsn (by omega))
    rw [Serial.toNat_add_ofNat_sub _ (by decide)] at hlast
    omega
  have hzero : ∀ tsn, (tsn - cumulative).toNat = 0 → s.pendingData[tsn]? = none := by
    intro tsn htsn
    by_contra hsome
    obtain ⟨data, hdata⟩ := Option.ne_none_iff_exists'.mp hsome
    have := (h tsn data hdata).2.1
    omega
  have hafter : ∀ tsn, pending[tsn]? =
      if (tsn - cumulative).toNat ≤ batch.length then none else s.pendingData[tsn]? := by
    intro tsn
    rw [hpending]
    by_cases hzero' : (tsn - cumulative).toNat = 0
    · rw [hzero tsn hzero', ite_self, ite_self]
    · congr 1
      rw [eq_iff_iff]
      constructor
      · rintro ⟨i, hi, rfl⟩
        rw [Serial.toNat_add_ofNat_sub _ (by unfold maxPendingTsn at hlen; omega)]
        exact hi
      · intro hle
        refine ⟨(tsn - cumulative).toNat - 1, by omega, ?_⟩
        rw [Nat.sub_add_cancel (by omega), Serial.add_ofNat_toNat_sub]
  refine ⟨batch, pending, ?_, hlen, hbatch, hafter, ?_⟩
  · rw [hdrain, hshift]
    by_cases hnil : batch = []
    · subst hnil
      simp [hcum]
    · rw [if_neg hnil, UInt32.ofNat_add]
      simp only [Prod.mk.injEq, true_and]
      congr 2
      grind
  · intro tsn data hdata
    rw [hafter] at hdata
    split_ifs at hdata with hle
    obtain ⟨htsn, hlo, hhi⟩ := h tsn data hdata
    have hne : (tsn - cumulative).toNat ≠ batch.length + 1 := by
      intro heq
      refine hgap ?_
      rw [← heq, Serial.add_ofNat_toNat_sub]
      refine Maps.mem_of_getElem? (a := data) ?_
      rw [hafter, if_neg hle, hdata]
    rw [Serial.toNat_sub_add_ofNat (by omega)]
    exact ⟨htsn, by omega, by omega⟩

/-- A TSN that is already acknowledged, or behind by more than half the number space, or already
buffered. -/
def duplicate (s : Association) (cumulative tsn : UInt32) : Bool :=
  tsn - cumulative = 0 || 0x80000000 ≤ tsn - cumulative || s.pendingData.contains tsn

/-- The state in which a new chunk waits in the buffer, before the drain loop. -/
def buffer (s : Association) (data : DataChunk) : Association :=
  { s with pendingData := s.pendingData.insert data.tsn data }

theorem drain_of_none {next : UInt32} {s : Association} (fuel : ℕ)
    (h : s.pendingData[next]? = none) : drain fuel next s = ([], s) := by
  cases fuel with
  | zero => rfl
  | succ fuel =>
    unfold drain
    rw [h]

theorem Buffered.next_eq_none {cumulative : UInt32} {pending : ExtTreeMap UInt32 DataChunk}
    (h : Buffered cumulative pending) : pending[cumulative + 1]? = none := by
  by_contra hsome
  obtain ⟨data, hdata⟩ := Option.ne_none_iff_exists'.mp hsome
  have hwindow := (h _ _ hdata).2.1
  have hone := Serial.toNat_add_ofNat_sub cumulative (n := 1) (by decide)
  rw [show UInt32.ofNat 1 = 1 from rfl] at hone
  omega

/-- A duplicate changes nothing, a TSN beyond the window is refused, and any other chunk is
buffered and releases what has become consecutive. -/
theorem acceptData_run {s : Association} {cumulative : UInt32} (data : DataChunk)
    (hcum : s.cumulativePeerTsn = some cumulative) (hbuf : Buffered cumulative s.pendingData) :
    (acceptData data).run s =
      if s.duplicate cumulative data.tsn then (.ok [], s)
      else if maxPendingTsn < (data.tsn - cumulative).toNat then
        (.error .receiveWindowExceeded, s)
      else
        let released := drain (s.buffer data).pendingData.size (cumulative + 1) (s.buffer data)
        (.ok released.1, released.2) := by
  have hself : ({ s with cumulativePeerTsn := some cumulative } : Association) = s := by rw [← hcum]
  simp only [acceptData, run_get_bind, hcum, run_ofOption_bind]
  by_cases hold : data.tsn - cumulative = 0 ∨ 0x80000000 ≤ data.tsn - cumulative
  · have hdup : s.duplicate cumulative data.tsn = true := by
      rcases hold with h | h <;> simp [duplicate, h]
    rw [if_pos hold, if_pos hdup]
    rfl
  · rw [if_neg hold]
    by_cases hmem : data.tsn ∈ s.pendingData
    · have hdup : s.duplicate cumulative data.tsn = true := by
        simp [duplicate, ExtTreeMap.contains_iff_mem.mpr hmem]
      obtain ⟨buffered, hbuffered⟩ := Maps.mem_iff_exists.mp hmem
      have hwindow := (hbuf _ _ hbuffered).2.2
      have hdrain := drain_of_none s.pendingData.size hbuf.next_eq_none
      rw [if_pos hdup, run_ensure_bind, if_pos hwindow, run_ensure_bind, if_pos (.inr hmem),
        Maps.insertIfNew_of_mem hmem]
      simp only [hself, hdrain]
      rfl
    · have hdup : s.duplicate cumulative data.tsn = false := by
        rw [not_or] at hold
        have hfree : s.pendingData.contains data.tsn = false := by
          rw [Bool.eq_false_iff]
          exact fun h => hmem (ExtTreeMap.contains_iff_mem.mp h)
        simp [duplicate, hold.1, UInt32.not_le.mp hold.2, hfree]
      rw [hdup, if_neg Bool.false_ne_true, run_ensure_bind]
      by_cases hwindow : maxPendingTsn < (data.tsn - cumulative).toNat
      · rw [if_neg (by omega), if_pos hwindow]
      · rw [if_pos (by omega), if_neg hwindow, run_ensure_bind, if_pos (.inl hbuf.size_lt),
          Maps.insertIfNew_of_not_mem hmem]
        simp only [buffer, hcum]
        rfl

/-! ## Acknowledging -/

theorem length_gapBlocks_le (deltas : List UInt16) :
    (gapBlocks deltas).length ≤ deltas.length := by
  rw [gapBlocks, List.length_reverse]
  suffices hfold : ∀ gaps : List (UInt16 × UInt16),
      (deltas.foldl extendGaps gaps).length ≤ gaps.length + deltas.length by
    simpa using hfold []
  induction deltas with
  | nil => simp
  | cons delta rest ih =>
    intro gaps
    rw [List.foldl_cons]
    refine (ih _).trans ?_
    rcases gaps with _ | ⟨⟨start, stop⟩, gaps⟩
    · simp only [extendGaps, List.length_cons, List.length_nil]
      omega
    · simp only [extendGaps]
      split_ifs <;> simp only [List.length_cons] <;> omega

theorem length_pendingDeltas_le (s : Association) (cumulative : UInt32) :
    (s.pendingDeltas cumulative).length ≤ s.pendingData.size := by
  rw [pendingDeltas, List.length_mergeSort, List.length_map]
  refine (List.length_filter_le _ _).trans ?_
  rw [List.length_map, ExtTreeMap.length_keys]

theorem buildSack_ok {s : Association} {tag cumulative : UInt32}
    (htag : s.peerVerificationTag = some tag) (hcum : s.cumulativePeerTsn = some cumulative)
    (hsize : s.pendingData.size < maxPendingTsn) : ∃ packet, s.buildSack = .ok packet := by
  have hgaps : (gapBlocks (s.pendingDeltas cumulative)).length < maxPendingTsn :=
    (length_gapBlocks_le _).trans_lt ((length_pendingDeltas_le s cumulative).trans_lt hsize)
  unfold buildSack
  rw [hcum, peerTag_eq htag]
  refine s.packetWithChunk_ok _ _ _ ?_
  simp only [List.length_append, Bytes.length_ofU32, Bytes.length_ofU16, List.length_flatMap,
    List.map_const', List.sum_replicate, smul_eq_mul]
  unfold maxPendingTsn at hgaps
  omega

theorem DataChunk.parse_ok (flags : UInt8) {value : Bytes} (h : dataFixedLen - 4 ≤ value.length) :
    ∃ data, DataChunk.parse flags value = .ok data := by
  unfold dataFixedLen at h
  obtain ⟨tsn, htsn⟩ := Bytes.exists_u32At value 0 (by omega)
  obtain ⟨streamId, hstream⟩ := Bytes.exists_u16At value 4 (by omega)
  obtain ⟨streamSequence, hsequence⟩ := Bytes.exists_u16At value 6 (by omega)
  obtain ⟨ppid, hppid⟩ := Bytes.exists_u32At value 8 (by omega)
  refine ⟨⟨flags, tsn, streamId, streamSequence, ppid, value.drop 12⟩, ?_⟩
  simp only [DataChunk.parse, readU32, readU16, htsn, hstream, hsequence, hppid]
  rfl

/-- With a new chunk in it, the buffer holds TSNs from the one after the cumulative TSN on. -/
theorem buffered_buffer {s : Association} {cumulative : UInt32} {data : DataChunk}
    (hbuf : Buffered cumulative s.pendingData)
    (hnew : s.duplicate cumulative data.tsn = false)
    (hwindow : (data.tsn - cumulative).toNat ≤ maxPendingTsn) (tsn : UInt32) (found : DataChunk)
    (hfound : (s.buffer data).pendingData[tsn]? = some found) :
    found.tsn = tsn ∧ 1 ≤ (tsn - cumulative).toNat ∧
      (tsn - cumulative).toNat ≤ maxPendingTsn := by
  simp only [buffer, ExtTreeMap.getElem?_insert, Std.compare_eq_iff_eq] at hfound
  split_ifs at hfound with heq
  · obtain rfl : data = found := by simpa using hfound
    have hpos : data.tsn - cumulative ≠ 0 := by
      intro hzero
      simp [duplicate, hzero] at hnew
    have : (data.tsn - cumulative).toNat ≠ 0 := by
      intro hzero
      exact hpos (UInt32.toNat_inj.mp hzero)
    subst heq
    exact ⟨rfl, by omega, hwindow⟩
  · obtain ⟨htsn, hlo, hhi⟩ := hbuf tsn found hfound
    exact ⟨htsn, by omega, hhi⟩

/-- A DATA chunk is refused outright, or acknowledged again, or buffered; what it releases is then
processed in order. -/
theorem handleData_run (now : ℕ) (flags : UInt8) (value : Bytes) {s : Association}
    {tag cumulative : UInt32} (htag : s.peerVerificationTag = some tag)
    (hcum : s.cumulativePeerTsn = some cumulative) (hbuf : Buffered cumulative s.pendingData) :
    (¬(s.state = .established ∧ dataFixedLen - 4 ≤ value.length) ∧
      (handleData now flags value).run s = (.error .unexpectedState, s)) ∨
    ∃ data, (s.state = .established ∧ dataFixedLen - 4 ≤ value.length) ∧
      DataChunk.parse flags value = .ok data ∧
      ((s.duplicate cumulative data.tsn = true ∧
        ∃ sack, (handleData now flags value).run s = (.ok { packets := [sack] }, s)) ∨
      (s.duplicate cumulative data.tsn = false ∧
        maxPendingTsn < (data.tsn - cumulative).toNat ∧
        (handleData now flags value).run s = (.error .receiveWindowExceeded, s)) ∨
      (s.duplicate cumulative data.tsn = false ∧
        (data.tsn - cumulative).toNat ≤ maxPendingTsn ∧
        let released := drain (s.buffer data).pendingData.size (cumulative + 1) (s.buffer data)
        let processed := (processAll now released.1).run released.2
        (∃ error, processed.1 = .error error ∧
          (handleData now flags value).run s = (.error error, processed.2)) ∨
        (∃ output sack, processed.1 = .ok output ∧
          (handleData now flags value).run s =
            (.ok (output ++ { packets := [sack] }), processed.2)))) := by
  generalize hrun : (handleData now flags value).run s = result
  rw [handleData, run_get_bind, run_ensure_bind] at hrun
  by_cases hguard : s.state = .established ∧ dataFixedLen - 4 ≤ value.length
  swap
  · rw [if_neg hguard] at hrun
    exact .inl ⟨hguard, hrun.symm⟩
  right
  obtain ⟨data, hdata⟩ := DataChunk.parse_ok flags hguard.2
  refine ⟨data, hguard, hdata, ?_⟩
  rw [if_pos hguard, run_ofExcept_bind, hdata] at hrun
  dsimp only at hrun
  rw [run_bind, acceptData_run data hcum hbuf] at hrun
  by_cases hdup : s.duplicate cumulative data.tsn = true
  · left
    obtain ⟨sack, hsack⟩ := buildSack_ok htag hcum hbuf.size_lt
    refine ⟨hdup, sack, ?_⟩
    rw [if_pos hdup] at hrun
    dsimp only at hrun
    rw [processAll, run_pure_bind, run_get_bind, hsack] at hrun
    exact hrun.symm
  right
  rw [if_neg hdup] at hrun
  rw [Bool.not_eq_true] at hdup
  by_cases hwindow : maxPendingTsn < (data.tsn - cumulative).toNat
  · left
    rw [if_pos hwindow] at hrun
    exact ⟨hdup, hwindow, hrun.symm⟩
  right
  rw [if_neg hwindow] at hrun
  refine ⟨hdup, by omega, ?_⟩
  obtain ⟨batch, pending, hdrain, -, -, -, hbuf'⟩ := drain_buffered
    (s := s.buffer data) hcum (buffered_buffer hbuf hdup (by omega))
  simp only [hdrain] at hrun ⊢
  rw [run_bind] at hrun
  have hframe := processAll_frame now batch (s := { s.buffer data with
    pendingData := pending
    cumulativePeerTsn := some (cumulative + .ofNat batch.length) }) htag
  rcases hall : (processAll now batch).run { s.buffer data with
    pendingData := pending
    cumulativePeerTsn := some (cumulative + .ofNat batch.length) } with ⟨error | output, t⟩
  · rw [hall] at hrun
    exact .inl ⟨error, rfl, hrun.symm⟩
  · rw [hall] at hframe hrun
    obtain ⟨sack, hsack⟩ := buildSack_ok (hframe.peerVerificationTag.trans htag)
      hframe.cumulativePeerTsn (by rw [hframe.pendingData]; exact hbuf'.size_lt)
    refine .inr ⟨output, sack, rfl, ?_⟩
    dsimp only at hrun hsack
    rw [run_get_bind, hsack] at hrun
    exact hrun.symm

/-! ## FORWARD TSN -/

/-- The stream entries of a FORWARD TSN only drop reassembly buffers. -/
theorem skipStreams_run (value : Bytes) (offset count : ℕ) (s : Association)
    (h : offset + 4 * count ≤ value.length) :
    ∃ reassembly, (skipStreams value offset count).run s = (.ok (), { s with reassembly }) := by
  induction count generalizing offset s with
  | zero => exact ⟨s.reassembly, rfl⟩
  | succ count ih =>
    obtain ⟨streamId, hstream⟩ := Bytes.exists_u16At value offset (by omega)
    obtain ⟨streamSequence, hsequence⟩ := Bytes.exists_u16At value (offset + 2) (by omega)
    simp only [skipStreams, readU16, hstream, hsequence, Option.elim, run_ofExcept_bind,
      run_modify_bind]
    split_ifs
    · exact ih (offset + 4) { s with reassembly := s.reassembly.erase streamId } (by omega)
    · exact ih (offset + 4) s (by omega)

/-- Every chunk that `releasePending` takes is admitted when its turn comes. -/
def admitsPending (now : ℕ) : ℕ → UInt32 → Association → Bool
  | 0, _, _ => true
  | fuel + 1, next, s =>
      match s.pendingData[next]? with
      | none => true
      | some data =>
          (unbuffer next s).admits data &&
            admitsPending now fuel (next + 1)
              (advance next ((processDataMessage now data).run (unbuffer next s)).2)

theorem releasePending_isOk (now fuel : ℕ) (next : UInt32) {s : Association} {tag : UInt32}
    (htag : s.peerVerificationTag = some tag) :
    ((releasePending now fuel next).run s).1.isOk = admitsPending now fuel next s := by
  induction fuel generalizing next s with
  | zero => rfl
  | succ fuel ih =>
    simp only [releasePending, run_get_bind, admitsPending]
    rcases s.pendingData[next]? with _ | data
    · rfl
    have htag' : (unbuffer next s).peerVerificationTag = some tag := htag
    simp only [run_modify_bind]
    rw [run_bind]
    by_cases h : (unbuffer next s).admits data
    · obtain ⟨output, t, hrun, hprocessed⟩ := processDataMessage_run_of_admits now htag' h
      rw [hrun, h, Bool.true_and]
      simp only [run_modify_bind, isOk_run_bind_pure]
      exact ih (next + 1) (hprocessed.frame.peerVerificationTag.trans htag)
    · rw [Bool.not_eq_true] at h
      obtain ⟨error, reassembly, channels, hrun⟩ :=
        processDataMessage_run_of_not_admits now htag' h
      rw [hrun, h]
      rfl

/-- Two states that agree on all that a release of buffered chunks never writes. -/
def ReleaseFrame (s t : Association) : Prop :=
  t = { s with
    cumulativePeerTsn := t.cumulativePeerTsn
    pendingData := t.pendingData
    channels := t.channels
    reassembly := t.reassembly
    nextTsn := t.nextTsn
    nextMessageId := t.nextMessageId
    outstanding := t.outstanding }

theorem ReleaseFrame.peerVerificationTag {s t : Association} (h : ReleaseFrame s t) :
    t.peerVerificationTag = s.peerVerificationTag := by
  rw [h]

theorem ReleaseFrame.trans {s t u : Association} (hst : ReleaseFrame s t)
    (htu : ReleaseFrame t u) : ReleaseFrame s u := by
  unfold ReleaseFrame at *
  rw [htu, hst]

theorem ReceiveFrame.release {s t : Association} (h : ReceiveFrame s t) : ReleaseFrame s t := by
  unfold ReceiveFrame at h
  unfold ReleaseFrame
  rw [h]

/-- The release loop leaves a gap before what is still buffered, also when it fails. -/
theorem releasePending_run (now fuel : ℕ) (cumulative : UInt32) {s : Association} {tag : UInt32}
    (htag : s.peerVerificationTag = some tag) (hcum : s.cumulativePeerTsn = some cumulative)
    (hfuel : s.pendingData.size ≤ fuel)
    (h : ∀ tsn data, s.pendingData[tsn]? = some data → data.tsn = tsn ∧
      1 ≤ (tsn - cumulative).toNat ∧ (tsn - cumulative).toNat ≤ maxPendingTsn) :
    ReleaseFrame s ((releasePending now fuel (cumulative + 1)).run s).2 ∧
    ∃ count ≤ s.pendingData.size,
      ((releasePending now fuel (cumulative + 1)).run s).2.cumulativePeerTsn =
        some (cumulative + .ofNat count) ∧
      Buffered (cumulative + .ofNat count)
        ((releasePending now fuel (cumulative + 1)).run s).2.pendingData := by
  induction fuel generalizing cumulative s with
  | zero =>
    have hempty : s.pendingData = ∅ := by
      rw [ExtTreeMap.eq_empty_iff_size_eq_zero]
      omega
    refine ⟨rfl, 0, Nat.zero_le _, by simpa [releasePending] using hcum, ?_⟩
    intro tsn data hdata
    simp [releasePending, hempty] at hdata
  | succ fuel ih =>
    simp only [releasePending, run_get_bind]
    rcases hfind : s.pendingData[cumulative + 1]? with _ | data
    · refine ⟨rfl, 0, Nat.zero_le _, by simpa using hcum, ?_⟩
      intro tsn data hdata
      obtain ⟨htsn, hlo, hhi⟩ := h tsn data hdata
      have hne : (tsn - cumulative).toNat ≠ 1 := by
        intro heq
        rw [Serial.eq_add_one heq] at hdata
        simp [hfind] at hdata
      rw [show cumulative + UInt32.ofNat 0 = cumulative by simp]
      exact ⟨htsn, by omega, hhi⟩
    have hmem : cumulative + 1 ∈ s.pendingData := Maps.mem_of_getElem? hfind
    have hsize : (unbuffer (cumulative + 1) s).pendingData.size + 1 = s.pendingData.size := by
      rw [unbuffer, ExtTreeMap.size_erase, if_pos (ExtTreeMap.contains_iff_mem.mpr hmem)]
      have : s.pendingData.size ≠ 0 := by
        intro hzero
        rw [← ExtTreeMap.eq_empty_iff_size_eq_zero] at hzero
        simp [hzero] at hmem
      omega
    have hrest : ∀ tsn data, (unbuffer (cumulative + 1) s).pendingData[tsn]? = some data →
        data.tsn = tsn ∧ 2 ≤ (tsn - cumulative).toNat ∧
          (tsn - cumulative).toNat ≤ maxPendingTsn := by
      intro tsn data hdata
      simp only [unbuffer, ExtTreeMap.getElem?_erase, Std.compare_eq_iff_eq] at hdata
      split_ifs at hdata with hne
      obtain ⟨htsn, hlo, hhi⟩ := h tsn data hdata
      have : (tsn - cumulative).toNat ≠ 1 := fun heq => hne (Serial.eq_add_one heq).symm
      exact ⟨htsn, by omega, hhi⟩
    have htag' : (unbuffer (cumulative + 1) s).peerVerificationTag = some tag := htag
    have hframe := processDataMessage_frame now data htag'
    simp only [run_modify_bind]
    rw [run_bind]
    rcases hrun : (processDataMessage now data).run (unbuffer (cumulative + 1) s) with
      ⟨error | first, t⟩
    · -- the chunk is out of the buffer, and the cumulative TSN has not passed it
      rw [hrun] at hframe
      refine ⟨?_, 0, Nat.zero_le _, ?_, ?_⟩
      · exact ReleaseFrame.trans (t := unbuffer (cumulative + 1) s) rfl hframe.release
      · have : t.cumulativePeerTsn = s.cumulativePeerTsn := hframe.cumulativePeerTsn
        simpa [this] using hcum
      · have : t.pendingData = (unbuffer (cumulative + 1) s).pendingData := hframe.pendingData
        rw [show cumulative + UInt32.ofNat 0 = cumulative by simp]
        show Buffered cumulative t.pendingData
        rw [this]
        exact hrest
    · rw [hrun] at hframe
      have hpending : t.pendingData = (unbuffer (cumulative + 1) s).pendingData :=
        hframe.pendingData
      simp only [run_modify_bind, state_run_bind_pure]
      obtain ⟨hframe', count, hcount, hcum', hbuf⟩ := ih (cumulative + 1)
        (s := advance (cumulative + 1) t) (hframe.peerVerificationTag.trans htag) rfl
        (by
          simp only [advance, hpending]
          omega)
        (by
          intro tsn data hdata
          simp only [advance, hpending] at hdata
          obtain ⟨htsn, hlo, hhi⟩ := hrest tsn data hdata
          have := Serial.toNat_sub_add_ofNat (n := 1) (by omega : 1 ≤ (tsn - cumulative).toNat)
          rw [show UInt32.ofNat 1 = 1 from rfl] at this
          exact ⟨htsn, by omega, by omega⟩)
      have hsucc : cumulative + 1 + UInt32.ofNat count = cumulative + UInt32.ofNat (count + 1) := by
        rw [UInt32.ofNat_add]
        grind
      rw [hsucc] at hcum' hbuf
      refine ⟨?_, count + 1, ?_, hcum', hbuf⟩
      · refine ReleaseFrame.trans (t := advance (cumulative + 1) t) ?_ hframe'
        have : ReleaseFrame s t :=
          ReleaseFrame.trans (t := unbuffer (cumulative + 1) s) rfl hframe.release
        exact this.trans rfl
      · simp only [advance, hpending] at hcount
        omega

/-- The checks of `handleForwardTsn` on the state and the length. -/
def forwardTsnAllowed (s : Association) (value : Bytes) : Bool :=
  s.state = .established && s.peerForwardTsnSupported && decide (4 ≤ value.length) &&
    (value.length - 4) % 4 = 0

/-- The state from which a FORWARD TSN releases buffered chunks. -/
def forwarded (s : Association) (value : Bytes) (newCumulativeTsn : UInt32) : Association :=
  { ((skipStreams value 4 ((value.length - 4) / 4)).run s).2 with
    pendingData := s.pendingData.filter fun tsn _ => !sequenceLessOrEqual tsn newCumulativeTsn
    cumulativePeerTsn := some newCumulativeTsn }

theorem forwarded_eq {s : Association} {value : Bytes} (newCumulativeTsn : UInt32)
    (h : 4 ≤ value.length) :
    ∃ reassembly, (skipStreams value 4 ((value.length - 4) / 4)).run s =
        (.ok (), { s with reassembly }) ∧
      s.forwarded value newCumulativeTsn = { s with
        reassembly
        pendingData := s.pendingData.filter fun tsn _ => !sequenceLessOrEqual tsn newCumulativeTsn
        cumulativePeerTsn := some newCumulativeTsn } := by
  obtain ⟨reassembly, hskip⟩ := skipStreams_run value 4 ((value.length - 4) / 4) s (by omega)
  refine ⟨reassembly, hskip, ?_⟩
  rw [forwarded, hskip]

theorem not_sequenceLessOrEqual {candidate reference : UInt32} :
    sequenceLessOrEqual candidate reference = false ↔
      0 < (candidate - reference).toNat ∧ (candidate - reference).toNat ≤ 2 ^ 31 := by
  rw [sequenceLessOrEqual, decide_eq_false_iff_not, UInt32.lt_iff_toNat_lt, UInt32.toNat_sub,
    UInt32.toNat_sub]
  have := candidate.toNat_lt
  have := reference.toNat_lt
  have : (0x80000000 : UInt32).toNat = 2 ^ 31 := rfl
  omega

/-- What a FORWARD TSN leaves buffered lies behind its new cumulative TSN. -/
theorem buffered_forwarded {s : Association} {value : Bytes} {current newCumulativeTsn : UInt32}
    (hbuf : Buffered current s.pendingData)
    (hnew : sequenceLessOrEqual newCumulativeTsn current = false) (tsn : UInt32) (data : DataChunk)
    (hdata : (s.forwarded value newCumulativeTsn).pendingData[tsn]? = some data) :
    data.tsn = tsn ∧ 1 ≤ (tsn - newCumulativeTsn).toNat ∧
      (tsn - newCumulativeTsn).toNat ≤ maxPendingTsn := by
  rw [forwarded, ExtTreeMap.getElem?_filter', Option.filter_eq_some_iff] at hdata
  obtain ⟨hfind, hahead⟩ := hdata
  rw [Bool.not_eq_true', not_sequenceLessOrEqual] at hahead
  rw [not_sequenceLessOrEqual] at hnew
  obtain ⟨htsn, hlo, hhi⟩ := hbuf tsn data hfind
  unfold maxPendingTsn at *
  by_cases hle : (newCumulativeTsn - current).toNat ≤ (tsn - current).toNat
  · have := Serial.toNat_sub_eq hle
    exact ⟨htsn, by omega, by omega⟩
  · have := Serial.toNat_sub_add_ofNat_of_lt (n := (newCumulativeTsn - current).toNat)
      (by omega : (tsn - current).toNat < _) (UInt32.toNat_lt _)
    rw [Serial.add_ofNat_toNat_sub] at this
    omega

/-- A FORWARD TSN is refused, or repeats what is known, or moves the cumulative TSN and releases
what has become consecutive. -/
theorem handleForwardTsn_run (now : ℕ) (value : Bytes) {s : Association} {tag current : UInt32}
    (htag : s.peerVerificationTag = some tag) (hcum : s.cumulativePeerTsn = some current)
    (hbuf : Buffered current s.pendingData) :
    (s.forwardTsnAllowed value = false ∧
      (handleForwardTsn now value).run s = (.error .malformedChunk, s)) ∨
    ∃ newCumulativeTsn, s.forwardTsnAllowed value = true ∧
      readU32 value 0 = .ok newCumulativeTsn ∧
      ((sequenceLessOrEqual newCumulativeTsn current = true ∧ ∃ sack,
        (handleForwardTsn now value).run s = (.ok { packets := [sack] }, s)) ∨
      (sequenceLessOrEqual newCumulativeTsn current = false ∧
        let start := s.forwarded value newCumulativeTsn
        let released := (releasePending now start.pendingData.size (newCumulativeTsn + 1)).run start
        (∃ error, released.1 = .error error ∧
          (handleForwardTsn now value).run s = (.error error, released.2)) ∨
        (∃ output sack, released.1 = .ok output ∧
          (handleForwardTsn now value).run s =
            (.ok (output ++ { packets := [sack] }), released.2)))) := by
  generalize hrun : (handleForwardTsn now value).run s = result
  rw [handleForwardTsn, run_get_bind, run_ensure_bind] at hrun
  by_cases hallowed : s.forwardTsnAllowed value = true
  swap
  · left
    have hguard : ¬(s.state = .established ∧ s.peerForwardTsnSupported = true ∧
        4 ≤ value.length ∧ (value.length - 4) % 4 = 0) := by
      simpa [forwardTsnAllowed, and_assoc] using hallowed
    rw [if_neg hguard] at hrun
    exact ⟨by simpa using hallowed, hrun.symm⟩
  right
  have hguard : s.state = .established ∧ s.peerForwardTsnSupported = true ∧ 4 ≤ value.length ∧
      (value.length - 4) % 4 = 0 := by
    simpa [forwardTsnAllowed, and_assoc] using hallowed
  obtain ⟨newCumulativeTsn, hread⟩ := Bytes.exists_u32At value 0 hguard.2.2.1
  have hread : readU32 value 0 = .ok newCumulativeTsn := by
    rw [readU32, hread]
    rfl
  refine ⟨newCumulativeTsn, hallowed, hread, ?_⟩
  rw [if_pos hguard, hread, run_ofExcept_bind] at hrun
  dsimp only at hrun
  rw [run_ofOption_bind, hcum] at hrun
  dsimp only at hrun
  by_cases hle : sequenceLessOrEqual newCumulativeTsn current = true
  · left
    obtain ⟨sack, hsack⟩ := buildSack_ok htag hcum hbuf.size_lt
    refine ⟨hle, sack, ?_⟩
    rw [if_pos hle, hsack] at hrun
    exact hrun.symm
  · right
    rw [if_neg hle] at hrun
    rw [Bool.not_eq_true] at hle
    refine ⟨hle, ?_⟩
    obtain ⟨reassembly, hskip, hstart⟩ := forwarded_eq (s := s) newCumulativeTsn hguard.2.2.1
    rw [run_bind, hskip] at hrun
    dsimp only at hrun
    rw [run_modify_bind, run_get_bind, ← hstart, run_bind] at hrun
    have htag' : (s.forwarded value newCumulativeTsn).peerVerificationTag = some tag := by
      rw [hstart, htag]
    have hframe := releasePending_run now _ newCumulativeTsn htag' (by rw [hstart]) le_rfl
      (buffered_forwarded hbuf hle)
    dsimp only
    rcases hall : (releasePending now (s.forwarded value newCumulativeTsn).pendingData.size
      (newCumulativeTsn + 1)).run (s.forwarded value newCumulativeTsn) with ⟨error | output, t⟩
    · rw [hall] at hrun
      exact .inl ⟨error, rfl, hrun.symm⟩
    · rw [hall] at hframe hrun
      obtain ⟨hframe, count, -, hcum', hbuf'⟩ := hframe
      obtain ⟨sack, hsack⟩ := buildSack_ok (hframe.peerVerificationTag.trans htag') hcum'
        hbuf'.size_lt
      refine .inr ⟨output, sack, rfl, ?_⟩
      dsimp only at hrun hsack
      rw [run_get_bind, hsack] at hrun
      exact hrun.symm

/-! ## Stream resets -/

/-- Every reassembly buffer of the later state is one of the earlier state. -/
def ReassemblyKept (s t : Association) : Prop :=
  ∀ (streamId : UInt16) (assembly : Reassembly), t.reassembly[streamId]? = some assembly →
    s.reassembly[streamId]? = some assembly

/-- Every channel of the later state is one of the earlier state. -/
def ChannelsKept (s t : Association) : Prop :=
  ∀ (streamId : UInt16) (channel : Channel), t.channels[streamId]? = some channel →
    s.channels[streamId]? = some channel

theorem closeStreams_run (streams : List UInt16) (s : Association) :
    ∃ channels reassembly, (closeStreams streams s).2 = { s with channels, reassembly } ∧
      ReassemblyKept s (closeStreams streams s).2 ∧ ChannelsKept s (closeStreams streams s).2 := by
  induction streams generalizing s with
  | nil => exact ⟨s.channels, s.reassembly, rfl, fun _ _ h => h, fun _ _ h => h⟩
  | cons streamId rest ih =>
    unfold closeStreams
    split_ifs
    · obtain ⟨channels, reassembly, hrun, hreassembly, hchannels⟩ := ih { s with
        channels := s.channels.erase streamId
        reassembly := s.reassembly.erase streamId }
      refine ⟨channels, reassembly, hrun, fun id assembly h => ?_, fun id channel h => ?_⟩
      · have hfind := hreassembly id assembly h
        rw [ExtTreeMap.getElem?_erase] at hfind
        split_ifs at hfind
        exact hfind
      · have hfind := hchannels id channel h
        rw [ExtTreeMap.getElem?_erase] at hfind
        split_ifs at hfind
        exact hfind
    · exact ih s

/-- Two states that agree on all that a stream reset never writes; a known sequence stays known, and
reassembly buffers and channels are only dropped. -/
def ResetFrame (s t : Association) : Prop :=
  t = { s with
    nextPeerReconfigSequence := t.nextPeerReconfigSequence
    nextReconfigSequence := t.nextReconfigSequence
    channels := t.channels
    reassembly := t.reassembly } ∧
  t.nextPeerReconfigSequence.isSome = s.nextPeerReconfigSequence.isSome ∧ ReassemblyKept s t ∧
    ChannelsKept s t

theorem ResetFrame.refl (s : Association) : ResetFrame s s :=
  ⟨rfl, rfl, fun _ _ h => h, fun _ _ h => h⟩

theorem ResetFrame.trans {s t u : Association} (hst : ResetFrame s t) (htu : ResetFrame t u) :
    ResetFrame s u := by
  obtain ⟨hframe, hknown, hreassembly, hchannels⟩ := hst
  obtain ⟨hframe', hknown', hreassembly', hchannels'⟩ := htu
  refine ⟨?_, hknown'.trans hknown, ?_, ?_⟩
  · rw [hframe', hframe]
  · exact fun id assembly h => hreassembly id assembly (hreassembly' id assembly h)
  · exact fun id channel h => hchannels id channel (hchannels' id channel h)

theorem resetFrame_closeStreams (streams : List UInt16) (s : Association) :
    ResetFrame s (closeStreams streams s).2 := by
  obtain ⟨channels, reassembly, hrun, hkept⟩ := closeStreams_run streams s
  rw [hrun] at hkept ⊢
  exact ⟨rfl, rfl, hkept⟩

theorem ResetFrame.of_eq_some {s : Association} {expected n : UInt32}
    (h : s.nextPeerReconfigSequence = some expected) :
    ResetFrame s { s with nextPeerReconfigSequence := some n } :=
  ⟨rfl, by rw [h]; rfl, fun _ _ h => h, fun _ _ h => h⟩

theorem performReset_frame {s : Association} {expected : UInt32} (streamNumbers : Bytes)
    (h : s.nextPeerReconfigSequence = some expected) :
    ResetFrame s ((performReset expected streamNumbers).run s).2 := by
  simp only [performReset, run_modify_bind, run_get_bind, run_ofExcept_bind]
  have hbump := ResetFrame.of_eq_some (n := expected + 1) h
  split
  · exact hbump.trans (resetFrame_closeStreams _ _)
  · exact hbump

theorem handleOutgoingReset_frame (value : Bytes) (s : Association) :
    ResetFrame s ((handleOutgoingReset value).run s).2 := by
  simp only [handleOutgoingReset, run_ensure_bind, run_ofExcept_bind, run_get_bind,
    run_ofOption_bind]
  split_ifs
  swap
  · exact .refl s
  split
  swap
  · exact .refl s
  split
  swap
  · exact .refl s
  next expected hexpected =>
    split_ifs
    · refine run_bind_invariant (performReset_frame _ hexpected) fun _ t _ ht => ?_
      simp only [run_ofExcept_bind]
      split <;> exact ht
    · simp only [run_ofExcept_bind]
      split <;> exact .refl s

theorem handleIncomingReset_frame (value : Bytes) (s : Association) :
    ResetFrame s ((handleIncomingReset value).run s).2 := by
  simp only [handleIncomingReset, run_ensure_bind, run_ofExcept_bind, run_get_bind,
    run_ofOption_bind]
  split_ifs
  swap
  · exact .refl s
  split
  swap
  · exact .refl s
  split
  swap
  · exact .refl s
  next expected hexpected =>
    split_ifs
    · simp only [run_ofExcept_bind]
      split <;> exact .refl s
    · refine run_bind_invariant (performReset_frame _ hexpected) fun _ t _ ht => ?_
      simp only [run_get_bind, run_modify_bind, run_ofExcept_bind]
      split <;> exact ht.trans ⟨rfl, rfl, fun _ _ h => h, fun _ _ h => h⟩

theorem handleParameters_frame (parameters : List Parameter) (s : Association) :
    ResetFrame s ((handleParameters parameters).run s).2 := by
  induction parameters generalizing s with
  | nil => exact .refl s
  | cons parameter rest ih =>
    unfold handleParameters
    split_ifs
    · refine run_bind_invariant (handleOutgoingReset_frame _ s) fun _ t _ ht => ?_
      exact run_bind_invariant (ht.trans (ih t)) fun _ _ _ h => h
    · refine run_bind_invariant (handleIncomingReset_frame _ s) fun _ t _ ht => ?_
      exact run_bind_invariant (ht.trans (ih t)) fun _ _ _ h => h
    · rw [run_ensure_bind]
      split_ifs
      · exact ih s
      · exact .refl s
    · exact .refl s

theorem handleReconfiguration_frame (value : Bytes) (s : Association) :
    ResetFrame s ((handleReconfiguration value).run s).2 := by
  unfold handleReconfiguration
  rw [run_get_bind, run_ensure_bind]
  by_cases hstate : s.state = .established ∧ value ≠ []
  swap
  · rw [if_neg hstate]
    exact .refl s
  rw [if_pos hstate, run_ofExcept_bind]
  rcases parseParameters value with error | parameters
  · exact .refl s
  dsimp only
  rw [run_ensure_bind]
  by_cases hcount : parameters ≠ [] ∧ parameters.length ≤ 2
  swap
  · rw [if_neg hcount]
    exact .refl s
  rw [if_pos hcount]
  refine run_bind_invariant (handleParameters_frame _ s) fun result t _ ht => ?_
  obtain ⟨response, output⟩ := result
  dsimp only
  by_cases hempty : response.isEmpty = true
  · rw [if_pos hempty]
    exact ht
  · rw [if_neg hempty, run_get_bind, run_ofExcept_bind]
    rcases t.peerTag with error | tag
    · exact ht
    dsimp only
    rw [run_ofExcept_bind]
    rcases t.packetWithChunk tag typeReConfig 0 response with error | packet
    · exact ht
    · exact ht

end Association

end Fluvora.DataChannel
