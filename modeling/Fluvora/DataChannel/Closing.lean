import Fluvora.DataChannel.Delivery
import Fluvora.DataChannel.Handshake

/-!
# Closing a channel behind its data

An outgoing reset request carries the last TSN that its sender has assigned, so that a receiver can
keep the stream open until it has all the data.  `handleOutgoingReset` does not read that field: it
closes the stream at once.  Every complete message up to that TSN has been reported before the
channel is closed if the cumulative TSN has reached it when the request is handled; data that comes
after the request is refused.

The peer is a map `sent` from TSNs to chunks, and `passed` lists what each TSN after an INIT has
brought: a chunk, or nothing if a FORWARD TSN skipped it.
-/

open Std (ExtTreeMap)

namespace Fluvora.DataChannel

open Fallible

namespace Association

variable {s t : Association} {sent : UInt32 → Option DataChunk} {log : List Released}

/-! ## Only what the peer has sent is released -/

/-- The chunk begins no new handshake and, if it is DATA, the peer has sent it. -/
def fromPeer (sent : UInt32 → Option DataChunk) (_ : UInt32) (chunk : ParsedChunk)
    (_ : Association) : Bool :=
  chunk.kind != typeInit &&
    (chunk.kind != typeData ||
      match DataChunk.parse chunk.flags chunk.value with
      | .ok data => sent data.tsn = some data
      | .error _ => true)

/-- What is buffered the peer has sent. -/
def Buffers (sent : UInt32 → Option DataChunk) (s : Association) : Prop :=
  ∀ (tsn : UInt32) (data : DataChunk), s.pendingData[tsn]? = some data → sent data.tsn = some data

/-- A log from one cumulative TSN to another, without a restart, in which every chunk is the next one
and one that the peer has sent. -/
inductive Trail (sent : UInt32 → Option DataChunk) : UInt32 → List Released → UInt32 → Prop
  | nil (reached : UInt32) : Trail sent reached [] reached
  | data {reached last : UInt32} {entries : List Released} {chunk : DataChunk} {isOpen : Bool}
      (htsn : chunk.tsn = reached + 1) (hsent : sent chunk.tsn = some chunk)
      (hrest : Trail sent chunk.tsn entries last) :
      Trail sent reached (.data chunk isOpen :: entries) last
  | skip {reached last newCumulativeTsn : UInt32} {entries : List Released}
      (hahead : newCumulativeTsn ≠ reached) (hrest : Trail sent newCumulativeTsn entries last) :
      Trail sent reached (.skip newCumulativeTsn :: entries) last

theorem Trail.append {reached mid last : UInt32} {entries : List Released}
    (h : Trail sent reached log mid) (h' : Trail sent mid entries last) :
    Trail sent reached (log ++ entries) last := by
  induction h with
  | nil => exact h'
  | data htsn hsent _ ih => exact .data htsn hsent (ih h')
  | skip hahead _ ih => exact .skip hahead (ih h')

/-- The entry is a DATA chunk that the peer has sent. -/
def Released.IsSent (sent : UInt32 → Option DataChunk) (entry : Released) : Prop :=
  ∃ chunk isOpen, entry = .data chunk isOpen ∧ sent chunk.tsn = some chunk

theorem trail_of_continues {reached : UInt32} {last : Option UInt32}
    (h : Continues (some reached) log last) (hlog : ∀ entry ∈ log, Released.IsSent sent entry) :
    ∃ cumulative, last = some cumulative ∧ Trail sent reached log cumulative := by
  induction log generalizing reached with
  | nil =>
    cases h
    exact ⟨reached, rfl, .nil reached⟩
  | cons entry rest ih =>
    obtain ⟨chunk, isOpen, rfl, hsent⟩ := hlog entry (List.mem_cons_self ..)
    cases h with
    | data htsn h =>
      obtain ⟨cumulative, hlast, htrail⟩ := ih h fun entry hentry =>
        hlog entry (List.mem_cons_of_mem _ hentry)
      exact ⟨cumulative, hlast, .data htsn hsent htrail⟩

/-- What a step leaves: its entries lead to the cumulative TSN, and the buffer holds what the peer
has sent. -/
structure Traced (sent : UInt32 → Option DataChunk) (reached : UInt32) (log : List Released)
    (s : Association) : Prop where
  trail : ∃ cumulative, s.cumulativePeerTsn = some cumulative ∧ Trail sent reached log cumulative
  buffers : Buffers sent s

theorem traced_same {reached : UInt32} (hcum : t.cumulativePeerTsn = some reached)
    (hbuffers : Buffers sent t) : Traced sent reached [] t :=
  ⟨⟨reached, hcum, .nil reached⟩, hbuffers⟩

/-- The chunks that are taken out of the buffer were in it, and the rest stays. -/
theorem drain_mem (fuel : ℕ) (next : UInt32) (s : Association) :
    (∀ data ∈ (drain fuel next s).1, ∃ tsn : UInt32, s.pendingData[tsn]? = some data) ∧
      ∀ (tsn : UInt32) (data : DataChunk), (drain fuel next s).2.pendingData[tsn]? = some data →
        s.pendingData[tsn]? = some data := by
  induction fuel generalizing next s with
  | zero => exact ⟨by simp [drain], fun _ _ h => h⟩
  | succ fuel ih =>
    rw [drain]
    rcases hfind : s.pendingData[next]? with _ | data
    · exact ⟨by simp, fun _ _ h => h⟩
    obtain ⟨htaken, hrest⟩ := ih (next + 1) (advance next (unbuffer next s))
    have herase : ∀ (tsn : UInt32) (found : DataChunk),
        (advance next (unbuffer next s)).pendingData[tsn]? = some found →
          s.pendingData[tsn]? = some found := by
      intro tsn found hfound
      exact (Maps.getElem?_erase_eq_some.mp hfound).2
    dsimp only
    refine ⟨?_, fun tsn found hfound => herase tsn found (hrest tsn found hfound)⟩
    intro found hfound
    rcases List.mem_cons.mp hfound with rfl | hfound
    · exact ⟨next, hfind⟩
    · obtain ⟨tsn, htsn⟩ := htaken found hfound
      exact ⟨tsn, herase tsn found htsn⟩

theorem mem_batchLog {now : ℕ} {batch : List DataChunk} {entry : Released}
    (h : entry ∈ batchLog now batch s) : ∃ data ∈ batch, ∃ isOpen, entry = .data data isOpen := by
  induction batch generalizing s with
  | nil => simp [batchLog] at h
  | cons data rest ih =>
    rw [batchLog] at h
    rcases List.mem_cons.mp h with rfl | h
    · exact ⟨data, by simp, _, rfl⟩
    · obtain ⟨found, hfound, hentry⟩ := ih h
      exact ⟨found, by simp [hfound], hentry⟩

theorem traced_data {cumulative : UInt32} (hcum : s.cumulativePeerTsn = some cumulative)
    (hbuffers : Buffers sent s) (hs : Sound s) (now : ℕ) {flags : UInt8} {value : Bytes}
    (hsent : ∀ data, DataChunk.parse flags value = .ok data → sent data.tsn = some data) :
    Traced sent cumulative (s.dataLog now flags value) ((handleData now flags value).run s).2 := by
  by_cases hwrites : s.dataVerdict flags value = .writes
  swap
  · have hlog : s.dataLog now flags value = [] := by
      unfold dataLog
      split
      · rw [if_neg hwrites]
      · rfl
    rw [hlog, (follows_data hs now flags value).state_eq hwrites]
    exact traced_same hcum hbuffers
  obtain ⟨data, cumulative', batch, pending, peer, hpeer, hdata, hcum', hreleased, -, hrun⟩ :=
    handleData_writes hs now hwrites
  rw [hcum] at hcum'
  cases hcum'
  have hbuffer : Buffers sent (s.buffer data) := by
    intro tsn found hfound
    rw [buffer, ExtTreeMap.getElem?_insert] at hfound
    split_ifs at hfound
    · cases hfound
      exact hsent data hdata
    · exact hbuffers tsn found hfound
  have hmem := drain_mem (s.buffer data).pendingData.size (cumulative + 1) (s.buffer data)
  rw [show drain _ _ _ = _ from hreleased] at hmem
  have hframe := processAll_frame now batch (s := { s with
    pendingData := pending
    cumulativePeerTsn := some (cumulative + .ofNat batch.length) }) hpeer
  have hpending : ((handleData now flags value).run s).2.pendingData = pending := by
    rcases hrun with ⟨error, -, hrun⟩ | ⟨output, sack, -, hrun⟩
    · rw [hrun]
      exact hframe.pendingData
    · rw [hrun]
      exact hframe.pendingData
  refine ⟨?_, ?_⟩
  · have hcontinues := continues_dataLog hs now flags value
    rw [hcum] at hcontinues
    refine trail_of_continues hcontinues ?_
    intro entry hentry
    rw [dataLog, hdata, hcum] at hentry
    dsimp only at hentry
    rw [if_pos hwrites, hreleased] at hentry
    obtain ⟨found, hfound, isOpen, rfl⟩ := mem_batchLog hentry
    obtain ⟨tsn, htsn⟩ := hmem.1 found hfound
    exact ⟨found, isOpen, rfl, hbuffer tsn found htsn⟩
  · intro tsn found hfound
    rw [hpending] at hfound
    exact hbuffer tsn found (hmem.2 tsn found hfound)

/-- The release loop takes chunks out of the buffer and puts none in. -/
theorem buffers_pending (now fuel : ℕ) {next tag : UInt32} (h : Buffers sent s)
    (htag : s.peerVerificationTag = some tag) :
    (∀ entry ∈ pendingLog now fuel next s, Released.IsSent sent entry) ∧
      Buffers sent ((releasePending now fuel next).run s).2 := by
  induction fuel generalizing next s with
  | zero => exact ⟨by simp [pendingLog], h⟩
  | succ fuel ih =>
    rw [pendingLog, releasePending, run_get_bind]
    rcases hfind : s.pendingData[next]? with _ | data
    · exact ⟨by simp, h⟩
    have htag' : (unbuffer next s).peerVerificationTag = some tag := htag
    have hrest : Buffers sent (unbuffer next s) := by
      intro tsn found hfound
      exact h tsn found (Maps.getElem?_erase_eq_some.mp hfound).2
    dsimp only
    rw [run_modify_bind, run_bind]
    by_cases hadmits : (unbuffer next s).admits data = true
    · obtain ⟨output, t, hrun, hprocessed⟩ := processDataMessage_run_of_admits now htag' hadmits
      rw [if_pos hadmits, hrun]
      dsimp only
      rw [run_modify_bind, state_run_bind_pure]
      have hframe := hprocessed.frame
      have hbuffers : Buffers sent (advance next t) := by
        intro tsn found hfound
        refine hrest tsn found ?_
        rw [← hframe.pendingData]
        exact hfound
      obtain ⟨hlogged, hafter⟩ := @ih _ (next + 1) hbuffers
        (hframe.peerVerificationTag.trans htag')
      refine ⟨?_, hafter⟩
      intro entry hentry
      rcases List.mem_cons.mp hentry with rfl | hentry
      · exact ⟨data, _, rfl, h next data hfind⟩
      · exact hlogged entry hentry
    · rw [if_neg hadmits]
      rw [Bool.not_eq_true] at hadmits
      obtain ⟨error, reassembly, channels, hrun⟩ :=
        processDataMessage_run_of_not_admits now htag' hadmits
      rw [hrun]
      exact ⟨by simp, hrest⟩

theorem traced_forwardTsn {cumulative : UInt32} (hcum : s.cumulativePeerTsn = some cumulative)
    (hbuffers : Buffers sent s) (hs : Sound s) (now : ℕ) (value : Bytes) :
    Traced sent cumulative (s.forwardTsnLog now value)
      ((handleForwardTsn now value).run s).2 := by
  by_cases hwrites : s.forwardTsnVerdict value = .writes
  swap
  · have hlog : s.forwardTsnLog now value = [] := by
      unfold forwardTsnLog
      split
      · rw [if_neg hwrites]
      · rfl
    rw [hlog, (follows_forwardTsn hs now value).state_eq hwrites]
    exact traced_same hcum hbuffers
  obtain ⟨newCumulativeTsn, peer, hread, hpeer, hcum', htsns, hrun⟩ :=
    handleForwardTsn_writes hs now hwrites
  have hahead : newCumulativeTsn ≠ cumulative := by
    rintro rfl
    rw [forwardTsnVerdict, hread, hcum] at hwrites
    dsimp only at hwrites
    split_ifs at hwrites with hallowed hle
    exact hle (by simp [sequenceLessOrEqual])
  have hforwarded : Buffers sent (s.forwarded value newCumulativeTsn) := by
    intro tsn found hfound
    rw [forwarded, ExtTreeMap.getElem?_filter', Option.filter_eq_some_iff] at hfound
    exact hbuffers tsn found hfound.1
  obtain ⟨hlogged, hafter⟩ := @buffers_pending _ sent now
    (s.forwarded value newCumulativeTsn).pendingData.size (newCumulativeTsn + 1) peer hforwarded
    hpeer
  obtain ⟨last, hlast, htrail⟩ := trail_of_continues (continues_pendingLog now
    (s.forwarded value newCumulativeTsn).pendingData.size hpeer hcum' htsns) hlogged
  have hstate : ((handleForwardTsn now value).run s).2 = ((releasePending now
      (s.forwarded value newCumulativeTsn).pendingData.size (newCumulativeTsn + 1)).run
        (s.forwarded value newCumulativeTsn)).2 := by
    rcases hrun with ⟨error, -, hrun⟩ | ⟨output, sack, -, hrun⟩
    · rw [hrun]
    · rw [hrun]
  rw [hstate, forwardTsnLog, hread]
  dsimp only
  rw [if_pos hwrites]
  exact ⟨⟨last, hlast, .skip hahead htrail⟩, hafter⟩

theorem pendingData_guarded {tag : UInt32} {action : Action AssociationOutput}
    (h : (action.run s).2.pendingData = s.pendingData) :
    ((guarded tag action).run s).2.pendingData = s.pendingData := by
  rw [guarded_run]
  split_ifs
  · exact h
  · rfl

/-- No control chunk touches the buffer. -/
theorem pendingData_control (now : ℕ) (tag : UInt32) {chunk : ParsedChunk} (s : Association)
    (h : isLogged chunk = false) :
    ((handleChunk now tag chunk).run s).2.pendingData = s.pendingData := by
  simp only [isLogged, Bool.or_eq_false_iff, decide_eq_false_iff_not] at h
  refine handleChunk_elim (P := fun action => (action.run s).2.pendingData = s.pendingData) now tag
    chunk ?_ ?_ ?_ ?_ ?_ ?_ ?_ ?_ ?_ ?_
  · exact fun hkind => absurd hkind h.1.1
  · intro _
    obtain hsame | ⟨-, hrun⟩ := handleCookieEcho_state tag chunk.value s
    · rw [hsame]
    · rw [hrun]
  · exact fun hkind => absurd hkind h.1.2
  · refine fun _ => pendingData_guarded ?_
    rw [state_run_bind_pure]
    have hsack := handleSack_run chunk.value s
    split at hsack
    · obtain ⟨error, hrun⟩ := hsack
      rw [hrun]
    · obtain ⟨result, hrun, -⟩ := hsack
      rw [hrun]
      rfl
  · refine fun _ => pendingData_guarded ?_
    rw [handleHeartbeat_state]
  · exact fun _ => rfl
  · refine fun _ => pendingData_guarded ?_
    rw [handleShutdown_state]
  · refine fun _ => pendingData_guarded ?_
    rw [(handleReconfiguration_frame chunk.value s).1]
  · exact fun hkind => absurd hkind h.2
  · exact fun _ => rfl

theorem traced_chunk {cumulative : UInt32} (hcum : s.cumulativePeerTsn = some cumulative)
    (hbuffers : Buffers sent s) (hs : Sound s) (now : ℕ) {tag : UInt32} {chunk : ParsedChunk}
    (hpeer : fromPeer sent tag chunk s = true) :
    Traced sent cumulative (s.chunkLog now tag chunk) ((handleChunk now tag chunk).run s).2 := by
  rw [fromPeer, Bool.and_eq_true, bne_iff_ne] at hpeer
  by_cases hlogged : isLogged chunk = true
  swap
  · rw [Bool.not_eq_true] at hlogged
    rw [chunkLog_of_not_logged hlogged]
    refine traced_same ((controlFrame_handleChunk now tag s hlogged).cumulativePeerTsn.trans hcum) ?_
    intro tsn data hdata
    rw [pendingData_control now tag s hlogged] at hdata
    exact hbuffers tsn data hdata
  rcases isLogged_cases hlogged with hkind | hkind | hkind
  · exact absurd hkind hpeer.1
  · rw [chunkLog_data hkind, handleChunk_data hkind, guarded_run]
    split_ifs
    swap
    · exact traced_same hcum hbuffers
    refine traced_data hcum hbuffers hs now fun data hdata => ?_
    have hsent := hpeer.2
    rw [hkind, hdata] at hsent
    simpa using hsent
  · rw [chunkLog_forwardTsn hkind, handleChunk_forwardTsn hkind, guarded_run]
    split_ifs
    · exact traced_forwardTsn hcum hbuffers hs now chunk.value
    · exact traced_same hcum hbuffers

theorem traced_chunks {cumulative : UInt32} (hcum : s.cumulativePeerTsn = some cumulative)
    (hbuffers : Buffers sent s) (hs : Sound s) (now : ℕ) {tag : UInt32} {chunks : List ParsedChunk}
    (hpeer : everyChunk (fromPeer sent) now tag chunks s = true) :
    Traced sent cumulative (chunksLog now tag chunks s)
      ((handleChunks now tag chunks).run s).2 := by
  induction chunks generalizing s cumulative with
  | nil => exact traced_same hcum hbuffers
  | cons chunk rest ih =>
    rw [everyChunk, Bool.and_eq_true] at hpeer
    have hfirst := traced_chunk hcum hbuffers hs now hpeer.1
    have hsound := (handleChunk_effect now tag chunk hs).sound hs
    rw [chunksLog, handleChunks, run_bind]
    rcases hrun : (handleChunk now tag chunk).run s with ⟨error | output, t⟩
    · rw [hrun] at hfirst
      dsimp only
      rw [List.append_nil]
      exact hfirst
    · rw [hrun] at hfirst hsound hpeer
      dsimp only
      rw [state_run_bind_pure]
      obtain ⟨⟨mid, hmid, htrail⟩, hbuffers'⟩ := hfirst
      obtain ⟨⟨last, hlast, htrail'⟩, hafter⟩ := ih hmid hbuffers' hsound hpeer.2
      exact ⟨⟨last, hlast, htrail.append htrail'⟩, hafter⟩

/-- Sending touches neither the receive buffer nor the cumulative TSN. -/
theorem received_sendMessage (hs : Sound s) (now : ℕ) (streamId : UInt16) (kind : MessageKind)
    (payload : Bytes) :
    ((sendMessage now streamId kind payload).run s).2.pendingData = s.pendingData ∧
      ((sendMessage now streamId kind payload).run s).2.cumulativePeerTsn = s.cumulativePeerTsn := by
  obtain ⟨error, hrun⟩ | ⟨hstate, channel, message, wire, -, hrun⟩ :=
    sendMessage_run now streamId kind payload s
  · rw [hrun]
    exact ⟨rfl, rfl⟩
  obtain ⟨peer, hpeer⟩ := hs.known (.inr hstate)
  rw [hrun]
  obtain ⟨-, hqueue⟩ | ⟨-, packets, outstanding, hqueue, -⟩ :=
    enqueueMessage_run now message wire { s with
      channels := s.channels.insert streamId
        { channel with nextOutgoingSequence := channel.nextOutgoingSequence + 1 } } hpeer
  · rw [hqueue]
    exact ⟨rfl, rfl⟩
  · rw [hqueue]
    exact ⟨rfl, rfl⟩

theorem traced_step {cumulative : UInt32} (hcum : s.cumulativePeerTsn = some cumulative)
    (hbuffers : Buffers sent s) (hs : Sound s) {input : Input}
    (hpeer : input.meets (everyChunk (fromPeer sent)) s = true) :
    Traced sent cumulative (input.log s) (s.step input) := by
  cases input with
  | packet now bytes =>
    rw [Input.meets] at hpeer
    rw [Input.log, step, handlePacket, run_ofExcept_bind]
    rcases hparse : ParsedPacket.parse bytes with error | parsed
    · exact traced_same hcum hbuffers
    rw [hparse] at hpeer
    dsimp only at hpeer ⊢
    rw [run_get_bind, run_ensure_bind]
    split_ifs with hports
    · rw [decide_eq_true hports, Bool.not_true, Bool.false_or] at hpeer
      exact traced_chunks hcum hbuffers hs now hpeer
    · exact traced_same hcum hbuffers
  | send now streamId kind payload =>
    obtain ⟨hpending, hcum'⟩ := received_sendMessage hs now streamId kind payload
    refine traced_same (hcum'.trans hcum) ?_
    intro tsn data hdata
    rw [step, hpending] at hdata
    exact hbuffers tsn data hdata
  | tick now =>
    obtain ⟨state, outstanding, abandoned, pendingForwardTsn, hrun, -⟩ := tick_run now s
    rw [step, hrun]
    exact traced_same hcum hbuffers

theorem sound_runInputs (hs : Sound s) (inputs : List Input) : Sound (runInputs inputs s) := by
  induction inputs generalizing s with
  | nil => exact hs
  | cons input rest ih => exact ih (sound_step hs input)

theorem traced_run {cumulative : UInt32} (hcum : s.cumulativePeerTsn = some cumulative)
    (hbuffers : Buffers sent s) (hs : Sound s) {inputs : List Input}
    (hpeer : allMeet (everyChunk (fromPeer sent)) inputs s = true) :
    Traced sent cumulative (runLog inputs s) (runInputs inputs s) := by
  induction inputs generalizing s cumulative with
  | nil => exact traced_same hcum hbuffers
  | cons input rest ih =>
    rw [allMeet, Bool.and_eq_true] at hpeer
    obtain ⟨⟨mid, hmid, htrail⟩, hbuffers'⟩ := traced_step hcum hbuffers hs hpeer.1
    obtain ⟨⟨last, hlast, htrail'⟩, hafter⟩ := ih hmid hbuffers' (sound_step hs input) hpeer.2
    exact ⟨⟨last, hlast, htrail.append htrail'⟩, hafter⟩

/-! ## An accepted message finds its channel open -/

/-- Every message that is completed in the log finds its channel open. -/
def AllOpen (log : List Released) : Prop :=
  ∀ chunk isOpen, .data chunk isOpen ∈ log → Released.completes (.data chunk isOpen) = true →
    isOpen = true

theorem allOpen_nil : AllOpen [] := by
  intro chunk isOpen h
  cases h

theorem AllOpen.append {entries : List Released} (h : AllOpen log) (h' : AllOpen entries) :
    AllOpen (log ++ entries) := by
  intro chunk isOpen hentry
  rcases List.mem_append.mp hentry with hentry | hentry
  · exact h chunk isOpen hentry
  · exact h' chunk isOpen hentry

theorem AllOpen.cons {entry : Released} (hentry : AllOpen [entry]) (h : AllOpen log) :
    AllOpen (entry :: log) := hentry.append h

theorem allOpen_skip (newCumulativeTsn : UInt32) : AllOpen [.skip newCumulativeTsn] := by
  intro chunk isOpen h
  simp at h

/-- A chunk that passes its checks and completes a user message was sent to an open channel. -/
theorem Processed.allOpen {data : DataChunk} {output : AssociationOutput}
    (h : Processed s data output t) :
    AllOpen [.data data (s.channels.contains data.streamId)] := by
  intro chunk isOpen hentry hcompletes
  rw [List.mem_singleton] at hentry
  cases hentry
  rw [Released.completes, Bool.and_eq_true] at hcompletes
  cases h with
  | fragment _ hend =>
    rw [hend] at hcompletes
    cases hcompletes.1
  | message _ _ _ hopen => exact ExtTreeMap.contains_iff_mem.mpr hopen
  | opened _ _ hppid =>
    rw [hppid] at hcompletes
    exact absurd hcompletes.2 (by decide)

/-- A chunk whose processing succeeds passes its checks. -/
theorem processed_of_run {now : ℕ} {data : DataChunk} {tag : UInt32} {output : AssociationOutput}
    (htag : s.peerVerificationTag = some tag)
    (hrun : (processDataMessage now data).run s = (.ok output, t)) :
    s.admits data = true ∧ Processed s data output t := by
  by_cases hadmits : s.admits data = true
  · obtain ⟨output', t', hrun', hprocessed⟩ := processDataMessage_run_of_admits now htag hadmits
    rw [hrun] at hrun'
    cases hrun'
    exact ⟨hadmits, hprocessed⟩
  · obtain ⟨error, reassembly, channels, herror⟩ :=
      processDataMessage_run_of_not_admits now htag (by simpa using hadmits)
    rw [hrun] at herror
    cases herror

theorem allOpen_batch (now : ℕ) {batch : List DataChunk} {tag : UInt32} {output : AssociationOutput}
    (htag : s.peerVerificationTag = some tag)
    (hrun : (processAll now batch).run s = (.ok output, t)) : AllOpen (batchLog now batch s) := by
  induction batch generalizing s output with
  | nil => exact allOpen_nil
  | cons data rest ih =>
    rw [processAll, run_bind_eq_ok] at hrun
    obtain ⟨first, mid, hfirst, hrun⟩ := hrun
    rw [run_bind_eq_ok] at hrun
    obtain ⟨others, t', hothers, hrun⟩ := hrun
    cases hrun
    obtain ⟨-, hprocessed⟩ := processed_of_run htag hfirst
    rw [batchLog, hfirst]
    exact hprocessed.allOpen.cons (ih (hprocessed.frame.peerVerificationTag.trans htag) hothers)

theorem allOpen_pending (now fuel : ℕ) {next tag : UInt32} {output : AssociationOutput}
    (htag : s.peerVerificationTag = some tag)
    (hrun : (releasePending now fuel next).run s = (.ok output, t)) :
    AllOpen (pendingLog now fuel next s) := by
  induction fuel generalizing next s output with
  | zero => exact allOpen_nil
  | succ fuel ih =>
    rw [releasePending, run_get_bind] at hrun
    rw [pendingLog]
    rcases hfind : s.pendingData[next]? with _ | data
    · exact allOpen_nil
    rw [hfind] at hrun
    dsimp only at hrun ⊢
    have htag' : (unbuffer next s).peerVerificationTag = some tag := htag
    rw [run_modify_bind, run_bind_eq_ok] at hrun
    obtain ⟨first, mid, hfirst, hrun⟩ := hrun
    rw [run_modify_bind, run_bind_eq_ok] at hrun
    obtain ⟨others, t', hothers, hrun⟩ := hrun
    cases hrun
    obtain ⟨hadmits, hprocessed⟩ := processed_of_run htag' hfirst
    rw [if_pos hadmits, hfirst]
    exact AllOpen.cons hprocessed.allOpen
      (ih (s := advance next mid) (hprocessed.frame.peerVerificationTag.trans htag) hothers)

theorem allOpen_data (hs : Sound s) {now : ℕ} {flags : UInt8} {value : Bytes}
    {output : AssociationOutput} (hrun : (handleData now flags value).run s = (.ok output, t)) :
    AllOpen (s.dataLog now flags value) := by
  unfold dataLog
  split
  swap
  · exact allOpen_nil
  next data cumulative hdata hcum =>
  by_cases hwrites : s.dataVerdict flags value = .writes
  swap
  · rw [if_neg hwrites]
    exact allOpen_nil
  obtain ⟨data', cumulative', batch, pending, peer, hpeer, hdata', hcum', hreleased, -, hcases⟩ :=
    handleData_writes hs now hwrites
  rw [hdata] at hdata'
  rw [hcum] at hcum'
  cases hdata'
  cases hcum'
  rw [if_pos hwrites, hreleased]
  rcases hcases with ⟨error, -, hwrong⟩ | ⟨inner, sack, hinner, -⟩
  · rw [hrun] at hwrong
    cases hwrong
  · exact allOpen_batch now (s := { s with
      pendingData := pending
      cumulativePeerTsn := some (cumulative + .ofNat batch.length) }) hpeer (Prod.ext hinner rfl)

theorem allOpen_forwardTsn (hs : Sound s) {now : ℕ} {value : Bytes} {output : AssociationOutput}
    (hrun : (handleForwardTsn now value).run s = (.ok output, t)) :
    AllOpen (s.forwardTsnLog now value) := by
  unfold forwardTsnLog
  split
  swap
  · exact allOpen_nil
  next newCumulativeTsn hread =>
  by_cases hwrites : s.forwardTsnVerdict value = .writes
  swap
  · rw [if_neg hwrites]
    exact allOpen_nil
  obtain ⟨newCumulativeTsn', peer, hread', hpeer, -, -, hcases⟩ :=
    handleForwardTsn_writes hs now hwrites
  rw [hread] at hread'
  cases hread'
  rw [if_pos hwrites]
  rcases hcases with ⟨error, -, hwrong⟩ | ⟨inner, sack, hinner, -⟩
  · rw [hrun] at hwrong
    cases hwrong
  · exact (allOpen_skip newCumulativeTsn).cons
      (allOpen_pending now _ hpeer (Prod.ext hinner rfl))

theorem allOpen_chunk (hs : Sound s) {now : ℕ} {tag : UInt32} {chunk : ParsedChunk}
    {output : AssociationOutput} (hrun : (handleChunk now tag chunk).run s = (.ok output, t)) :
    AllOpen (s.chunkLog now tag chunk) := by
  by_cases hlogged : isLogged chunk = true
  swap
  · rw [Bool.not_eq_true] at hlogged
    rw [chunkLog_of_not_logged hlogged]
    exact allOpen_nil
  rcases isLogged_cases hlogged with hkind | hkind | hkind
  · rw [chunkLog, if_pos hkind, initLog]
    split
    · intro chunk isOpen h
      simp at h
    · exact allOpen_nil
  · rw [handleChunk_data hkind, guarded_run] at hrun
    rw [chunkLog_data hkind]
    split_ifs at hrun ⊢
    · exact allOpen_data hs hrun
    · exact allOpen_nil
  · rw [handleChunk_forwardTsn hkind, guarded_run] at hrun
    rw [chunkLog_forwardTsn hkind]
    split_ifs at hrun ⊢
    · exact allOpen_forwardTsn hs hrun
    · exact allOpen_nil

/-- The chunks of an accepted packet: delivery goes on, and every message finds its channel. -/
theorem Kept.accepted {now : ℕ} {tag : UInt32} {chunks : List ParsedChunk}
    {events : List AssociationEvent} {output : AssociationOutput}
    (h : Kept log events s.reassembly) (hs : Sound s)
    (hrun : (handleChunks now tag chunks).run s = (.ok output, t)) :
    Kept (log ++ chunksLog now tag chunks s) (events ++ output.events) t.reassembly ∧
      AllOpen (chunksLog now tag chunks s) := by
  induction chunks generalizing s log events output with
  | nil =>
    cases hrun
    rw [chunksLog, List.append_nil, List.append_nil]
    exact ⟨h, allOpen_nil⟩
  | cons chunk rest ih =>
    rw [handleChunks, run_bind_eq_ok] at hrun
    obtain ⟨first, mid, hfirst, hrun⟩ := hrun
    rw [run_bind_eq_ok] at hrun
    obtain ⟨others, t', hothers, hrun⟩ := hrun
    cases hrun
    have hsound := (handleChunk_effect now tag chunk hs).sound hs
    rw [hfirst] at hsound
    obtain ⟨hkept, hopen⟩ := ih (h.chunk hs hfirst) hsound hothers
    rw [chunksLog, hfirst, AssociationOutput.events_append, ← List.append_assoc,
      ← List.append_assoc]
    exact ⟨hkept, (allOpen_chunk hs hfirst).append hopen⟩

/-- A careful packet releases only messages whose channel is open. -/
theorem allOpen_careful {now : ℕ} {tag : UInt32} {chunks : List ParsedChunk} (hs : Sound s)
    (hcareful : careful now tag chunks s = true) : AllOpen (chunksLog now tag chunks s) := by
  induction chunks generalizing s with
  | nil => exact allOpen_nil
  | cons chunk rest ih =>
    rw [careful] at hcareful
    by_cases hreleases : s.releases tag chunk = true
    · rw [if_pos hreleases] at hcareful
      obtain ⟨output, t, hrun, -⟩ := (kept_nil s.reassembly).acceptsAll hs hcareful
      exact ((kept_nil s.reassembly).accepted hs hrun).2
    rw [if_neg hreleases] at hcareful
    rw [Bool.not_eq_true] at hreleases
    rw [chunksLog]
    rcases hrun : (handleChunk now tag chunk).run s with ⟨error | output, t⟩
    · obtain ⟨hlog, -⟩ := (uneventful_of_not_releases hs now hreleases).2 error t hrun
      dsimp only
      rw [hlog]
      exact allOpen_nil
    · have haccepts : s.accepts now tag chunk = true := by
        rw [← isOk_handleChunk hs, hrun]
        rfl
      rw [haccepts, hrun, Bool.not_true, Bool.false_or] at hcareful
      have hsound := (handleChunk_effect now tag chunk hs).sound hs
      rw [hrun] at hsound
      exact (allOpen_chunk hs hrun).append (ih hsound hcareful)

theorem allOpen_run (hs : Sound s) {inputs : List Input}
    (hcareful : allMeet careful inputs s = true) : AllOpen (runLog inputs s) := by
  induction inputs generalizing s with
  | nil => exact allOpen_nil
  | cons input rest ih =>
    rw [allMeet, Bool.and_eq_true] at hcareful
    refine AllOpen.append ?_ (ih (sound_step hs input) hcareful.2)
    cases input with
    | send => exact allOpen_nil
    | tick => exact allOpen_nil
    | packet now bytes =>
      have hmeets := hcareful.1
      rw [Input.meets] at hmeets
      rw [Input.log]
      rcases hparse : ParsedPacket.parse bytes with error | parsed
      · exact allOpen_nil
      rw [hparse] at hmeets
      dsimp only at hmeets ⊢
      split_ifs with hports
      · rw [decide_eq_true hports, Bool.not_true, Bool.false_or] at hmeets
        exact allOpen_careful hs hmeets
      · exact allOpen_nil

/-! ## What each TSN has brought -/

/-- What the TSNs after `reached` have brought: their chunk, or nothing where they were skipped. -/
def passed : UInt32 → List Released → List (Option DataChunk)
  | _, [] => []
  | _, .data chunk _ :: rest => some chunk :: passed chunk.tsn rest
  | reached, .skip newCumulativeTsn :: rest =>
      List.replicate (newCumulativeTsn - reached).toNat none ++ passed newCumulativeTsn rest
  | _, .restart initialTsn :: rest => passed (initialTsn - 1) rest

def Released.chunk? : Released → Option DataChunk
  | .data chunk _ => some chunk
  | _ => none

/-- The TSN completes a user message. -/
def completesAt (brought : Option DataChunk) : Bool :=
  brought.any fun chunk => DataChunk.isEnd chunk && userPpid chunk.ppid

/-- The chunks stand in the order of their TSNs, and the peer has sent them. -/
theorem Trail.passed {reached last : UInt32} (h : Trail sent reached log last) {q : ℕ}
    {chunk : DataChunk} (hq : (Association.passed reached log)[q]? = some (some chunk)) :
    chunk.tsn = reached + .ofNat (q + 1) ∧ sent chunk.tsn = some chunk := by
  induction h generalizing q with
  | nil => simp [Association.passed] at hq
  | data htsn hsent h ih =>
    rw [Association.passed] at hq
    cases q with
    | zero =>
      rw [List.getElem?_cons_zero] at hq
      cases hq
      exact ⟨htsn, hsent⟩
    | succ q =>
      rw [List.getElem?_cons_succ] at hq
      obtain ⟨hnext, hsent'⟩ := ih hq
      refine ⟨?_, hsent'⟩
      rw [hnext, htsn, UInt32.ofNat_add (q + 1) 1]
      grind
  | @skip reached last newCumulativeTsn entries hahead h ih =>
    rw [Association.passed, List.getElem?_append, List.length_replicate] at hq
    split_ifs at hq with hlt
    · rw [List.getElem?_replicate, if_pos hlt] at hq
      cases hq
    · obtain ⟨hnext, hsent⟩ := ih hq
      refine ⟨?_, hsent⟩
      have hsplit : q + 1 = (newCumulativeTsn - reached).toNat +
          (q - (newCumulativeTsn - reached).toNat + 1) := by omega
      rw [hnext, hsplit, UInt32.ofNat_add (newCumulativeTsn - reached).toNat, UInt32.ofNat_toNat]
      grind

/-- As many TSNs have been passed as the cumulative one has moved. -/
theorem Trail.length_passed {reached last : UInt32} (h : Trail sent reached log last) :
    last = reached + .ofNat (Association.passed reached log).length := by
  induction h with
  | nil => simp [Association.passed]
  | data htsn _ _ ih =>
    rw [ih, Association.passed, List.length_cons, htsn, UInt32.ofNat_add _ 1]
    grind
  | skip _ _ ih =>
    rw [ih, Association.passed, List.length_append, List.length_replicate, UInt32.ofNat_add,
      UInt32.ofNat_toNat]
    grind

/-- Chunks under the next TSNs are the next entries. -/
theorem Trail.prefix_of_passed {reached last : UInt32} (h : Trail sent reached log last)
    {chunks : List DataChunk}
    (hchunks : ∀ i (hi : i < chunks.length),
      (Association.passed reached log)[i]? = some (some chunks[i])) :
    ∃ entries after, log = entries ++ after ∧ entries.map Released.chunk? = chunks.map some := by
  induction h generalizing chunks with
  | nil =>
    cases chunks with
    | nil => exact ⟨[], [], rfl, rfl⟩
    | cons first others => simpa [Association.passed] using hchunks 0 (Nat.succ_pos _)
  | @data reached last entries chunk isOpen htsn hsent h ih =>
    cases chunks with
    | nil => exact ⟨[], _, rfl, rfl⟩
    | cons first others =>
      rw [Association.passed] at hchunks
      have hfirst := hchunks 0 (Nat.succ_pos _)
      rw [List.getElem?_cons_zero, List.getElem_cons_zero, Option.some.injEq,
        Option.some.injEq] at hfirst
      subst hfirst
      obtain ⟨entries', after, hsplit, hentries⟩ := ih fun i hi => hchunks (i + 1)
        (Nat.succ_lt_succ hi)
      refine ⟨.data chunk isOpen :: entries', after, by rw [hsplit]; rfl, ?_⟩
      rw [List.map_cons, List.map_cons, hentries]
      rfl
  | @skip reached last newCumulativeTsn entries hahead h ih =>
    cases chunks with
    | nil => exact ⟨[], _, rfl, rfl⟩
    | cons first others =>
      have hpos : 0 < (newCumulativeTsn - reached).toNat := by
        rw [Nat.pos_iff_ne_zero]
        intro hzero
        refine hahead (Serial.toNat_sub_inj.mp (hzero.trans ?_))
        rw [UInt32.sub_self]
        rfl
      have hfirst := hchunks 0 (Nat.succ_pos _)
      rw [Association.passed, List.getElem?_append, List.length_replicate, if_pos hpos,
        List.getElem?_replicate, if_pos hpos] at hfirst
      cases hfirst

/-- Chunks under consecutive TSNs stand together in the log, behind as many completed messages as
the TSNs before them have brought. -/
theorem Trail.exists_of_passed {reached last : UInt32} (h : Trail sent reached log last)
    {chunks : List DataChunk} {a : ℕ} (hne : chunks ≠ [])
    (hchunks : ∀ i (hi : i < chunks.length),
      (Association.passed reached log)[a + i]? = some (some chunks[i])) :
    ∃ before entries after, log = before ++ entries ++ after ∧
      entries.map Released.chunk? = chunks.map some ∧
      before.countP Released.completes =
        ((Association.passed reached log).take a).countP completesAt := by
  induction h generalizing a with
  | nil => simpa [Association.passed] using hchunks 0 (List.length_pos_iff.mpr hne)
  | @data reached last entries chunk isOpen htsn hsent h ih =>
    cases a with
    | zero =>
      have htrail : Trail sent reached (.data chunk isOpen :: entries) last := .data htsn hsent h
      obtain ⟨entries', after, hsplit, hentries⟩ := htrail.prefix_of_passed (by simpa using hchunks)
      exact ⟨[], entries', after, hsplit, hentries, rfl⟩
    | succ a =>
      rw [Association.passed] at hchunks ⊢
      obtain ⟨before, entries', after, hsplit, hentries, hcount⟩ := ih (a := a) fun i hi => by
        have hi' := hchunks i hi
        rwa [show a + 1 + i = a + i + 1 by omega, List.getElem?_cons_succ] at hi'
      refine ⟨.data chunk isOpen :: before, entries', after, by rw [hsplit]; rfl, hentries, ?_⟩
      rw [List.countP_cons, List.take_succ_cons, List.countP_cons, hcount]
      rfl
  | @skip reached last newCumulativeTsn entries hahead h ih =>
    have hle : (newCumulativeTsn - reached).toNat ≤ a := by
      by_contra hlt
      rw [not_le] at hlt
      have hfirst := hchunks 0 (List.length_pos_iff.mpr hne)
      rw [Association.passed, List.getElem?_append, List.length_replicate, Nat.add_zero, if_pos hlt,
        List.getElem?_replicate, if_pos hlt] at hfirst
      cases hfirst
    rw [Association.passed] at hchunks ⊢
    obtain ⟨before, entries', after, hsplit, hentries, hcount⟩ := ih
      (a := a - (newCumulativeTsn - reached).toNat) fun i hi => by
        have hi' := hchunks i hi
        rwa [List.getElem?_append_right (by rw [List.length_replicate]; omega),
          List.length_replicate, Nat.sub_add_comm hle] at hi'
    refine ⟨.skip newCumulativeTsn :: before, entries', after, by rw [hsplit]; rfl, hentries, ?_⟩
    rw [List.countP_cons, hcount, List.take_append, List.length_replicate, List.countP_append]
    have hnone : (List.take a (List.replicate (newCumulativeTsn - reached).toNat none)).countP
        completesAt = 0 := by
      rw [List.countP_eq_zero]
      intro brought hbrought
      rw [List.eq_of_mem_replicate (List.mem_of_mem_take hbrought)]
      decide
    rw [hnone]
    simp [Released.completes]

/-! ## Messages of the peer -/

theorem eq_data_of_chunk? {entry : Released} {chunk : DataChunk} (h : entry.chunk? = some chunk) :
    ∃ isOpen, entry = .data chunk isOpen := by
  cases entry with
  | data found isOpen =>
    cases h
    exact ⟨isOpen, rfl⟩
  | skip => cases h
  | restart => cases h

/-- The log entries of a list of chunks whose last one is `chunk`. -/
theorem exists_snoc_of_map {entries : List Released} {chunks : List DataChunk} {chunk : DataChunk}
    (h : entries.map Released.chunk? = (chunks ++ [chunk]).map some) :
    ∃ entries' isOpen, entries = entries' ++ [.data chunk isOpen] ∧
      entries'.map Released.chunk? = chunks.map some := by
  rw [List.map_append] at h
  obtain ⟨entries', lastEntry, rfl, hentries, hlast⟩ := List.map_eq_append_iff.mp h
  obtain ⟨entry, rfl, hentry⟩ : ∃ entry, lastEntry = [entry] ∧ entry.chunk? = some chunk := by
    cases lastEntry with
    | nil => simp at hlast
    | cons entry rest =>
      cases rest with
      | nil => exact ⟨entry, rfl, by simpa using hlast⟩
      | cons => simp at hlast
  obtain ⟨isOpen, rfl⟩ := eq_data_of_chunk? hentry
  exact ⟨entries', isOpen, rfl, hentries⟩

theorem exists_snoc_of_data {chunks : List DataChunk} {entries : List Released} {chunk : DataChunk}
    {isOpen : Bool} (h : chunks.map (Released.data · true) = entries ++ [.data chunk isOpen]) :
    ∃ chunks', chunks = chunks' ++ [chunk] ∧ chunks'.map (Released.data · true) = entries := by
  obtain ⟨chunks', lastChunk, rfl, hchunks, hlast⟩ := List.map_eq_append_iff.mp h
  cases lastChunk with
  | nil => simp at hlast
  | cons found rest =>
    cases rest with
    | nil =>
      simp only [List.map_cons, List.map_nil, List.cons.injEq, Released.data.injEq,
        and_true] at hlast
      exact ⟨chunks', by rw [hlast.1], hchunks⟩
    | cons => simp at hlast

/-- Whether the channel was open at the earlier fragments does not matter. -/
theorem Fragments.of_chunks {streamId sequence : UInt16} {ppid : UInt32} {chunks : List DataChunk}
    {entries : List Released}
    (h : Fragments streamId sequence ppid (chunks.map (Released.data · true)))
    (hentries : entries.map Released.chunk? = chunks.map some) :
    Fragments streamId sequence ppid entries := by
  generalize hmap : chunks.map (Released.data · true) = logged at h
  induction h generalizing chunks entries with
  | first hbelongs hbegin hend =>
    obtain ⟨chunks', rfl, hnil⟩ := exists_snoc_of_data (show _ = [] ++ [_] from hmap)
    rw [List.map_eq_nil_iff] at hnil
    subst hnil
    obtain ⟨entries', isOpen, rfl, hnil⟩ := exists_snoc_of_map hentries
    rw [List.map_nil, List.map_eq_nil_iff] at hnil
    subst hnil
    exact .first hbelongs hbegin hend
  | next h hbelongs hbegin hend ih =>
    obtain ⟨chunks', rfl, hchunks⟩ := exists_snoc_of_data hmap
    obtain ⟨entries', isOpen, rfl, hentries'⟩ := exists_snoc_of_map hentries
    exact .next (ih hentries' hchunks) hbelongs hbegin hend

/-- The entries of a message of the peer form a message if its channel is open at the last one. -/
theorem IsMessage.of_chunks {streamId sequence : UInt16} {ppid : UInt32} {chunks : List DataChunk}
    {entries : List Released}
    (h : IsMessage streamId sequence ppid (chunks.map (Released.data · true)))
    (hppid : userPpid ppid = true) (hentries : entries.map Released.chunk? = chunks.map some)
    (hopen : AllOpen entries) : IsMessage streamId sequence ppid entries := by
  generalize hmap : chunks.map (Released.data · true) = logged at h
  have hcompletes : ∀ (chunk : DataChunk) (isOpen : Bool),
      DataChunk.belongs chunk streamId sequence ppid → DataChunk.isEnd chunk = true →
      .data chunk isOpen ∈ entries → isOpen = true := by
    intro chunk isOpen hbelongs hend hmem
    refine hopen chunk isOpen hmem ?_
    rw [Released.completes, hend, hbelongs.2.2, hppid]
    rfl
  cases h with
  | whole hbelongs hbegin hend =>
    obtain ⟨chunks', rfl, hnil⟩ := exists_snoc_of_data (show _ = [] ++ [_] from hmap)
    rw [List.map_eq_nil_iff] at hnil
    subst hnil
    obtain ⟨entries', isOpen, rfl, hnil⟩ := exists_snoc_of_map hentries
    rw [List.map_nil, List.map_eq_nil_iff] at hnil
    subst hnil
    rw [hcompletes _ isOpen hbelongs hend (by simp)]
    exact .whole hbelongs hbegin hend
  | fragmented h hbelongs hbegin hend =>
    obtain ⟨chunks', rfl, hchunks⟩ := exists_snoc_of_data hmap
    obtain ⟨entries', isOpen, rfl, hentries'⟩ := exists_snoc_of_map hentries
    rw [hcompletes _ isOpen hbelongs hend (by simp)]
    rw [← hchunks] at h
    exact .fragmented (h.of_chunks hentries') hbelongs hbegin hend

theorem payloadOf_of_chunks {entries : List Released} {chunks : List DataChunk}
    (h : entries.map Released.chunk? = chunks.map some) :
    payloadOf entries = chunks.flatMap DataChunk.payload := by
  induction chunks generalizing entries with
  | nil =>
    rw [List.map_nil, List.map_eq_nil_iff] at h
    subst h
    rfl
  | cons chunk rest ih =>
    cases entries with
    | nil => cases h
    | cons entry others =>
      rw [List.map_cons, List.map_cons, List.cons.injEq] at h
      obtain ⟨isOpen, rfl⟩ := eq_data_of_chunk? h.1
      rw [List.flatMap_cons, ← ih h.2]
      rfl

/-- A complete user message of the peer: the chunks under consecutive TSNs, from the one `offset`
after its initial TSN on. -/
structure PeerMessage (sent : UInt32 → Option DataChunk) (initialTsn : UInt32) where
  streamId : UInt16
  sequence : UInt16
  ppid : UInt32
  offset : ℕ
  chunks : List DataChunk
  isSent : ∀ i (hi : i < chunks.length), sent (initialTsn + .ofNat (offset + i)) = some chunks[i]
  isUser : userPpid ppid = true
  isMessage : IsMessage streamId sequence ppid (chunks.map (Released.data · true))

/-- The event that reports the message. -/
def PeerMessage.event {initialTsn : UInt32} (message : PeerMessage sent initialTsn) :
    AssociationEvent :=
  .message message.streamId (messageKind message.ppid)
    (messagePayload message.ppid (message.chunks.flatMap DataChunk.payload))

/-- The TSNs of the message are at most `lastTsn`, counted from the initial TSN. -/
def PeerMessage.upTo {initialTsn : UInt32} (message : PeerMessage sent initialTsn)
    (lastTsn : UInt32) : Prop :=
  message.offset + message.chunks.length ≤ (lastTsn + 1 - initialTsn).toNat

instance {initialTsn : UInt32} (message : PeerMessage sent initialTsn) (lastTsn : UInt32) :
    Decidable (message.upTo lastTsn) := inferInstanceAs (Decidable (_ ≤ _))

/-! ## The reset request -/

/-- The sender's last TSN of every outgoing reset request in a RE-CONFIG chunk. -/
def lastTsns (value : Bytes) : List UInt32 :=
  match parseParameters value with
  | .ok parameters =>
      (parameters.filter fun parameter => parameter.kind == parameterOutgoingReset).filterMap
        fun parameter => parameter.value.u32At 8
  | .error _ => []

/-- The cumulative TSN has reached the last TSN of every outgoing reset request in the chunk. -/
def resetsReached (initialTsn : UInt32) (chunk : ParsedChunk) (s : Association) : Bool :=
  (lastTsns chunk.value).all fun lastTsn => s.cumulativePeerTsn.any fun cumulative =>
    (lastTsn + 1 - initialTsn).toNat ≤ (cumulative + 1 - initialTsn).toNat

/-- What a run has released since an INIT, up to some chunk of the packet it handles. -/
def logUpTo (start : Association) (inputs : List Input) (now : ℕ) (tag : UInt32)
    (before : List ParsedChunk) : List Released :=
  runLog inputs start ++ chunksLog now tag before (runInputs inputs start)

/-- Every message that the trail has passed is reported at its place. -/
theorem reported_of_trail {initialTsn cumulative lastTsn : UInt32} {events : List AssociationEvent}
    {reassembly : ExtTreeMap UInt16 Reassembly} (hkept : Kept log events reassembly)
    (hopen : AllOpen log) (htrail : Trail sent (initialTsn - 1) log cumulative)
    (hreached : (lastTsn + 1 - initialTsn).toNat ≤ (cumulative + 1 - initialTsn).toNat)
    (message : PeerMessage sent initialTsn) (hupTo : message.upTo lastTsn)
    (hskip : ∀ i < message.chunks.length,
      (passed (initialTsn - 1) log)[message.offset + i]? ≠ some none) :
    (messages events)[((passed (initialTsn - 1) log).take message.offset).countP completesAt]? =
      some message.event := by
  have hlength : (cumulative + 1 - initialTsn).toNat ≤ (passed (initialTsn - 1) log).length := by
    have hlast := htrail.length_passed
    have hdistance : cumulative + 1 - initialTsn =
        UInt32.ofNat (passed (initialTsn - 1) log).length := by
      rw [hlast]
      grind
    rw [hdistance, UInt32.toNat_ofNat']
    exact Nat.mod_le _ _
  have hchunks : ∀ i (hi : i < message.chunks.length),
      (passed (initialTsn - 1) log)[message.offset + i]? = some (some message.chunks[i]) := by
    intro i hi
    have hlt : message.offset + i < (passed (initialTsn - 1) log).length := by
      unfold PeerMessage.upTo at hupTo
      omega
    rcases hbrought : (passed (initialTsn - 1) log)[message.offset + i]? with _ | brought
    · rw [List.getElem?_eq_none_iff] at hbrought
      omega
    rcases brought with _ | chunk
    · exact absurd hbrought (hskip i hi)
    · obtain ⟨htsn, hsent⟩ := htrail.passed hbrought
      have hsame : chunk.tsn = initialTsn + .ofNat (message.offset + i) := by
        rw [htsn, UInt32.ofNat_add _ 1]
        grind
      rw [hsame, message.isSent i hi] at hsent
      rw [hsent]
  have hne : message.chunks ≠ [] := by
    intro hnil
    have hmessage := message.isMessage.ne_nil
    rw [hnil] at hmessage
    exact hmessage rfl
  obtain ⟨before, entries, after, hlog, hentries, hcount⟩ := htrail.exists_of_passed hne hchunks
  have hopen' : AllOpen entries := by
    intro chunk isOpen hmem
    refine hopen chunk isOpen ?_
    rw [hlog]
    simp [hmem]
  have hmessage := message.isMessage.of_chunks message.isUser hentries hopen'
  rw [← hcount, hkept.once.content before entries after message.streamId message.sequence
    message.ppid hlog hmessage message.isUser, payloadOf_of_chunks hentries, PeerMessage.event]

theorem handleChunks_snoc {now : ℕ} {tag : UInt32} {before : List ParsedChunk} {chunk : ParsedChunk}
    {first output : AssociationOutput} {u : Association}
    (hbefore : (handleChunks now tag before).run s = (.ok first, u))
    (hchunk : (handleChunk now tag chunk).run u = (.ok output, t)) :
    ∃ total, (handleChunks now tag (before ++ [chunk])).run s = (.ok total, t) ∧
      total.events = first.events ++ output.events := by
  induction before generalizing s first with
  | nil =>
    cases hbefore
    refine ⟨output ++ {}, ?_, ?_⟩
    · rw [List.nil_append, handleChunks, run_bind, hchunk]
      rfl
    · rw [AssociationOutput.events_append, List.append_nil]
      rfl
  | cons head rest ih =>
    rw [handleChunks, run_bind_eq_ok] at hbefore
    obtain ⟨headOutput, mid, hhead, hbefore⟩ := hbefore
    rw [run_bind_eq_ok] at hbefore
    obtain ⟨others, u', hothers, hbefore⟩ := hbefore
    cases hbefore
    obtain ⟨total, htotal, hevents⟩ := ih hothers
    refine ⟨headOutput ++ total, ?_, ?_⟩
    · rw [List.cons_append, handleChunks, run_bind, hhead]
      dsimp only
      rw [run_bind, htotal]
      rfl
    · rw [AssociationOutput.events_append, AssociationOutput.events_append, hevents,
        List.append_assoc]

/-- After an INIT, in every run of careful packets with the peer's data: when a RE-CONFIG chunk
closes a channel and the cumulative TSN has reached the last TSN of its requests, every complete
message of the channel up to that TSN that was not skipped is reported before the channel is closed,
each at its own place among the messages. -/
theorem reported_before_close (hreachable : Reachable s) {initTag : UInt32} {initValue : Bytes}
    {init : InitChunk} (hinit : InitChunk.parse initTag initValue = .ok init)
    {inputs : List Input} (hcareful : allMeet careful inputs (restart init s) = true)
    (hpeer : allMeet (everyChunk (fromPeer sent)) inputs (restart init s) = true)
    {now : ℕ} {tag : UInt32} {before : List ParsedChunk} {chunk : ParsedChunk}
    {first output : AssociationOutput} {u : Association}
    (hbeforePeer : everyChunk (fromPeer sent) now tag before
      (runInputs inputs (restart init s)) = true)
    (hbefore : (handleChunks now tag before).run (runInputs inputs (restart init s)) = (.ok first, u))
    (hchunk : (handleChunk now tag chunk).run u = (.ok output, t)) {lastTsn : UInt32}
    (hrequest : lastTsn ∈ lastTsns chunk.value)
    (hreached : resetsReached init.initialTsn chunk u = true)
    (message : PeerMessage sent init.initialTsn) (hupTo : message.upTo lastTsn)
    (hclosed : .channelClosed message.streamId ∈ output.events)
    (hskip : ∀ i < message.chunks.length, (passed (init.initialTsn - 1)
      (logUpTo (restart init s) inputs now tag before))[message.offset + i]? ≠ some none) :
    ∃ total front back,
      (handleChunks now tag (before ++ [chunk])).run (runInputs inputs (restart init s)) =
        (.ok total, t) ∧
      runDelivered inputs (restart init s) ++ total.events =
        front ++ .channelClosed message.streamId :: back ∧
      (messages front)[((passed (init.initialTsn - 1)
        (logUpTo (restart init s) inputs now tag before)).take message.offset).countP
          completesAt]? = some message.event := by
  have hstart : Sound (restart init s) := by
    have hrun := handleInit_run hreachable.sound initTag initValue
    rw [hinit] at hrun
    obtain ⟨reply, hrun, -⟩ := hrun
    have heffect := chunkEffect_handleInit initTag chunk initValue s
    rw [hrun] at heffect
    exact heffect.sound hreachable.sound
  have hempty : Buffers sent (restart init s) := by
    intro tsn data hdata
    simp [restart] at hdata
  have hcumulative : (restart init s).cumulativePeerTsn = some (init.initialTsn - 1) := rfl
  obtain ⟨⟨mid, hmid, htrail⟩, hbuffers⟩ := traced_run hcumulative hempty hstart hpeer
  have hsound := sound_runInputs hstart inputs
  obtain ⟨⟨cumulative, hcum, htrail'⟩, -⟩ := traced_chunks hmid hbuffers hsound now hbeforePeer
  rw [hbefore] at hcum
  have hkept := (kept_nil (restart init s).reassembly).run hstart hcareful
  obtain ⟨hkept', hopen⟩ := hkept.accepted hsound hbefore
  rw [List.nil_append, List.nil_append] at hkept'
  have hlast : (lastTsn + 1 - init.initialTsn).toNat ≤
      (cumulative + 1 - init.initialTsn).toNat := by
    have hall := List.all_eq_true.mp hreached lastTsn hrequest
    rw [hcum] at hall
    simpa using hall
  have hreported := reported_of_trail hkept' ((allOpen_run hstart hcareful).append hopen)
    (htrail.append htrail') hlast message hupTo hskip
  obtain ⟨total, htotal, hevents⟩ := handleChunks_snoc hbefore hchunk
  obtain ⟨opening, back, houtput⟩ := List.append_of_mem hclosed
  refine ⟨total, runDelivered inputs (restart init s) ++ first.events ++ opening, back, htotal, ?_, ?_⟩
  · rw [hevents, houtput]
    simp only [List.append_assoc]
  · rw [messages_append, List.getElem?_append_left]
    · exact hreported
    · exact (List.getElem?_eq_some_iff.mp hreported).1

namespace Sample

def initFields : InitChunk := ⟨0xaabbccdd, 16, 16, 500, false⟩

/-- An OPEN of stream 0 under TSN 500 and a message on it under TSN 501. -/
def peerChunks (tsn : UInt32) : Option DataChunk :=
  if tsn = 500 then some ⟨3, 500, 0, 0, ppidDcep, dcepOpenPayload⟩
  else if tsn = 501 then some ⟨3, 501, 0, 0, ppidBinary, [1, 2, 3]⟩
  else none

/-- The request to close stream 0 of a peer that has sent TSNs up to 501. -/
def closeChunk : ParsedChunk where
  kind := typeReConfig
  flags := 0
  value := Bytes.ofU16 parameterOutgoingReset ++ Bytes.ofU16 18 ++ Bytes.ofU32 500 ++
    Bytes.ofU32 0 ++ Bytes.ofU32 501 ++ Bytes.ofU16 0

def message : PeerMessage peerChunks 500 where
  streamId := 0
  sequence := 0
  ppid := ppidBinary
  offset := 1
  chunks := [⟨3, 501, 0, 0, ppidBinary, [1, 2, 3]⟩]
  isSent := by
    intro i hi
    rw [List.length_singleton, Nat.lt_one_iff] at hi
    subst hi
    rfl
  isUser := rfl
  isMessage := .whole ⟨rfl, rfl, rfl⟩ rfl rfl

/-- The COOKIE ECHO and the peer's chunks in the order of their TSNs. -/
def dataFirst : List Input :=
  (establish false).drop 1 ++
    [.packet 2000000 (data 3 500 0 0 ppidDcep dcepOpenPayload),
      .packet 3000000 (data 3 501 0 0 ppidBinary [1, 2, 3])]

/-- The same packets, with the request to close the stream ahead of the message. -/
def overtaken : List Input :=
  (establish false).drop 1 ++
    [.packet 2000000 (data 3 500 0 0 ppidDcep dcepOpenPayload),
      .packet 3000000 (peerPacket 0x11223344 typeReConfig 0 closeChunk.value),
      .packet 4000000 (data 3 501 0 0 ppidBinary [1, 2, 3])]

end Sample

/-- The message that arrives before the request is reported before its channel is closed. -/
theorem sample_reported_before_close :
    ∃ start, new Sample.config = .ok start ∧ ∃ front back total t,
      (handleChunks 4000000 0x11223344 [Sample.closeChunk]).run
        (runInputs Sample.dataFirst (restart Sample.initFields start)) = (.ok total, t) ∧
      runDelivered Sample.dataFirst (restart Sample.initFields start) ++ total.events =
        front ++ .channelClosed 0 :: back ∧
      (messages front)[0]? = some (.message 0 .binary [1, 2, 3]) := by
  obtain ⟨start, hnew⟩ : ∃ start, new Sample.config = .ok start := ⟨_, rfl⟩
  refine ⟨start, hnew, ?_⟩
  have hclosed : ((handleChunk 4000000 0x11223344 Sample.closeChunk).run
      (runInputs Sample.dataFirst (restart Sample.initFields start))).1.toOption.map
        AssociationOutput.events = some [.channelClosed 0] := by
    cases hnew
    decide +kernel
  have hlog : logUpTo (restart Sample.initFields start) Sample.dataFirst 4000000 0x11223344 [] =
      [.data ⟨3, 500, 0, 0, ppidDcep, Sample.dcepOpenPayload⟩ false,
        .data ⟨3, 501, 0, 0, ppidBinary, [1, 2, 3]⟩ true] := by
    cases hnew
    decide +kernel
  have hupTo : Sample.message.upTo 501 := by decide
  rcases hrun : (handleChunk 4000000 0x11223344 Sample.closeChunk).run
    (runInputs Sample.dataFirst (restart Sample.initFields start)) with ⟨error | output, t⟩
  · rw [hrun] at hclosed
    cases hclosed
  rw [hrun] at hclosed
  have hevents : output.events = [.channelClosed 0] := by
    simpa [Except.toOption] using hclosed
  obtain ⟨total, front, back, htotal, hsplit, hmessage⟩ :=
    @reported_before_close start t Sample.peerChunks ⟨Sample.config, start, [], hnew, rfl⟩ 0
      (Sample.init false) Sample.initFields rfl Sample.dataFirst (by cases hnew; decide +kernel)
      (by cases hnew; decide +kernel) 4000000 0x11223344 [] Sample.closeChunk {} output _ rfl rfl hrun
      501 (by decide +kernel) (by cases hnew; decide +kernel) Sample.message hupTo
      (by rw [hevents]; exact List.mem_singleton_self _) (by rw [hlog]; decide)
  rw [hlog] at hmessage
  exact ⟨front, back, total, t, htotal, hsplit, hmessage⟩

/-- The message that arrives after the request is refused, and never reported. -/
theorem overtaken_message_lost :
    ∃ start, new Sample.config = .ok start ∧
      allMeet (everyChunk (fromPeer Sample.peerChunks)) Sample.overtaken
        (restart Sample.initFields start) = true ∧
      501 ∈ lastTsns Sample.closeChunk.value ∧ Sample.message.upTo 501 ∧
      .channelClosed Sample.message.streamId ∈
        runDelivered Sample.overtaken (restart Sample.initFields start) ∧
      Sample.message.event ∉ runDelivered Sample.overtaken (restart Sample.initFields start) := by
  obtain ⟨start, hnew⟩ : ∃ start, new Sample.config = .ok start := ⟨_, rfl⟩
  refine ⟨start, hnew, ?_⟩
  cases hnew
  refine ⟨by decide +kernel, by decide +kernel, by decide +kernel, by decide +kernel,
    by decide +kernel⟩

end Association

end Fluvora.DataChannel
