import Fluvora.DataChannel.Acceptance

/-!
# The log of what the cumulative TSN has passed

`chunkLog` lists what handling a chunk moves the cumulative TSN over: the DATA chunks it releases,
whether their processing succeeds or not, the jump of a FORWARD TSN, and the restart of an INIT.
In every run the log ends at the cumulative TSN, and every DATA chunk in it directly follows what is
logged before it, so a TSN at or below the cumulative one is in the log or was skipped.
-/

open Std (ExtTreeMap)

namespace Fluvora.DataChannel

open Fallible

namespace Association

/-- One thing that the cumulative TSN has passed.  A DATA chunk is logged with whether its channel
was open when its turn came. -/
inductive Released
  | data (chunk : DataChunk) (isOpen : Bool)
  | skip (newCumulativeTsn : UInt32)
  | restart (initialTsn : UInt32)
deriving DecidableEq

/-- The cumulative TSN after the entry. -/
def Released.tsn : Released → UInt32
  | .data chunk _ => chunk.tsn
  | .skip newCumulativeTsn => newCumulativeTsn
  | .restart initialTsn => initialTsn - 1

/-- The entries of a released batch; a chunk that fails does not take the later ones out. -/
def batchLog (now : ℕ) : List DataChunk → Association → List Released
  | [], _ => []
  | data :: rest, s =>
      .data data (s.channels.contains data.streamId) ::
        batchLog now rest ((processDataMessage now data).run s).2

/-- The entries of the release loop of a FORWARD TSN, which passes a chunk after processing it. -/
def pendingLog (now : ℕ) : ℕ → UInt32 → Association → List Released
  | 0, _, _ => []
  | fuel + 1, next, s =>
      match s.pendingData[next]? with
      | none => []
      | some data =>
          if (unbuffer next s).admits data then
            .data data (s.channels.contains data.streamId) ::
              pendingLog now fuel (next + 1)
                (advance next ((processDataMessage now data).run (unbuffer next s)).2)
          else []

def initLog (tag : UInt32) (value : Bytes) : List Released :=
  match InitChunk.parse tag value with
  | .ok init => [.restart init.initialTsn]
  | .error _ => []

def dataLog (s : Association) (now : ℕ) (flags : UInt8) (value : Bytes) : List Released :=
  match DataChunk.parse flags value, s.cumulativePeerTsn with
  | .ok data, some cumulative =>
      if s.dataVerdict flags value = .writes then
        batchLog now (s.released cumulative data).1 (s.released cumulative data).2
      else []
  | _, _ => []

def forwardTsnLog (s : Association) (now : ℕ) (value : Bytes) : List Released :=
  match readU32 value 0 with
  | .ok newCumulativeTsn =>
      if s.forwardTsnVerdict value = .writes then
        .skip newCumulativeTsn ::
          pendingLog now (s.forwarded value newCumulativeTsn).pendingData.size
            (newCumulativeTsn + 1) (s.forwarded value newCumulativeTsn)
      else []
  | .error _ => []

/-- What handling a chunk moves the cumulative TSN over. -/
def chunkLog (s : Association) (now : ℕ) (tag : UInt32) (chunk : ParsedChunk) : List Released :=
  if chunk.kind = typeInit then initLog tag chunk.value
  else if chunk.kind = typeData ∧ tag = s.config.verificationTag then
    s.dataLog now chunk.flags chunk.value
  else if chunk.kind = typeForwardTsn ∧ tag = s.config.verificationTag then
    s.forwardTsnLog now chunk.value
  else []

/-- The log of the chunks of a packet, up to the first refused one. -/
def chunksLog (now : ℕ) (tag : UInt32) : List ParsedChunk → Association → List Released
  | [], _ => []
  | chunk :: rest, s =>
      s.chunkLog now tag chunk ++
        match (handleChunk now tag chunk).run s with
        | (.ok _, t) => chunksLog now tag rest t
        | (.error _, _) => []

/-- The log of a call. -/
def Input.log (input : Input) (s : Association) : List Released :=
  match input with
  | .packet now bytes =>
      match ParsedPacket.parse bytes with
      | .ok parsed =>
          if parsed.sourcePort = s.config.remotePort ∧ parsed.destinationPort = s.config.localPort then
            chunksLog now parsed.verificationTag parsed.chunks s
          else []
      | .error _ => []
  | _ => []

def runLog : List Input → Association → List Released
  | [], _ => []
  | input :: rest, s => input.log s ++ runLog rest (s.step input)

/-! ## The log ends at the cumulative TSN -/

/-- Entries that continue a log which has reached `from?`, and where they lead. -/
inductive Continues : Option UInt32 → List Released → Option UInt32 → Prop
  | nil (reached : Option UInt32) : Continues reached [] reached
  | data {reached : UInt32} {entries : List Released} {last : Option UInt32} {chunk : DataChunk}
      {isOpen : Bool} (htsn : chunk.tsn = reached + 1)
      (hrest : Continues (some chunk.tsn) entries last) :
      Continues (some reached) (.data chunk isOpen :: entries) last
  | skip {reached : Option UInt32} {entries : List Released} {last : Option UInt32}
      {newCumulativeTsn : UInt32} (hrest : Continues (some newCumulativeTsn) entries last) :
      Continues reached (.skip newCumulativeTsn :: entries) last
  | restart {reached : Option UInt32} {entries : List Released} {last : Option UInt32}
      {initialTsn : UInt32} (hrest : Continues (some (initialTsn - 1)) entries last) :
      Continues reached (.restart initialTsn :: entries) last

theorem Continues.append {reached mid last : Option UInt32} {first rest : List Released}
    (h : Continues reached first mid) (h' : Continues mid rest last) :
    Continues reached (first ++ rest) last := by
  induction h with
  | nil => exact h'
  | data htsn _ ih => exact .data htsn (ih h')
  | skip _ ih => exact .skip (ih h')
  | restart _ ih => exact .restart (ih h')

/-- A batch of consecutive chunks. -/
theorem continues_batchLog (now : ℕ) {batch : List DataChunk} (s : Association) {reached : UInt32}
    (h : ∀ i (hi : i < batch.length), batch[i].tsn = reached + .ofNat (i + 1)) :
    Continues (some reached) (batchLog now batch s) (some (reached + .ofNat batch.length)) := by
  induction batch generalizing s reached with
  | nil =>
    rw [show reached + UInt32.ofNat ([] : List DataChunk).length = reached by simp]
    exact .nil _
  | cons data rest ih =>
    have hfirst : data.tsn = reached + 1 := h 0 (Nat.succ_pos _)
    have hshift : ∀ n : ℕ, data.tsn + UInt32.ofNat n = reached + UInt32.ofNat (n + 1) := by
      intro n
      rw [hfirst, UInt32.ofNat_add]
      grind
    refine .data hfirst ?_
    rw [List.length_cons, ← hshift]
    refine ih _ fun i hi => ?_
    rw [hshift]
    exact h (i + 1) (Nat.succ_lt_succ hi)

/-- The release loop passes every chunk that it has processed. -/
theorem continues_pendingLog (now fuel : ℕ) {s : Association} {tag reached : UInt32}
    (htag : s.peerVerificationTag = some tag) (hcum : s.cumulativePeerTsn = some reached)
    (h : ∀ (tsn : UInt32) (data : DataChunk), s.pendingData[tsn]? = some data → data.tsn = tsn) :
    Continues (some reached) (pendingLog now fuel (reached + 1) s)
      ((releasePending now fuel (reached + 1)).run s).2.cumulativePeerTsn := by
  induction fuel generalizing s reached with
  | zero =>
    rw [pendingLog, ← hcum]
    exact .nil _
  | succ fuel ih =>
    rw [pendingLog, releasePending, run_get_bind]
    rcases hfind : s.pendingData[reached + 1]? with _ | data
    · dsimp only
      rw [← hcum]
      exact .nil _
    have htag' : (unbuffer (reached + 1) s).peerVerificationTag = some tag := htag
    dsimp only
    rw [run_modify_bind, run_bind]
    by_cases hadmits : (unbuffer (reached + 1) s).admits data = true
    · obtain ⟨output, t, hrun, hprocessed⟩ := processDataMessage_run_of_admits now htag' hadmits
      rw [if_pos hadmits, hrun]
      dsimp only
      rw [run_modify_bind, state_run_bind_pure]
      have hframe := hprocessed.frame
      refine .data (h _ _ hfind) ?_
      rw [h _ _ hfind]
      refine ih (hframe.peerVerificationTag.trans htag) rfl fun tsn found hfound => ?_
      have hpending : t.pendingData = s.pendingData.erase (reached + 1) := hframe.pendingData
      rw [advance, hpending, ExtTreeMap.getElem?_erase] at hfound
      split_ifs at hfound
      exact h tsn found hfound
    · rw [if_neg hadmits]
      rw [Bool.not_eq_true] at hadmits
      obtain ⟨error, reassembly, channels, hrun⟩ :=
        processDataMessage_run_of_not_admits now htag' hadmits
      rw [hrun]
      dsimp only [unbuffer]
      rw [hcum]
      exact .nil _

/-- A DATA chunk that writes, with the batch that it releases. -/
theorem handleData_writes {s : Association} (hs : Sound s) (now : ℕ) {flags : UInt8}
    {value : Bytes} (h : s.dataVerdict flags value = .writes) :
    ∃ data cumulative batch pending peer, s.peerVerificationTag = some peer ∧
      DataChunk.parse flags value = .ok data ∧ s.cumulativePeerTsn = some cumulative ∧
      s.released cumulative data = (batch, { s with
        pendingData := pending
        cumulativePeerTsn := some (cumulative + .ofNat batch.length) }) ∧
      (∀ i (hi : i < batch.length), batch[i].tsn = cumulative + .ofNat (i + 1)) ∧
      let processed := (processAll now batch).run { s with
        pendingData := pending
        cumulativePeerTsn := some (cumulative + .ofNat batch.length) }
      (∃ error, processed.1 = .error error ∧
        (handleData now flags value).run s = (.error error, processed.2)) ∨
      (∃ output sack, processed.1 = .ok output ∧ (handleData now flags value).run s =
        (.ok (output ++ { packets := [sack] }), processed.2)) := by
  unfold dataVerdict at h
  split_ifs at h with hguard
  obtain ⟨peer, hpeer⟩ := hs.known (.inr hguard.1)
  obtain ⟨⟨cumulative, hcum⟩, -⟩ := hs.started peer hpeer
  have hbuf := hs.buffered cumulative hcum
  obtain ⟨hwrong, -⟩ | ⟨data, -, hdata, hcases⟩ := handleData_run now flags value hpeer hcum hbuf
  · exact absurd hguard hwrong
  rw [hdata, hcum] at h
  dsimp only at h
  obtain ⟨hdup, -⟩ | ⟨hnew, hwindow, -⟩ | ⟨hnew, hwindow, hrun⟩ := hcases
  · rw [if_pos hdup] at h
    cases h
  · rw [hnew, if_neg Bool.false_ne_true, if_pos hwindow] at h
    cases h
  · have hbuffered := buffered_buffer hbuf hnew hwindow
    obtain ⟨batch, pending, hdrain, -, hbatch, -⟩ := drain_buffered (s := s.buffer data) hcum
      hbuffered
    rw [hdrain] at hrun
    refine ⟨data, cumulative, batch, pending, peer, hpeer, hdata, hcum, hdrain, ?_, hrun⟩
    intro i hi
    exact (hbuffered _ _ (hbatch i hi)).1

/-- A FORWARD TSN that writes, with the release loop that it starts. -/
theorem handleForwardTsn_writes {s : Association} (hs : Sound s) (now : ℕ) {value : Bytes}
    (h : s.forwardTsnVerdict value = .writes) :
    ∃ newCumulativeTsn peer, readU32 value 0 = .ok newCumulativeTsn ∧
      (s.forwarded value newCumulativeTsn).peerVerificationTag = some peer ∧
      (s.forwarded value newCumulativeTsn).cumulativePeerTsn = some newCumulativeTsn ∧
      (∀ (tsn : UInt32) (data : DataChunk),
        (s.forwarded value newCumulativeTsn).pendingData[tsn]? = some data → data.tsn = tsn) ∧
      let loop := (releasePending now (s.forwarded value newCumulativeTsn).pendingData.size
        (newCumulativeTsn + 1)).run (s.forwarded value newCumulativeTsn)
      (∃ error, loop.1 = .error error ∧
        (handleForwardTsn now value).run s = (.error error, loop.2)) ∨
      (∃ output sack, loop.1 = .ok output ∧
        (handleForwardTsn now value).run s = (.ok (output ++ { packets := [sack] }), loop.2)) := by
  unfold forwardTsnVerdict at h
  split_ifs at h with hallowed
  have hguard : s.state = .established ∧ 4 ≤ value.length := by
    simp only [forwardTsnAllowed, Bool.and_eq_true, decide_eq_true_eq] at hallowed
    exact ⟨hallowed.1.1.1, hallowed.1.2⟩
  obtain ⟨peer, hpeer⟩ := hs.known (.inr hguard.1)
  obtain ⟨⟨current, hcum⟩, -⟩ := hs.started peer hpeer
  have hbuf := hs.buffered current hcum
  obtain ⟨hwrong, -⟩ | ⟨newCumulativeTsn, -, hread, hcases⟩ :=
    handleForwardTsn_run now value hpeer hcum hbuf
  · rw [hallowed] at hwrong
    cases hwrong
  rw [hread, hcum] at h
  dsimp only at h
  obtain ⟨hle, -⟩ | ⟨hnew, hrun⟩ := hcases
  · rw [if_pos hle] at h
    cases h
  · obtain ⟨reassembly, -, hstart⟩ := forwarded_eq (s := s) newCumulativeTsn hguard.2
    refine ⟨newCumulativeTsn, peer, hread, by rw [hstart, hpeer], by rw [hstart], ?_, hrun⟩
    exact fun tsn data hdata => (buffered_forwarded hbuf hnew tsn data hdata).1

/-- A handler that does not write leaves the cumulative TSN. -/
theorem Follows.state_eq {s : Association} {action : Action AssociationOutput} {verdict : Verdict}
    (h : Follows s action verdict) (hverdict : verdict ≠ .writes) : (action.run s).2 = s := by
  cases verdict with
  | refused =>
    obtain ⟨error, hrun⟩ := h
    rw [hrun]
  | passed =>
    obtain ⟨output, hrun⟩ := h
    rw [hrun]
  | writes => exact absurd rfl hverdict

theorem continues_dataLog {s : Association} (hs : Sound s) (now : ℕ) (flags : UInt8)
    (value : Bytes) : Continues s.cumulativePeerTsn (s.dataLog now flags value)
      ((handleData now flags value).run s).2.cumulativePeerTsn := by
  by_cases hwrites : s.dataVerdict flags value = .writes
  · obtain ⟨data, cumulative, batch, pending, peer, hpeer, hdata, hcum, hreleased, htsns, hrun⟩ :=
      handleData_writes hs now hwrites
    have hframe := processAll_frame now batch (s := { s with
      pendingData := pending
      cumulativePeerTsn := some (cumulative + .ofNat batch.length) }) hpeer
    have hafter : ((handleData now flags value).run s).2.cumulativePeerTsn =
        some (cumulative + .ofNat batch.length) := by
      rcases hrun with ⟨error, -, hrun⟩ | ⟨output, sack, -, hrun⟩
      · rw [hrun]
        exact hframe.cumulativePeerTsn
      · rw [hrun]
        exact hframe.cumulativePeerTsn
    rw [hafter, dataLog, hdata, hcum]
    dsimp only
    rw [if_pos hwrites, hreleased]
    exact continues_batchLog now _ htsns
  · have hlog : s.dataLog now flags value = [] := by
      unfold dataLog
      split
      · rw [if_neg hwrites]
      · rfl
    rw [hlog, (follows_data hs now flags value).state_eq hwrites]
    exact .nil _

theorem continues_forwardTsnLog {s : Association} (hs : Sound s) (now : ℕ) (value : Bytes) :
    Continues s.cumulativePeerTsn (s.forwardTsnLog now value)
      ((handleForwardTsn now value).run s).2.cumulativePeerTsn := by
  by_cases hwrites : s.forwardTsnVerdict value = .writes
  · obtain ⟨newCumulativeTsn, peer, hread, hpeer, hcum, htsns, hrun⟩ :=
      handleForwardTsn_writes hs now hwrites
    rw [forwardTsnLog, hread]
    dsimp only
    rw [if_pos hwrites]
    refine .skip ?_
    have hloop := continues_pendingLog now
      (s.forwarded value newCumulativeTsn).pendingData.size hpeer hcum htsns
    rcases hrun with ⟨error, -, hrun⟩ | ⟨output, sack, -, hrun⟩
    · rw [hrun]
      exact hloop
    · rw [hrun]
      exact hloop
  · have hlog : s.forwardTsnLog now value = [] := by
      unfold forwardTsnLog
      split
      · rw [if_neg hwrites]
      · rfl
    rw [hlog, (follows_forwardTsn hs now value).state_eq hwrites]
    exact .nil _

/-! ## Control chunks -/

/-- What no chunk other than INIT, DATA and FORWARD TSN writes: the cumulative TSN stays, and
reassembly buffers are at most dropped. -/
structure ControlFrame (s t : Association) : Prop where
  cumulativePeerTsn : t.cumulativePeerTsn = s.cumulativePeerTsn
  reassembly : ReassemblyKept s t

theorem ControlFrame.refl (s : Association) : ControlFrame s s := ⟨rfl, fun _ _ h => h⟩

theorem ControlFrame.guarded {s : Association} {action : Action AssociationOutput} (tag : UInt32)
    (h : ControlFrame s (action.run s).2) :
    ControlFrame s ((Association.guarded tag action).run s).2 := by
  rw [guarded_run]
  split_ifs
  · exact h
  · exact .refl s

theorem controlFrame_cookieEcho (tag : UInt32) (cookie : Bytes) (s : Association) :
    ControlFrame s ((handleCookieEcho tag cookie).run s).2 := by
  obtain hsame | ⟨-, hrun⟩ := handleCookieEcho_state tag cookie s
  · rw [hsame]
    exact .refl s
  · rw [hrun]
    exact ⟨rfl, fun _ _ h => h⟩

theorem controlFrame_sack (value : Bytes) (s : Association) :
    ControlFrame s ((do handleSack value; return {} : Action AssociationOutput).run s).2 := by
  rw [state_run_bind_pure]
  have hsack := handleSack_run value s
  split at hsack
  · obtain ⟨error, hrun⟩ := hsack
    rw [hrun]
    exact .refl s
  · obtain ⟨result, hrun, -⟩ := hsack
    rw [hrun]
    exact ⟨rfl, fun _ _ h => h⟩

theorem controlFrame_reconfiguration (value : Bytes) (s : Association) :
    ControlFrame s ((handleReconfiguration value).run s).2 := by
  obtain ⟨hframe, -, hkept, -⟩ := handleReconfiguration_frame value s
  refine ⟨?_, hkept⟩
  rw [hframe]

/-- A chunk of one of the three kinds that the log is about. -/
def isLogged (chunk : ParsedChunk) : Bool :=
  chunk.kind = typeInit || chunk.kind = typeData || chunk.kind = typeForwardTsn

theorem controlFrame_handleChunk (now : ℕ) (tag : UInt32) {chunk : ParsedChunk} (s : Association)
    (h : isLogged chunk = false) : ControlFrame s ((handleChunk now tag chunk).run s).2 := by
  simp only [isLogged, Bool.or_eq_false_iff, decide_eq_false_iff_not] at h
  refine handleChunk_elim (P := fun action => ControlFrame s (action.run s).2) now tag chunk
    ?_ ?_ ?_ ?_ ?_ ?_ ?_ ?_ ?_ ?_
  · exact fun hkind => absurd hkind h.1.1
  · exact fun _ => controlFrame_cookieEcho tag chunk.value s
  · exact fun hkind => absurd hkind h.1.2
  · exact fun _ => (controlFrame_sack chunk.value s).guarded tag
  · refine fun _ => ControlFrame.guarded tag ?_
    rw [handleHeartbeat_state]
    exact .refl s
  · exact fun _ => ⟨rfl, fun _ _ h => h⟩
  · refine fun _ => ControlFrame.guarded tag ?_
    rw [handleShutdown_state]
    exact ⟨rfl, fun _ _ h => h⟩
  · exact fun _ => (controlFrame_reconfiguration chunk.value s).guarded tag
  · exact fun hkind => absurd hkind h.2
  · exact fun _ => .refl s

theorem chunkLog_of_not_logged {s : Association} {now : ℕ} {tag : UInt32} {chunk : ParsedChunk}
    (h : isLogged chunk = false) : s.chunkLog now tag chunk = [] := by
  simp only [isLogged, Bool.or_eq_false_iff, decide_eq_false_iff_not] at h
  rw [chunkLog, if_neg h.1.1, if_neg fun hkind => h.1.2 hkind.1, if_neg fun hkind => h.2 hkind.1]

theorem isLogged_cases {chunk : ParsedChunk} (h : isLogged chunk = true) :
    chunk.kind = typeInit ∨ chunk.kind = typeData ∨ chunk.kind = typeForwardTsn := by
  simpa [isLogged, or_assoc] using h

/-! ## Whole runs -/

theorem handleChunk_init {now : ℕ} {tag : UInt32} {chunk : ParsedChunk}
    (h : chunk.kind = typeInit) : handleChunk now tag chunk = handleInit tag chunk.value := by
  rw [handleChunk, if_pos h]

theorem handleChunk_data {now : ℕ} {tag : UInt32} {chunk : ParsedChunk}
    (h : chunk.kind = typeData) :
    handleChunk now tag chunk = guarded tag (handleData now chunk.flags chunk.value) := by
  rw [handleChunk, h]
  rfl

theorem handleChunk_forwardTsn {now : ℕ} {tag : UInt32} {chunk : ParsedChunk}
    (h : chunk.kind = typeForwardTsn) :
    handleChunk now tag chunk = guarded tag (handleForwardTsn now chunk.value) := by
  rw [handleChunk, h]
  rfl

theorem chunkLog_data {s : Association} {now : ℕ} {tag : UInt32} {chunk : ParsedChunk}
    (h : chunk.kind = typeData) : s.chunkLog now tag chunk =
      if tag = s.config.verificationTag then s.dataLog now chunk.flags chunk.value else [] := by
  simp [chunkLog, h, show typeData ≠ typeInit by decide,
    show typeData ≠ typeForwardTsn by decide]

theorem chunkLog_forwardTsn {s : Association} {now : ℕ} {tag : UInt32} {chunk : ParsedChunk}
    (h : chunk.kind = typeForwardTsn) : s.chunkLog now tag chunk =
      if tag = s.config.verificationTag then s.forwardTsnLog now chunk.value else [] := by
  simp [chunkLog, h, show typeForwardTsn ≠ typeInit by decide,
    show typeForwardTsn ≠ typeData by decide]

theorem continues_chunkLog {s : Association} (hs : Sound s) (now : ℕ) (tag : UInt32)
    (chunk : ParsedChunk) : Continues s.cumulativePeerTsn (s.chunkLog now tag chunk)
      ((handleChunk now tag chunk).run s).2.cumulativePeerTsn := by
  by_cases hlogged : isLogged chunk = true
  swap
  · rw [Bool.not_eq_true] at hlogged
    rw [chunkLog_of_not_logged hlogged,
      (controlFrame_handleChunk now tag s hlogged).cumulativePeerTsn]
    exact .nil _
  rcases isLogged_cases hlogged with hkind | hkind | hkind
  · have hstate := handleInit_run hs tag chunk.value
    rw [chunkLog, if_pos hkind, handleChunk_init hkind, initLog]
    split at hstate
    next hparse =>
      rw [hparse, hstate]
      exact .nil _
    next init hparse =>
      obtain ⟨output, hrun, -⟩ := hstate
      rw [hparse, hrun]
      exact .restart (.nil _)
  · rw [chunkLog_data hkind, handleChunk_data hkind, guarded_run]
    split_ifs
    · exact continues_dataLog hs now chunk.flags chunk.value
    · exact .nil _
  · rw [chunkLog_forwardTsn hkind, handleChunk_forwardTsn hkind, guarded_run]
    split_ifs
    · exact continues_forwardTsnLog hs now chunk.value
    · exact .nil _

theorem continues_chunksLog {s : Association} (hs : Sound s) (now : ℕ) (tag : UInt32)
    (chunks : List ParsedChunk) : Continues s.cumulativePeerTsn (chunksLog now tag chunks s)
      ((handleChunks now tag chunks).run s).2.cumulativePeerTsn := by
  induction chunks generalizing s with
  | nil => exact .nil _
  | cons chunk rest ih =>
    have hfirst := continues_chunkLog hs now tag chunk
    have hsound := (handleChunk_effect now tag chunk hs).sound hs
    rw [chunksLog, handleChunks, run_bind]
    rcases hrun : (handleChunk now tag chunk).run s with ⟨error | output, t⟩
    · rw [hrun] at hfirst
      dsimp only
      rw [List.append_nil]
      exact hfirst
    · rw [hrun] at hfirst hsound
      dsimp only
      rw [state_run_bind_pure]
      exact hfirst.append (ih hsound)

theorem continues_log {s : Association} (hs : Sound s) (input : Input) :
    Continues s.cumulativePeerTsn (input.log s) (s.step input).cumulativePeerTsn := by
  cases input with
  | packet now bytes =>
    rw [Input.log, step, handlePacket, run_ofExcept_bind]
    rcases ParsedPacket.parse bytes with error | parsed
    · exact .nil _
    dsimp only
    rw [run_get_bind, run_ensure_bind]
    split_ifs
    · exact continues_chunksLog hs now parsed.verificationTag parsed.chunks
    · exact .nil _
  | send now streamId kind payload =>
    have hsame : (s.step (.send now streamId kind payload)).cumulativePeerTsn =
        s.cumulativePeerTsn := by
      obtain ⟨error, hrun⟩ | ⟨hstate, channel, message, wire, -, hrun⟩ :=
        sendMessage_run now streamId kind payload s
      · rw [step, hrun]
      · obtain ⟨peer, hpeer⟩ := hs.known (.inr hstate)
        rw [step, hrun]
        obtain ⟨-, hqueue⟩ | ⟨-, packets, outstanding, hqueue, -⟩ :=
          enqueueMessage_run now message wire { s with
            channels := s.channels.insert streamId
              { channel with nextOutgoingSequence := channel.nextOutgoingSequence + 1 } } hpeer
        · rw [hqueue]
        · rw [hqueue]
    rw [hsame]
    exact .nil _
  | tick now =>
    obtain ⟨state, outstanding, abandoned, pendingForwardTsn, hrun, -⟩ := tick_run now s
    rw [step, hrun]
    exact .nil _

theorem sound_step {s : Association} (hs : Sound s) (input : Input) : Sound (s.step input) := by
  cases input with
  | packet now bytes =>
    rw [step, handlePacket, run_ofExcept_bind]
    rcases ParsedPacket.parse bytes with error | parsed
    · exact hs
    dsimp only
    rw [run_get_bind, run_ensure_bind]
    split_ifs
    · exact sound_handleChunks now parsed.verificationTag parsed.chunks hs
    · exact hs
  | send now streamId kind payload => exact sound_sendMessage now streamId kind payload hs
  | tick now => exact sound_tick now hs

/-- In every run the log, entry by entry, leads to the cumulative TSN. -/
theorem continues_runLog {s : Association} (hs : Sound s) (inputs : List Input) :
    Continues s.cumulativePeerTsn (runLog inputs s) (runInputs inputs s).cumulativePeerTsn := by
  induction inputs generalizing s with
  | nil => exact .nil _
  | cons input rest ih => exact (continues_log hs input).append (ih (sound_step hs input))

end Association

end Fluvora.DataChannel
