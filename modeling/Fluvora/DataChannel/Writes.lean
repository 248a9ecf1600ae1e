import Fluvora.DataChannel.Queueing
import Fluvora.DataChannel.StreamOrder

/-!
# The writes of a run on the send side

`writes` takes a run apart into writes with their cause: what is received may queue messages, a new
INIT starts over, a SACK acknowledges, the timer sends again and abandons, and a send queues.
`WriteEffect` says what each can do to the send side, and `chain_writes` that the writes of a run lead
to its state.  The later modules fold over the writes what they keep beside the state.
-/

open Std (ExtTreeMap)

namespace Fluvora.DataChannel

open Fallible

namespace Association

/-! ## A run, write by write -/

/-- Why the send side is written. -/
inductive Cause
  | queue (now : ℕ)
  | restart
  | sack (value : Bytes)
  | tick (now : ℕ)

/-- One write of a run and its cause. -/
structure Write where
  before : Association
  after : Association
  cause : Cause

/-- The writes of one chunk. -/
def chunkWrites (s : Association) (now : ℕ) (tag : UInt32) (chunk : ParsedChunk) : List Write :=
  if chunk.kind = typeInit then
    if (InitChunk.parse tag chunk.value).isOk then
      [⟨s, ((handleChunk now tag chunk).run s).2, .restart⟩]
    else []
  else if chunk.kind = typeSack ∧ tag = s.config.verificationTag then
    [⟨s, ((handleChunk now tag chunk).run s).2, .sack chunk.value⟩]
  else (s.chunkMoments now tag chunk).map fun moment => ⟨moment.before, moment.after, .queue now⟩

/-- The writes of the chunks of a packet, up to the first refused one. -/
def chunksWrites (now : ℕ) (tag : UInt32) : List ParsedChunk → Association → List Write
  | [], _ => []
  | chunk :: rest, s =>
      s.chunkWrites now tag chunk ++
        match (handleChunk now tag chunk).run s with
        | (.ok _, t) => chunksWrites now tag rest t
        | (.error _, _) => []

/-- The writes of a call. -/
def Input.writes (input : Input) (s : Association) : List Write :=
  match input with
  | .packet now bytes =>
      match ParsedPacket.parse bytes with
      | .ok parsed =>
          if parsed.sourcePort = s.config.remotePort ∧ parsed.destinationPort = s.config.localPort then
            chunksWrites now parsed.verificationTag parsed.chunks s
          else []
      | .error _ => []
  | .send now _ _ _ => [⟨s, s.step input, .queue now⟩]
  | .tick now => [⟨s, s.step input, .tick now⟩]

/-- The writes of a run. -/
def writes : List Input → Association → List Write
  | [], _ => []
  | input :: rest, s => input.writes s ++ writes rest (s.step input)

/-! ## What one write can do -/

/-- The state after a SACK whose header passes. -/
def sacked (value : Bytes) (cumulative : UInt32) (gapCount : ℕ) (s : Association) : Association :=
  { ackCumulative cumulative s with
    outstanding := ackBlocks cumulative (appliedGaps value 0 gapCount)
      (ackCumulative cumulative s).outstanding }

/-- Everything a write can do to the send side. -/
inductive WriteEffect (s : Association) : Cause → Association → Prop
  | same {now : ℕ} {t : Association} (h : SameSend s t) : WriteEffect s (.queue now) t
  | queued {now : ℕ} {t : Association} {message : OutboundMessage} {packets : List Bytes}
      (h : Queued now message packets s t) : WriteEffect s (.queue now) t
  | restart (init : InitChunk) : WriteEffect s .restart (restart init s)
  | refused {value : Bytes} (hheader : sackHeader value = none) : WriteEffect s (.sack value) s
  | sack {value : Bytes} {cumulative : UInt32} {gapCount : ℕ}
      (hheader : sackHeader value = some (cumulative, gapCount)) :
      WriteEffect s (.sack value) (sacked value cumulative gapCount s)
  | tick (now : ℕ) : WriteEffect s (.tick now) (tick now s).2

/-- A sequence of writes leads from one state to another. -/
inductive Chain : Association → List Write → Association → Prop
  | nil (s : Association) : Chain s [] s
  | cons {s t : Association} {write : Write} {rest : List Write} (hbefore : write.before = s)
      (heffect : WriteEffect write.before write.cause write.after) (hrest : Chain write.after rest t) :
      Chain s (write :: rest) t

variable {s t u : Association} {first rest : List Write}

theorem Chain.append (h : Chain s first t) (h' : Chain t rest u) : Chain s (first ++ rest) u := by
  induction h with
  | nil => exact h'
  | cons hbefore heffect _ ih => exact .cons hbefore heffect (ih h')

theorem Chain.single {cause : Cause} (h : WriteEffect s cause t) : Chain s [⟨s, t, cause⟩] t :=
  .cons rfl h (.nil t)

/-- What every write keeps, of a state and of what is folded over the writes, a sequence keeps. -/
theorem Chain.foldl_invariant {γ : Type} {I : γ → Association → Prop} {next : γ → Write → γ}
    (h : Chain s first t)
    (hnext : ∀ kept write, write ∈ first → WriteEffect write.before write.cause write.after →
      I kept write.before → I (next kept write) write.after) {kept : γ} (hs : I kept s) :
    I (first.foldl next kept) t := by
  induction h generalizing kept with
  | nil => exact hs
  | @cons s t write rest hbefore heffect _ ih =>
    subst hbefore
    rw [List.foldl_cons]
    refine ih (fun kept later hlater => hnext kept later (List.mem_cons_of_mem _ hlater)) ?_
    exact hnext kept write List.mem_cons_self heffect hs

/-- What every write keeps, a sequence keeps. -/
theorem Chain.invariant {I : Association → Prop} (h : Chain s first t)
    (hwrite : ∀ write ∈ first, WriteEffect write.before write.cause write.after →
      I write.before → I write.after) (hs : I s) : I t := by
  have hfold := @Chain.foldl_invariant s t first Unit (fun _ s => I s) (fun kept _ => kept) h
    (fun _ write hwrite' heffect hbefore => hwrite write hwrite' heffect hbefore) () hs
  exact hfold

/-! ## The writes of a run lead to its state -/

theorem writeEffect_processDataMessage (now : ℕ) (data : DataChunk) {tag : UInt32}
    (htag : s.peerVerificationTag = some tag) :
    WriteEffect s (.queue now) ((processDataMessage now data).run s).2 := by
  obtain ⟨hsame, -⟩ | ⟨output, -, hqueued⟩ := processDataMessage_queues now data htag
  · exact .same hsame
  · exact .queued hqueued

/-- A queueing write may be taken between states that agree with its own on the send side. -/
theorem WriteEffect.congr {now : ℕ} {s' t' : Association} (hbefore : SameSend s s')
    (h : WriteEffect s' (.queue now) t) (hafter : SameSend t t') :
    WriteEffect s (.queue now) t' := by
  cases h with
  | same h => exact .same ((hbefore.trans h).trans hafter)
  | queued h => exact .queued (h.congr hbefore hafter)

/-- A moment as a queueing write. -/
def Moment.write (now : ℕ) (moment : Moment) : Write := ⟨moment.before, moment.after, .queue now⟩

theorem chain_processMoments (now : ℕ) (batch : List DataChunk) {s : Association} {tag : UInt32}
    (htag : s.peerVerificationTag = some tag) :
    Chain s ((processMoments now batch s).map (Moment.write now))
      ((processAll now batch).run s).2 := by
  induction batch generalizing s with
  | nil => exact .nil s
  | cons data rest ih =>
    have heffect := writeEffect_processDataMessage now data htag
    have hframe := processDataMessage_frame now data htag
    rw [processMoments, processAll, run_bind, List.map_cons]
    rcases hrun : (processDataMessage now data).run s with ⟨error | output, t⟩
    · rw [hrun] at heffect
      exact .single heffect
    · rw [hrun] at heffect hframe
      have hframe : ReceiveFrame s t := hframe
      dsimp only
      rw [state_run_bind_pure]
      exact .cons rfl heffect (ih (hframe.peerVerificationTag.trans htag))

theorem chain_releaseMoments (now fuel : ℕ) (next : UInt32) {s : Association} {tag : UInt32}
    (htag : s.peerVerificationTag = some tag) :
    Chain s ((releaseMoments now fuel next s).map (Moment.write now))
      ((releasePending now fuel next).run s).2 := by
  induction fuel generalizing next s with
  | zero => exact .nil s
  | succ fuel ih =>
    rw [releaseMoments, releasePending, run_get_bind]
    rcases s.pendingData[next]? with _ | data
    · exact .nil s
    have htag' : (unbuffer next s).peerVerificationTag = some tag := htag
    have hsame : SameSend s (unbuffer next s) := ⟨rfl, rfl, rfl, rfl, rfl, rfl, id⟩
    have heffect := writeEffect_processDataMessage now data htag'
    have hframe := processDataMessage_frame now data htag'
    dsimp only
    rw [run_modify_bind, run_bind]
    rcases hrun : (processDataMessage now data).run (unbuffer next s) with ⟨error | output, t⟩
    · rw [hrun] at heffect
      exact .single (heffect.congr hsame (.refl t))
    · rw [hrun] at heffect hframe
      have hframe : ReceiveFrame (unbuffer next s) t := hframe
      have hadvance : SameSend t (advance next t) := ⟨rfl, rfl, rfl, rfl, rfl, rfl, id⟩
      dsimp only
      rw [run_modify_bind, state_run_bind_pure]
      exact .cons rfl (heffect.congr hsame hadvance)
        (ih (next + 1) (hframe.peerVerificationTag.trans htag))

theorem chain_dataMoments (hs : Sound s) (now : ℕ) (flags : UInt8) (value : Bytes) :
    Chain s ((s.dataMoments now flags value).map (Moment.write now))
      ((handleData now flags value).run s).2 := by
  by_cases hwrites : s.dataVerdict flags value = .writes
  · obtain ⟨data, cumulative, batch, pending, peer, hpeer, hdata, hcum, hreleased, -, hrun⟩ :=
      handleData_writes hs now hwrites
    have hmoments : s.dataMoments now flags value =
        { before := s, after := (s.released cumulative data).2 } ::
          processMoments now (s.released cumulative data).1 (s.released cumulative data).2 := by
      simp [dataMoments, hdata, hcum, hwrites]
    rw [hmoments, hreleased]
    have hafter : ((handleData now flags value).run s).2 = ((processAll now batch).run { s with
        pendingData := pending
        cumulativePeerTsn := some (cumulative + .ofNat batch.length) }).2 := by
      rcases hrun with ⟨error, -, hrun⟩ | ⟨output, sack, -, hrun⟩
      · rw [hrun]
      · rw [hrun]
    rw [hafter]
    refine .cons rfl (.same ⟨rfl, rfl, rfl, rfl, rfl, rfl, id⟩) ?_
    exact chain_processMoments now batch hpeer
  · have hmoments : s.dataMoments now flags value = [] := by
      unfold dataMoments
      split
      · rw [if_neg hwrites]
      · rfl
    rw [hmoments, (follows_data hs now flags value).state_eq hwrites]
    exact .nil s

theorem chain_forwardTsnMoments (hs : Sound s) (now : ℕ) (value : Bytes) :
    Chain s ((s.forwardTsnMoments now value).map (Moment.write now))
      ((handleForwardTsn now value).run s).2 := by
  by_cases hwrites : s.forwardTsnVerdict value = .writes
  · obtain ⟨newCumulativeTsn, peer, hread, hpeer, -, -, hrun⟩ :=
      handleForwardTsn_writes hs now hwrites
    rw [forwardTsnMoments, hread]
    dsimp only
    rw [if_pos hwrites]
    have hlen : 4 ≤ value.length := by
      unfold forwardTsnVerdict at hwrites
      split_ifs at hwrites with hallowed
      simp only [forwardTsnAllowed, Bool.and_eq_true, decide_eq_true_eq] at hallowed
      exact hallowed.1.2
    obtain ⟨reassembly, -, hstart⟩ := forwarded_eq (s := s) newCumulativeTsn hlen
    have hfirst : SameSend s (s.forwarded value newCumulativeTsn) := by
      rw [hstart]
      exact ⟨rfl, rfl, rfl, rfl, rfl, rfl, id⟩
    have hloop := chain_releaseMoments now (s.forwarded value newCumulativeTsn).pendingData.size
      (newCumulativeTsn + 1) hpeer
    rcases hrun with ⟨error, -, hrun⟩ | ⟨output, sack, -, hrun⟩
    · rw [hrun]
      exact .cons rfl (.same hfirst) hloop
    · rw [hrun]
      exact .cons rfl (.same hfirst) hloop
  · have hmoments : s.forwardTsnMoments now value = [] := by
      unfold forwardTsnMoments
      split
      · rw [if_neg hwrites]
      · rfl
    rw [hmoments, (follows_forwardTsn hs now value).state_eq hwrites]
    exact .nil s

/-- A chunk that is no INIT, SACK, DATA or FORWARD TSN leaves the send side alone. -/
theorem sameSend_control (now : ℕ) (tag : UInt32) {chunk : ParsedChunk}
    (hinit : chunk.kind ≠ typeInit)
    (hsack : ¬(chunk.kind = typeSack ∧ tag = s.config.verificationTag))
    (hdata : ¬(chunk.kind = typeData ∧ tag = s.config.verificationTag))
    (hforward : ¬(chunk.kind = typeForwardTsn ∧ tag = s.config.verificationTag)) :
    SameSend s ((handleChunk now tag chunk).run s).2 := by
  have hguarded : ∀ action : Action AssociationOutput,
      (tag = s.config.verificationTag → SameSend s (action.run s).2) →
        SameSend s ((guarded tag action).run s).2 := by
    intro action haction
    rw [guarded_run]
    split_ifs with htag
    · exact haction htag
    · exact .refl s
  refine handleChunk_elim (P := fun action => SameSend s (action.run s).2) now tag chunk
    ?_ ?_ ?_ ?_ ?_ ?_ ?_ ?_ ?_ ?_
  · exact fun hkind => absurd hkind hinit
  · intro _
    obtain hrefused | ⟨hwait, hrun⟩ := handleCookieEcho_state tag chunk.value s
    · rw [hrefused]
      exact .refl s
    · rw [hrun]
      exact ⟨rfl, rfl, rfl, rfl, rfl, rfl, by simp [Halted, hwait]⟩
  · exact fun hkind => hguarded _ fun htag => absurd ⟨hkind, htag⟩ hdata
  · exact fun hkind => hguarded _ fun htag => absurd ⟨hkind, htag⟩ hsack
  · refine fun _ => hguarded _ fun _ => ?_
    rw [handleHeartbeat_state]
    exact .refl s
  · exact fun _ => ⟨rfl, rfl, rfl, rfl, rfl, rfl, fun _ => .inr rfl⟩
  · refine fun _ => hguarded _ fun _ => ?_
    rw [handleShutdown_state]
    exact ⟨rfl, rfl, rfl, rfl, rfl, rfl, fun _ => .inr rfl⟩
  · refine fun _ => hguarded _ fun _ => ?_
    obtain ⟨hframe, -⟩ := handleReconfiguration_frame chunk.value s
    rw [hframe]
    exact ⟨rfl, rfl, rfl, rfl, rfl, rfl, id⟩
  · exact fun hkind => hguarded _ fun htag => absurd ⟨hkind, htag⟩ hforward
  · exact fun _ => .refl s

theorem chain_chunkMoments (hs : Sound s) (now : ℕ) (tag : UInt32) {chunk : ParsedChunk}
    (hinit : chunk.kind ≠ typeInit)
    (hsack : ¬(chunk.kind = typeSack ∧ tag = s.config.verificationTag)) :
    Chain s ((s.chunkMoments now tag chunk).map (Moment.write now))
      ((handleChunk now tag chunk).run s).2 := by
  unfold chunkMoments
  split_ifs with hdata hforward
  · have hrun : (handleChunk now tag chunk).run s = (handleData now chunk.flags chunk.value).run s := by
      simp only [handleChunk, hdata.1]
      exact (guarded_run tag _ s).trans (if_pos hdata.2)
    rw [hrun]
    exact chain_dataMoments hs now chunk.flags chunk.value
  · have hrun : (handleChunk now tag chunk).run s = (handleForwardTsn now chunk.value).run s := by
      simp only [handleChunk, hforward.1]
      exact (guarded_run tag _ s).trans (if_pos hforward.2)
    rw [hrun]
    exact chain_forwardTsnMoments hs now chunk.value
  · exact .single (.same (sameSend_control now tag hinit hsack hdata hforward))

theorem chain_chunkWrites (hs : Sound s) (now : ℕ) (tag : UInt32) (chunk : ParsedChunk) :
    Chain s (s.chunkWrites now tag chunk) ((handleChunk now tag chunk).run s).2 := by
  unfold chunkWrites
  split_ifs with hinit hparse hsack
  · have hrun := handleInit_run hs tag chunk.value
    have hhandle : (handleChunk now tag chunk).run s = (handleInit tag chunk.value).run s := by
      rw [handleChunk, if_pos hinit]
    obtain ⟨init, hok⟩ := exists_ok_of_isOk hparse
    rw [hok] at hrun
    obtain ⟨output, hrun, -⟩ := hrun
    rw [hhandle, hrun]
    exact .single (.restart init)
  · have hrun := handleInit_run hs tag chunk.value
    have hhandle : (handleChunk now tag chunk).run s = (handleInit tag chunk.value).run s := by
      rw [handleChunk, if_pos hinit]
    obtain ⟨error, herror⟩ := exists_error_of_isOk (by simpa using hparse)
    rw [herror] at hrun
    rw [hhandle, hrun]
    exact .nil s
  · have hhandle : ((handleChunk now tag chunk).run s).2 = ((handleSack chunk.value).run s).2 := by
      simp only [handleChunk, hsack.1]
      refine (congrArg Prod.snd ((guarded_run tag _ s).trans (if_pos hsack.2))).trans ?_
      exact state_run_bind_pure ..
    have hrun := handleSack_run chunk.value s
    rw [hhandle]
    split at hrun
    next hheader =>
      obtain ⟨error, hrun⟩ := hrun
      rw [hrun]
      exact .single (.refused hheader)
    next cumulative gapCount hheader =>
      obtain ⟨result, hrun, -⟩ := hrun
      rw [hrun]
      exact .single (.sack hheader)
  · exact chain_chunkMoments hs now tag hinit hsack

theorem chain_chunksWrites (now : ℕ) (tag : UInt32) (chunks : List ParsedChunk) {s : Association}
    (hs : Sound s) :
    Chain s (chunksWrites now tag chunks s) ((handleChunks now tag chunks).run s).2 := by
  induction chunks generalizing s with
  | nil => exact .nil s
  | cons chunk rest ih =>
    have hfirst := chain_chunkWrites hs now tag chunk
    have hsound := (handleChunk_effect now tag chunk hs).sound hs
    rw [chunksWrites, handleChunks, run_bind]
    rcases hrun : (handleChunk now tag chunk).run s with ⟨error | output, t⟩
    · rw [hrun] at hfirst
      exact hfirst.append (.nil _)
    · rw [hrun] at hfirst hsound
      dsimp only
      rw [state_run_bind_pure]
      exact hfirst.append (ih hsound)

theorem chain_input (input : Input) (hs : Sound s) : Chain s (input.writes s) (s.step input) := by
  cases input with
  | send now streamId kind payload =>
    refine .single ?_
    obtain ⟨hsame, -⟩ | ⟨message, packets, -, hqueued⟩ :=
      sendMessage_queues now streamId kind payload hs
    · exact .same hsame
    · exact .queued hqueued
  | tick now => exact .single (.tick now)
  | packet now bytes =>
    rw [Input.writes, step, handlePacket, run_ofExcept_bind]
    rcases ParsedPacket.parse bytes with error | parsed
    · exact .nil s
    dsimp only
    rw [run_get_bind, run_ensure_bind]
    split_ifs
    · exact chain_chunksWrites now parsed.verificationTag parsed.chunks hs
    · exact .nil s

/-- The writes of a run lead from its first state to its last. -/
theorem chain_writes (inputs : List Input) {s : Association} (hs : Sound s) :
    Chain s (writes inputs s) (runInputs inputs s) := by
  induction inputs generalizing s with
  | nil => exact .nil s
  | cons input rest ih => exact (chain_input input hs).append (ih (sound_step hs input))

end Association

end Fluvora.DataChannel
