import Fluvora.DataChannel.ReceiveLog

/-!
# Repeated handshake chunks

A peer whose INIT ACK or COOKIE ACK was lost sends its INIT or COOKIE ECHO again.  A repeated INIT
is always answered with the same INIT ACK, but the association starts over: nothing is discarded
only if nothing has been exchanged since.  A repeated COOKIE ECHO is always refused.
-/

open Std (ExtTreeMap)

namespace Fluvora.DataChannel

open Fallible

namespace Association

/-- Channels, TSN state and data in both directions are as they were. -/
structure Retained (s t : Association) : Prop where
  channels : t.channels = s.channels
  cumulativePeerTsn : t.cumulativePeerTsn = s.cumulativePeerTsn
  pendingData : t.pendingData = s.pendingData
  reassembly : t.reassembly = s.reassembly
  nextTsn : t.nextTsn = s.nextTsn
  outboundCumulativeTsn : t.outboundCumulativeTsn = s.outboundCumulativeTsn
  outstanding : t.outstanding = s.outstanding
  abandoned : t.abandoned = s.abandoned

/-- The chunk is accepted, whenever it comes, with the packets of an earlier reply, and nothing is
discarded. -/
def AnsweredAgain (s : Association) (tag : UInt32) (chunk : ParsedChunk)
    (reply : AssociationOutput) : Prop :=
  ∀ later, ∃ output t, (handleChunk later tag chunk).run s = (.ok output, t) ∧
    output.packets = reply.packets ∧ Retained s t

/-- Nothing has been exchanged after an INIT: no channel, no chunk in either direction, and the
TSNs where the INIT and the configuration put them. -/
structure Untouched (init : InitChunk) (s : Association) : Prop where
  channels : s.channels = ∅
  cumulativePeerTsn : s.cumulativePeerTsn = some (init.initialTsn - 1)
  pendingData : s.pendingData = ∅
  reassembly : s.reassembly = ∅
  nextTsn : s.nextTsn = s.config.initialTsn
  outboundCumulativeTsn : s.outboundCumulativeTsn = s.config.initialTsn - 1
  outstanding : s.outstanding = ∅
  abandoned : s.abandoned = ∅

variable {s t : Association}

theorem retained_restart_iff (init : InitChunk) (s : Association) :
    Retained s (restart init s) ↔ Untouched init s := by
  constructor
  · intro h
    exact ⟨h.channels.symm, h.cumulativePeerTsn.symm, h.pendingData.symm, h.reassembly.symm,
      h.nextTsn.symm, h.outboundCumulativeTsn.symm, h.outstanding.symm, h.abandoned.symm⟩
  · intro h
    exact ⟨h.channels.symm, h.cumulativePeerTsn.symm, h.pendingData.symm, h.reassembly.symm,
      h.nextTsn.symm, h.outboundCumulativeTsn.symm, h.outstanding.symm, h.abandoned.symm⟩

/-! ## What a run keeps -/

theorem ChunkEffect.config {tag : UInt32} {chunk : ParsedChunk} (h : ChunkEffect tag chunk s t) :
    t.config = s.config := by
  cases h with
  | unchanged => rfl
  | restart init => rfl
  | established => rfl
  | closed => rfl
  | receive hsteps hframe hcum hbuf => rw [hframe]
  | sack => rfl
  | reset h => rw [h.1]

theorem config_sendMessage (now : ℕ) (streamId : UInt16) (kind : MessageKind) (payload : Bytes)
    (hs : Sound s) : ((sendMessage now streamId kind payload).run s).2.config = s.config ∧
      ((sendMessage now streamId kind payload).run s).2.state = s.state := by
  obtain ⟨error, hrun⟩ | ⟨hstate, channel, message, wire, -, hrun⟩ :=
    sendMessage_run now streamId kind payload s
  · rw [hrun]
    exact ⟨rfl, rfl⟩
  obtain ⟨peer, hpeer⟩ := hs.known (.inr hstate)
  rw [hrun]
  obtain ⟨-, hqueue⟩ | ⟨-, packets, outstanding, hqueue, -⟩ :=
    enqueueMessage_run now message wire { s with
      channels := s.channels.insert streamId
        { channel with nextOutgoingSequence := channel.nextOutgoingSequence + 1 } } hpeer
  · rw [hqueue]
    exact ⟨rfl, rfl⟩
  · rw [hqueue]
    exact ⟨rfl, rfl⟩

/-- A run changes no configuration. -/
theorem config_handleChunks (now : ℕ) (tag : UInt32) (chunks : List ParsedChunk) (hs : Sound s) :
    ((handleChunks now tag chunks).run s).2.config = s.config := by
  induction chunks generalizing s with
  | nil => rfl
  | cons chunk rest ih =>
    have heffect := handleChunk_effect now tag chunk hs
    refine (run_bind_invariant (I := fun t : Association => Sound t ∧ t.config = s.config)
      ⟨heffect.sound hs, heffect.config⟩ fun output t _ ht => ?_).2
    rw [state_run_bind_pure]
    exact ⟨sound_handleChunks now tag rest ht.1, (ih ht.1).trans ht.2⟩

theorem config_runInputs (hs : Sound s) (inputs : List Input) :
    (runInputs inputs s).config = s.config := by
  refine (runInputs_invariant (I := fun t => Sound t ∧ t.config = s.config) ?_ ?_ ?_ inputs
    ⟨hs, rfl⟩ (allMeet_true inputs s)).2
  · rintro now tag chunks t ⟨ht, hconfig⟩ -
    exact ⟨sound_handleChunks now tag chunks ht,
      (config_handleChunks now tag chunks ht).trans hconfig⟩
  · rintro now streamId kind payload t ⟨ht, hconfig⟩
    exact ⟨sound_sendMessage now streamId kind payload ht,
      (config_sendMessage now streamId kind payload ht).1.trans hconfig⟩
  · rintro now t ⟨ht, hconfig⟩
    obtain ⟨state, outstanding, abandoned, pendingForwardTsn, hrun, -⟩ := tick_run now t
    refine ⟨sound_tick now ht, ?_⟩
    rw [hrun]
    exact hconfig

/-! ## A repeated INIT -/

/-- An accepted INIT is accepted in every state of the same configuration, with the same reply. -/
theorem handleInit_again {tag : UInt32} {value : Bytes} {init : InitChunk}
    {reply : AssociationOutput} {u : Association} (hparse : InitChunk.parse tag value = .ok init)
    (h : (handleInit tag value).run u = (.ok reply, t)) (hconfig : s.config = u.config) :
    (handleInit tag value).run s = (.ok reply, restart init s) := by
  have hu : (restart init s).config = (restart init u).config := hconfig
  simp only [handleInit, run_ofExcept_bind, hparse, run_modify_bind, run_get_bind,
    packetWithChunk] at h ⊢
  rw [hu]
  rcases hack : initAck (restart init u).config init with error | ack
  · rw [hack] at h
    cases h
  rw [hack] at h
  dsimp only at h ⊢
  rcases hpacket : buildPacket (restart init u).config.localPort (restart init u).config.remotePort
    init.peerTag typeInitAck 0 ack with error | packet
  · rw [hpacket] at h
    cases h
  · rw [hpacket] at h
    cases h
    rfl

/-! ## A repeated COOKIE ECHO -/

/-- An accepted COOKIE ECHO has established the association. -/
theorem state_of_handleCookieEcho {tag : UInt32} {cookie : Bytes} {reply : AssociationOutput}
    (h : (handleCookieEcho tag cookie).run s = (.ok reply, t)) : t.state = .established := by
  rw [handleCookieEcho, run_get_bind, run_ensure_bind] at h
  split_ifs at h with hstate
  swap
  · cases h
  rw [run_ofExcept_bind] at h
  split at h
  swap
  · cases h
  rw [run_ensure_bind] at h
  split_ifs at h
  swap
  · cases h
  rw [run_modify_bind, run_ofExcept_bind] at h
  split at h
  swap
  · cases h
  rw [run_ofExcept_bind] at h
  split at h
  swap
  · cases h
  cases h
  rfl

/-- Outside of the handshake a COOKIE ECHO is refused. -/
theorem handleCookieEcho_refused (tag : UInt32) (cookie : Bytes) (h : s.state ≠ .cookieWait) :
    (handleCookieEcho tag cookie).run s = (.error .unexpectedState, s) := by
  rw [handleCookieEcho, run_get_bind, run_ensure_bind, if_neg h]

theorem ReceiveStep.state (h : ReceiveStep s t) : t.state = s.state := by
  cases h with
  | write => rfl
  | process h => rw [h.frame]

theorem state_of_receiveSteps (h : Relation.ReflTransGen ReceiveStep s t) : t.state = s.state := by
  induction h with
  | refl => rfl
  | tail _ hstep ih => exact hstep.state.trans ih

theorem state_handleData (hs : Sound s) (now : ℕ) (flags : UInt8) (value : Bytes) :
    ((handleData now flags value).run s).2.state = s.state := by
  by_cases hwrites : s.dataVerdict flags value = .writes
  swap
  · rw [(follows_data hs now flags value).state_eq hwrites]
  obtain ⟨data, cumulative, batch, pending, peer, hpeer, -, -, -, -, hrun⟩ :=
    handleData_writes hs now hwrites
  have hframe := processAll_frame now batch (s := { s with
    pendingData := pending
    cumulativePeerTsn := some (cumulative + .ofNat batch.length) }) hpeer
  rcases hrun with ⟨error, -, hrun⟩ | ⟨output, sack, -, hrun⟩
  · rw [hrun, hframe]
  · rw [hrun, hframe]

theorem state_handleForwardTsn (hs : Sound s) (now : ℕ) (value : Bytes) :
    ((handleForwardTsn now value).run s).2.state = s.state := by
  by_cases hwrites : s.forwardTsnVerdict value = .writes
  swap
  · rw [(follows_forwardTsn hs now value).state_eq hwrites]
  have hlen : 4 ≤ value.length := by
    unfold forwardTsnVerdict at hwrites
    split_ifs at hwrites with hallowed
    simp only [forwardTsnAllowed, Bool.and_eq_true, decide_eq_true_eq] at hallowed
    exact hallowed.1.2
  obtain ⟨newCumulativeTsn, peer, -, hpeer, -, -, hrun⟩ := handleForwardTsn_writes hs now hwrites
  obtain ⟨reassembly, -, hstart⟩ := forwarded_eq (s := s) newCumulativeTsn hlen
  have hloop := state_of_receiveSteps (receiveSteps_releasePending now
    (s.forwarded value newCumulativeTsn).pendingData.size (newCumulativeTsn + 1) hpeer)
  have hforwarded : (s.forwarded value newCumulativeTsn).state = s.state := by
    rw [hstart]
  rcases hrun with ⟨error, -, hrun⟩ | ⟨output, sack, -, hrun⟩
  · rw [hrun]
    exact hloop.trans hforwarded
  · rw [hrun]
    exact hloop.trans hforwarded

theorem state_guarded {tag : UInt32} {action : Action AssociationOutput}
    (h : (action.run s).2.state ≠ .cookieWait) (hs : s.state ≠ .cookieWait) :
    ((guarded tag action).run s).2.state ≠ .cookieWait := by
  rw [guarded_run]
  split_ifs
  · exact h
  · exact hs

/-- Only an INIT leads back into the handshake. -/
theorem handleChunk_ne_cookieWait (now : ℕ) (tag : UInt32) {chunk : ParsedChunk} (hs : Sound s)
    (hstate : s.state ≠ .cookieWait) (hkind : chunk.kind ≠ typeInit) :
    ((handleChunk now tag chunk).run s).2.state ≠ .cookieWait := by
  refine handleChunk_elim (P := fun action => (action.run s).2.state ≠ .cookieWait) now tag chunk
    ?_ ?_ ?_ ?_ ?_ ?_ ?_ ?_ ?_ ?_
  · exact fun hinit => absurd hinit hkind
  · intro _
    rw [handleCookieEcho_refused tag chunk.value hstate]
    exact hstate
  · refine fun _ => state_guarded ?_ hstate
    rw [state_handleData hs]
    exact hstate
  · refine fun _ => state_guarded ?_ hstate
    rw [state_run_bind_pure]
    have hsack := handleSack_run chunk.value s
    split at hsack
    · obtain ⟨error, hrun⟩ := hsack
      rw [hrun]
      exact hstate
    · obtain ⟨result, hrun, -⟩ := hsack
      rw [hrun]
      exact hstate
  · refine fun _ => state_guarded ?_ hstate
    rw [handleHeartbeat_state]
    exact hstate
  · intro _ habort
    cases habort
  · refine fun _ => state_guarded ?_ hstate
    rw [handleShutdown_state]
    intro hclosed
    cases hclosed
  · refine fun _ => state_guarded ?_ hstate
    rw [(handleReconfiguration_frame chunk.value s).1]
    exact hstate
  · refine fun _ => state_guarded ?_ hstate
    rw [state_handleForwardTsn hs]
    exact hstate
  · exact fun _ => hstate

/-- The chunk does not begin a new handshake. -/
def noInit (_ : UInt32) (chunk : ParsedChunk) (_ : Association) : Bool := chunk.kind != typeInit

theorem handleChunks_ne_cookieWait (now : ℕ) (tag : UInt32) (chunks : List ParsedChunk)
    (hs : Sound s) (hstate : s.state ≠ .cookieWait)
    (hinit : everyChunk noInit now tag chunks s = true) :
    Sound ((handleChunks now tag chunks).run s).2 ∧
      ((handleChunks now tag chunks).run s).2.state ≠ .cookieWait := by
  refine handleChunks_invariant (I := fun t => Sound t ∧ t.state ≠ .cookieWait) now tag ?_ chunks
    ⟨hs, hstate⟩ hinit
  rintro chunk t ⟨ht, htstate⟩ hkind
  exact ⟨(handleChunk_effect now tag chunk ht).sound ht,
    handleChunk_ne_cookieWait now tag ht htstate (bne_iff_ne.mp hkind)⟩

theorem runInputs_ne_cookieWait (inputs : List Input) (hs : Sound s) (hstate : s.state ≠ .cookieWait)
    (hinit : allMeet (everyChunk noInit) inputs s = true) :
    (runInputs inputs s).state ≠ .cookieWait := by
  refine (runInputs_invariant (I := fun t => Sound t ∧ t.state ≠ .cookieWait) ?_ ?_ ?_ inputs
    ⟨hs, hstate⟩ hinit).2
  · rintro now tag chunks t ⟨ht, htstate⟩ hmeets
    exact handleChunks_ne_cookieWait now tag chunks ht htstate hmeets
  · rintro now streamId kind payload t ⟨ht, htstate⟩
    refine ⟨sound_sendMessage now streamId kind payload ht, ?_⟩
    rw [(config_sendMessage now streamId kind payload ht).2]
    exact htstate
  · rintro now t ⟨ht, htstate⟩
    refine ⟨sound_tick now ht, ?_⟩
    obtain ⟨state, outstanding, abandoned, pendingForwardTsn, hrun, hnew, -⟩ := tick_run now t
    rw [hrun]
    rcases hnew with rfl | rfl
    · exact htstate
    · intro hfailed
      cases hfailed

/-! ## Repeated handshake chunks -/

/-- An INIT that was accepted as part of a packet is answered alike in every later state, and
discards nothing exactly if nothing has been exchanged since; a COOKIE ECHO that was accepted is
never answered again as long as no other INIT arrives. -/
theorem handshake_repeated (hreachable : Reachable s) {now : ℕ} {tag : UInt32}
    {before after : List ParsedChunk} {chunk : ParsedChunk} {first reply : AssociationOutput}
    {u : Association} (hbefore : (handleChunks now tag before).run s = (.ok first, u))
    (hchunk : (handleChunk now tag chunk).run u = (.ok reply, t)) (inputs : List Input) :
    let arrived := runInputs inputs ((handleChunks now tag after).run t).2
    (∀ init, chunk.kind = typeInit → InitChunk.parse tag chunk.value = .ok init →
      (AnsweredAgain arrived tag chunk reply ↔ Untouched init arrived)) ∧
    (chunk.kind = typeCookieEcho → everyChunk noInit now tag after t = true →
      allMeet (everyChunk noInit) inputs ((handleChunks now tag after).run t).2 = true →
      ¬AnsweredAgain arrived tag chunk reply) := by
  intro arrived
  have hu : Sound u := by
    have hsound := sound_handleChunks now tag before hreachable.sound
    rw [hbefore] at hsound
    exact hsound
  have heffect := handleChunk_effect now tag chunk hu
  rw [hchunk] at heffect
  have ht : Sound t := heffect.sound hu
  have hafter := sound_handleChunks now tag after ht
  constructor
  · intro init hkind hparse
    have hconfig : arrived.config = u.config := by
      rw [config_runInputs hafter inputs, config_handleChunks now tag after ht]
      exact heffect.config
    rw [handleChunk_init hkind] at hchunk
    have hagain := handleInit_again hparse hchunk hconfig
    rw [← retained_restart_iff]
    constructor
    · intro hanswered
      obtain ⟨output, v, hrun, -, hretained⟩ := hanswered now
      rw [handleChunk_init hkind, hagain] at hrun
      cases hrun
      exact hretained
    · intro hretained later
      refine ⟨reply, restart init arrived, ?_, rfl, hretained⟩
      rw [handleChunk_init hkind]
      exact hagain
  · intro hkind hnoInit hinputs hanswered
    have hcookie : ∀ later, handleChunk later tag chunk = handleCookieEcho tag chunk.value := by
      intro later
      unfold handleChunk
      rw [hkind]
      rfl
    rw [hcookie] at hchunk
    have hstate : t.state ≠ .cookieWait := by
      rw [state_of_handleCookieEcho hchunk]
      decide
    have harrived : arrived.state ≠ .cookieWait :=
      runInputs_ne_cookieWait inputs hafter
        (handleChunks_ne_cookieWait now tag after ht hstate hnoInit).2 hinputs
    obtain ⟨output, v, hrun, -⟩ := hanswered now
    rw [hcookie, handleCookieEcho_refused tag chunk.value harrived] at hrun
    cases hrun

namespace Sample

def initChunk : ParsedChunk := ⟨typeInit, 0, init false⟩

def cookieEchoChunk : ParsedChunk := ⟨typeCookieEcho, 0, List.replicate 32 0x55⟩

/-- The COOKIE ECHO and an OPEN of stream 0. -/
def openAfterInit : List Input :=
  (establish false).drop 1 ++ [.packet 2000000 (data 3 500 0 0 ppidDcep dcepOpenPayload)]

end Sample

/-- Right after the INIT its repetition is answered; right after the COOKIE ECHO its repetition is
not. -/
theorem sample_handshake_repeated :
    ∃ start, new Sample.config = .ok start ∧
      (∃ reply t, (handleChunk 0 0 Sample.initChunk).run start = (.ok reply, t) ∧
        AnsweredAgain t 0 Sample.initChunk reply) ∧
      ∃ reply t, (handleChunk 1 0x11223344 Sample.cookieEchoChunk).run
          (runInputs ((Sample.establish false).take 1) start) = (.ok reply, t) ∧
        ¬AnsweredAgain t 0x11223344 Sample.cookieEchoChunk reply := by
  obtain ⟨start, hnew⟩ : ∃ start, new Sample.config = .ok start := ⟨_, rfl⟩
  refine ⟨start, hnew, ?_, ?_⟩
  · have hinit : InitChunk.parse 0 Sample.initChunk.value =
        .ok ⟨0xaabbccdd, 16, 16, 500, false⟩ := rfl
    have hok : ((handleChunk 0 0 Sample.initChunk).run start).1.isOk = true := by
      cases hnew
      decide
    have hstate : ((handleChunk 0 0 Sample.initChunk).run start).2 =
        restart ⟨0xaabbccdd, 16, 16, 500, false⟩ start := by
      cases hnew
      decide
    rcases hrun : (handleChunk 0 0 Sample.initChunk).run start with ⟨error | reply, t⟩
    · rw [hrun] at hok
      cases hok
    refine ⟨reply, t, rfl, ?_⟩
    have hrepeated := @handshake_repeated start t ⟨Sample.config, start, [], hnew, rfl⟩ 0 0 [] []
      Sample.initChunk {} reply start rfl hrun []
    refine (hrepeated.1 _ rfl hinit).mpr ?_
    rw [hrun] at hstate
    dsimp only at hstate
    subst hstate
    exact ⟨rfl, rfl, rfl, rfl, rfl, rfl, rfl, rfl⟩
  · have hok : ((handleChunk 1 0x11223344 Sample.cookieEchoChunk).run
        (runInputs ((Sample.establish false).take 1) start)).1.isOk = true := by
      cases hnew
      decide +kernel
    rcases hrun : (handleChunk 1 0x11223344 Sample.cookieEchoChunk).run
      (runInputs ((Sample.establish false).take 1) start) with ⟨error | reply, t⟩
    · rw [hrun] at hok
      cases hok
    refine ⟨reply, t, rfl, ?_⟩
    have hrepeated := @handshake_repeated _ t ⟨Sample.config, start, _, hnew, rfl⟩ 1 0x11223344 [] []
      Sample.cookieEchoChunk {} reply _ rfl hrun []
    exact hrepeated.2 rfl rfl rfl

/-- A COOKIE ECHO that comes twice is refused the second time, and an INIT that comes again after a
channel was opened closes the channel. -/
theorem repeated_handshake_fails :
    ∃ start, new Sample.config = .ok start ∧
      (∃ reply t, (handleChunk 1 0x11223344 Sample.cookieEchoChunk).run
          (runInputs ((Sample.establish false).take 1) start) = (.ok reply, t) ∧
        ¬AnsweredAgain t 0x11223344 Sample.cookieEchoChunk reply) ∧
      ∃ reply t, (handleChunk 0 0 Sample.initChunk).run start = (.ok reply, t) ∧
        ¬AnsweredAgain (runInputs Sample.openAfterInit t) 0 Sample.initChunk reply := by
  obtain ⟨start, hnew⟩ : ∃ start, new Sample.config = .ok start := ⟨_, rfl⟩
  refine ⟨start, hnew, ?_, ?_⟩
  · have hok : ((handleChunk 1 0x11223344 Sample.cookieEchoChunk).run
        (runInputs ((Sample.establish false).take 1) start)).1.isOk = true ∧
        ((handleChunk 2 0x11223344 Sample.cookieEchoChunk).run
          ((handleChunk 1 0x11223344 Sample.cookieEchoChunk).run
            (runInputs ((Sample.establish false).take 1) start)).2).1.isOk = false := by
      cases hnew
      decide +kernel
    rcases hrun : (handleChunk 1 0x11223344 Sample.cookieEchoChunk).run
      (runInputs ((Sample.establish false).take 1) start) with ⟨error | reply, t⟩
    · rw [hrun] at hok
      cases hok.1
    refine ⟨reply, t, rfl, ?_⟩
    intro hanswered
    obtain ⟨output, v, hagain, -⟩ := hanswered 2
    rw [hrun] at hok
    dsimp only at hok
    rw [hagain] at hok
    cases hok.2
  · have hok : ((handleChunk 0 0 Sample.initChunk).run start).1.isOk = true := by
      cases hnew
      decide
    have hsize : (runInputs Sample.openAfterInit
          ((handleChunk 0 0 Sample.initChunk).run start).2).channels.size = 1 ∧
        ((handleChunk 3 0 Sample.initChunk).run (runInputs Sample.openAfterInit
          ((handleChunk 0 0 Sample.initChunk).run start).2)).2.channels.size = 0 := by
      cases hnew
      decide +kernel
    rcases hrun : (handleChunk 0 0 Sample.initChunk).run start with ⟨error | reply, t⟩
    · rw [hrun] at hok
      cases hok
    refine ⟨reply, t, rfl, ?_⟩
    intro hanswered
    obtain ⟨output, v, hagain, -, hretained⟩ := hanswered 3
    rw [hrun] at hsize
    dsimp only at hsize
    rw [hagain, hretained.channels, hsize.1] at hsize
    cases hsize.2

end Association

end Fluvora.DataChannel
