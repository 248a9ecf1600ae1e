import Fluvora.DataChannel.Receiving

/-!
# Runs of an association

A run is any sequence of `handlePacket`, `sendMessage` and `tick` calls on a new association.
`ChunkEffect` says once what one chunk can do to a sound state, and `Sound`, the facts that every
handler relies on, follows for every reachable state.  `runInputs_invariant` is the rule by which the
later modules prove their invariants; it takes a condition on the packets, checked in the state in
which each packet arrives.
-/

open Std (ExtTreeMap)

namespace Fluvora.DataChannel

open Fallible

namespace Association

/-! ## Runs -/

/-- One call on an association. -/
inductive Input
  | packet (now : ℕ) (bytes : Bytes)
  | send (now : ℕ) (streamId : UInt16) (kind : MessageKind) (payload : Bytes)
  | tick (now : ℕ)

def step (s : Association) : Input → Association
  | .packet now bytes => ((handlePacket now bytes).run s).2
  | .send now streamId kind payload => ((sendMessage now streamId kind payload).run s).2
  | .tick now => (tick now s).2

/-- The state after a sequence of calls. -/
def runInputs (inputs : List Input) (s : Association) : Association := inputs.foldl step s

/-- The packets of a call meet a condition on their chunks, in the state in which they arrive. -/
def Input.meets (condition : ℕ → UInt32 → List ParsedChunk → Association → Bool) (input : Input)
    (s : Association) : Bool :=
  match input with
  | .packet now bytes =>
      match ParsedPacket.parse bytes with
      | .ok parsed =>
          !(parsed.sourcePort = s.config.remotePort ∧ parsed.destinationPort = s.config.localPort) ||
            condition now parsed.verificationTag parsed.chunks s
      | .error _ => true
  | _ => true

/-- Every packet of a run meets the condition. -/
def allMeet (condition : ℕ → UInt32 → List ParsedChunk → Association → Bool) :
    List Input → Association → Bool
  | [], _ => true
  | input :: rest, s => input.meets condition s && allMeet condition rest (s.step input)

/-- A condition on one chunk, checked for each chunk that is handled in the state before it. -/
def everyChunk (condition : UInt32 → ParsedChunk → Association → Bool) (now : ℕ) (tag : UInt32) :
    List ParsedChunk → Association → Bool
  | [], _ => true
  | chunk :: rest, s =>
      condition tag chunk s &&
        match (handleChunk now tag chunk).run s with
        | (.ok _, t) => everyChunk condition now tag rest t
        | (.error _, _) => true

theorem handleChunks_invariant {I : Association → Prop}
    {condition : UInt32 → ParsedChunk → Association → Bool} (now : ℕ) (tag : UInt32)
    (h : ∀ chunk s, I s → condition tag chunk s = true → I ((handleChunk now tag chunk).run s).2)
    (chunks : List ParsedChunk) {s : Association} (hs : I s)
    (hcondition : everyChunk condition now tag chunks s = true) :
    I ((handleChunks now tag chunks).run s).2 := by
  induction chunks generalizing s with
  | nil => exact hs
  | cons chunk rest ih =>
    rw [everyChunk, Bool.and_eq_true] at hcondition
    refine run_bind_invariant (h chunk s hs hcondition.1) fun output t hrun ht => ?_
    rw [hrun] at hcondition
    rw [state_run_bind_pure]
    exact ih ht hcondition.2

/-- What every call of a run keeps holds after the run. -/
theorem runInputs_invariant {I : Association → Prop}
    {condition : ℕ → UInt32 → List ParsedChunk → Association → Bool}
    (hchunks : ∀ now tag chunks s, I s → condition now tag chunks s = true →
      I ((handleChunks now tag chunks).run s).2)
    (hsend : ∀ now streamId kind payload s, I s →
      I ((sendMessage now streamId kind payload).run s).2)
    (htick : ∀ now s, I s → I (tick now s).2)
    (inputs : List Input) {s : Association} (hs : I s)
    (hcondition : allMeet condition inputs s = true) : I (runInputs inputs s) := by
  induction inputs generalizing s with
  | nil => exact hs
  | cons input rest ih =>
    rw [allMeet, Bool.and_eq_true] at hcondition
    refine ih ?_ hcondition.2
    cases input with
    | send now streamId kind payload => exact hsend now streamId kind payload s hs
    | tick now => exact htick now s hs
    | packet now bytes =>
      have hmeets := hcondition.1
      simp only [Input.meets] at hmeets
      simp only [step, handlePacket, run_ofExcept_bind]
      split
      next parsed hparse =>
        rw [hparse] at hmeets
        rw [run_get_bind, run_ensure_bind]
        split_ifs with hports
        · refine hchunks now _ _ s hs ?_
          simpa [hports] using hmeets
        · exact hs
      next => exact hs

/-! ## What one chunk can do -/

/-- What every handler relies on: a valid configuration, a known peer once the handshake has begun,
and a reorder buffer inside the receive window. -/
structure Sound (s : Association) : Prop where
  valid : s.config.validate = .ok ()
  known : s.state = .cookieWait ∨ s.state = .established → ∃ tag, s.peerVerificationTag = some tag
  started : ∀ tag, s.peerVerificationTag = some tag →
    (∃ cumulative, s.cumulativePeerTsn = some cumulative) ∧
      s.nextPeerReconfigSequence.isSome = true
  buffered : ∀ cumulative, s.cumulativePeerTsn = some cumulative →
    Buffered cumulative s.pendingData

/-- One write of the receive side: the buffers and channels, or one processed chunk. -/
inductive ReceiveStep (s : Association) : Association → Prop
  | write (cumulativePeerTsn : Option UInt32) (pendingData : ExtTreeMap UInt32 DataChunk)
      (reassembly : ExtTreeMap UInt16 Reassembly) (channels : ExtTreeMap UInt16 Channel) :
      ReceiveStep s { s with cumulativePeerTsn, pendingData, reassembly, channels }
  | process {data : DataChunk} {output : AssociationOutput} {t : Association}
      (h : Processed s data output t) : ReceiveStep s t

/-- Everything one chunk can do to a sound state. -/
inductive ChunkEffect (tag : UInt32) (chunk : ParsedChunk) (s : Association) : Association → Prop
  | unchanged : ChunkEffect tag chunk s s
  | restart (init : InitChunk) : ChunkEffect tag chunk s (restart init s)
  | established (h : s.state = .cookieWait) :
      ChunkEffect tag chunk s { s with state := .established }
  | closed : ChunkEffect tag chunk s { s with state := .closed }
  | receive {t : Association} {cumulative : UInt32} (hsteps : Relation.ReflTransGen ReceiveStep s t)
      (hframe : ReleaseFrame s t) (hcum : t.cumulativePeerTsn = some cumulative)
      (hbuf : Buffered cumulative t.pendingData) : ChunkEffect tag chunk s t
  | sack {cumulative : UInt32} {gapCount : ℕ} (hkind : chunk.kind = typeSack)
      (htag : tag = s.config.verificationTag)
      (hheader : sackHeader chunk.value = some (cumulative, gapCount)) :
      ChunkEffect tag chunk s { ackCumulative cumulative s with
        outstanding := ackBlocks cumulative (appliedGaps chunk.value 0 gapCount)
          (ackCumulative cumulative s).outstanding }
  | reset {t : Association} (h : ResetFrame s t) : ChunkEffect tag chunk s t

theorem receiveStep_processDataMessage (now : ℕ) (data : DataChunk) {s : Association}
    {tag : UInt32} (htag : s.peerVerificationTag = some tag) :
    ReceiveStep s ((processDataMessage now data).run s).2 := by
  by_cases h : s.admits data = true
  · obtain ⟨output, t, hrun, hprocessed⟩ := processDataMessage_run_of_admits now htag h
    rw [hrun]
    exact .process hprocessed
  · obtain ⟨error, reassembly, channels, hrun⟩ :=
      processDataMessage_run_of_not_admits now htag (by simpa using h)
    rw [hrun]
    exact .write s.cumulativePeerTsn s.pendingData reassembly channels

theorem receiveSteps_processAll (now : ℕ) (batch : List DataChunk) {s : Association} {tag : UInt32}
    (htag : s.peerVerificationTag = some tag) :
    Relation.ReflTransGen ReceiveStep s ((processAll now batch).run s).2 := by
  induction batch generalizing s with
  | nil => exact .refl
  | cons data rest ih =>
    have hframe := processDataMessage_frame now data htag
    have hfirst := receiveStep_processDataMessage now data htag
    refine run_bind_invariant (.single hfirst) fun first t hrun hst => ?_
    rw [hrun] at hframe
    rw [state_run_bind_pure]
    exact hst.trans (ih (hframe.peerVerificationTag.trans htag))

theorem receiveSteps_releasePending (now fuel : ℕ) (next : UInt32) {s : Association} {tag : UInt32}
    (htag : s.peerVerificationTag = some tag) :
    Relation.ReflTransGen ReceiveStep s ((releasePending now fuel next).run s).2 := by
  induction fuel generalizing next s with
  | zero => exact .refl
  | succ fuel ih =>
    simp only [releasePending, run_get_bind]
    rcases s.pendingData[next]? with _ | data
    · exact .refl
    have htag' : (unbuffer next s).peerVerificationTag = some tag := htag
    have hframe := processDataMessage_frame now data htag'
    have htake : Relation.ReflTransGen ReceiveStep s (unbuffer next s) :=
      .single (.write s.cumulativePeerTsn (s.pendingData.erase next) s.reassembly s.channels)
    simp only [run_modify_bind]
    refine run_bind_invariant
      (htake.tail (receiveStep_processDataMessage now data htag')) fun first t hrun hst => ?_
    rw [hrun] at hframe
    rw [run_modify_bind, state_run_bind_pure]
    refine (hst.tail (.write (some next) t.pendingData t.reassembly t.channels)).trans ?_
    exact ih (next + 1) (hframe.peerVerificationTag.trans htag)

theorem guarded_run (tag : UInt32) (action : Action AssociationOutput) (s : Association) :
    (guarded tag action).run s = if tag = s.config.verificationTag then action.run s
      else (.error .invalidVerificationTag, s) := by
  simp only [guarded, run_get_bind, requireVerificationTag, run_ofExcept_bind]
  split_ifs <;> rfl

/-- Draining the buffer is one write of the receive side. -/
theorem receiveStep_drain {s : Association} {data : DataChunk} {cumulative : UInt32}
    (hcum : s.cumulativePeerTsn = some cumulative) (hbuf : Buffered cumulative s.pendingData)
    (hnew : s.duplicate cumulative data.tsn = false)
    (hwindow : (data.tsn - cumulative).toNat ≤ maxPendingTsn) :
    ∃ batch pending,
      drain (s.buffer data).pendingData.size (cumulative + 1) (s.buffer data) = (batch, { s with
        pendingData := pending
        cumulativePeerTsn := some (cumulative + .ofNat batch.length) }) ∧
      Buffered (cumulative + .ofNat batch.length) pending := by
  obtain ⟨batch, pending, hdrain, -, -, -, hbuf'⟩ := drain_buffered
    (s := s.buffer data) hcum (buffered_buffer hbuf hnew hwindow)
  exact ⟨batch, pending, hdrain, hbuf'⟩

theorem chunkEffect_handleData (tag : UInt32) (chunk : ParsedChunk) (now : ℕ) (flags : UInt8)
    (value : Bytes) {s : Association} (hs : Sound s) :
    ChunkEffect tag chunk s ((handleData now flags value).run s).2 := by
  by_cases hstate : s.state = .established
  swap
  · simp only [handleData, run_get_bind, run_ensure_bind]
    rw [if_neg fun h => hstate h.1]
    exact .unchanged
  obtain ⟨peer, hpeer⟩ := hs.known (.inr hstate)
  obtain ⟨⟨cumulative, hcum⟩, -⟩ := hs.started peer hpeer
  have hbuf := hs.buffered cumulative hcum
  obtain ⟨-, hrun⟩ | ⟨data, -, -, ⟨-, sack, hrun⟩ | ⟨-, -, hrun⟩ | ⟨hnew, hwindow, hrun⟩⟩ :=
    handleData_run now flags value hpeer hcum hbuf
  · rw [hrun]
    exact .unchanged
  · rw [hrun]
    exact .unchanged
  · rw [hrun]
    exact .unchanged
  · obtain ⟨batch, pending, hdrain, hbuf'⟩ := receiveStep_drain hcum hbuf hnew hwindow
    rw [hdrain] at hrun
    have hframe := processAll_frame now batch (s := { s with
      pendingData := pending
      cumulativePeerTsn := some (cumulative + .ofNat batch.length) }) hpeer
    have hsteps := receiveSteps_processAll now batch (s := { s with
      pendingData := pending
      cumulativePeerTsn := some (cumulative + .ofNat batch.length) }) hpeer
    have heffect : ChunkEffect tag chunk s ((processAll now batch).run { s with
        pendingData := pending
        cumulativePeerTsn := some (cumulative + .ofNat batch.length) }).2 := by
      have hwrite : ReleaseFrame s { s with
          pendingData := pending
          cumulativePeerTsn := some (cumulative + .ofNat batch.length) } := rfl
      refine .receive (.head (.write _ pending s.reassembly s.channels) hsteps)
        (hwrite.trans hframe.release) hframe.cumulativePeerTsn ?_
      rw [hframe.pendingData]
      exact hbuf'
    rcases hrun with ⟨error, -, hrun⟩ | ⟨output, sack, -, hrun⟩
    · rw [hrun]
      exact heffect
    · rw [hrun]
      exact heffect

theorem chunkEffect_handleForwardTsn (tag : UInt32) (chunk : ParsedChunk) (now : ℕ)
    (value : Bytes) {s : Association} (hs : Sound s) :
    ChunkEffect tag chunk s ((handleForwardTsn now value).run s).2 := by
  by_cases hstate : s.state = .established
  swap
  · simp only [handleForwardTsn, run_get_bind, run_ensure_bind]
    rw [if_neg fun h => hstate h.1]
    exact .unchanged
  obtain ⟨peer, hpeer⟩ := hs.known (.inr hstate)
  obtain ⟨⟨current, hcum⟩, -⟩ := hs.started peer hpeer
  have hbuf := hs.buffered current hcum
  obtain ⟨-, hrun⟩ | ⟨newCumulativeTsn, hallowed, -, ⟨-, sack, hrun⟩ | ⟨hnew, hrun⟩⟩ :=
    handleForwardTsn_run now value hpeer hcum hbuf
  · rw [hrun]
    exact .unchanged
  · rw [hrun]
    exact .unchanged
  · have hlen : 4 ≤ value.length := by
      simp only [forwardTsnAllowed, Bool.and_eq_true, decide_eq_true_eq] at hallowed
      exact hallowed.1.2
    obtain ⟨reassembly, -, hstart⟩ := forwarded_eq (s := s) newCumulativeTsn hlen
    have hpeer' : (s.forwarded value newCumulativeTsn).peerVerificationTag = some peer := by
      rw [hstart, hpeer]
    obtain ⟨hframe, count, -, hcum', hbuf'⟩ := releasePending_run now _ newCumulativeTsn hpeer'
      (by rw [hstart]) le_rfl (buffered_forwarded hbuf hnew)
    have hsteps := receiveSteps_releasePending now
      (s.forwarded value newCumulativeTsn).pendingData.size (newCumulativeTsn + 1) hpeer'
    have hwrite : ReceiveStep s (s.forwarded value newCumulativeTsn) := by
      rw [hstart]
      exact .write _ _ reassembly s.channels
    have hframe' : ReleaseFrame s (s.forwarded value newCumulativeTsn) := by
      rw [hstart]
      rfl
    have heffect : ChunkEffect tag chunk s _ :=
      .receive (.head hwrite hsteps) (hframe'.trans hframe) hcum' hbuf'
    rcases hrun with ⟨error, -, hrun⟩ | ⟨output, sack, -, hrun⟩
    · rw [hrun]
      exact heffect
    · rw [hrun]
      exact heffect

theorem chunkEffect_handleInit (tag : UInt32) (chunk : ParsedChunk) (value : Bytes)
    (s : Association) : ChunkEffect tag chunk s ((handleInit tag value).run s).2 := by
  rw [handleInit, run_ofExcept_bind]
  rcases InitChunk.parse tag value with error | init
  · exact .unchanged
  dsimp only
  rw [run_modify_bind, run_get_bind, run_ofExcept_bind]
  rcases initAck (restart init s).config init with error | ack
  · exact .restart init
  dsimp only
  rw [run_ofExcept_bind]
  rcases (restart init s).packetWithChunk init.peerTag typeInitAck 0 ack with error | packet
  · exact .restart init
  · exact .restart init

/-- A COOKIE ECHO is refused or establishes the association. -/
theorem handleCookieEcho_state (tag : UInt32) (cookie : Bytes) (s : Association) :
    ((handleCookieEcho tag cookie).run s).2 = s ∨
      (s.state = .cookieWait ∧
        ((handleCookieEcho tag cookie).run s).2 = { s with state := .established }) := by
  rw [handleCookieEcho, run_get_bind, run_ensure_bind]
  by_cases hstate : s.state = .cookieWait
  swap
  · rw [if_neg hstate]
    exact .inl rfl
  rw [if_pos hstate, run_ofExcept_bind]
  rcases s.requireVerificationTag tag with error | ⟨⟩
  · exact .inl rfl
  dsimp only
  rw [run_ensure_bind]
  split_ifs
  swap
  · exact .inl rfl
  right
  rw [run_modify_bind, run_ofExcept_bind]
  rcases s.peerTag with error | peer
  · exact ⟨hstate, rfl⟩
  dsimp only
  rw [run_ofExcept_bind]
  rcases s.packetWithChunk peer typeCookieAck 0 [] with error | packet
  · exact ⟨hstate, rfl⟩
  · exact ⟨hstate, rfl⟩

theorem chunkEffect_handleCookieEcho (tag : UInt32) (chunk : ParsedChunk) (cookie : Bytes)
    (s : Association) : ChunkEffect tag chunk s ((handleCookieEcho tag cookie).run s).2 := by
  obtain hsame | ⟨hstate, hrun⟩ := handleCookieEcho_state tag cookie s
  · rw [hsame]
    exact .unchanged
  · rw [hrun]
    exact .established hstate

theorem handleHeartbeat_state (value : Bytes) (s : Association) :
    ((handleHeartbeat value).run s).2 = s := by
  rw [handleHeartbeat, run_get_bind, run_ofExcept_bind]
  rcases s.peerTag with error | peer
  · rfl
  dsimp only
  rw [run_ofExcept_bind]
  rcases s.packetWithChunk peer typeHeartbeatAck 0 value with error | packet
  · rfl
  · rfl

theorem handleShutdown_state (s : Association) :
    (handleShutdown.run s).2 = { s with state := .closed } := by
  rw [handleShutdown, run_modify_bind, run_get_bind, run_ofExcept_bind]
  rcases ({ s with state := .closed } : Association).peerTag with error | peer
  · rfl
  dsimp only
  rw [run_ofExcept_bind]
  rcases ({ s with state := .closed } : Association).packetWithChunk peer typeShutdownAck 0 []
    with error | packet
  · rfl
  · rfl

/-- The dispatch of `handleChunk`, as a rule: what holds of the handler of each kind holds of it. -/
theorem handleChunk_elim {P : Action AssociationOutput → Prop} (now : ℕ) (tag : UInt32)
    (chunk : ParsedChunk)
    (hinit : chunk.kind = typeInit → P (handleInit tag chunk.value))
    (hcookie : chunk.kind = typeCookieEcho → P (handleCookieEcho tag chunk.value))
    (hdata : chunk.kind = typeData → P (guarded tag (handleData now chunk.flags chunk.value)))
    (hsack : chunk.kind = typeSack → P (guarded tag (do handleSack chunk.value; return {})))
    (hheartbeat : chunk.kind = typeHeartbeat → P (guarded tag (handleHeartbeat chunk.value)))
    (habort : chunk.kind = typeAbort → P handleAbort)
    (hshutdown : chunk.kind = typeShutdown → P (guarded tag handleShutdown))
    (hreconfig : chunk.kind = typeReConfig → P (guarded tag (handleReconfiguration chunk.value)))
    (hforward : chunk.kind = typeForwardTsn → P (guarded tag (handleForwardTsn now chunk.value)))
    (hother : chunk.kind ∉ [typeInit, typeCookieEcho, typeData, typeSack, typeHeartbeat, typeAbort,
      typeShutdown, typeReConfig, typeForwardTsn] → P (pure {})) :
    P (handleChunk now tag chunk) := by
  unfold handleChunk
  by_cases h : chunk.kind = typeInit
  · rw [if_pos h]
    exact hinit h
  rw [if_neg h]
  by_cases h : chunk.kind = typeCookieEcho
  · rw [if_pos h]
    exact hcookie h
  rw [if_neg h]
  by_cases h : chunk.kind = typeData
  · rw [if_pos h]
    exact hdata h
  rw [if_neg h]
  by_cases h : chunk.kind = typeSack
  · rw [if_pos h]
    exact hsack h
  rw [if_neg h]
  by_cases h : chunk.kind = typeHeartbeat
  · rw [if_pos h]
    exact hheartbeat h
  rw [if_neg h]
  by_cases h : chunk.kind = typeAbort
  · rw [if_pos h]
    exact habort h
  rw [if_neg h]
  by_cases h : chunk.kind = typeShutdown
  · rw [if_pos h]
    exact hshutdown h
  rw [if_neg h]
  by_cases h : chunk.kind = typeReConfig
  · rw [if_pos h]
    exact hreconfig h
  rw [if_neg h]
  by_cases h : chunk.kind = typeForwardTsn
  · rw [if_pos h]
    exact hforward h
  rw [if_neg h]
  exact hother (by simp_all)

theorem handleChunk_effect (now : ℕ) (tag : UInt32) (chunk : ParsedChunk) {s : Association}
    (hs : Sound s) : ChunkEffect tag chunk s ((handleChunk now tag chunk).run s).2 := by
  have hguarded : ∀ action : Action AssociationOutput,
      (tag = s.config.verificationTag → ChunkEffect tag chunk s (action.run s).2) →
        ChunkEffect tag chunk s ((guarded tag action).run s).2 := by
    intro action haction
    rw [guarded_run]
    split_ifs with htag
    · exact haction htag
    · exact .unchanged
  refine handleChunk_elim (P := fun action => ChunkEffect tag chunk s (action.run s).2) now tag
    chunk ?_ ?_ ?_ ?_ ?_ ?_ ?_ ?_ ?_ ?_
  · exact fun _ => chunkEffect_handleInit tag chunk chunk.value s
  · exact fun _ => chunkEffect_handleCookieEcho tag chunk chunk.value s
  · exact fun _ => hguarded _ fun _ =>
      chunkEffect_handleData tag chunk now chunk.flags chunk.value hs
  · refine fun hsack => hguarded _ fun htag => ?_
    rw [state_run_bind_pure]
    have hrun := handleSack_run chunk.value s
    split at hrun
    next =>
      obtain ⟨error, hrun⟩ := hrun
      rw [hrun]
      exact .unchanged
    next cumulative gapCount hheader =>
      obtain ⟨result, hrun, -⟩ := hrun
      rw [hrun]
      exact .sack hsack htag hheader
  · refine fun _ => hguarded _ fun _ => ?_
    rw [handleHeartbeat_state]
    exact .unchanged
  · exact fun _ => .closed
  · refine fun _ => hguarded _ fun _ => ?_
    rw [handleShutdown_state]
    exact .closed
  · exact fun _ => hguarded _ fun _ => .reset (handleReconfiguration_frame chunk.value s)
  · exact fun _ => hguarded _ fun _ => chunkEffect_handleForwardTsn tag chunk now chunk.value hs
  · exact fun _ => .unchanged

/-! ## Soundness of every reachable state -/

theorem sound_new {config : AssociationConfig} {s : Association} (h : new config = .ok s) :
    Sound s := by
  unfold new at h
  rcases hvalid : config.validate with error | ⟨⟩
  · rw [hvalid] at h
    cases h
  rw [hvalid] at h
  cases h
  refine ⟨hvalid, ?_, ?_, ?_⟩
  · rintro (h | h) <;> cases h
  · rintro tag h
    cases h
  · rintro cumulative h
    cases h

theorem ChunkEffect.sound {tag : UInt32} {chunk : ParsedChunk} {s t : Association}
    (h : ChunkEffect tag chunk s t) (hs : Sound s) : Sound t := by
  cases h with
  | unchanged => exact hs
  | restart init =>
    refine ⟨hs.valid, fun _ => ⟨init.peerTag, rfl⟩, fun _ _ => ⟨⟨_, rfl⟩, rfl⟩, ?_⟩
    intro cumulative _ tsn data hdata
    simp [Association.restart] at hdata
  | established hstate => exact ⟨hs.valid, fun _ => hs.known (.inl hstate), hs.started, hs.buffered⟩
  | closed =>
    refine ⟨hs.valid, ?_, hs.started, hs.buffered⟩
    rintro (h | h) <;> cases h
  | @receive _ cumulative hsteps hframe hcum hbuf =>
    refine ⟨?_, ?_, ?_, ?_⟩
    · rw [hframe]
      exact hs.valid
    · rw [hframe]
      exact hs.known
    · intro peer hpeer
      rw [hframe.peerVerificationTag] at hpeer
      refine ⟨⟨cumulative, hcum⟩, ?_⟩
      rw [hframe]
      exact (hs.started peer hpeer).2
    · intro c hc
      rw [hcum] at hc
      cases hc
      exact hbuf
  | sack hkind htag hheader => exact ⟨hs.valid, hs.known, hs.started, hs.buffered⟩
  | reset h =>
    obtain ⟨hframe, hknown, -⟩ := h
    refine ⟨?_, ?_, ?_, ?_⟩
    · rw [hframe]
      exact hs.valid
    · rw [hframe]
      exact hs.known
    · intro peer hpeer
      rw [hknown, hframe]
      rw [hframe] at hpeer
      exact hs.started peer hpeer
    · rw [hframe]
      exact hs.buffered

theorem sound_sendMessage (now : ℕ) (streamId : UInt16) (kind : MessageKind) (payload : Bytes)
    {s : Association} (hs : Sound s) :
    Sound ((sendMessage now streamId kind payload).run s).2 := by
  obtain ⟨error, hrun⟩ | ⟨hstate, channel, message, wire, hchannel, hrun⟩ :=
    sendMessage_run now streamId kind payload s
  · rw [hrun]
    exact hs
  · obtain ⟨peer, hpeer⟩ := hs.known (.inr hstate)
    rw [hrun]
    obtain ⟨-, hqueue⟩ | ⟨-, packets, outstanding, hqueue, -⟩ :=
      enqueueMessage_run now message wire { s with
        channels := s.channels.insert streamId
          { channel with nextOutgoingSequence := channel.nextOutgoingSequence + 1 } } hpeer
    · rw [hqueue]
      exact ⟨hs.valid, hs.known, hs.started, hs.buffered⟩
    · rw [hqueue]
      exact ⟨hs.valid, hs.known, hs.started, hs.buffered⟩

theorem sound_tick (now : ℕ) {s : Association} (hs : Sound s) : Sound (tick now s).2 := by
  obtain ⟨state, outstanding, abandoned, pendingForwardTsn, hrun, hstate, -, -⟩ := tick_run now s
  rw [hrun]
  refine ⟨hs.valid, ?_, hs.started, hs.buffered⟩
  rcases hstate with rfl | rfl
  · exact hs.known
  · rintro (h | h) <;> cases h

theorem sound_handleChunks (now : ℕ) (tag : UInt32) (chunks : List ParsedChunk) {s : Association}
    (hs : Sound s) : Sound ((handleChunks now tag chunks).run s).2 := by
  induction chunks generalizing s with
  | nil => exact hs
  | cons chunk rest ih =>
    refine run_bind_invariant ((handleChunk_effect now tag chunk hs).sound hs) fun _ t _ ht => ?_
    rw [state_run_bind_pure]
    exact ih ht

/-- A state that some run of a new association reaches. -/
def Reachable (s : Association) : Prop :=
  ∃ config start inputs, new config = .ok start ∧ runInputs inputs start = s

theorem allMeet_true (inputs : List Input) (s : Association) :
    allMeet (fun _ _ _ _ => true) inputs s = true := by
  induction inputs generalizing s with
  | nil => rfl
  | cons input rest ih =>
    rw [allMeet, ih, Bool.and_true]
    cases input with
    | packet now bytes =>
      simp only [Input.meets]
      split <;> simp
    | send => rfl
    | tick => rfl

theorem Reachable.sound {s : Association} (h : Reachable s) : Sound s := by
  obtain ⟨config, start, inputs, hnew, rfl⟩ := h
  exact runInputs_invariant (fun now tag chunks _ hs _ => sound_handleChunks now tag chunks hs)
    (fun now streamId kind payload _ => sound_sendMessage now streamId kind payload)
    (fun now _ => sound_tick now) inputs (sound_new hnew) (allMeet_true inputs start)

/-! ## The peer of the crate's tests -/

namespace Sample

def config : AssociationConfig where
  localPort := 5000
  remotePort := 5000
  verificationTag := 0x11223344
  initialTsn := 1000
  cookie := List.replicate 32 0x55
  maximumChannels := 16
  maximumMessageBytes := 16384

/-- The new association of a configuration; an invalid configuration gives none. -/
def association : Option Association := (new config).toOption

def peerPacket (tag : UInt32) (kind flags : UInt8) (value : Bytes) : Bytes :=
  ((buildPacket 5000 5000 tag kind flags value).toOption).getD []

/-- The INIT of a peer whose first TSN is 500, with or without FORWARD TSN support. -/
def init (partialReliability : Bool) : Bytes :=
  Bytes.ofU32 0xaabbccdd ++ Bytes.ofU32 65535 ++ Bytes.ofU16 16 ++ Bytes.ofU16 16 ++
    Bytes.ofU32 500 ++ if partialReliability then [0xc0, 0, 0, 4] else []

def establish (partialReliability : Bool) : List Input :=
  [.packet 0 (peerPacket 0 typeInit 0 (init partialReliability)),
    .packet 1000000 (peerPacket 0x11223344 typeCookieEcho 0 (List.replicate 32 0x55))]

def dataValue (tsn : UInt32) (stream sequence : UInt16) (ppid : UInt32) (payload : Bytes) : Bytes :=
  Bytes.ofU32 tsn ++ Bytes.ofU16 stream ++ Bytes.ofU16 sequence ++ Bytes.ofU32 ppid ++ payload

/-- A DATA packet of the established peer. -/
def data (flags : UInt8) (tsn : UInt32) (stream sequence : UInt16) (ppid : UInt32)
    (payload : Bytes) : Bytes :=
  peerPacket 0x11223344 typeData flags (dataValue tsn stream sequence ppid payload)

/-- A DCEP OPEN for a reliable ordered channel labelled `x`. -/
def dcepOpenPayload : Bytes :=
  [dcepOpen, 0] ++ Bytes.ofU16 0 ++ Bytes.ofU32 0 ++ Bytes.ofU16 1 ++ Bytes.ofU16 0 ++ [120]

def sack (cumulativeTsn : UInt32) : Bytes :=
  Bytes.ofU32 cumulativeTsn ++ Bytes.ofU32 65535 ++ Bytes.ofU16 0 ++ Bytes.ofU16 0

end Sample

end Association

end Fluvora.DataChannel
