import Fluvora.DataChannel.Rejection

/-!
# Which chunks are accepted

`accepts` says, for every kind of chunk, when its handler succeeds, by the checks that the handler
makes and in the state in which the chunk is handled.  A DATA or FORWARD TSN chunk is accepted when
every chunk that it releases is admitted in turn, and a RE-CONFIG when all its parameters are and
the answer fits a packet.
-/

open Std (ExtTreeMap)

namespace Fluvora.DataChannel

open Fallible

namespace Association

/-- What a new chunk releases, and the state in which the released chunks are processed. -/
def released (s : Association) (cumulative : UInt32) (data : DataChunk) :
    List DataChunk × Association :=
  drain (s.buffer data).pendingData.size (cumulative + 1) (s.buffer data)

def acceptsData (s : Association) (now : ℕ) (flags : UInt8) (value : Bytes) : Bool :=
  if s.state = .established ∧ dataFixedLen - 4 ≤ value.length then
    match DataChunk.parse flags value, s.cumulativePeerTsn with
    | .ok data, some cumulative =>
        s.duplicate cumulative data.tsn ||
          (decide ((data.tsn - cumulative).toNat ≤ maxPendingTsn) &&
            admitsAll now (s.released cumulative data).1 (s.released cumulative data).2)
    | _, _ => false
  else false

def acceptsSack (value : Bytes) : Bool :=
  match sackHeader value with
  | none => false
  | some (_, gapCount) => (appliedGaps value 0 gapCount).length = gapCount

def acceptsForwardTsn (s : Association) (now : ℕ) (value : Bytes) : Bool :=
  if s.forwardTsnAllowed value then
    match readU32 value 0, s.cumulativePeerTsn with
    | .ok newCumulativeTsn, some current =>
        sequenceLessOrEqual newCumulativeTsn current ||
          admitsPending now (s.forwarded value newCumulativeTsn).pendingData.size
            (newCumulativeTsn + 1) (s.forwarded value newCumulativeTsn)
    | _, _ => false
  else false

/-- The next expected sequence number and the length of the answer to a reset request, if the
request is accepted; `performed` is the length, before padding, of the answer to a request that is
carried out. -/
def resetAnswer (streamLimit : UInt16) (fixedLen performed : ℕ) (expected : UInt32)
    (value : Bytes) : Option (UInt32 × ℕ) :=
  if fixedLen ≤ value.length ∧ (value.length - fixedLen) % 2 = 0 then
    match readU32 value 0 with
    | .error _ => none
    | .ok requestSequence =>
        if requestSequence ≠ expected then some (expected, 12)
        else if (parseStreamNumbers (value.drop fixedLen) streamLimit).isOk ∧ performed ≤ 65535 then
          some (expected + 1, Bytes.pad4 performed)
        else none
  else none

/-- The length of the whole answer to the parameters of a RE-CONFIG, if all are accepted. -/
def answerLength (streamLimit : UInt16) : UInt32 → List Parameter → Option ℕ
  | _, [] => some 0
  | expected, parameter :: rest =>
      if parameter.kind = parameterOutgoingReset then
        (resetAnswer streamLimit 12 12 expected parameter.value).bind fun answer =>
          (answerLength streamLimit answer.1 rest).map (answer.2 + ·)
      else if parameter.kind = parameterIncomingReset then
        (resetAnswer streamLimit 4 (parameter.value.length + 12) expected parameter.value).bind fun answer =>
            (answerLength streamLimit answer.1 rest).map (answer.2 + ·)
      else if parameter.kind = parameterReconfigResponse then
        if parameter.value.length = 8 ∨ parameter.value.length = 16 then
          answerLength streamLimit expected rest
        else none
      else some 0

def acceptsReconfiguration (s : Association) (value : Bytes) : Bool :=
  match parseParameters value, s.nextPeerReconfigSequence with
  | .ok parameters, some expected =>
      decide (s.state = .established ∧ value ≠ [] ∧ parameters ≠ [] ∧ parameters.length ≤ 2) &&
        (answerLength s.peerOutboundStreams expected parameters).any fun length =>
          decide (length ≤ 65516)
  | _, _ => false

/-- The handler of a chunk succeeds. -/
def accepts (s : Association) (now : ℕ) (tag : UInt32) (chunk : ParsedChunk) : Bool :=
  if chunk.kind = typeInit then (InitChunk.parse tag chunk.value).isOk
  else if chunk.kind = typeCookieEcho then s.cookieVerdict tag chunk.value = .writes
  else if chunk.kind = typeData then
    tag = s.config.verificationTag && s.acceptsData now chunk.flags chunk.value
  else if chunk.kind = typeSack then tag = s.config.verificationTag && acceptsSack chunk.value
  else if chunk.kind = typeHeartbeat then
    tag = s.config.verificationTag && s.heartbeatVerdict chunk.value = .passed
  else if chunk.kind = typeAbort then true
  else if chunk.kind = typeShutdown then
    tag = s.config.verificationTag && s.peerVerificationTag.isSome
  else if chunk.kind = typeReConfig then
    tag = s.config.verificationTag && s.acceptsReconfiguration chunk.value
  else if chunk.kind = typeForwardTsn then
    tag = s.config.verificationTag && s.acceptsForwardTsn now chunk.value
  else true

theorem isOk_guarded {s : Association} {action : Action AssociationOutput} {accepted : Bool}
    (tag : UInt32) (h : (action.run s).1.isOk = accepted) :
    ((guarded tag action).run s).1.isOk = (tag = s.config.verificationTag && accepted) := by
  rw [guarded_run]
  by_cases htag : tag = s.config.verificationTag
  · rw [if_pos htag, h]
    simp [htag]
  · rw [if_neg htag]
    simp [htag, Except.isOk, Except.toBool]

/-! ## DATA and FORWARD TSN -/

theorem isOk_handleData {s : Association} (hs : Sound s) (now : ℕ) (flags : UInt8)
    (value : Bytes) : ((handleData now flags value).run s).1.isOk = s.acceptsData now flags value := by
  unfold acceptsData
  by_cases hguard : s.state = .established ∧ dataFixedLen - 4 ≤ value.length
  swap
  · rw [if_neg hguard, handleData, run_get_bind, run_ensure_bind, if_neg hguard]
    rfl
  rw [if_pos hguard]
  obtain ⟨peer, hpeer⟩ := hs.known (.inr hguard.1)
  obtain ⟨⟨cumulative, hcum⟩, -⟩ := hs.started peer hpeer
  have hbuf := hs.buffered cumulative hcum
  obtain ⟨hwrong, -⟩ | ⟨data, -, hdata, hcases⟩ := handleData_run now flags value hpeer hcum hbuf
  · exact absurd hguard hwrong
  rw [hdata, hcum]
  dsimp only
  obtain ⟨hdup, sack, hrun⟩ | ⟨hnew, hwindow, hrun⟩ | ⟨hnew, hwindow, hrun⟩ := hcases
  · rw [hdup, Bool.true_or, hrun]
    rfl
  · rw [hnew, decide_eq_false (by omega), hrun]
    rfl
  · have hpeer' : (s.released cumulative data).2.peerVerificationTag = some peer := by
      obtain ⟨batch, pending, hdrain, -⟩ := drain_buffered
        (s := s.buffer data) hcum (buffered_buffer hbuf hnew hwindow)
      rw [released, hdrain]
      exact hpeer
    rw [hnew, Bool.false_or, decide_eq_true hwindow, Bool.true_and,
      ← processAll_isOk now (s.released cumulative data).1 hpeer']
    rcases hrun with ⟨error, herror, hrun⟩ | ⟨output, sack, hok, hrun⟩
    · rw [hrun, released, herror]
    · rw [hrun, released, hok]
      rfl

theorem isOk_handleForwardTsn {s : Association} (hs : Sound s) (now : ℕ) (value : Bytes) :
    ((handleForwardTsn now value).run s).1.isOk = s.acceptsForwardTsn now value := by
  unfold acceptsForwardTsn
  by_cases hallowed : s.forwardTsnAllowed value = true
  swap
  · rw [if_neg hallowed, handleForwardTsn, run_get_bind, run_ensure_bind, if_neg]
    · rfl
    · simpa [forwardTsnAllowed, and_assoc] using hallowed
  rw [if_pos hallowed]
  have hguard : s.state = .established ∧ 4 ≤ value.length := by
    simp only [forwardTsnAllowed, Bool.and_eq_true, decide_eq_true_eq] at hallowed
    exact ⟨hallowed.1.1.1, hallowed.1.2⟩
  obtain ⟨peer, hpeer⟩ := hs.known (.inr hguard.1)
  obtain ⟨⟨current, hcum⟩, -⟩ := hs.started peer hpeer
  have hbuf := hs.buffered current hcum
  obtain ⟨hwrong, -⟩ | ⟨newCumulativeTsn, -, hread, hcases⟩ :=
    handleForwardTsn_run now value hpeer hcum hbuf
  · rw [hallowed] at hwrong
    cases hwrong
  rw [hread, hcum]
  dsimp only
  obtain ⟨hle, sack, hrun⟩ | ⟨hnew, hrun⟩ := hcases
  · rw [hle, Bool.true_or, hrun]
    rfl
  · obtain ⟨reassembly, -, hstart⟩ := forwarded_eq (s := s) newCumulativeTsn hguard.2
    have hpeer' : (s.forwarded value newCumulativeTsn).peerVerificationTag = some peer := by
      rw [hstart, hpeer]
    rw [hnew, Bool.false_or, ← releasePending_isOk now _ _ hpeer']
    rcases hrun with ⟨error, herror, hrun⟩ | ⟨output, sack, hok, hrun⟩
    · rw [hrun, herror]
    · rw [hrun, hok]
      rfl

/-! ## Stream resets -/

theorem length_words16 (bytes : Bytes) (h : bytes.length % 2 = 0) :
    2 * (words16 bytes).length = bytes.length := by
  induction bytes using words16.induct with
  | case1 hi lo rest ih =>
    rw [words16]
    simp only [List.length_cons] at h ⊢
    have := ih (by omega)
    omega
  | case2 bytes hshort =>
    match bytes, hshort with
    | [], _ => rfl
    | [_], _ => simp at h
    | hi :: lo :: rest, hshort => exact absurd rfl (hshort hi lo rest)

theorem length_streams {streamNumbers : Bytes} {streamLimit : UInt16}
    {streams : Option (List UInt16)}
    (h : parseStreamNumbers streamNumbers streamLimit = .ok streams) :
    ((streams.getD []).flatMap Bytes.ofU16).length = streamNumbers.length := by
  unfold parseStreamNumbers at h
  split_ifs at h with hempty hodd hbeyond
  · cases h
    rw [List.isEmpty_iff] at hempty
    rw [hempty]
    rfl
  · cases h
    have hwords := length_words16 streamNumbers (by omega)
    simp only [Option.getD_some, List.length_flatMap, Bytes.length_ofU16, List.map_const',
      List.sum_replicate, smul_eq_mul]
    omega

/-- A reset is carried out when its stream numbers are in range. -/
theorem performReset_run (expected : UInt32) (streamNumbers : Bytes) (s : Association) :
    (∃ error t, parseStreamNumbers streamNumbers s.peerOutboundStreams = .error error ∧
      (performReset expected streamNumbers).run s = (.error error, t)) ∨
    (∃ streams output t, parseStreamNumbers streamNumbers s.peerOutboundStreams = .ok streams ∧
      (performReset expected streamNumbers).run s = (.ok (streams, output), t)) := by
  rw [performReset, run_modify_bind, run_get_bind, run_ofExcept_bind]
  dsimp only
  rcases parseStreamNumbers streamNumbers s.peerOutboundStreams with error | streams
  · exact .inl ⟨error, _, rfl, rfl⟩
  · exact .inr ⟨streams, _, _, rfl, rfl⟩

/-- What the answer to one reset request says about its handler. -/
def Answers (s : Association) (action : Action (Bytes × AssociationOutput)) :
    Option (UInt32 × ℕ) → Prop
  | none => (action.run s).1.isOk = false
  | some (next, length) => ∃ response output t, action.run s = (.ok (response, output), t) ∧
      response.length = length ∧ t.nextPeerReconfigSequence = some next

theorem answers_outgoing {s : Association} {expected : UInt32} (value : Bytes)
    (h : s.nextPeerReconfigSequence = some expected) :
    Answers s (handleOutgoingReset value)
      (resetAnswer s.peerOutboundStreams 12 12 expected value) := by
  generalize haction : handleOutgoingReset value = action
  have hrun : (handleOutgoingReset value).run s = action.run s := by rw [haction]
  rw [handleOutgoingReset, run_ensure_bind] at hrun
  unfold resetAnswer
  by_cases hlen : 12 ≤ value.length ∧ (value.length - 12) % 2 = 0
  swap
  · rw [if_neg hlen] at hrun ⊢
    rw [Answers, ← hrun]
    rfl
  rw [if_pos hlen] at hrun ⊢
  rw [run_ofExcept_bind] at hrun
  rcases hread : readU32 value 0 with error | requestSequence
  · rw [hread] at hrun
    dsimp only
    rw [Answers, ← hrun]
    rfl
  rw [hread] at hrun
  dsimp only at hrun ⊢
  rw [run_get_bind, run_ofOption_bind, h] at hrun
  dsimp only at hrun
  by_cases hexpected : requestSequence = expected
  swap
  · obtain ⟨response, hresponse, hlength⟩ :=
      reconfigResponse_ok requestSequence reconfigErrorBadSequence
    rw [if_neg hexpected, run_ofExcept_bind, hresponse] at hrun
    rw [if_pos hexpected]
    exact ⟨response, {}, s, hrun.symm, hlength, h⟩
  rw [if_pos hexpected, run_bind] at hrun
  rw [if_neg (not_not.mpr hexpected)]
  have hsequence := performReset_sequence expected (value.drop 12) s
  obtain ⟨error, t, hparse, hreset⟩ | ⟨streams, output, t, hparse, hreset⟩ :=
    performReset_run expected (value.drop 12) s
  · rw [hreset] at hrun
    rw [hparse, if_neg (by simp [Except.isOk, Except.toBool]), Answers, ← hrun]
    rfl
  · obtain ⟨response, hresponse, hlength⟩ :=
      reconfigResponse_ok requestSequence reconfigSuccessPerformed
    rw [hreset] at hrun hsequence
    dsimp only at hrun
    rw [run_ofExcept_bind, hresponse] at hrun
    rw [hparse, if_pos (by simp [Except.isOk, Except.toBool])]
    exact ⟨response, output, t, hrun.symm, hlength, hsequence⟩

theorem answers_incoming {s : Association} {expected : UInt32} (value : Bytes)
    (h : s.nextPeerReconfigSequence = some expected) :
    Answers s (handleIncomingReset value)
      (resetAnswer s.peerOutboundStreams 4 (value.length + 12) expected value) := by
  generalize haction : handleIncomingReset value = action
  have hrun : (handleIncomingReset value).run s = action.run s := by rw [haction]
  rw [handleIncomingReset, run_ensure_bind] at hrun
  unfold resetAnswer
  by_cases hlen : 4 ≤ value.length ∧ (value.length - 4) % 2 = 0
  swap
  · rw [if_neg hlen] at hrun ⊢
    rw [Answers, ← hrun]
    rfl
  rw [if_pos hlen] at hrun ⊢
  rw [run_ofExcept_bind] at hrun
  rcases hread : readU32 value 0 with error | requestSequence
  · rw [hread] at hrun
    dsimp only
    rw [Answers, ← hrun]
    rfl
  rw [hread] at hrun
  dsimp only at hrun ⊢
  rw [run_get_bind, run_ofOption_bind, h] at hrun
  dsimp only at hrun
  by_cases hexpected : requestSequence = expected
  swap
  · obtain ⟨response, hresponse, hlength⟩ :=
      reconfigResponse_ok requestSequence reconfigErrorBadSequence
    rw [if_pos hexpected, run_ofExcept_bind, hresponse] at hrun
    rw [if_pos hexpected]
    exact ⟨response, {}, s, hrun.symm, hlength, h⟩
  rw [if_neg (not_not.mpr hexpected), run_bind] at hrun
  rw [if_neg (not_not.mpr hexpected)]
  have hsequence := performReset_sequence expected (value.drop 4) s
  obtain ⟨error, t, hparse, hreset⟩ | ⟨streams, output, t, hparse, hreset⟩ :=
    performReset_run expected (value.drop 4) s
  · rw [hreset] at hrun
    rw [hparse, if_neg (by simp [Except.isOk, Except.toBool]), Answers, ← hrun]
    rfl
  · have hstreams := length_streams hparse
    rw [hreset] at hrun hsequence
    dsimp only at hrun
    rw [run_get_bind, run_modify_bind, run_ofExcept_bind] at hrun
    -- the answer repeats the stream numbers after three sequence numbers
    have hvalue : (Bytes.ofU32 t.nextReconfigSequence ++ Bytes.ofU32 requestSequence ++
        Bytes.ofU32 (t.nextTsn - 1) ++ (streams.getD []).flatMap Bytes.ofU16).length =
          value.length + 8 := by
      rw [List.length_append, hstreams, List.length_drop]
      simp only [List.length_append, Bytes.length_ofU32]
      omega
    by_cases hfits : value.length + 12 ≤ 65535
    · rw [hparse, if_pos ⟨rfl, hfits⟩]
      unfold pushParameter at hrun
      rw [hvalue, if_neg (by omega)] at hrun
      refine ⟨_, output, _, hrun.symm, ?_, hsequence⟩
      simp only [List.length_append, Bytes.length_ofU16, List.length_replicate, Bytes.length_ofU32,
        hstreams, List.length_drop, Bytes.pad4]
      omega
    · rw [if_neg fun h => hfits h.2]
      unfold pushParameter at hrun
      rw [hvalue, if_pos (by omega)] at hrun
      rw [Answers, ← hrun]
      rfl

/-- What the length of the whole answer says about the handler of the parameters. -/
def ParametersAnswer (s : Association) (parameters : List Parameter) : Option ℕ → Prop
  | none => ((handleParameters parameters).run s).1.isOk = false
  | some length => ∃ response output t,
      (handleParameters parameters).run s = (.ok (response, output), t) ∧ response.length = length

/-- A reset request, and what follows it. -/
theorem parametersAnswer_reset {s : Association} {parameter : Parameter} {rest : List Parameter}
    {action : Action (Bytes × AssociationOutput)} {answer : Option (UInt32 × ℕ)}
    (haction : handleParameters (parameter :: rest) = do
      let (response, output) ← action
      let (responses, outputs) ← handleParameters rest
      return (response ++ responses, output ++ outputs))
    (hframe : ResetFrame s (action.run s).2) (hanswer : Answers s action answer)
    (hrest : ∀ t next, t.nextPeerReconfigSequence = some next →
      ParametersAnswer t rest (answerLength t.peerOutboundStreams next rest)) :
    ParametersAnswer s (parameter :: rest) (answer.bind fun answer =>
      (answerLength s.peerOutboundStreams answer.1 rest).map (answer.2 + ·)) := by
  rcases answer with _ | ⟨next, length⟩
  · obtain ⟨error, herror⟩ := exists_error_of_isOk hanswer
    rw [Option.bind_none, ParametersAnswer, haction, run_bind]
    rcases hrun : action.run s with ⟨result, t⟩
    rw [hrun] at herror
    cases herror
    rfl
  · obtain ⟨response, output, t, hrun, rfl, hnext⟩ := hanswer
    rw [hrun] at hframe
    have hframe : ResetFrame s t := hframe
    have hlimit : t.peerOutboundStreams = s.peerOutboundStreams := by rw [hframe.1]
    have hrest := hrest t next hnext
    rw [hlimit] at hrest
    rw [Option.bind_some]
    rcases hlength : answerLength s.peerOutboundStreams next rest with _ | length
    · rw [hlength] at hrest
      obtain ⟨error, herror⟩ := exists_error_of_isOk hrest
      rw [Option.map_none, ParametersAnswer, haction, run_bind, hrun]
      dsimp only
      rw [run_bind]
      rcases hrun' : (handleParameters rest).run t with ⟨result, u⟩
      rw [hrun'] at herror
      cases herror
      rfl
    · rw [hlength] at hrest
      obtain ⟨responses, outputs, u, hrun', rfl⟩ := hrest
      refine ⟨response ++ responses, output ++ outputs, u, ?_, List.length_append⟩
      rw [haction, run_bind, hrun]
      dsimp only
      rw [run_bind, hrun']
      rfl

theorem parametersAnswer (parameters : List Parameter) {s : Association} {expected : UInt32}
    (h : s.nextPeerReconfigSequence = some expected) :
    ParametersAnswer s parameters (answerLength s.peerOutboundStreams expected parameters) := by
  induction parameters generalizing s expected with
  | nil => exact ⟨[], {}, s, rfl, rfl⟩
  | cons parameter rest ih =>
    unfold answerLength
    by_cases hkind : parameter.kind = parameterOutgoingReset
    · rw [if_pos hkind]
      refine parametersAnswer_reset ?_ (handleOutgoingReset_frame parameter.value s)
        (answers_outgoing parameter.value h) fun t next => ih
      rw [handleParameters, if_pos hkind]
    rw [if_neg hkind]
    by_cases hkind' : parameter.kind = parameterIncomingReset
    · rw [if_pos hkind']
      refine parametersAnswer_reset ?_ (handleIncomingReset_frame parameter.value s)
        (answers_incoming parameter.value h) fun t next => ih
      rw [handleParameters, if_neg hkind, if_pos hkind']
    rw [if_neg hkind']
    by_cases hkind'' : parameter.kind = parameterReconfigResponse
    swap
    · rw [if_neg hkind'']
      refine ⟨[], {}, s, ?_, rfl⟩
      rw [handleParameters, if_neg hkind, if_neg hkind', if_neg hkind'']
      rfl
    rw [if_pos hkind'']
    have hrun : (handleParameters (parameter :: rest)).run s =
        if parameter.value.length = 8 ∨ parameter.value.length = 16 then
          (handleParameters rest).run s
        else (.error .malformedChunk, s) := by
      rw [handleParameters, if_neg hkind, if_neg hkind', if_pos hkind'', run_ensure_bind]
    by_cases hlen : parameter.value.length = 8 ∨ parameter.value.length = 16
    swap
    · rw [if_neg hlen] at hrun ⊢
      rw [ParametersAnswer, hrun]
      rfl
    rw [if_pos hlen] at hrun ⊢
    have hrest := ih h
    rcases hlength : answerLength s.peerOutboundStreams expected rest with _ | length
    · rw [hlength] at hrest
      rw [ParametersAnswer, hrun]
      exact hrest
    · rw [hlength] at hrest
      obtain ⟨response, output, t, hrest, hresponse⟩ := hrest
      exact ⟨response, output, t, hrun.trans hrest, hresponse⟩

theorem isOk_packetWithChunk (s : Association) (tag : UInt32) (kind flags : UInt8)
    (value : Bytes) :
    (s.packetWithChunk tag kind flags value).isOk = decide (value.length ≤ 65516) := by
  by_cases hlen : value.length ≤ 65516
  · obtain ⟨packet, hpacket⟩ := s.packetWithChunk_ok tag kind flags hlen
    rw [hpacket, decide_eq_true hlen]
    rfl
  · rw [decide_eq_false hlen, packetWithChunk, buildPacket]
    by_cases hchunk : 65535 < chunkHeaderLen + value.length
    · simp only [if_pos hchunk]
      rfl
    · have hpacket : 65535 < commonHeaderLen + Bytes.pad4 (chunkHeaderLen + value.length) := by
        unfold commonHeaderLen Bytes.pad4 chunkHeaderLen
        omega
      simp only [if_neg hchunk, if_pos hpacket]
      rfl

theorem isOk_handleReconfiguration {s : Association} (hs : Sound s) (value : Bytes) :
    ((handleReconfiguration value).run s).1.isOk = s.acceptsReconfiguration value := by
  generalize hresult : (handleReconfiguration value).run s = result
  rw [handleReconfiguration, run_get_bind, run_ensure_bind] at hresult
  unfold acceptsReconfiguration
  by_cases hstate : s.state = .established ∧ value ≠ []
  swap
  · rw [if_neg hstate] at hresult
    rw [← hresult]
    split
    next =>
      rw [decide_eq_false fun h => hstate ⟨h.1, h.2.1⟩]
      rfl
    next => rfl
  obtain ⟨peer, hpeer⟩ := hs.known (.inr hstate.1)
  obtain ⟨expected, hexpected⟩ := Option.isSome_iff_exists.mp (hs.started peer hpeer).2
  rw [if_pos hstate, run_ofExcept_bind] at hresult
  rw [hexpected]
  rcases hparse : parseParameters value with error | parameters
  · rw [hparse] at hresult
    rw [← hresult]
    rfl
  rw [hparse] at hresult
  dsimp only at hresult ⊢
  rw [run_ensure_bind] at hresult
  by_cases hcount : parameters ≠ [] ∧ parameters.length ≤ 2
  swap
  · rw [if_neg hcount] at hresult
    rw [← hresult, decide_eq_false fun h => hcount h.2.2]
    rfl
  rw [if_pos hcount, run_bind] at hresult
  rw [decide_eq_true ⟨hstate.1, hstate.2, hcount⟩, Bool.true_and]
  have hanswer := parametersAnswer parameters hexpected
  have hframe := handleParameters_frame parameters s
  rcases hlength : answerLength s.peerOutboundStreams expected parameters with _ | length
  · rw [hlength] at hanswer
    obtain ⟨error, herror⟩ := exists_error_of_isOk hanswer
    rcases hrun : (handleParameters parameters).run s with ⟨outcome, t⟩
    rw [hrun] at herror hresult
    cases herror
    rw [← hresult]
    rfl
  · rw [hlength] at hanswer
    obtain ⟨response, output, t, hrun, rfl⟩ := hanswer
    rw [hrun] at hresult hframe
    have hframe : ResetFrame s t := hframe
    have hpeer' : t.peerVerificationTag = some peer := by rw [hframe.1, hpeer]
    dsimp only at hresult
    rw [Option.any_some]
    by_cases hempty : response.isEmpty = true
    · rw [if_pos hempty] at hresult
      rw [← hresult, List.isEmpty_iff.mp hempty]
      rfl
    · rw [if_neg hempty, run_get_bind, run_ofExcept_bind, peerTag_eq hpeer'] at hresult
      dsimp only at hresult
      rw [run_ofExcept_bind] at hresult
      rw [← isOk_packetWithChunk t peer typeReConfig 0 response, ← hresult]
      rcases t.packetWithChunk peer typeReConfig 0 response with error | packet
      · rfl
      · rfl

/-! ## Every kind of chunk -/

theorem isOk_handleInit {s : Association} (hs : Sound s) (tag : UInt32) (value : Bytes) :
    ((handleInit tag value).run s).1.isOk = (InitChunk.parse tag value).isOk := by
  have hinit := handleInit_run hs tag value
  rcases hparse : InitChunk.parse tag value with error | init
  · rw [hparse] at hinit
    rw [hinit]
    rfl
  · rw [hparse] at hinit
    obtain ⟨output, hrun, -⟩ := hinit
    rw [hrun]
    rfl

theorem isOk_handleCookieEcho {s : Association} (hs : Sound s) (tag : UInt32) (cookie : Bytes) :
    ((handleCookieEcho tag cookie).run s).1.isOk =
      decide (s.cookieVerdict tag cookie = .writes) := by
  have hfollows := follows_cookieEcho s tag cookie
  unfold cookieVerdict at hfollows ⊢
  by_cases hcookie : s.state = .cookieWait ∧ tag = s.config.verificationTag ∧
      constantTimeEqual cookie s.config.cookie = true
  swap
  · rw [if_neg hcookie] at hfollows ⊢
    obtain ⟨error, hrun⟩ := hfollows
    rw [hrun]
    rfl
  rw [if_pos hcookie]
  obtain ⟨hstate, htag, hequal⟩ := hcookie
  obtain ⟨peer, hpeer⟩ := hs.known (.inl hstate)
  obtain ⟨packet, hpacket⟩ := s.packetWithChunk_ok peer typeCookieAck 0
    (show ([] : Bytes).length ≤ 65516 by simp)
  rw [handleCookieEcho, run_get_bind, run_ensure_bind, if_pos hstate, run_ofExcept_bind,
    requireVerificationTag, if_pos htag]
  dsimp only
  rw [run_ensure_bind, if_pos hequal, run_modify_bind, run_ofExcept_bind, peerTag_eq hpeer]
  dsimp only
  rw [run_ofExcept_bind, hpacket]
  rfl

theorem isOk_handleShutdown (s : Association) :
    (handleShutdown.run s).1.isOk = s.peerVerificationTag.isSome := by
  obtain hpeer | ⟨peer, hpeer⟩ := Option.eq_none_or_eq_some s.peerVerificationTag
  · have herror : ({ s with state := .closed } : Association).peerTag =
        .error .unexpectedState := by
      rw [peerTag, hpeer]
      rfl
    rw [handleShutdown, run_modify_bind, run_get_bind, run_ofExcept_bind, herror, hpeer]
    rfl
  · obtain ⟨packet, hpacket⟩ := ({ s with state := .closed } : Association).packetWithChunk_ok peer
      typeShutdownAck 0 (show ([] : Bytes).length ≤ 65516 by simp)
    have htag : ({ s with state := .closed } : Association).peerTag = .ok peer := peerTag_eq hpeer
    rw [handleShutdown, run_modify_bind, run_get_bind, run_ofExcept_bind, htag]
    dsimp only
    rw [run_ofExcept_bind, hpacket, hpeer]
    rfl

theorem isOk_handleHeartbeat (s : Association) (value : Bytes) :
    ((handleHeartbeat value).run s).1.isOk = decide (s.heartbeatVerdict value = .passed) := by
  have hfollows := follows_heartbeat s value
  rcases hverdict : s.heartbeatVerdict value
  · rw [hverdict] at hfollows
    obtain ⟨error, hrun⟩ := hfollows
    rw [hrun]
    rfl
  · rw [hverdict] at hfollows
    obtain ⟨output, hrun⟩ := hfollows
    rw [hrun]
    rfl
  · unfold heartbeatVerdict at hverdict
    split at hverdict
    · cases hverdict
    · split_ifs at hverdict

theorem isOk_handleSack (value : Bytes) (s : Association) :
    ((do handleSack value; return {} : Action AssociationOutput).run s).1.isOk =
      acceptsSack value := by
  have hsack := handleSack_run value s
  rw [isOk_run_bind_pure]
  unfold acceptsSack
  generalize sackHeader value = header at hsack ⊢
  rcases header with - | ⟨cumulative, gapCount⟩
  · obtain ⟨error, hrun⟩ := hsack
    rw [hrun]
    rfl
  · obtain ⟨result, hrun, hok⟩ := hsack
    rw [hrun]
    dsimp only
    rw [Bool.eq_iff_iff, hok, decide_eq_true_iff]

/-- A chunk is handled successfully in a sound state exactly when `accepts` says so. -/
theorem isOk_handleChunk {s : Association} (hs : Sound s) (now : ℕ) (tag : UInt32)
    (chunk : ParsedChunk) :
    ((handleChunk now tag chunk).run s).1.isOk = s.accepts now tag chunk := by
  refine handleChunk_elim (P := fun action => (action.run s).1.isOk = s.accepts now tag chunk)
    now tag chunk ?_ ?_ ?_ ?_ ?_ ?_ ?_ ?_ ?_ ?_
  · intro hkind
    rw [accepts, if_pos hkind]
    exact isOk_handleInit hs tag chunk.value
  · intro hkind
    rw [accepts, hkind]
    exact isOk_handleCookieEcho hs tag chunk.value
  · intro hkind
    rw [accepts, hkind]
    exact isOk_guarded tag (isOk_handleData hs now chunk.flags chunk.value)
  · intro hkind
    rw [accepts, hkind]
    exact isOk_guarded tag (isOk_handleSack chunk.value s)
  · intro hkind
    rw [accepts, hkind]
    exact isOk_guarded tag (isOk_handleHeartbeat s chunk.value)
  · intro hkind
    rw [accepts, hkind]
    rfl
  · intro hkind
    rw [accepts, hkind]
    exact isOk_guarded tag (isOk_handleShutdown s)
  · intro hkind
    rw [accepts, hkind]
    exact isOk_guarded tag (isOk_handleReconfiguration hs chunk.value)
  · intro hkind
    rw [accepts, hkind]
    exact isOk_guarded tag (isOk_handleForwardTsn hs now chunk.value)
  · intro hkind
    simp only [List.mem_cons, List.not_mem_nil, or_false, not_or] at hkind
    simp [accepts, hkind, Except.isOk, Except.toBool]

end Association

end Fluvora.DataChannel
