import Fluvora.DataChannel.Encoding
import Fluvora.DataChannel.Rejection

/-!
# Repeated reset requests

A peer whose response was lost sends its RE-CONFIG again.  The association answers a request that it
has carried out with a bad sequence the second time, since its number is no longer the expected
one; only a request that was answered with a bad sequence at once is answered alike.
-/

open Std (ExtTreeMap)

namespace Fluvora.DataChannel

open Fallible Results

/-- The result that an answer parameter gives.  An incoming reset that is carried out is answered by
an outgoing reset, which has no result field. -/
def Parameter.result (parameter : Parameter) : UInt32 :=
  if parameter.kind = parameterReconfigResponse then (parameter.value.u32At 4).getD 0
  else reconfigSuccessPerformed

/-- The results in the value of a RE-CONFIG chunk. -/
def responseResults (response : Bytes) : List UInt32 :=
  match parseParameters response with
  | .ok parameters => parameters.map Parameter.result
  | .error _ => []

/-- The results in a packet. -/
def packetResults (packet : Bytes) : List UInt32 :=
  match ParsedPacket.parse packet with
  | .ok parsed => parsed.chunks.flatMap fun chunk =>
      if chunk.kind = typeReConfig then responseResults chunk.value else []
  | .error _ => []

/-- The results in the packets of an output. -/
def AssociationOutput.results (output : AssociationOutput) : List UInt32 :=
  output.packets.flatMap packetResults

namespace Association

variable {s t : Association}

/-! ## One request -/

theorem result_reconfigResponse {requestSequence result : UInt32} {response : Bytes}
    (h : reconfigResponse requestSequence result = .ok response) :
    ∃ parameter : Parameter, pushParameter parameter.kind parameter.value = .ok response ∧
      parameter.result = result := by
  refine ⟨⟨parameterReconfigResponse, Bytes.ofU32 requestSequence ++ Bytes.ofU32 result⟩, h, ?_⟩
  have hword : (Bytes.ofU32 requestSequence ++ Bytes.ofU32 result).u32At 4 = some result :=
    @Bytes.u32At_of_drop _ 4 result [] (by simp [Bytes.ofU32])
  rw [Parameter.result, if_pos rfl, hword]
  rfl

theorem packets_closeStreams (streams : List UInt16) (s : Association) :
    (closeStreams streams s).1.packets = [] := by
  induction streams generalizing s with
  | nil => rfl
  | cons streamId rest ih =>
    unfold closeStreams
    split_ifs
    · exact ih _
    · exact ih s

theorem packets_performReset {expected : UInt32} {streamNumbers : Bytes}
    {streams : Option (List UInt16)} {output : AssociationOutput}
    (h : (performReset expected streamNumbers).run s = (.ok (streams, output), t)) :
    output.packets = [] := by
  rw [performReset, run_modify_bind, run_get_bind, run_ofExcept_bind] at h
  split at h
  · cases h
    exact packets_closeStreams _ _
  · cases h

/-- What the answer to an accepted request says, by its verdict. -/
structure Answered (s : Association) (verdict : Verdict) (response : Bytes)
    (output : AssociationOutput) : Prop where
  packets : output.packets = []
  parameter : ∃ parameter : Parameter,
    pushParameter parameter.kind parameter.value = .ok response ∧
    (verdict = .passed → parameter.result = reconfigErrorBadSequence) ∧
    (verdict = .writes → parameter.result = reconfigSuccessPerformed)

theorem answered_outgoing {value response : Bytes} {output : AssociationOutput}
    (h : (handleOutgoingReset value).run s = (.ok (response, output), t)) :
    Answered s (s.resetVerdict 12 value) response output := by
  rw [handleOutgoingReset, run_ensure_bind] at h
  split_ifs at h with hlen
  swap
  · cases h
  rw [run_ofExcept_bind] at h
  rcases hread : readU32 value 0 with error | requestSequence
  · rw [hread] at h
    cases h
  rw [hread] at h
  dsimp only at h
  rw [run_get_bind, run_ofOption_bind] at h
  rcases hexpected : s.nextPeerReconfigSequence with _ | expected
  · rw [hexpected] at h
    cases h
  rw [hexpected] at h
  dsimp only at h
  have hverdict : s.resetVerdict 12 value =
      if requestSequence = expected then .writes else .passed := by
    rw [resetVerdict, if_pos hlen, hread, hexpected]
  rw [hverdict]
  split_ifs at h ⊢
  · rw [run_bind_eq_ok] at h
    obtain ⟨⟨streams, closed⟩, mid, hreset, h⟩ := h
    rw [run_ofExcept_bind] at h
    rcases hresponse : reconfigResponse requestSequence reconfigSuccessPerformed with error | answer
    · rw [hresponse] at h
      cases h
    rw [hresponse] at h
    cases h
    obtain ⟨parameter, hpush, hresult⟩ := result_reconfigResponse hresponse
    exact ⟨packets_performReset hreset, parameter, hpush, by simp, fun _ => hresult⟩
  · rw [run_ofExcept_bind] at h
    rcases hresponse : reconfigResponse requestSequence reconfigErrorBadSequence with error | answer
    · rw [hresponse] at h
      cases h
    rw [hresponse] at h
    cases h
    obtain ⟨parameter, hpush, hresult⟩ := result_reconfigResponse hresponse
    exact ⟨rfl, parameter, hpush, fun _ => hresult, by simp⟩

theorem answered_incoming {value response : Bytes} {output : AssociationOutput}
    (h : (handleIncomingReset value).run s = (.ok (response, output), t)) :
    Answered s (s.resetVerdict 4 value) response output := by
  rw [handleIncomingReset, run_ensure_bind] at h
  split_ifs at h with hlen
  swap
  · cases h
  rw [run_ofExcept_bind] at h
  rcases hread : readU32 value 0 with error | requestSequence
  · rw [hread] at h
    cases h
  rw [hread] at h
  dsimp only at h
  rw [run_get_bind, run_ofOption_bind] at h
  rcases hexpected : s.nextPeerReconfigSequence with _ | expected
  · rw [hexpected] at h
    cases h
  rw [hexpected] at h
  dsimp only at h
  have hverdict : s.resetVerdict 4 value =
      if requestSequence = expected then .writes else .passed := by
    rw [resetVerdict, if_pos hlen, hread, hexpected]
  rw [hverdict]
  by_cases hsame : requestSequence = expected
  · rw [if_neg (not_not.mpr hsame), run_bind_eq_ok] at h
    obtain ⟨⟨streams, closed⟩, mid, hreset, h⟩ := h
    dsimp only at h
    rw [run_get_bind, run_modify_bind, run_ofExcept_bind] at h
    split at h
    swap
    · cases h
    next answer hpush =>
      cases h
      rw [if_pos hsame]
      exact ⟨packets_performReset hreset, ⟨parameterOutgoingReset, _⟩, hpush, by simp, fun _ => rfl⟩
  · rw [if_pos hsame, run_ofExcept_bind] at h
    rcases hresponse : reconfigResponse requestSequence reconfigErrorBadSequence with error | answer
    · rw [hresponse] at h
      cases h
    rw [hresponse] at h
    cases h
    rw [if_neg hsame]
    obtain ⟨parameter, hpush, hresult⟩ := result_reconfigResponse hresponse
    exact ⟨rfl, parameter, hpush, fun _ => hresult, by simp⟩

/-! ## The parameters of one RE-CONFIG -/

/-- What the answers to a list of accepted parameters say, by the verdict of the list. -/
structure AnsweredAll (verdict : Verdict) (response : Bytes) (output : AssociationOutput) :
    Prop where
  packets : output.packets = []
  parameters : ∃ answers, parseParameters response = .ok answers ∧
    (verdict = .passed → ∀ answer ∈ answers, answer.result = reconfigErrorBadSequence) ∧
    (verdict = .writes → ∃ answer ∈ answers, answer.result = reconfigSuccessPerformed)

theorem answeredAll_reset {verdict restVerdict : Verdict} {first others : Bytes}
    {closed outputs : AssociationOutput} (hfirst : Answered s verdict first closed)
    (hrefused : verdict ≠ .refused) (hothers : AnsweredAll restVerdict others outputs)
    {restVerdict' : Verdict} (hsame : verdict = .passed → restVerdict' = restVerdict) :
    AnsweredAll (verdict.andThen restVerdict') (first ++ others) (closed ++ outputs) := by
  obtain ⟨hclosed, parameter, hpush, hbad, hperformed⟩ := hfirst
  obtain ⟨houtputs, answers, hparse, hall, hsome⟩ := hothers
  refine ⟨?_, parameter :: answers, ?_, ?_, ?_⟩
  · show closed.packets ++ outputs.packets = []
    rw [hclosed, houtputs]
    rfl
  · rw [parseParameters_push hpush, hparse]
    rfl
  · intro hpassed answer hanswer
    cases verdict with
    | refused => exact absurd rfl hrefused
    | writes => cases hpassed
    | passed =>
      rw [hsame rfl] at hpassed
      rcases List.mem_cons.mp hanswer with rfl | hanswer
      · exact hbad rfl
      · exact hall hpassed answer hanswer
  · intro hwrites
    cases verdict with
    | refused => exact absurd rfl hrefused
    | writes => exact ⟨parameter, by simp, hperformed rfl⟩
    | passed =>
      rw [hsame rfl] at hwrites
      obtain ⟨answer, hanswer, hresult⟩ := hsome hwrites
      exact ⟨answer, by simp [hanswer], hresult⟩

theorem answeredAll_handleParameters (parameters : List Parameter) {expected : UInt32}
    (hexpected : s.nextPeerReconfigSequence = some expected) {response : Bytes}
    {output : AssociationOutput}
    (h : (handleParameters parameters).run s = (.ok (response, output), t)) :
    AnsweredAll (s.parametersVerdict parameters) response output := by
  induction parameters generalizing s expected response output with
  | nil =>
    cases h
    exact ⟨rfl, [], rfl, by simp, fun hverdict => by cases hverdict⟩
  | cons parameter rest ih =>
    have hreset : ∀ (action : Action (Bytes × AssociationOutput)) (verdict : Verdict),
        ResetFollows s expected action verdict →
        (∀ response output t, action.run s = (.ok (response, output), t) →
          Answered s verdict response output) →
        (followedBy action rest).run s = (.ok (response, output), t) →
        AnsweredAll (verdict.andThen (s.parametersVerdict rest)) response output := by
      intro action verdict hfollows hanswered h
      rw [followedBy, run_bind_eq_ok] at h
      obtain ⟨⟨first, closed⟩, mid, hfirst, h⟩ := h
      dsimp only at h
      rw [run_bind_eq_ok] at h
      obtain ⟨⟨others, outputs⟩, t', hothers, h⟩ := h
      cases h
      have hone := hanswered _ _ _ hfirst
      cases verdict with
      | refused =>
        obtain ⟨error, herror⟩ := hfollows
        rw [hfirst] at herror
        cases herror
      | passed =>
        obtain ⟨response', hrun, -⟩ := hfollows
        rw [hfirst] at hrun
        cases hrun
        exact answeredAll_reset hone (by simp) (ih hexpected hothers) fun _ => rfl
      | writes =>
        have hnext : mid.nextPeerReconfigSequence = some (expected + 1) := by
          unfold ResetFollows at hfollows
          rw [hfirst] at hfollows
          exact hfollows
        exact answeredAll_reset hone (by simp) (ih hnext hothers) (by simp)
    unfold handleParameters at h
    unfold parametersVerdict
    split_ifs at h ⊢ with houtgoing hincoming hresponse hlength
    · exact hreset _ _ (resetFollows_outgoing parameter.value hexpected)
        (fun _ _ _ h => answered_outgoing h) h
    · exact hreset _ _ (resetFollows_incoming parameter.value hexpected)
        (fun _ _ _ h => answered_incoming h) h
    · rw [run_ensure_bind, if_pos hlength] at h
      exact ih hexpected h
    · rw [run_ensure_bind, if_neg hlength] at h
      cases h
    · cases h
      exact ⟨rfl, [], rfl, by simp, fun hverdict => by cases hverdict⟩

/-! ## The whole packet -/

theorem packetResults_build {sourcePort destinationPort : UInt16} {tag : UInt32}
    {response packet : Bytes}
    (h : buildPacket sourcePort destinationPort tag typeReConfig 0 response = .ok packet) :
    packetResults packet = responseResults response := by
  rw [packetResults, parse_buildPacket h]
  simp

/-- The results that an accepted RE-CONFIG is answered with, by its verdict. -/
theorem results_handleReconfiguration (hs : Sound s) {value : Bytes} {output : AssociationOutput}
    (h : (handleReconfiguration value).run s = (.ok output, t)) :
    (s.reconfigVerdict value = .passed →
      ∀ result ∈ output.results, result = reconfigErrorBadSequence) ∧
    (s.reconfigVerdict value = .writes → reconfigSuccessPerformed ∈ output.results) := by
  rw [handleReconfiguration, run_get_bind, run_ensure_bind] at h
  split_ifs at h with hstate
  swap
  · cases h
  obtain ⟨peer, hpeer⟩ := hs.known (.inr hstate.1)
  obtain ⟨expected, hexpected⟩ := Option.isSome_iff_exists.mp (hs.started peer hpeer).2
  rw [run_ofExcept_bind] at h
  rcases hparse : parseParameters value with error | parameters
  · rw [hparse] at h
    cases h
  rw [hparse] at h
  dsimp only at h
  rw [run_ensure_bind] at h
  split_ifs at h with hcount
  swap
  · cases h
  rw [run_bind_eq_ok] at h
  obtain ⟨⟨response, closed⟩, mid, hparameters, h⟩ := h
  have hverdict : s.reconfigVerdict value = s.parametersVerdict parameters := by
    rw [reconfigVerdict, hparse]
    exact if_pos ⟨hstate.1, hstate.2, hcount⟩
  obtain ⟨hpackets, answers, hanswers, hall, hsome⟩ :=
    answeredAll_handleParameters parameters hexpected hparameters
  have hresults : output.results = answers.map Parameter.result := by
    have hresponse : responseResults response = answers.map Parameter.result := by
      rw [responseResults, hanswers]
    dsimp only at h
    split_ifs at h with hempty
    · cases h
      rw [AssociationOutput.results, hpackets, ← hresponse, List.isEmpty_iff.mp hempty]
      rfl
    · rw [run_get_bind, run_ofExcept_bind] at h
      split at h
      swap
      · cases h
      rw [run_ofExcept_bind] at h
      split at h
      swap
      · cases h
      next packet hpacket =>
        cases h
        show (closed.packets ++ [packet]).flatMap packetResults = _
        rw [hpackets, ← hresponse, List.nil_append, List.flatMap_singleton]
        exact packetResults_build hpacket
  rw [hverdict, hresults]
  constructor
  · intro hpassed result hresult
    obtain ⟨answer, hanswer, rfl⟩ := List.mem_map.mp hresult
    exact hall hpassed answer hanswer
  · intro hwrites
    obtain ⟨answer, hanswer, hresult⟩ := hsome hwrites
    exact List.mem_map.mpr ⟨answer, hanswer, hresult⟩

/-- A packet whose only chunk is a RE-CONFIG, accepted: what it leaves to its handler. -/
theorem handlePacket_reconfiguration {packet : Bytes} {parsed : ParsedPacket} {chunk : ParsedChunk}
    (hparse : ParsedPacket.parse packet = .ok parsed) (hchunks : parsed.chunks = [chunk])
    (hkind : chunk.kind = typeReConfig) (now : ℕ) (s : Association)
    (hports : parsed.sourcePort = s.config.remotePort ∧
      parsed.destinationPort = s.config.localPort)
    (htag : parsed.verificationTag = s.config.verificationTag) :
    (handlePacket now packet).run s =
      match (handleReconfiguration chunk.value).run s with
      | (.ok output, t) => (.ok (output ++ {}), t)
      | (.error error, t) => (.error error, t) := by
  have hhandler : handleChunk now parsed.verificationTag chunk =
      guarded parsed.verificationTag (handleReconfiguration chunk.value) := by
    unfold handleChunk
    rw [hkind]
    rfl
  rw [handlePacket, run_ofExcept_bind, hparse]
  dsimp only
  rw [run_get_bind, run_ensure_bind, if_pos hports, hchunks, handleChunks, run_bind, hhandler,
    guarded_run, if_pos htag]
  rcases (handleReconfiguration chunk.value).run s with ⟨error | output, t⟩ <;> rfl

/-- An accepted RE-CONFIG packet was addressed to the association, and its handler accepted it. -/
theorem exists_of_handlePacket {packet : Bytes} {parsed : ParsedPacket} {chunk : ParsedChunk}
    (hparse : ParsedPacket.parse packet = .ok parsed) (hchunks : parsed.chunks = [chunk])
    (hkind : chunk.kind = typeReConfig) {now : ℕ} {output : AssociationOutput}
    (h : (handlePacket now packet).run s = (.ok output, t)) :
    (parsed.sourcePort = s.config.remotePort ∧ parsed.destinationPort = s.config.localPort) ∧
    parsed.verificationTag = s.config.verificationTag ∧
    ∃ inner, (handleReconfiguration chunk.value).run s = (.ok inner, t) ∧
      inner.results = output.results := by
  have hports : parsed.sourcePort = s.config.remotePort ∧
      parsed.destinationPort = s.config.localPort := by
    by_contra hports
    rw [handlePacket, run_ofExcept_bind, hparse] at h
    dsimp only at h
    rw [run_get_bind, run_ensure_bind, if_neg hports] at h
    cases h
  have htag : parsed.verificationTag = s.config.verificationTag := by
    by_contra htag
    have hhandler : handleChunk now parsed.verificationTag chunk =
        guarded parsed.verificationTag (handleReconfiguration chunk.value) := by
      unfold handleChunk
      rw [hkind]
      rfl
    rw [handlePacket, run_ofExcept_bind, hparse] at h
    dsimp only at h
    rw [run_get_bind, run_ensure_bind, if_pos hports, hchunks, handleChunks, run_bind, hhandler,
      guarded_run, if_neg htag] at h
    cases h
  refine ⟨hports, htag, ?_⟩
  rw [handlePacket_reconfiguration hparse hchunks hkind now s hports htag] at h
  rcases hinner : (handleReconfiguration chunk.value).run s with ⟨error | inner, t'⟩
  · rw [hinner] at h
    cases h
  · rw [hinner] at h
    cases h
    refine ⟨inner, rfl, ?_⟩
    show _ = (inner.packets ++ []).flatMap packetResults
    rw [List.append_nil]
    rfl

/-- A RE-CONFIG that has just been accepted is answered alike when it comes again, without an
effect, exactly if no request in it carried the expected sequence number. -/
theorem reset_repeated_iff (hreachable : Reachable s) {packet : Bytes} {parsed : ParsedPacket}
    {chunk : ParsedChunk} (hparse : ParsedPacket.parse packet = .ok parsed)
    (hchunks : parsed.chunks = [chunk]) (hkind : chunk.kind = typeReConfig) {now : ℕ}
    {output : AssociationOutput} (hrun : (handlePacket now packet).run s = (.ok output, t)) :
    (∀ later, ∃ again, (handlePacket later packet).run t = (.ok again, t) ∧
      again.results = output.results) ↔ s.reconfigVerdict chunk.value = .passed := by
  have hs := hreachable.sound
  obtain ⟨hports, htag, inner, hinner, hresults⟩ :=
    exists_of_handlePacket hparse hchunks hkind hrun
  have hfollows := follows_reconfiguration hs chunk.value
  constructor
  · intro hrepeats
    by_contra hpassed
    have hwrites : s.reconfigVerdict chunk.value = .writes := by
      cases hverdict : s.reconfigVerdict chunk.value with
      | refused =>
        rw [hverdict] at hfollows
        obtain ⟨error, herror⟩ := hfollows
        rw [hinner] at herror
        cases herror
      | passed => exact absurd hverdict hpassed
      | writes => rfl
    have hperformed := (results_handleReconfiguration hs hinner).2 hwrites
    have ht : Sound t := by
      have hframe := handleReconfiguration_frame chunk.value s
      rw [hinner] at hframe
      exact (@ChunkEffect.reset 0 chunk s t hframe).sound hs
    obtain ⟨again, hagain, hsame⟩ := hrepeats now
    obtain ⟨-, -, inner', hinner', hresults'⟩ :=
      exists_of_handlePacket hparse hchunks hkind hagain
    -- the second time nothing is written, so every request is answered with a bad sequence
    have hpassed' : t.reconfigVerdict chunk.value = .passed := by
      have hfollows' := follows_reconfiguration ht chunk.value
      cases hverdict : t.reconfigVerdict chunk.value with
      | refused =>
        rw [hverdict] at hfollows'
        obtain ⟨error, herror⟩ := hfollows'
        rw [hinner'] at herror
        cases herror
      | passed => rfl
      | writes =>
        rw [hverdict] at hfollows'
        refine absurd ?_ hfollows'
        rw [hinner']
    have hbad := (results_handleReconfiguration ht hinner').1 hpassed' reconfigSuccessPerformed
      (by rwa [hresults', hsame, ← hresults])
    revert hbad
    decide
  · intro hpassed later
    rw [hpassed] at hfollows
    obtain ⟨output', hstate⟩ := hfollows
    rw [hinner] at hstate
    cases hstate
    refine ⟨output, ?_, rfl⟩
    rw [handlePacket_reconfiguration hparse hchunks hkind now s hports htag] at hrun
    rw [handlePacket_reconfiguration hparse hchunks hkind later s hports htag]
    exact hrun

namespace Sample

/-- The chunk of a packet with an outgoing reset of one stream. -/
def resetChunk (sequence : UInt32) (stream : UInt16) : ParsedChunk where
  kind := typeReConfig
  flags := 0
  value := Bytes.ofU16 parameterOutgoingReset ++ Bytes.ofU16 18 ++ Bytes.ofU32 sequence ++
    Bytes.ofU32 0 ++ Bytes.ofU32 0 ++ Bytes.ofU16 stream

theorem parse_reset (sequence : UInt32) (stream : UInt16) :
    ParsedPacket.parse (reset sequence stream) =
      .ok ⟨5000, 5000, 0x11223344, [resetChunk sequence stream]⟩ := by
  obtain ⟨packet, hpacket⟩ := buildPacket_ok 5000 5000 0x11223344 typeReConfig 0
    (show (resetChunk sequence stream).value.length ≤ 65516 by simp [resetChunk])
  have hreset : reset sequence stream = packet := by
    show ((buildPacket 5000 5000 0x11223344 typeReConfig 0
      (resetChunk sequence stream).value).toOption).getD [] = packet
    rw [hpacket]
    rfl
  rw [hreset, parse_buildPacket hpacket]
  rfl

end Sample

/-- A reset of stream 0 with a number that is not expected is answered with a bad sequence each
time. -/
theorem sample_reset_repeated_iff :
    ∃ start, new Sample.config = .ok start ∧
      let s := runInputs (Sample.establish false) start
      ∃ output t, (handlePacket 2000000 (Sample.reset 700 0)).run s = (.ok output, t) ∧
        output.results = [reconfigErrorBadSequence] ∧
        ∀ later, ∃ again, (handlePacket later (Sample.reset 700 0)).run t = (.ok again, t) ∧
          again.results = output.results := by
  obtain ⟨start, hnew⟩ : ∃ start, new Sample.config = .ok start := ⟨_, rfl⟩
  refine ⟨start, hnew, ?_⟩
  intro s
  have hfirst : ((handlePacket 2000000 (Sample.reset 700 0)).run s).1.toOption.map
      AssociationOutput.results = some [reconfigErrorBadSequence] := by
    cases hnew
    decide +kernel
  have hpassed : s.reconfigVerdict (Sample.resetChunk 700 0).value = .passed := by
    cases hnew
    decide +kernel
  rcases hrun : (handlePacket 2000000 (Sample.reset 700 0)).run s with ⟨error | output, t⟩
  · rw [hrun] at hfirst
    cases hfirst
  · rw [hrun] at hfirst
    refine ⟨output, t, rfl, by simpa [Except.toOption] using hfirst, ?_⟩
    exact (reset_repeated_iff ⟨Sample.config, start, _, hnew, rfl⟩ (Sample.parse_reset 700 0) rfl
      rfl hrun).mpr hpassed

/-- A reset of stream 0 that is carried out is answered with a bad sequence when it comes again. -/
theorem performed_reset_not_repeated :
    ¬∀ s : Association, Reachable s → ∀ (packet : Bytes) (parsed : ParsedPacket)
      (chunk : ParsedChunk), ParsedPacket.parse packet = .ok parsed → parsed.chunks = [chunk] →
      chunk.kind = typeReConfig → ∀ now output t, (handlePacket now packet).run s = (.ok output, t) →
      ∀ later, ∃ again, (handlePacket later packet).run t = (.ok again, t) ∧
        again.results = output.results := by
  intro hall
  obtain ⟨start, hnew⟩ : ∃ start, new Sample.config = .ok start := ⟨_, rfl⟩
  have hfirst : ((handlePacket 2000000 (Sample.reset 500 0)).run
      (runInputs (Sample.establish false) start)).1.toOption.map AssociationOutput.results =
        some [reconfigSuccessPerformed] := by
    cases hnew
    decide +kernel
  have hsecond : ((handlePacket 2000000 (Sample.reset 500 0)).run ((handlePacket 2000000
      (Sample.reset 500 0)).run (runInputs (Sample.establish false) start)).2).1.toOption.map
        AssociationOutput.results = some [reconfigErrorBadSequence] := by
    cases hnew
    decide +kernel
  rcases hrun : (handlePacket 2000000 (Sample.reset 500 0)).run
    (runInputs (Sample.establish false) start) with ⟨error | output, t⟩
  · rw [hrun] at hfirst
    cases hfirst
  obtain ⟨again, hagain, hsame⟩ := hall _ ⟨Sample.config, start, _, hnew, rfl⟩ _ _ _
    (Sample.parse_reset 500 0) rfl rfl _ output t hrun 2000000
  rw [hrun] at hfirst hsecond
  dsimp only at hsecond
  rw [hagain] at hsecond
  simp only [Except.toOption, Option.map_some, Option.some.injEq] at hfirst hsecond
  rw [hfirst, hsecond] at hsame
  revert hsame
  decide

end Association

end Fluvora.DataChannel
