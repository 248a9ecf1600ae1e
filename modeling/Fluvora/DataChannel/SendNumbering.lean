import Fluvora.DataChannel.Reachable

/-!
# Numbers of outgoing messages

`sendMessage` takes the next stream sequence number of its channel before `enqueueMessage` looks at
the window, so a message that the full window refuses has used up a number.  `sendMessage_cases` says
once what a send can do; a failed send leaves the association as it was exactly when it was not the
window that refused it.
-/

open Std (ExtTreeMap)

namespace Fluvora.DataChannel

open Fallible

namespace Association

/-! ## What a send can do -/

/-- The checks of `sendMessage` that come before it takes a number. -/
def numbers (s : Association) (streamId : UInt16) (kind : MessageKind) (payload : Bytes) : Bool :=
  decide (s.state = .established) && decide (payload.length ≤ s.config.maximumMessageBytes) &&
    decide (kind = .text → (String.fromUTF8? ⟨payload.toArray⟩).isSome) &&
    s.channels.contains streamId

/-- The number of DATA chunks that carry a user message. -/
def fragmentCount (kind : MessageKind) (payload : Bytes) : ℕ :=
  (Bytes.chunks maxDataPayload (wirePayload kind payload).2).length

/-- The channel counts one message more. -/
def countMessage (s : Association) (streamId : UInt16) (channel : Channel) : Association :=
  { s with
    channels := s.channels.insert streamId
      { channel with nextOutgoingSequence := channel.nextOutgoingSequence + 1 } }

/-- The message that `sendMessage` queues on a channel. -/
def userMessage (streamId : UInt16) (kind : MessageKind) (payload : Bytes) (channel : Channel) :
    OutboundMessage where
  streamId := streamId
  streamSequence := channel.nextOutgoingSequence
  ppid := (wirePayload kind payload).1
  ordered := channel.ordered
  reliability := channel.reliability

/-- A send is refused before it takes a number, or takes the channel's number and queues. -/
theorem sendMessage_eq (now : ℕ) (streamId : UInt16) (kind : MessageKind) (payload : Bytes)
    (s : Association) :
    (s.numbers streamId kind payload = false ∧
      ∃ error, (sendMessage now streamId kind payload).run s = (.error error, s)) ∨
    (s.numbers streamId kind payload = true ∧ s.state = .established ∧
      ∃ channel, s.channels[streamId]? = some channel ∧
        (sendMessage now streamId kind payload).run s =
          (enqueueMessage now (userMessage streamId kind payload channel)
            (wirePayload kind payload).2).run (s.countMessage streamId channel)) := by
  unfold sendMessage numbers
  rw [run_get_bind, run_ensure_bind]
  by_cases hstate : s.state = .established
  swap
  · rw [if_neg hstate]
    exact .inl ⟨by simp [hstate], _, rfl⟩
  rw [if_pos hstate, run_ensure_bind]
  by_cases hlen : payload.length ≤ s.config.maximumMessageBytes
  swap
  · rw [if_neg hlen]
    exact .inl ⟨by simp [hlen], _, rfl⟩
  rw [if_pos hlen, run_ensure_bind]
  by_cases htext : kind = .text → (String.fromUTF8? ⟨payload.toArray⟩).isSome
  swap
  · rw [if_neg htext]
    exact .inl ⟨by simp [htext], _, rfl⟩
  rw [if_pos htext, run_ofOption_bind]
  rcases hchannel : s.channels[streamId]? with _ | channel
  · have habsent : s.channels.contains streamId = false := by
      rw [ExtTreeMap.contains_eq_isSome_getElem?, hchannel]
      rfl
    exact .inl ⟨by simp [habsent], _, rfl⟩
  · have hopen : s.channels.contains streamId = true := by
      rw [ExtTreeMap.contains_eq_isSome_getElem?, hchannel]
      rfl
    refine .inr ⟨?_, hstate, channel, rfl, rfl⟩
    rw [decide_eq_true hstate, decide_eq_true hlen, decide_eq_true htext, hopen]
    rfl

/-- Everything a send can do to a sound association. -/
theorem sendMessage_cases (now : ℕ) (streamId : UInt16) (kind : MessageKind) (payload : Bytes)
    {s : Association} (hs : Sound s) :
    (s.numbers streamId kind payload = false ∧
      ∃ error, (sendMessage now streamId kind payload).run s = (.error error, s)) ∨
    (s.numbers streamId kind payload = true ∧ ∃ channel, s.channels[streamId]? = some channel ∧
      ((s.hasRoom (fragmentCount kind payload) = false ∧
        (sendMessage now streamId kind payload).run s =
          (.error .sendWindowFull, s.countMessage streamId channel)) ∨
       (s.hasRoom (fragmentCount kind payload) = true ∧ ∃ packets outstanding,
        (sendMessage now streamId kind payload).run s =
          (.ok packets, { s.countMessage streamId channel with
            nextTsn := s.nextTsn + .ofNat (fragmentCount kind payload)
            nextMessageId := s.nextMessageId + 1
            outstanding })))) := by
  obtain hrefused | ⟨hnumbers, hstate, channel, hchannel, hrun⟩ :=
    sendMessage_eq now streamId kind payload s
  · exact .inl hrefused
  · obtain ⟨peer, hpeer⟩ := hs.known (.inr hstate)
    have hpeer' : (s.countMessage streamId channel).peerVerificationTag = some peer := hpeer
    refine .inr ⟨hnumbers, channel, hchannel, ?_⟩
    rw [hrun]
    obtain ⟨hfull, hqueue⟩ | ⟨hroom, packets, outstanding, hqueue, -⟩ := enqueueMessage_run now
      (userMessage streamId kind payload channel) (wirePayload kind payload).2
      (s.countMessage streamId channel) hpeer'
    · exact .inl ⟨hfull, hqueue⟩
    · exact .inr ⟨hroom, packets, outstanding, hqueue⟩

/-! ## Failed sends -/

theorem countMessage_ne {s : Association} {streamId : UInt16} {channel : Channel}
    (h : s.channels[streamId]? = some channel) : s.countMessage streamId channel ≠ s := by
  intro hsame
  have hfind : (s.countMessage streamId channel).channels[streamId]? =
      some { channel with nextOutgoingSequence := channel.nextOutgoingSequence + 1 } :=
    ExtTreeMap.getElem?_insert_self
  rw [hsame, h, Option.some.injEq] at hfind
  have hnext : channel.nextOutgoingSequence = channel.nextOutgoingSequence + 1 :=
    congrArg Channel.nextOutgoingSequence hfind
  simp at hnext

/-- A failed send leaves the whole association as it was, unless it had taken a number and the
window had no room. -/
theorem sendMessage_atomic_iff {s : Association} (hs : Reachable s) (now : ℕ) (streamId : UInt16)
    (kind : MessageKind) (payload : Bytes) :
    (∀ error, ((sendMessage now streamId kind payload).run s).1 = .error error →
      ((sendMessage now streamId kind payload).run s).2 = s) ↔
    (s.numbers streamId kind payload = true →
      s.hasRoom (fragmentCount kind payload) = true) := by
  obtain ⟨hrefused, error, hrun⟩ |
      ⟨hnumbers, channel, hchannel, ⟨hfull, hrun⟩ | ⟨hroom, packets, outstanding, hrun⟩⟩ :=
    sendMessage_cases now streamId kind payload hs.sound
  · simp [hrun, hrefused]
  · rw [hrun]
    constructor
    · intro h
      exact absurd (h _ rfl) (countMessage_ne hchannel)
    · intro h
      rw [h hnumbers] at hfull
      cases hfull
  · simp [hrun, hroom]

/-- A channel on stream 0 of an established association, its DCEP ACK in flight. -/
def Sample.openChannel : List Input :=
  Sample.establish false ++
    [.packet 2000000 (Sample.data 3 500 0 0 ppidDcep Sample.dcepOpenPayload)]

/-- 255 messages after the DCEP ACK fill the window. -/
def Sample.fillWindow : List Input :=
  Sample.openChannel ++ List.replicate 255 (.send 3000000 0 .binary [1])

theorem reachable_runInputs {start : Association} (h : new Sample.config = .ok start)
    (inputs : List Input) : Reachable (runInputs inputs start) :=
  ⟨Sample.config, start, inputs, h, rfl⟩

/-- One message more is refused, and its number is gone. -/
theorem full_window_send_not_atomic :
    ∃ start, new Sample.config = .ok start ∧
      ((sendMessage 4000000 0 .binary [2]).run (runInputs Sample.fillWindow start)).1 =
          .error .sendWindowFull ∧
        ((sendMessage 4000000 0 .binary [2]).run (runInputs Sample.fillWindow start)).2 ≠
          runInputs Sample.fillWindow start := by
  obtain ⟨start, hnew⟩ : ∃ start, new Sample.config = .ok start := ⟨_, rfl⟩
  refine ⟨start, hnew, ?_⟩
  have hchecks : (runInputs Sample.fillWindow start).numbers 0 .binary [2] = true ∧
      (runInputs Sample.fillWindow start).hasRoom (fragmentCount .binary [2]) = false := by
    cases hnew
    decide +kernel
  obtain ⟨hrefused, -⟩ | ⟨-, channel, hchannel, ⟨-, hrun⟩ | ⟨hroom, -⟩⟩ :=
    sendMessage_cases 4000000 0 .binary [2] (reachable_runInputs hnew Sample.fillWindow).sound
  · rw [hchecks.1] at hrefused
    cases hrefused
  · rw [hrun]
    exact ⟨rfl, countMessage_ne hchannel⟩
  · rw [hchecks.2] at hroom
    cases hroom

/-- On a channel that is not open nothing is changed. -/
theorem sendMessage_atomic_iff_sample :
    ∃ start, new Sample.config = .ok start ∧
      ∀ error, ((sendMessage 4000000 2 .binary [2]).run
          (runInputs Sample.fillWindow start)).1 = .error error →
        ((sendMessage 4000000 2 .binary [2]).run (runInputs Sample.fillWindow start)).2 =
          runInputs Sample.fillWindow start := by
  obtain ⟨start, hnew⟩ : ∃ start, new Sample.config = .ok start := ⟨_, rfl⟩
  refine ⟨start, hnew, ?_⟩
  have hclosed : (runInputs Sample.fillWindow start).numbers 2 .binary [2] = false := by
    cases hnew
    decide +kernel
  refine (sendMessage_atomic_iff (reachable_runInputs hnew Sample.fillWindow) 4000000 2 .binary
    [2]).mpr ?_
  rw [hclosed]
  exact fun h => absurd h Bool.false_ne_true

end Association

end Fluvora.DataChannel
