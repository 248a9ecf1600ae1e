import Fluvora.Ice.Nomination

/-!
# Refused datagrams

`handle_datagram` reads a datagram, checks it and only then records it, but the time of an
authenticated check is taken down before there is found to be no room for another pair.  Such a check
is refused with `CandidatePairLimit` and counts for consent, which is lost after a time without an
authenticated check; every other refusal leaves the agent as it is (`handleDatagram_refused`).
-/

namespace Fluvora.Ice.Agent

open Fallible
open Stun (Digests)

variable {digests : Digests} {agent : Agent} {now : ℕ} {localAddr remote : SocketAddr}
  {input : Bytes}

/-- An authenticated check from new addresses for which there is no room. -/
def Overflows (digests : Digests) (agent : Agent) (localAddr remote : SocketAddr)
    (input : Bytes) : Prop :=
  (∃ message algorithm priority,
    agent.examine digests localAddr remote input = .ok (.accept message algorithm priority)) ∧
  ¬agent.Knows localAddr remote ∧
  agent.configuration.maxCandidatePairs ≤ agent.pairs.length

/-- A check without room takes down its time and fails. -/
theorem Overflows.refused (h : agent.Overflows digests localAddr remote input) (now : ℕ) :
    (handleDatagram digests now localAddr remote input).run agent =
      (.error .candidatePairLimit, { agent with lastAuthenticated := some now }) := by
  obtain ⟨⟨message, algorithm, priority, hexamine⟩, hunknown, hfull⟩ := h
  unfold Agent.handleDatagram
  rw [run_get_bind, run_ofExcept_bind, hexamine]
  dsimp only
  rw [run_bind]
  rcases @recordValidPair_outcome agent now localAddr remote priority message.useCandidate with
    ⟨-, -, hrun⟩ | ⟨hroom, -⟩
  · rw [hrun]
  · obtain hknown | hroom := hroom
    · exact absurd hknown hunknown
    · exact absurd hroom (not_lt.mpr hfull)

/-- Any other refusal comes before the agent is changed. -/
theorem eq_of_error (h : ¬agent.Overflows digests localAddr remote input) {error : IceError}
    {after : Agent}
    (hrun : (Agent.handleDatagram digests now localAddr remote input).run agent =
      (.error error, after)) : after = agent := by
  unfold Agent.handleDatagram at hrun
  rw [run_get_bind, run_ofExcept_bind] at hrun
  match hexamine : agent.examine digests localAddr remote input with
  | .error error =>
    rw [hexamine] at hrun
    exact (Prod.mk.inj hrun).2.symm
  | .ok (.respond output) =>
    rw [hexamine] at hrun
    cases hrun
  | .ok (.accept message algorithm priority) =>
    rw [hexamine] at hrun
    dsimp only at hrun
    rw [run_bind] at hrun
    rcases @recordValidPair_outcome agent now localAddr remote priority message.useCandidate with
      ⟨hunknown, hfull, -⟩ | ⟨-, pair, events, recorded, -, -, -, hrecord⟩
    · exact absurd ⟨⟨message, algorithm, priority, hexamine⟩, hunknown, not_lt.mp hfull⟩ h
    · -- the response to a recorded check is always built
      obtain ⟨payload, hpayload⟩ :=
        successResponse_eq_ok digests recorded message remote algorithm
      rw [hrecord] at hrun
      dsimp only at hrun
      rw [run_get_bind, hpayload] at hrun
      cases hrun

/-- A refused datagram leaves the agent as it is, unless it is a check without room, which moves the
time of the last authenticated check and nothing else. -/
theorem handleDatagram_refused (digests : Digests) (agent : Agent) (now : ℕ)
    (localAddr remote : SocketAddr) (input : Bytes) :
    (¬agent.Overflows digests localAddr remote input → ∀ error after,
      (Agent.handleDatagram digests now localAddr remote input).run agent = (.error error, after) →
        after = agent) ∧
    (agent.Overflows digests localAddr remote input →
      (Agent.handleDatagram digests now localAddr remote input).run agent =
        (.error .candidatePairLimit, { agent with lastAuthenticated := some now })) :=
  ⟨fun hroom _ _ hrun => eq_of_error hroom hrun, fun hoverflow => hoverflow.refused now⟩

/-- The hash functions on the messages of the sample run: the check and the response to it, which
begin with different bytes. -/
def Sample.hashes : Digests where
  hmacSha1 _ input := if input.head? = some 0 then
      #v[170, 77, 12, 203, 237, 78, 57, 39, 150, 134, 225, 16, 220, 97, 2, 18, 61, 108, 68, 7]
    else #v[71, 198, 195, 74, 255, 56, 229, 78, 129, 176, 47, 118, 115, 218, 26, 132, 225, 73, 185,
      232]
  hmacSha256 _ _ := .replicate 32 0
  crc32 input := if input.head? = some 0 then 366923210 else 1737256979

/-- A check of "server:client" with priority, integrity and fingerprint. -/
def Sample.check : Bytes :=
  [0, 1, 0, 72, 33, 18, 164, 66, 1, 1, 1, 1, 1, 1, 1, 1, 1, 1, 1, 1, 0, 6, 0, 13, 115, 101, 114,
    118, 101, 114, 58, 99, 108, 105, 101, 110, 116, 0, 0, 0, 0, 36, 0, 4, 0, 0, 3, 232, 128, 42, 0,
    8, 0, 0, 0, 0, 0, 0, 0, 9, 0, 8, 0, 20, 170, 77, 12, 203, 237, 78, 57, 39, 150, 134, 225, 16,
    220, 97, 2, 18, 61, 108, 68, 7, 128, 40, 0, 4, 70, 138, 152, 132]

def Sample.address (port : UInt16) : SocketAddr := .v4 IpAddr.localhostV4 port

/-- One pair at most, and the timeouts of `Configuration::new`. -/
def Sample.onePair : Configuration :=
  { Configuration.new
      ⟨"server", "server-password-1234567".toUTF8.data.toList, by decide, by decide, by decide⟩
      ⟨"client", "client-password-1234567".toUTF8.data.toList, by decide, by decide, by decide⟩ 7 with
    maxCandidatePairs := 1 }

/-- The agent after a check from the port 40000 at the time 0. -/
def Sample.connected : Agent :=
  ((Agent.handleDatagram Sample.hashes 0 (address 5000) (address 40000) check).run
    (new onePair)).2

/-- A check from another port after 25 seconds is refused and keeps the connection for as long. -/
theorem handleDatagram_refused_postpones :
    Sample.connected.state = .connected ∧
      ((Agent.handleDatagram Sample.hashes 25000000000 (Sample.address 5000) (Sample.address 40001)
        Sample.check).run Sample.connected) =
        (.error .candidatePairLimit,
          { Sample.connected with lastAuthenticated := some 25000000000 }) ∧
      Sample.connected.lastAuthenticated = some 0 ∧
      (Sample.connected.tick 31000000000).1 = [.stateChanged .connected .disconnected] ∧
      (({ Sample.connected with lastAuthenticated := some 25000000000 } : Agent).tick
        31000000000).1 = [] := by
  decide

end Fluvora.Ice.Agent
