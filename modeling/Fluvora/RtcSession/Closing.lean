import Fluvora.Lib.Runs
import Fluvora.RtcSession.Session

/-!
# Closed sessions

`close` is documented as permanent.  A closed session has no SRTP context, refuses datagrams and
keys, and emits nothing; but `restart_ice` and a consent timer that fires write the state without
looking at it.  A session stays closed along a run exactly when there is no restart in it and every
tick finds the timers quiet (`closed_forever_iff`).
-/

namespace Fluvora.Ice.Agent

/-- No timer fires: the consent is fresh, or the agent is already where its age puts it. -/
def TimerQuiet (agent : Agent) (now : ℕ) : Prop :=
  ∀ last, agent.lastAuthenticated = some last →
    (agent.configuration.failureTimeout ≤ now - last → agent.state = .failed) ∧
    (agent.configuration.consentTimeout ≤ now - last →
      now - last < agent.configuration.failureTimeout → agent.state = .disconnected)

/-- A tick leaves the agent alone, or a timer fires and moves it. -/
theorem tick_cases (agent : Agent) (now : ℕ) :
    agent.TimerQuiet now ∧ agent.tick now = ([], agent) ∨
      ¬agent.TimerQuiet now ∧ ∃ target, (target = .failed ∨ target = .disconnected) ∧
        agent.tick now = ([.stateChanged agent.state target], { agent with state := target }) := by
  unfold tick TimerQuiet
  cases hlast : agent.lastAuthenticated with
  | none => exact .inl ⟨by simp, rfl⟩
  | some last =>
    dsimp only
    unfold transition
    split_ifs with hfailure hstate hconsent hstate
    · refine .inl ⟨?_, rfl⟩
      rintro _ ⟨⟩
      exact ⟨fun _ => hstate, by omega⟩
    · refine .inr ⟨?_, .failed, .inl rfl, by rw [hlast]⟩
      intro hquiet
      exact hstate ((hquiet last rfl).1 hfailure)
    · refine .inl ⟨?_, rfl⟩
      rintro _ ⟨⟩
      exact ⟨fun h => absurd h hfailure, fun _ _ => hstate⟩
    · refine .inr ⟨?_, .disconnected, .inr rfl, by rw [hlast]⟩
      intro hquiet
      exact hstate ((hquiet last rfl).2 hconsent (Nat.not_le.mp hfailure))
    · refine .inl ⟨?_, rfl⟩
      rintro _ ⟨⟩
      exact ⟨fun h => absurd h hfailure, fun h => absurd h hconsent⟩

end Fluvora.Ice.Agent

namespace Fluvora.RtcSession

open Fallible
open Srtp (Crypto SrtpContext SrtpError)
open Stun (Digests)

/-- Decrypted media or a DTLS record. -/
def SessionAction.IsInbound : SessionAction → Prop
  | .dtlsInput _ | .inboundRtp _ | .inboundRtcp _ _ => True
  | .transmit _ | .stateChanged _ _ => False

namespace Session

variable {digests : Digests} {crypto : Crypto} {s : Session}

/-- Inbound media, DTLS input or protected output. -/
def Reply.Emission : Reply → Prop
  | .actions emitted => ∃ action ∈ emitted, action.IsInbound
  | .secured _ => True
  | .dtls _ => False

/-- A call that emits media, DTLS input or protected output. -/
def Emits (digests : Digests) (crypto : Crypto) (s : Session) (call : Call) : Prop :=
  ∃ reply, ((perform digests crypto call).run s).1 = .ok reply ∧ reply.Emission

/-- The calls that respect a closed session: no restart, and no tick at which a timer fires. -/
def Respects (s : Session) : Call → Prop
  | .restartIce _ => False
  | .tick now => s.ice.TimerQuiet now
  | _ => True

/-- Closed, without keys. -/
structure Shut (s : Session) : Prop where
  state : s.state = .closed
  srtp : s.srtp = none

theorem shut_close (s : Session) : s.close.2.Shut := by
  unfold close transition
  dsimp only
  split_ifs with h
  · exact ⟨h.symm, rfl⟩
  · exact ⟨rfl, rfl⟩

/-! ## One call -/

theorem Shut.withSrtp_run (h : s.Shut) {α : Type} (operation : Fallible SrtpContext SrtpError α) :
    (withSrtp operation).run s = (.error .srtpNotReady, s) := by
  unfold withSrtp
  rw [run_get_bind, run_ofOption_bind, h.srtp]

theorem not_emits_of_error {call : Call} {error : SessionError} {next : Session}
    (h : (perform digests crypto call).run s = (.error error, next)) :
    ¬Emits digests crypto s call := by
  rintro ⟨reply, hreply, -⟩
  rw [h] at hreply
  cases hreply

theorem not_isInbound_transition (s : Session) (target : SessionState) :
    ∀ action ∈ (s.transition target).1, ¬action.IsInbound := by
  unfold transition
  split_ifs
  · simp
  · simp [SessionAction.IsInbound]

theorem Shut.transition_closed (h : s.Shut) : s.transition .closed = ([], s) := by
  unfold transition
  rw [if_pos h.state.symm]

theorem Shut.close_eq (h : s.Shut) : s.close = ([], s) := by
  unfold close
  rw [← h.srtp]
  exact h.transition_closed

/-- A tick whose timers are quiet leaves any session as it is; otherwise the state follows the ICE
state. -/
theorem tick_eq (s : Session) (now : ℕ) :
    s.ice.TimerQuiet now ∧ s.tick now = ([], s) ∨
      ¬s.ice.TimerQuiet now ∧ ((s.tick now).2.state = .failed ∨
        (s.tick now).2.state = .disconnected) := by
  unfold tick
  rcases s.ice.tick_cases now with ⟨hquiet, htick⟩ | ⟨hfires, target, htarget, htick⟩
  · exact .inl ⟨hquiet, by rw [htick]; rfl⟩
  · refine .inr ⟨hfires, ?_⟩
    rw [htick]
    dsimp only [applyIceEvents, applyIceEvent, transition]
    rcases htarget with rfl | rfl
    · left
      split_ifs with hstate
      · exact hstate.symm
      · rfl
    · right
      split_ifs with hstate
      · exact hstate.symm
      · rfl

/-- A call that respects a closed session leaves it as it is and emits nothing. -/
theorem Shut.of_respects (h : s.Shut) {call : Call} (hcall : s.Respects call) :
    step digests crypto s call = s ∧ ¬Emits digests crypto s call := by
  unfold step
  cases call with
  | handleDatagram now localAddr remote input =>
    have hrun : (perform digests crypto (.handleDatagram now localAddr remote input)).run s =
        (.error .closed, s) := by
      unfold perform handleDatagram
      rw [run_bind, run_get_bind, run_ensure_bind, if_neg (not_not.mpr h.state)]
    exact ⟨by rw [hrun], not_emits_of_error hrun⟩
  | tick now =>
    rcases s.tick_eq now with ⟨-, htick⟩ | ⟨hfires, -⟩
    · have hrun : (perform digests crypto (.tick now)).run s = (.ok (.actions []), s) := by
        unfold perform
        rw [run_get_bind, htick]
        rfl
      refine ⟨by rw [hrun], ?_⟩
      rintro ⟨reply, hreply, hemission⟩
      rw [hrun] at hreply
      cases hreply
      obtain ⟨action, haction, -⟩ := hemission
      cases haction
    · exact absurd hcall hfires
  | installDtlsKeyingMaterial keying =>
    have hrun : (perform digests crypto (.installDtlsKeyingMaterial keying)).run s =
        (.error (.invalidState s.state), s) := by
      unfold perform installDtlsKeyingMaterial
      rw [run_bind, run_get_bind, run_ensure_bind, if_neg (by rw [h.state]; decide)]
    exact ⟨by rw [hrun], not_emits_of_error hrun⟩
  | protectRtp packet =>
    have hrun : (perform digests crypto (.protectRtp packet)).run s = (.error .srtpNotReady, s) := by
      unfold perform protectRtp
      rw [run_bind, run_bind, h.withSrtp_run]
    exact ⟨by rw [hrun], not_emits_of_error hrun⟩
  | protectRtcp packet =>
    have hrun : (perform digests crypto (.protectRtcp packet)).run s =
        (.error .srtpNotReady, s) := by
      unfold perform protectRtcp
      rw [run_bind, run_bind, h.withSrtp_run]
    exact ⟨by rw [hrun], not_emits_of_error hrun⟩
  | transmitDtls payload =>
    unfold perform
    rw [run_get_bind, run_ofExcept_bind]
    constructor
    · cases s.transmitDtls payload <;> rfl
    · rintro ⟨reply, hreply, hemission⟩
      unfold perform at hreply
      rw [run_get_bind, run_ofExcept_bind] at hreply
      cases htransmit : s.transmitDtls payload with
      | error error =>
        rw [htransmit] at hreply
        cases hreply
      | ok transmit =>
        rw [htransmit] at hreply
        cases hreply
        exact hemission
  | close =>
    have hrun : (perform digests crypto .close).run s = (.ok (.actions []), s) := by
      unfold perform
      rw [run_get_bind, h.close_eq]
      rfl
    refine ⟨by rw [hrun], ?_⟩
    rintro ⟨reply, hreply, hemission⟩
    rw [hrun] at hreply
    cases hreply
    obtain ⟨action, haction, -⟩ := hemission
    cases haction
  | restartIce configuration => exact hcall.elim

/-- Any other call takes a session out of the closed state. -/
theorem respects_of_closed {call : Call}
    (hclosed : (step digests crypto s call).state = .closed) : s.Respects call := by
  cases call with
  | tick now =>
    rcases s.tick_eq now with ⟨hquiet, -⟩ | ⟨-, hstate⟩
    · exact hquiet
    · have hnext : step digests crypto s (.tick now) = (s.tick now).2 := rfl
      rw [hnext] at hclosed
      rw [hclosed] at hstate
      rcases hstate with hstate | hstate <;> cases hstate
  | restartIce configuration => cases hclosed
  | _ => trivial

/-! ## Runs -/

/-- After `close`, a session is closed in every state of a run and emits nothing, exactly when no
call restarts ICE and no tick finds a timer due. -/
theorem closed_forever_iff (digests : Digests) (crypto : Crypto) (s : Session)
    (calls : List Call) :
    (Runs.Always (step digests crypto) (fun t => t.state = .closed) s.close.2 calls ∧
      Runs.Each (step digests crypto) (fun t call => ¬Emits digests crypto t call) s.close.2
        calls) ↔
      Runs.Each (step digests crypto) Respects s.close.2 calls := by
  have hkeep (t : Session) (call : Call) (ht : t.Shut) (hcall : t.Respects call) :
      (step digests crypto t call).Shut := by
    rw [(ht.of_respects hcall).1]
    exact ht
  have hiff := Runs.always_iff_each (fun (t : Session) (ht : t.Shut) => ht.state) hkeep
    (fun t call _ hclosed => respects_of_closed hclosed) s.shut_close calls
  constructor
  · rintro ⟨hclosed, -⟩
    exact hiff.mp hclosed
  · intro heach
    have hshut := Runs.always_of_each hkeep s.shut_close heach
    exact ⟨hiff.mpr heach,
      Runs.Each.of_always (fun t call ht hcall => (ht.of_respects hcall).2) hshut heach⟩

/-- Credentials of the least length. -/
def Sample.credentials (usernameFragment : String)
    (h : (usernameFragment.utf8ByteSize ≠ 0 ∧ usernameFragment.utf8ByteSize ≤ 256) ∧
      ':' ∉ usernameFragment.toList) : Ice.Credentials :=
  ⟨usernameFragment, List.replicate 22 97, h.1, h.2, by decide⟩

def Sample.configuration : Ice.Configuration :=
  .new (credentials "server" (by decide)) (credentials "client" (by decide)) 7

/-- The hash functions are not reached in the sample run. -/
def Sample.hashes : Digests :=
  ⟨fun _ _ => .replicate 20 0, fun _ _ => .replicate 32 0, fun _ => 0⟩

def Sample.ciphers : Crypto := ⟨fun _ _ => .replicate 16 0, fun _ _ => .replicate 20 0⟩

/-- A restart reopens a closed session. -/
theorem not_closed_after_restart :
    ¬Runs.Always (step Sample.hashes Sample.ciphers) (fun t => t.state = .closed)
      (new (.new Sample.configuration)).close.2 [.restartIce Sample.configuration] := by
  rintro ⟨-, hclosed⟩
  cases hclosed

end Session

end Fluvora.RtcSession
