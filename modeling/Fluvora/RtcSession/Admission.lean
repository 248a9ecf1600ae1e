import Fluvora.Ice.Nomination
import Fluvora.RtcSession.Closing

/-!
# The selected tuple of a session

A session keeps a copy of the addresses that its ICE agent has selected and combines it with the
progress of DTLS.  `Admitted` ties them together: the copy is exact, a session that expects DTLS or
media has a selected pair, and a connected one has keys.  Every call keeps it, also one that fails,
since an agent never fails after it has selected a pair.
-/

namespace Fluvora.RtcSession.Session

open Fallible
open Ice (Agent CandidatePair)
open Srtp (Crypto SrtpContext SrtpError)
open Stun (Digests)

variable {digests : Digests} {crypto : Crypto} {s : Session}

structure Admitted (s : Session) : Prop where
  selectedLocal : s.selectedLocal = s.ice.selectedPair.map CandidatePair.localAddr
  selectedRemote : s.selectedRemote = s.ice.selectedPair.map CandidatePair.remote
  nominated : s.state = .dtlsHandshaking ∨ s.state = .connected → s.ice.selectedPair.isSome
  keyed : s.state = .connected → s.srtp.isSome

theorem admitted_new (configuration : Ice.Configuration) : (new (.new configuration)).Admitted where
  selectedLocal := rfl
  selectedRemote := rfl
  nominated := by rintro (h | h) <;> cases h
  keyed := by rintro ⟨⟩

/-- The agent may change in everything but its selection. -/
theorem Admitted.of_ice (h : s.Admitted) {ice : Agent}
    (hselected : ice.selectedPair = s.ice.selectedPair) : Admitted { s with ice := ice } where
  selectedLocal := by rw [hselected]; exact h.selectedLocal
  selectedRemote := by rw [hselected]; exact h.selectedRemote
  nominated := by rw [hselected]; exact h.nominated
  keyed := h.keyed

theorem Admitted.of_srtp (h : s.Admitted) (context : SrtpContext) :
    Admitted { s with srtp := some context } where
  selectedLocal := h.selectedLocal
  selectedRemote := h.selectedRemote
  nominated := h.nominated
  keyed := fun _ => rfl

/-- A selection that the session follows. -/
theorem Admitted.of_selected (h : s.Admitted) {ice : Agent} {pair : CandidatePair}
    (hselected : ice.selectedPair = some pair) :
    Admitted { s with
      ice := ice, selectedLocal := some pair.localAddr, selectedRemote := some pair.remote } where
  selectedLocal := by rw [hselected]; rfl
  selectedRemote := by rw [hselected]; rfl
  nominated := fun _ => by rw [hselected]; rfl
  keyed := h.keyed

/-! ## States -/

theorem transition_state (s : Session) (target : SessionState) :
    (s.transition target).2 = { s with state := target } := by
  unfold transition
  split_ifs with h
  · rw [h]
  · rfl

theorem Admitted.transition (h : s.Admitted) {target : SessionState}
    (hnominated : target = .dtlsHandshaking ∨ target = .connected → s.ice.selectedPair.isSome)
    (hkeyed : target = .connected → s.srtp.isSome) : (s.transition target).2.Admitted := by
  rw [transition_state]
  exact ⟨h.selectedLocal, h.selectedRemote, hnominated, hkeyed⟩

/-- A change of the ICE state, with a selected pair if it is completed. -/
theorem Admitted.stateChanged (h : s.Admitted) {source target : Ice.IceState}
    (hcompleted : target = .completed → s.ice.selectedPair.isSome) :
    (s.applyIceEvent (.stateChanged source target)).2.Admitted := by
  refine h.transition ?_ ?_
  · cases target with
    | completed => exact fun _ => hcompleted rfl
    | connected => exact h.nominated
    | new => rintro (hstate | hstate) <;> cases hstate
    | disconnected => rintro (hstate | hstate) <;> cases hstate
    | failed => rintro (hstate | hstate) <;> cases hstate
  · cases target with
    | completed =>
      unfold targetState
      split_ifs with hstate hsrtp
      · exact fun _ => hsrtp
      · rintro ⟨⟩
      · exact h.keyed
    | connected => exact h.keyed
    | new => rintro ⟨⟩
    | disconnected => rintro ⟨⟩
    | failed => rintro ⟨⟩

/-! ## Datagrams -/

theorem Admitted.applyIceEvents_transition (h : s.Admitted) {agent : Agent}
    {target : Ice.IceState} (hcompleted : target = .completed → s.ice.selectedPair.isSome) :
    (s.applyIceEvents (agent.transition target).1).2.Admitted := by
  rcases agent.transition_cases target with ⟨-, htransition⟩ | ⟨-, htransition⟩
  · rw [htransition]
    exact h
  · rw [htransition]
    exact @Admitted.stateChanged s h agent.state target hcompleted

theorem applyIceEvents_append (s : Session) (front rest : List Ice.Event) :
    (s.applyIceEvents (front ++ rest)).2 = ((s.applyIceEvents front).2.applyIceEvents rest).2 := by
  induction front generalizing s with
  | nil => rfl
  | cons event front ih => exact ih _

theorem Admitted.handleStun (h : s.Admitted) (now : ℕ) (localAddr remote : SocketAddr)
    (input : Bytes) : ((handleStun digests now localAddr remote input).run s).2.Admitted := by
  unfold Session.handleStun
  rw [run_get_bind]
  have houtcome := Agent.handleDatagram_outcome digests s.ice now localAddr remote input
  generalize (Agent.handleDatagram digests now localAddr remote input).run s.ice = outcome
    at houtcome
  cases houtcome with
  | ignored result hevents hrefused =>
    cases result with
    | error error => exact h
    | ok output =>
      have hstay : ({ s with ice := s.ice } : Session).applyIceEvents output.events = ([], s) := by
        rw [hevents output rfl]
        rfl
      show (Session.applyIceEvents { s with ice := s.ice } output.events).2.Admitted
      rw [hstay]
      exact h
  | full hrefused => exact h.of_ice rfl
  | checked nominated pair events payload recorded hadmitted hunique haddresses hstate hselected =>
    show (Session.applyIceEvents { s with ice := (recorded.transitionAfterCheck nominated).2 }
      (events ++ (recorded.transitionAfterCheck nominated).1)).2.Admitted
    rw [applyIceEvents_append]
    have hnext := recorded.selectedPair_transitionAfterCheck nominated
    rcases hselected with ⟨⟨hnominated, -⟩, rfl, hpair⟩ | ⟨hkept, rfl, hpair⟩
    · have hfollowed := h.of_selected (hnext.trans hpair)
      refine hfollowed.applyIceEvents_transition fun _ => ?_
      show (recorded.transitionAfterCheck nominated).2.selectedPair.isSome
      rw [hnext, hpair]
      rfl
    · have hsame := h.of_ice (hnext.trans hpair)
      refine hsame.applyIceEvents_transition fun htarget => ?_
      show (recorded.transitionAfterCheck nominated).2.selectedPair.isSome
      rw [hnext]
      cases nominated with
      | false =>
        split_ifs at htarget with hsome
        exact hsome
      | true =>
        have hsame : s.ice.selectedPair = some pair := by
          by_contra hother
          exact hkept ⟨rfl, hother⟩
        rw [hpair, hsame]
        rfl

theorem Admitted.withSrtp (h : s.Admitted) {α : Type}
    (operation : Fallible SrtpContext SrtpError α) :
    ((withSrtp operation).run s).2.Admitted := by
  unfold Session.withSrtp
  rw [run_get_bind, run_ofOption_bind]
  cases s.srtp with
  | none => exact h
  | some context => exact h.of_srtp _

theorem requireSelectedTuple_run (s : Session) (localAddr remote : SocketAddr) :
    ((requireSelectedTuple localAddr remote).run s) =
      (if s.selectedLocal = some localAddr ∧ s.selectedRemote = some remote then .ok ()
        else .error .tupleMismatch, s) := by
  unfold requireSelectedTuple
  rw [run_get_bind, run_ensure]

/-- What follows the check of the tuple keeps what it keeps from the session itself. -/
theorem Admitted.requireSelectedTuple_bind (h : s.Admitted) {α : Type}
    {localAddr remote : SocketAddr} {rest : Fallible Session SessionError α}
    (hrest : (rest.run s).2.Admitted) :
    ((do requireSelectedTuple localAddr remote; rest).run s).2.Admitted := by
  rw [run_bind, requireSelectedTuple_run]
  split_ifs
  · exact hrest
  · exact h

theorem Admitted.handleDatagram (h : s.Admitted) (now : ℕ) (localAddr remote : SocketAddr)
    (input : Bytes) :
    ((handleDatagram digests crypto now localAddr remote input).run s).2.Admitted := by
  unfold Session.handleDatagram
  rw [run_get_bind]
  refine run_ensure_bind_invariant h fun _ => ?_
  cases classify input with
  | stun => exact h.handleStun now localAddr remote input
  | dtls =>
    refine h.requireSelectedTuple_bind ?_
    rw [run_get_bind]
    exact run_ensure_bind_invariant h fun _ => h
  | rtp =>
    refine h.requireSelectedTuple_bind (run_bind_invariant (h.withSrtp _) fun plaintext t _ ht => ?_)
    exact run_ofExcept_bind_invariant ht fun _ _ => ht
  | rtcp =>
    refine h.requireSelectedTuple_bind (run_bind_invariant (h.withSrtp _) fun plaintext t _ ht => ?_)
    exact run_ofExcept_bind_invariant ht fun _ _ => ht
  | turnChannelData => exact h
  | unknown => exact h

/-! ## The other calls -/

theorem Admitted.tick (h : s.Admitted) (now : ℕ) : (s.tick now).2.Admitted := by
  unfold Session.tick
  rcases s.ice.tick_cases now with ⟨-, htick⟩ | ⟨-, target, htarget, htick⟩
  · rw [htick]
    exact h
  · rw [htick]
    have hice : Admitted { s with ice := { s.ice with state := target } } := h.of_ice rfl
    refine @Admitted.stateChanged _ hice s.ice.state target ?_
    rintro rfl
    rcases htarget with htarget | htarget <;> cases htarget

theorem Admitted.installDtlsKeyingMaterial (h : s.Admitted) (keying : DirectionalKeyingMaterial) :
    ((installDtlsKeyingMaterial crypto keying).run s).2.Admitted := by
  unfold Session.installDtlsKeyingMaterial
  rw [run_get_bind]
  refine run_ensure_bind_invariant h fun hstate => ?_
  exact (h.of_srtp _).transition (fun _ => h.nominated (.inl hstate)) fun _ => rfl

theorem Admitted.protectRtp (h : s.Admitted) (packet : Bytes) :
    ((protectRtp crypto packet).run s).2.Admitted :=
  run_bind_invariant (h.withSrtp _) fun _ _ _ ht => ht

theorem Admitted.protectRtcp (h : s.Admitted) (packet : Bytes) :
    ((protectRtcp crypto packet).run s).2.Admitted :=
  run_bind_invariant (h.withSrtp _) fun _ _ _ ht => ht

theorem Admitted.close (h : s.Admitted) : s.close.2.Admitted := by
  unfold Session.close
  rw [transition_state]
  refine ⟨h.selectedLocal, h.selectedRemote, ?_, ?_⟩
  · rintro (hstate | hstate) <;> cases hstate
  · rintro ⟨⟩

theorem admitted_restartIce (s : Session) (configuration : Ice.Configuration) :
    (s.restartIce configuration).Admitted where
  selectedLocal := rfl
  selectedRemote := rfl
  nominated := by rintro (hstate | hstate) <;> cases hstate
  keyed := by rintro ⟨⟩

theorem Admitted.step (h : s.Admitted) (call : Call) : (step digests crypto s call).Admitted := by
  unfold Session.step
  cases call with
  | handleDatagram now localAddr remote input =>
    exact run_bind_invariant (h.handleDatagram now localAddr remote input) fun _ _ _ ht => ht
  | tick now => exact h.tick now
  | installDtlsKeyingMaterial keying =>
    exact run_bind_invariant (h.installDtlsKeyingMaterial keying) fun _ _ _ ht => ht
  | protectRtp packet => exact run_bind_invariant (h.protectRtp packet) fun _ _ _ ht => ht
  | protectRtcp packet => exact run_bind_invariant (h.protectRtcp packet) fun _ _ _ ht => ht
  | transmitDtls payload => exact run_ofExcept_bind_invariant h fun _ _ => h
  | close => exact h.close
  | restartIce configuration => exact admitted_restartIce s configuration

theorem admitted_runCalls (h : s.Admitted) (calls : List Call) :
    (runCalls digests crypto s calls).Admitted := by
  induction calls generalizing s with
  | nil => exact h
  | cons call calls ih => exact ih (h.step call)

/-! ## What is emitted -/

theorem not_isInbound_applyIceEvents (s : Session) (events : List Ice.Event) :
    ∀ action ∈ (s.applyIceEvents events).1, ¬action.IsInbound := by
  induction events generalizing s with
  | nil => simp [applyIceEvents]
  | cons event events ih =>
    intro action haction
    rcases List.mem_append.mp haction with hnow | hlater
    · cases event with
      | selectedPair pair => cases hnow
      | stateChanged source target => exact not_isInbound_transition s _ action hnow
    · exact ih _ action hlater

theorem not_isInbound_handleStun {now : ℕ} {localAddr remote : SocketAddr} {input : Bytes}
    {actions : List SessionAction}
    (h : ((handleStun digests now localAddr remote input).run s).1 = .ok actions) :
    ∀ action ∈ actions, ¬action.IsInbound := by
  unfold handleStun at h
  rw [run_get_bind] at h
  dsimp only at h
  rw [run_set_bind, run_ofExcept_bind] at h
  cases hresult : ((Agent.handleDatagram digests now localAddr remote input).run s.ice).1 with
  | error error =>
    rw [hresult] at h
    cases h
  | ok output =>
    rw [hresult] at h
    cases h
    intro action haction
    rcases List.mem_cons.mp haction with rfl | hevent
    · exact not_false
    · exact not_isInbound_applyIceEvents _ _ action hevent

theorem selected_of_requireSelectedTuple {α : Type} {localAddr remote : SocketAddr}
    {rest : Fallible Session SessionError α} {a : α}
    (h : ((do requireSelectedTuple localAddr remote; rest).run s).1 = .ok a) :
    s.selectedLocal = some localAddr ∧ s.selectedRemote = some remote := by
  rw [run_bind, requireSelectedTuple_run] at h
  split_ifs at h with hselected
  exact hselected

/-- A call that returns a datagram returns no actions. -/
theorem not_actions_of_transmit {m : Fallible Session SessionError Transmit}
    (reply : Transmit → Reply) (hreply : ∀ transmit actions, reply transmit ≠ .actions actions)
    {actions : List SessionAction} :
    ¬((do let transmit ← m; return reply transmit : Fallible Session SessionError Reply).run s).1 =
      .ok (.actions actions) := by
  rw [run_bind]
  rcases m.run s with ⟨error | transmit, t⟩
  · simp
  · intro h
    exact hreply transmit actions (Except.ok.inj h)

/-- Media and DTLS records come from datagrams of the selected tuple only. -/
theorem selected_of_isInbound {call : Call} {actions : List SessionAction}
    (h : ((perform digests crypto call).run s).1 = .ok (.actions actions))
    {action : SessionAction} (haction : action ∈ actions) (hinbound : action.IsInbound) :
    ∃ now localAddr remote input, call = .handleDatagram now localAddr remote input ∧
      s.selectedLocal = some localAddr ∧ s.selectedRemote = some remote := by
  cases call with
  | handleDatagram now localAddr remote input =>
    refine ⟨now, localAddr, remote, input, rfl, ?_⟩
    have hrun : ((handleDatagram digests crypto now localAddr remote input).run s).1 =
        .ok actions := by
      unfold perform at h
      rw [run_bind] at h
      rcases hhandle : (handleDatagram digests crypto now localAddr remote input).run s with
        ⟨error | emitted, t⟩
      · rw [hhandle] at h
        cases h
      · rw [hhandle] at h
        cases h
        rfl
    unfold handleDatagram at hrun
    rw [run_get_bind, run_ensure_bind] at hrun
    split_ifs at hrun with hclosed
    cases hkind : classify input with
    | stun =>
      rw [hkind] at hrun
      exact absurd hinbound (not_isInbound_handleStun hrun action haction)
    | dtls =>
      rw [hkind] at hrun
      exact selected_of_requireSelectedTuple hrun
    | rtp =>
      rw [hkind] at hrun
      exact selected_of_requireSelectedTuple hrun
    | rtcp =>
      rw [hkind] at hrun
      exact selected_of_requireSelectedTuple hrun
    | turnChannelData =>
      rw [hkind] at hrun
      cases hrun
    | unknown =>
      rw [hkind] at hrun
      cases hrun
  | tick now =>
    cases h
    exact absurd hinbound (not_isInbound_applyIceEvents _ _ action haction)
  | installDtlsKeyingMaterial keying =>
    unfold perform installDtlsKeyingMaterial at h
    rw [run_bind, run_get_bind, run_ensure_bind] at h
    split_ifs at h with hstate
    cases h
    exact absurd hinbound (not_isInbound_transition _ _ action haction)
  | protectRtp packet => exact (not_actions_of_transmit Reply.secured (by simp) h).elim
  | protectRtcp packet => exact (not_actions_of_transmit Reply.secured (by simp) h).elim
  | transmitDtls payload =>
    unfold perform at h
    rw [run_get_bind] at h
    exact (not_actions_of_transmit Reply.dtls (by simp) h).elim
  | close =>
    cases h
    exact absurd hinbound (not_isInbound_transition _ _ action haction)
  | restartIce configuration =>
    cases h
    cases haction

/-! ## Runs -/

/-- In every state that a session reaches, its tuple is that of the agent's selected pair, it is
connected only with keys and a selected pair, and any further call emits media or a DTLS record only
for a datagram of the selected pair. -/
theorem admission (digests : Digests) (crypto : Crypto) (configuration : Ice.Configuration)
    (calls : List Call) :
    ∃ s, runCalls digests crypto (new (.new configuration)) calls = s ∧
      s.selectedLocal = s.ice.selectedPair.map CandidatePair.localAddr ∧
      s.selectedRemote = s.ice.selectedPair.map CandidatePair.remote ∧
      (s.state = .connected → s.srtp.isSome ∧ s.ice.selectedPair.isSome) ∧
      ∀ call actions action,
        ((perform digests crypto call).run s).1 = .ok (.actions actions) → action ∈ actions →
        action.IsInbound →
        ∃ now localAddr remote input pair,
          call = .handleDatagram now localAddr remote input ∧ s.ice.selectedPair = some pair ∧
            pair.localAddr = localAddr ∧ pair.remote = remote := by
  have hadmitted : (runCalls digests crypto (new (.new configuration)) calls).Admitted :=
    admitted_runCalls (admitted_new configuration) calls
  refine ⟨_, rfl, hadmitted.selectedLocal, hadmitted.selectedRemote, ?_, ?_⟩
  · intro hconnected
    exact ⟨hadmitted.keyed hconnected, hadmitted.nominated (.inr hconnected)⟩
  · intro call actions action hrun haction hinbound
    obtain ⟨now, localAddr, remote, input, rfl, hlocal, hremote⟩ :=
      selected_of_isInbound hrun haction hinbound
    rw [hadmitted.selectedLocal] at hlocal
    rw [hadmitted.selectedRemote] at hremote
    obtain ⟨pair, hpair, rfl⟩ := Option.map_eq_some_iff.mp hlocal
    rw [hpair] at hremote
    exact ⟨now, _, remote, input, pair, rfl, hpair, rfl, Option.some.inj hremote⟩

/-! ## The selected remote address -/

/-- A STUN datagram with which the peer nominates its addresses. -/
def Nominates (digests : Digests) (s : Session) (localAddr remote : SocketAddr) (input : Bytes) :
    Prop :=
  s.state ≠ .closed ∧ classify input = .stun ∧ s.ice.Nominates digests localAddr remote input

theorem ice_applyIceEvents (s : Session) (events : List Ice.Event) :
    (s.applyIceEvents events).2.ice = s.ice := by
  induction events generalizing s with
  | nil => rfl
  | cons event events ih =>
    refine (ih _).trans ?_
    cases event with
    | selectedPair pair => rfl
    | stateChanged source target =>
      show (s.transition (s.targetState target)).2.ice = s.ice
      rw [transition_state]

theorem handleStun_run (s : Session) (now : ℕ) (localAddr remote : SocketAddr) (input : Bytes) :
    ((handleStun digests now localAddr remote input).run s).2.ice =
        ((Agent.handleDatagram digests now localAddr remote input).run s.ice).2 ∧
      (((Agent.handleDatagram digests now localAddr remote input).run s.ice).1.isOk →
        ∃ actions, ((handleStun digests now localAddr remote input).run s).1 = .ok actions) := by
  unfold handleStun
  rw [run_get_bind]
  dsimp only
  rw [run_set_bind, run_ofExcept_bind]
  cases ((Agent.handleDatagram digests now localAddr remote input).run s.ice).1 with
  | error error =>
    refine ⟨rfl, ?_⟩
    rintro ⟨⟩
  | ok output =>
    refine ⟨ice_applyIceEvents _ _, fun _ => ⟨_, rfl⟩⟩

theorem ice_withSrtp (s : Session) {α : Type} (operation : Fallible SrtpContext SrtpError α) :
    ((withSrtp operation).run s).2.ice = s.ice := by
  unfold withSrtp
  rw [run_get_bind, run_ofOption_bind]
  cases s.srtp <;> rfl

/-- Only STUN datagrams of an open session reach the agent. -/
theorem ice_handleDatagram {now : ℕ} {localAddr remote : SocketAddr} {input : Bytes}
    (h : s.state = .closed ∨ classify input ≠ .stun) :
    ((handleDatagram digests crypto now localAddr remote input).run s).2.ice = s.ice := by
  have htuple {α : Type} {rest : Fallible Session SessionError α}
      (hrest : (rest.run s).2.ice = s.ice) :
      ((do requireSelectedTuple localAddr remote; rest).run s).2.ice = s.ice := by
    rw [run_bind, requireSelectedTuple_run]
    split_ifs
    · exact hrest
    · rfl
  unfold handleDatagram
  rw [run_get_bind]
  refine run_ensure_bind_invariant (I := fun t : Session => t.ice = s.ice) rfl fun hopen => ?_
  cases hkind : classify input with
  | stun =>
    rcases h with hclosed | hother
    · exact absurd hclosed hopen
    · exact absurd hkind hother
  | dtls =>
    refine htuple ?_
    rw [run_get_bind]
    exact run_ensure_bind_invariant (I := fun t : Session => t.ice = s.ice) rfl fun _ => rfl
  | rtp =>
    refine htuple (run_bind_invariant (I := fun t : Session => t.ice = s.ice)
      (s.ice_withSrtp _) fun plaintext t _ ht => ?_)
    exact run_ofExcept_bind_invariant (I := fun t : Session => t.ice = s.ice) ht fun _ _ => ht
  | rtcp =>
    refine htuple (run_bind_invariant (I := fun t : Session => t.ice = s.ice)
      (s.ice_withSrtp _) fun plaintext t _ ht => ?_)
    exact run_ofExcept_bind_invariant (I := fun t : Session => t.ice = s.ice) ht fun _ _ => ht
  | turnChannelData => rfl
  | unknown => rfl

theorem handleDatagram_stun {now : ℕ} {localAddr remote : SocketAddr} {input : Bytes}
    (hopen : s.state ≠ .closed) (hkind : classify input = .stun) :
    (handleDatagram digests crypto now localAddr remote input).run s =
      (handleStun digests now localAddr remote input).run s := by
  unfold handleDatagram
  rw [run_get_bind, run_ensure_bind, if_pos hopen, hkind]

/-- A nomination succeeds and moves the selected remote address to that of the datagram. -/
theorem Admitted.selectedRemote_of_nominates (h : s.Admitted) {localAddr remote : SocketAddr}
    {input : Bytes} (hnominates : s.Nominates digests localAddr remote input) (now : ℕ) :
    (∃ actions, ((Session.handleDatagram digests crypto now localAddr remote input).run s).1 =
        .ok actions) ∧
      ((Session.handleDatagram digests crypto now localAddr remote input).run s).2.selectedRemote =
        some remote := by
  obtain ⟨hopen, hkind, hice⟩ := hnominates
  obtain ⟨⟨output, houtput⟩, pair, hpair, rfl⟩ := hice.selects now
  have hrun := @handleStun_run digests s now localAddr pair.remote input
  rw [(h.handleDatagram now localAddr pair.remote input).selectedRemote,
    handleDatagram_stun hopen hkind, hrun.1, hpair]
  exact ⟨hrun.2 (by rw [houtput]; rfl), rfl⟩

theorem Admitted.selectedRemote_of_not_nominates (h : s.Admitted) {localAddr remote : SocketAddr}
    {input : Bytes} (hnominates : ¬s.Nominates digests localAddr remote input) (now : ℕ) :
    ((Session.handleDatagram digests crypto now localAddr remote input).run s).2.selectedRemote =
      s.selectedRemote := by
  rw [(h.handleDatagram now localAddr remote input).selectedRemote, h.selectedRemote]
  by_cases hstun : s.state = .closed ∨ classify input ≠ .stun
  · rw [ice_handleDatagram hstun]
  · rw [not_or, not_not] at hstun
    have hice : ¬s.ice.Nominates digests localAddr remote input :=
      fun hice => hnominates ⟨hstun.1, hstun.2, hice⟩
    rw [handleDatagram_stun hstun.1 hstun.2, (handleStun_run s now localAddr remote input).1,
      Agent.selectedPair_of_not_nominates hice]

theorem Admitted.selectedRemote_tick (h : s.Admitted) (now : ℕ) :
    (s.tick now).2.selectedRemote = s.selectedRemote := by
  have hice : (s.tick now).2.ice.selectedPair = s.ice.selectedPair := by
    unfold Session.tick
    rw [ice_applyIceEvents]
    rcases s.ice.tick_cases now with ⟨-, htick⟩ | ⟨-, target, -, htick⟩ <;> rw [htick]
  rw [(h.tick now).selectedRemote, h.selectedRemote, hice]

theorem selectedRemote_installDtlsKeyingMaterial (s : Session)
    (keying : DirectionalKeyingMaterial) :
    ((installDtlsKeyingMaterial crypto keying).run s).2.selectedRemote = s.selectedRemote := by
  unfold installDtlsKeyingMaterial
  rw [run_get_bind]
  refine run_ensure_bind_invariant
    (I := fun t : Session => t.selectedRemote = s.selectedRemote) rfl fun _ => ?_
  show (transition _ _).2.selectedRemote = _
  rw [transition_state]

theorem selectedRemote_withSrtp (s : Session) {α : Type}
    (operation : Fallible SrtpContext SrtpError α) :
    ((withSrtp operation).run s).2.selectedRemote = s.selectedRemote := by
  unfold withSrtp
  rw [run_get_bind, run_ofOption_bind]
  cases s.srtp <;> rfl

theorem selectedRemote_protectRtp (s : Session) (packet : Bytes) :
    ((protectRtp crypto packet).run s).2.selectedRemote = s.selectedRemote :=
  run_bind_invariant (I := fun t : Session => t.selectedRemote = s.selectedRemote)
    (s.selectedRemote_withSrtp _) fun _ _ _ ht => ht

theorem selectedRemote_protectRtcp (s : Session) (packet : Bytes) :
    ((protectRtcp crypto packet).run s).2.selectedRemote = s.selectedRemote :=
  run_bind_invariant (I := fun t : Session => t.selectedRemote = s.selectedRemote)
    (s.selectedRemote_withSrtp _) fun _ _ _ ht => ht

end Fluvora.RtcSession.Session
