import Fluvora.Lib.Runs
import Fluvora.MediaNode.SessionRegistry
import Fluvora.RtcSession.Admission

/-!
# The routes of a media node

A route should lead to a session that has the address selected (`Routed`); the username fragments
are in bijection with the sessions (`Indexed`), and there are at most as many sessions as the
capacity.  `restart_ice` and `remove` drop the routes of their session, but a nomination that moves
the selected address leaves the route of the old one behind.  The routes are right all along a run
exactly when no datagram is such a move (`routed_iff`).
-/

open Std (ExtTreeMap)

namespace Fluvora.MediaNode.SessionRegistry

open Fallible
open RtcSession (Session SessionError)
open Srtp (Crypto)
open Stun (Digests)

variable {digests : Digests} {crypto : Crypto} {registry : SessionRegistry}

/-- Every route leads to a session that has the address selected. -/
def Routed (registry : SessionRegistry) : Prop :=
  ∀ (remote : SocketAddr) (id : String), registry.remoteToSession[remote]? = some id →
    ∃ managed : ManagedSession, registry.sessions[id]? = some managed ∧
      managed.session.selectedRemote = some remote

/-- Every username fragment belongs to a session, and every session has exactly one. -/
structure Indexed (registry : SessionRegistry) : Prop where
  live : ∀ ufrag id : String, registry.localUfragToSession[ufrag]? = some id → id ∈ registry.sessions
  unique : ∀ id ∈ registry.sessions, ∃! ufrag : String,
    registry.localUfragToSession[ufrag]? = some id

/-- What holds whatever the datagrams are. -/
structure Sound (registry : SessionRegistry) : Prop where
  indexed : registry.Indexed
  size_le : registry.sessions.size ≤ registry.capacity
  admitted : ∀ (id : String) (managed : ManagedSession), registry.sessions[id]? = some managed →
    managed.session.Admitted

/-- A nomination for a session whose route leads from another address. -/
def Moves (digests : Digests) (registry : SessionRegistry) : Call → Prop
  | .handleDatagram _ localAddr remote bytes =>
      ∃ id managed previous, registry.route remote bytes = .ok id ∧
        registry.sessions[id]? = some managed ∧
        managed.session.Nominates digests localAddr remote bytes ∧
        managed.session.selectedRemote = some previous ∧ previous ≠ remote ∧
        registry.remoteToSession[previous]? = some id
  | _ => False

theorem sound_new (capacity : ℕ) : (new capacity).Sound where
  indexed := ⟨by simp [new], by simp [new]⟩
  size_le := by simp [new]
  admitted := by simp [new]

theorem routed_new (capacity : ℕ) : (new capacity).Routed := by
  intro remote id h
  simp [new] at h

/-! ## Writing sessions -/

/-- A session is overwritten and the routes may change. -/
theorem Sound.write (h : registry.Sound) {id : String} {managed written : ManagedSession}
    (hmanaged : registry.sessions[id]? = some managed) (hwritten : written.session.Admitted)
    (routes : ExtTreeMap SocketAddr String) :
    Sound { registry with
      sessions := registry.sessions.insert id written, remoteToSession := routes } := by
  have hkeys (key : String) : key ∈ registry.sessions.insert id written ↔ key ∈ registry.sessions := by
    rw [Maps.mem_insert_iff, or_iff_right_iff_imp]
    rintro rfl
    exact Maps.mem_of_getElem? hmanaged
  refine ⟨⟨?_, ?_⟩, ?_, ?_⟩
  · intro ufrag key hkey
    exact (hkeys key).mpr (h.indexed.live ufrag key hkey)
  · intro key hkey
    exact h.indexed.unique key ((hkeys key).mp hkey)
  · exact (Maps.size_eq_of_mem_iff hkeys).trans_le h.size_le
  · intro key other hother
    by_cases hkey : id = key
    · subst hkey
      rw [ExtTreeMap.getElem?_insert_self] at hother
      cases hother
      exact hwritten
    · rw [Maps.getElem?_insert_of_ne hkey] at hother
      exact h.admitted key other hother

/-- A session is overwritten with the same selected address. -/
theorem Routed.write (h : registry.Routed) {id : String} {managed written : ManagedSession}
    (hmanaged : registry.sessions[id]? = some managed)
    (hwritten : written.session.selectedRemote = managed.session.selectedRemote) :
    Routed { registry with sessions := registry.sessions.insert id written } := by
  intro remote key hroute
  obtain ⟨other, hother, hremote⟩ := h remote key hroute
  by_cases hkey : id = key
  · subst hkey
    rw [hmanaged] at hother
    cases hother
    exact ⟨written, ExtTreeMap.getElem?_insert_self, hwritten.trans hremote⟩
  · exact ⟨other, (Maps.getElem?_insert_of_ne hkey).trans hother, hremote⟩

theorem withSession_run {α : Type} (id : String) (call : Fallible Session SessionError α) :
    (withSession id call).run registry =
      match registry.sessions[id]? with
      | none => (.error .unknownSession, registry)
      | some managed => ((call.run managed.session).1.mapError .transport, { registry with
          sessions := registry.sessions.insert id
            { managed with session := (call.run managed.session).2 } }) := by
  unfold withSession
  rw [run_get_bind, run_ofOption_bind]
  cases registry.sessions[id]? <;> rfl

theorem Sound.withSession (h : registry.Sound) {α : Type} (id : String)
    {call : Fallible Session SessionError α}
    (hcall : ∀ s : Session, s.Admitted → (call.run s).2.Admitted) :
    ((withSession id call).run registry).2.Sound := by
  rw [withSession_run]
  cases hmanaged : registry.sessions[id]? with
  | none => exact h
  | some managed => exact h.write hmanaged (hcall _ (h.admitted id managed hmanaged)) _

theorem Routed.withSession (h : registry.Routed) {α : Type} (id : String)
    {call : Fallible Session SessionError α}
    (hcall : ∀ s : Session, (call.run s).2.selectedRemote = s.selectedRemote) :
    ((withSession id call).run registry).2.Routed := by
  rw [withSession_run]
  cases hmanaged : registry.sessions[id]? with
  | none => exact h
  | some managed => exact h.write hmanaged (hcall _)

/-! ## Datagrams -/

theorem recordRoute_run (remote : SocketAddr) (id : String) :
    ((recordRoute remote id).run registry).2 = registry ∨
      (∃ managed, registry.sessions[id]? = some managed ∧
        managed.session.selectedRemote = some remote) ∧
      ((recordRoute remote id).run registry).2 =
        { registry with remoteToSession := registry.remoteToSession.insert remote id } := by
  unfold recordRoute
  rw [run_get_bind, run_ofOption_bind]
  cases registry.sessions[id]? with
  | none => exact .inl rfl
  | some managed =>
    dsimp only
    split_ifs with hselected
    · rw [run_ensure_bind]
      split_ifs with hfree
      · exact .inr ⟨⟨managed, rfl, hselected⟩, rfl⟩
      · exact .inl rfl
    · exact .inl rfl

/-- A datagram finds no session, or it is handled by one, and then the address may be routed to that
session if it is the selected one. -/
theorem handleDatagram_cases (now : ℕ) (localAddr remote : SocketAddr) (bytes : Bytes) :
    ((handleDatagram digests crypto now localAddr remote bytes).run registry).2 = registry ∧
      (∀ (id : String) (managed : ManagedSession), registry.route remote bytes = .ok id →
        registry.sessions[id]? ≠ some managed) ∨
    ∃ (id : String) (managed : ManagedSession) (s : Session)
      (routes : ExtTreeMap SocketAddr String),
      registry.route remote bytes = .ok id ∧ registry.sessions[id]? = some managed ∧
      s = ((Session.handleDatagram digests crypto now localAddr remote bytes).run
        managed.session).2 ∧
      (routes = registry.remoteToSession ∨ s.selectedRemote = some remote ∧
        routes = registry.remoteToSession.insert remote id) ∧
      ((handleDatagram digests crypto now localAddr remote bytes).run registry).2 =
        { registry with
          sessions := registry.sessions.insert id { managed with session := s }
          remoteToSession := routes } := by
  unfold handleDatagram
  rw [run_get_bind, run_ofExcept_bind]
  cases hroute : registry.route remote bytes with
  | error error => exact .inl ⟨rfl, by simp⟩
  | ok id =>
    dsimp only
    rw [run_ofOption_bind]
    cases hmanaged : registry.sessions[id]? with
    | none =>
      refine .inl ⟨rfl, ?_⟩
      rintro _ managed ⟨⟩
      rw [hmanaged]
      simp
    | some managed =>
      have hrun := @withSession_run registry _ id
        (Session.handleDatagram digests crypto now localAddr remote bytes)
      rw [hmanaged] at hrun
      dsimp only
      rw [run_bind, hrun]
      dsimp only
      rcases hsession : (Session.handleDatagram digests crypto now localAddr remote bytes).run
        managed.session with ⟨error | actions, s⟩
      · exact .inr ⟨id, managed, s, registry.remoteToSession, rfl, hmanaged, by rw [hsession],
          .inl rfl, rfl⟩
      · have hrecord := state_run_bind_pure (recordRoute remote id)
          (fun _ => (⟨id, managed.roomId, managed.participantId, managed.expectedPeerFingerprint,
            actions⟩ : RoutedActions))
          { registry with sessions := registry.sessions.insert id { managed with session := s } }
        refine .inr ⟨id, managed, s, ?_⟩
        rcases @recordRoute_run
          { registry with sessions := registry.sessions.insert id { managed with session := s } }
          remote id with hsame | ⟨⟨written, hwritten, hselected⟩, hinsert⟩
        · exact ⟨registry.remoteToSession, rfl, hmanaged, by rw [hsession], .inl rfl,
            hrecord.trans hsame⟩
        · rw [ExtTreeMap.getElem?_insert_self] at hwritten
          cases hwritten
          exact ⟨_, rfl, hmanaged, by rw [hsession], .inr ⟨hselected, rfl⟩, hrecord.trans hinsert⟩

theorem Sound.handleDatagram (h : registry.Sound) (now : ℕ) (localAddr remote : SocketAddr)
    (bytes : Bytes) :
    ((handleDatagram digests crypto now localAddr remote bytes).run registry).2.Sound := by
  rcases @handleDatagram_cases digests crypto registry now localAddr remote bytes with
    ⟨hsame, -⟩ | ⟨id, managed, s, routes, -, hmanaged, rfl, -, hnext⟩
  · rw [hsame]
    exact h
  · rw [hnext]
    exact h.write hmanaged ((h.admitted id managed hmanaged).handleDatagram _ _ _ _) routes

/-- The routes stay right unless the datagram moves a session away from its route. -/
theorem Routed.handleDatagram (h : registry.Routed) (hsound : registry.Sound) {now : ℕ}
    {localAddr remote : SocketAddr} {bytes : Bytes}
    (hcall : ¬registry.Moves digests (.handleDatagram now localAddr remote bytes)) :
    ((handleDatagram digests crypto now localAddr remote bytes).run registry).2.Routed := by
  rcases @handleDatagram_cases digests crypto registry now localAddr remote bytes with
    ⟨hsame, -⟩ | ⟨id, managed, s, routes, hroute, hmanaged, rfl, hroutes, hnext⟩
  · rw [hsame]
    exact h
  · have hadmitted := hsound.admitted id managed hmanaged
    rw [hnext]
    intro key owner howner
    -- An old route: its session is another one, or it has not moved.
    have hold (hkey : registry.remoteToSession[key]? = some owner) :
        ∃ written : ManagedSession, (registry.sessions.insert id { managed with
          session := ((Session.handleDatagram digests crypto now localAddr remote bytes).run
            managed.session).2 })[owner]? = some written ∧
          written.session.selectedRemote = some key := by
      obtain ⟨other, hother, hremote⟩ := h key owner hkey
      by_cases hid : id = owner
      · subst hid
        rw [hmanaged] at hother
        cases hother
        refine ⟨_, ExtTreeMap.getElem?_insert_self, ?_⟩
        by_cases hnominates : managed.session.Nominates digests localAddr remote bytes
        · dsimp only
          rw [(hadmitted.selectedRemote_of_nominates hnominates now).2]
          by_contra hne
          exact hcall ⟨id, managed, key, hroute, hmanaged, hnominates, hremote,
            fun heq => hne (by rw [heq]), hkey⟩
        · exact (hadmitted.selectedRemote_of_not_nominates hnominates now).trans hremote
      · exact ⟨other, (Maps.getElem?_insert_of_ne hid).trans hother, hremote⟩
    rcases hroutes with rfl | ⟨hselected, rfl⟩
    · exact hold howner
    · dsimp only at howner
      by_cases hkey : remote = key
      · subst hkey
        rw [ExtTreeMap.getElem?_insert_self] at howner
        cases howner
        exact ⟨_, ExtTreeMap.getElem?_insert_self, hselected⟩
      · rw [Maps.getElem?_insert_of_ne hkey] at howner
        exact hold howner

/-- After a move the route of the old address leads to a session that has left it. -/
theorem not_routed_of_moves (hsound : registry.Sound) {now : ℕ}
    {localAddr remote : SocketAddr} {bytes : Bytes}
    (hcall : registry.Moves digests (.handleDatagram now localAddr remote bytes)) :
    ¬((handleDatagram digests crypto now localAddr remote bytes).run registry).2.Routed := by
  obtain ⟨id, managed, previous, hroute, hmanaged, hnominates, hselected, hne, hprevious⟩ := hcall
  rcases @handleDatagram_cases digests crypto registry now localAddr remote bytes with
    ⟨-, hnone⟩ | ⟨_, _, s, routes, hroute', hmanaged', rfl, hroutes, hnext⟩
  · exact absurd hmanaged (hnone id managed hroute)
  · rw [hroute] at hroute'
    cases hroute'
    rw [hmanaged] at hmanaged'
    cases hmanaged'
    have hstale : routes[previous]? = some id := by
      rcases hroutes with rfl | ⟨-, rfl⟩
      · exact hprevious
      · rw [Maps.getElem?_insert_of_ne hne.symm]
        exact hprevious
    rw [hnext]
    intro hrouted
    obtain ⟨written, hwritten, hremote⟩ := hrouted previous id hstale
    rw [ExtTreeMap.getElem?_insert_self] at hwritten
    cases hwritten
    have hmoved := (@Session.Admitted.selectedRemote_of_nominates digests crypto _
      (hsound.admitted id managed hmanaged) _ _ _ hnominates now).2
    rw [hmoved] at hremote
    exact hne (Option.some.inj hremote).symm

/-! ## The other calls -/

theorem provision_run (input : SessionProvision) :
    ((provision input).run registry).2 = registry ∨
      ∃ managed, provisioned input = .ok managed ∧ input.sessionId ∉ registry.sessions ∧
        input.localUsernameFragment ∉ registry.localUfragToSession ∧
        registry.sessions.size < registry.capacity ∧
        ((provision input).run registry).2 = { registry with
          localUfragToSession :=
            registry.localUfragToSession.insert input.localUsernameFragment input.sessionId
          sessions := registry.sessions.insert input.sessionId managed } := by
  unfold provision
  rw [run_ofExcept_bind]
  cases hprovisioned : provisioned input with
  | error error => exact .inl rfl
  | ok managed =>
    dsimp only
    rw [run_get_bind, run_ensure_bind]
    by_cases hsession : input.sessionId ∉ registry.sessions
    · rw [if_pos hsession, run_ensure_bind]
      by_cases hufrag : input.localUsernameFragment ∉ registry.localUfragToSession
      · rw [if_pos hufrag, run_ensure_bind]
        by_cases hcapacity : registry.sessions.size < registry.capacity
        · rw [if_pos hcapacity]
          exact .inr ⟨managed, rfl, hsession, hufrag, hcapacity, rfl⟩
        · rw [if_neg hcapacity]
          exact .inl rfl
      · rw [if_neg hufrag]
        exact .inl rfl
    · rw [if_neg hsession]
      exact .inl rfl

theorem admitted_provisioned {input : SessionProvision} {managed : ManagedSession}
    (h : provisioned input = .ok managed) : managed.session.Admitted := by
  unfold provisioned at h
  obtain ⟨-, -, h⟩ := Results.bind_eq_ok.mp h
  obtain ⟨-, -, h⟩ := Results.bind_eq_ok.mp h
  obtain ⟨-, -, h⟩ := Results.bind_eq_ok.mp h
  rw [Results.ite_error_eq_ok] at h
  obtain ⟨localCredentials, -, h⟩ := Results.bind_eq_ok.mp h.2
  obtain ⟨remoteCredentials, -, h⟩ := Results.bind_eq_ok.mp h
  cases h
  exact Session.admitted_new _

/-- A session takes a username fragment that no other session has, and gives up any other. -/
theorem Indexed.claim (h : registry.Indexed) {next : SessionRegistry} {ufrag id : String}
    (howner : ∀ owner, registry.localUfragToSession[ufrag]? = some owner → owner = id)
    (hindex : ∀ other owner : String, next.localUfragToSession[other]? = some owner ↔
      ufrag = other ∧ owner = id ∨
        ufrag ≠ other ∧ owner ≠ id ∧ registry.localUfragToSession[other]? = some owner)
    (hkeys : ∀ key, key ∈ next.sessions ↔ id = key ∨ key ∈ registry.sessions) : next.Indexed := by
  constructor
  · intro other owner hlookup
    rcases (hindex other owner).mp hlookup with ⟨-, rfl⟩ | ⟨-, -, hold⟩
    · exact (hkeys owner).mpr (.inl rfl)
    · exact (hkeys owner).mpr (.inr (h.live other owner hold))
  · intro key hkey
    by_cases hid : key = id
    · refine ⟨ufrag, (hindex ufrag key).mpr (.inl ⟨rfl, hid⟩), ?_⟩
      intro other hlookup
      rcases (hindex other key).mp hlookup with ⟨rfl, -⟩ | ⟨-, hne, -⟩
      · rfl
      · exact absurd hid hne
    · obtain ⟨own, hown, honly⟩ :=
        h.unique key (((hkeys key).mp hkey).resolve_left fun heq => hid heq.symm)
      have hother : ufrag ≠ own := by
        rintro rfl
        exact hid (howner key hown)
      refine ⟨own, (hindex own key).mpr (.inr ⟨hother, hid, hown⟩), ?_⟩
      intro other hlookup
      rcases (hindex other key).mp hlookup with ⟨-, heq⟩ | ⟨-, -, hold⟩
      · exact absurd heq hid
      · exact honly other hold

theorem Sound.provision (h : registry.Sound) (input : SessionProvision) :
    ((provision input).run registry).2.Sound := by
  rcases @provision_run registry input with
    hsame | ⟨managed, hmanaged, hsession, hufrag, hcapacity, hnext⟩
  · rw [hsame]
    exact h
  · rw [hnext]
    refine ⟨@Indexed.claim registry h.indexed _ input.localUsernameFragment input.sessionId ?_ ?_ ?_,
      ?_, ?_⟩
    · intro owner howner
      exact absurd (Maps.mem_of_getElem? howner) hufrag
    · intro other owner
      have hlive : registry.localUfragToSession[other]? = some owner → owner ≠ input.sessionId := by
        rintro hlookup rfl
        exact hsession (h.indexed.live other _ hlookup)
      dsimp only
      rw [Maps.getElem?_insert_eq_some, @eq_comm _ input.sessionId]
      constructor
      · rintro (hnew | ⟨hne, hlookup⟩)
        · exact .inl hnew
        · exact .inr ⟨hne, hlive hlookup, hlookup⟩
      · rintro (hnew | ⟨hne, -, hlookup⟩)
        · exact .inl hnew
        · exact .inr ⟨hne, hlookup⟩
    · intro key
      exact Maps.mem_insert_iff
    · dsimp only
      rw [ExtTreeMap.size_insert, if_neg (mt ExtTreeMap.contains_iff_mem.mp hsession)]
      exact hcapacity
    · intro id other hother
      rcases Maps.getElem?_insert_eq_some.mp hother with ⟨-, rfl⟩ | ⟨-, hold⟩
      · exact admitted_provisioned hmanaged
      · exact h.admitted id other hold

theorem Routed.provision (h : registry.Routed) (input : SessionProvision) :
    ((provision input).run registry).2.Routed := by
  rcases @provision_run registry input with hsame | ⟨managed, -, hsession, -, -, hnext⟩
  · rw [hsame]
    exact h
  · rw [hnext]
    intro remote id hroute
    obtain ⟨other, hother, hremote⟩ := h remote id hroute
    refine ⟨other, ?_, hremote⟩
    rw [Maps.getElem?_insert_of_ne]
    · exact hother
    · rintro rfl
      exact hsession (Maps.mem_of_getElem? hother)

theorem restartIce_run (input : SessionIceRestart) :
    ((restartIce input).run registry).2 = registry ∨
      ∃ (configuration : Ice.Configuration) (managed : ManagedSession),
        registry.sessions[input.sessionId]? = some managed ∧
        (∀ owner : String, registry.localUfragToSession[input.localUsernameFragment]? =
          some owner → owner = input.sessionId) ∧
        ((restartIce input).run registry).2 = { registry with
          sessions := registry.sessions.insert input.sessionId
            { managed with session := managed.session.restartIce configuration }
          localUfragToSession :=
            (registry.localUfragToSession.filter fun _ owner => owner ≠ input.sessionId).insert
              input.localUsernameFragment input.sessionId
          remoteToSession :=
            registry.remoteToSession.filter fun _ owner => owner ≠ input.sessionId } := by
  unfold restartIce
  rw [run_ofExcept_bind]
  cases restarted input with
  | error error => exact .inl rfl
  | ok configuration =>
    dsimp only
    rw [run_get_bind, run_ofOption_bind]
    cases hmanaged : registry.sessions[input.sessionId]? with
    | none => exact .inl rfl
    | some managed =>
      dsimp only
      rw [run_ensure_bind]
      split_ifs with howner
      · refine .inr ⟨configuration, managed, rfl, ?_, rfl⟩
        intro owner hlookup
        rw [hlookup] at howner
        simpa using howner
      · exact .inl rfl

theorem Sound.restartIce (h : registry.Sound) (input : SessionIceRestart) :
    ((restartIce input).run registry).2.Sound := by
  rcases @restartIce_run registry input with
    hsame | ⟨configuration, managed, hmanaged, howner, hnext⟩
  · rw [hsame]
    exact h
  · have hkeys (written : ManagedSession) (key : String) :
        key ∈ registry.sessions.insert input.sessionId written ↔
          input.sessionId = key ∨ key ∈ registry.sessions := Maps.mem_insert_iff
    have hwritten := @Sound.write registry h input.sessionId managed
      { managed with session := managed.session.restartIce configuration } hmanaged
      (Session.admitted_restartIce managed.session configuration) registry.remoteToSession
    rw [hnext]
    refine ⟨@Indexed.claim registry h.indexed _ input.localUsernameFragment input.sessionId howner
      ?_ (hkeys _), hwritten.size_le, hwritten.admitted⟩
    intro other owner
    dsimp only
    rw [Maps.getElem?_insert_eq_some, Maps.getElem?_filter_eq_some, decide_eq_true_eq,
      @eq_comm _ input.sessionId, and_comm (a := registry.localUfragToSession[other]? = some owner)]

theorem Routed.restartIce (h : registry.Routed) (input : SessionIceRestart) :
    ((restartIce input).run registry).2.Routed := by
  rcases @restartIce_run registry input with hsame | ⟨configuration, managed, -, -, hnext⟩
  · rw [hsame]
    exact h
  · rw [hnext]
    intro remote id hroute
    obtain ⟨hold, hne⟩ := Maps.getElem?_filter_eq_some.mp hroute
    obtain ⟨other, hother, hremote⟩ := h remote id hold
    refine ⟨other, ?_, hremote⟩
    rw [Maps.getElem?_insert_of_ne fun heq => of_decide_eq_true hne heq.symm]
    exact hother

theorem Sound.remove (h : registry.Sound) (id : String) : (registry.remove id).2.Sound := by
  unfold SessionRegistry.remove
  split_ifs with hid
  · refine ⟨⟨?_, ?_⟩, ?_, ?_⟩
    · intro ufrag key hlookup
      obtain ⟨hold, hne⟩ := Maps.getElem?_filter_eq_some.mp hlookup
      obtain ⟨managed, hmanaged⟩ := Maps.mem_iff_exists.mp (h.indexed.live ufrag key hold)
      exact Maps.mem_of_getElem? (Maps.getElem?_erase_eq_some.mpr
        ⟨fun heq => of_decide_eq_true hne heq.symm, hmanaged⟩)
    · intro key hkey
      obtain ⟨managed, hmanaged⟩ := Maps.mem_iff_exists.mp hkey
      obtain ⟨hne, hold⟩ := Maps.getElem?_erase_eq_some.mp hmanaged
      obtain ⟨ufrag, hufrag, honly⟩ := h.indexed.unique key (Maps.mem_of_getElem? hold)
      refine ⟨ufrag, Maps.getElem?_filter_eq_some.mpr
        ⟨hufrag, decide_eq_true fun heq => hne heq.symm⟩, ?_⟩
      intro other hother
      exact honly other (Maps.getElem?_filter_eq_some.mp hother).1
    · refine le_trans (Maps.size_le_of_subset fun key hkey => ?_) h.size_le
      exact ExtTreeMap.mem_of_mem_erase hkey
    · intro key managed hmanaged
      exact h.admitted key managed (Maps.getElem?_erase_eq_some.mp hmanaged).2
  · exact h

theorem Routed.remove (h : registry.Routed) (id : String) : (registry.remove id).2.Routed := by
  unfold SessionRegistry.remove
  split_ifs with hid
  · intro remote key hroute
    obtain ⟨hold, hne⟩ := Maps.getElem?_filter_eq_some.mp hroute
    obtain ⟨managed, hmanaged, hremote⟩ := h remote key hold
    exact ⟨managed, Maps.getElem?_erase_eq_some.mpr
      ⟨fun heq => of_decide_eq_true hne heq.symm, hmanaged⟩, hremote⟩
  · exact h

theorem getElem?_tick (now : ℕ) (id : String) :
    (registry.tick now).2.sessions[id]? = registry.sessions[id]?.map fun managed =>
      { managed with session := (managed.session.tick now).2 } := ExtTreeMap.getElem?_map

theorem Sound.tick (h : registry.Sound) (now : ℕ) : (registry.tick now).2.Sound := by
  have hkeys (key : String) : key ∈ (registry.tick now).2.sessions ↔ key ∈ registry.sessions :=
    ExtTreeMap.mem_map
  refine ⟨⟨?_, ?_⟩, ?_, ?_⟩
  · intro ufrag key hlookup
    exact (hkeys key).mpr (h.indexed.live ufrag key hlookup)
  · intro key hkey
    exact h.indexed.unique key ((hkeys key).mp hkey)
  · exact (Maps.size_eq_of_mem_iff hkeys).trans_le h.size_le
  · intro key managed hmanaged
    rw [getElem?_tick] at hmanaged
    obtain ⟨old, hold, rfl⟩ := Option.map_eq_some_iff.mp hmanaged
    exact (h.admitted key old hold).tick now

theorem Routed.tick (h : registry.Routed) (hsound : registry.Sound) (now : ℕ) :
    (registry.tick now).2.Routed := by
  intro remote id hroute
  obtain ⟨managed, hmanaged, hremote⟩ := h remote id hroute
  refine ⟨_, (getElem?_tick now id).trans (by rw [hmanaged]; rfl), ?_⟩
  exact ((hsound.admitted id managed hmanaged).selectedRemote_tick now).trans hremote

/-! ## Runs -/

theorem Sound.step (h : registry.Sound) (call : Call) :
    (step digests crypto registry call).Sound := by
  cases call with
  | provision input => exact h.provision input
  | restartIce input => exact h.restartIce input
  | remove id => exact h.remove id
  | handleDatagram now localAddr remote bytes => exact h.handleDatagram now localAddr remote bytes
  | tick now => exact h.tick now
  | installDtlsKeyingMaterial id keying =>
    exact h.withSession id fun s hs => hs.installDtlsKeyingMaterial keying
  | protectRtp id packet => exact h.withSession id fun s hs => hs.protectRtp packet
  | protectRtcp id packet => exact h.withSession id fun s hs => hs.protectRtcp packet

theorem Routed.step (h : registry.Routed) (hsound : registry.Sound) {call : Call}
    (hcall : ¬registry.Moves digests call) : (step digests crypto registry call).Routed := by
  cases call with
  | provision input => exact h.provision input
  | restartIce input => exact h.restartIce input
  | remove id => exact h.remove id
  | handleDatagram now localAddr remote bytes => exact h.handleDatagram hsound hcall
  | tick now => exact h.tick hsound now
  | installDtlsKeyingMaterial id keying =>
    exact h.withSession id fun s => s.selectedRemote_installDtlsKeyingMaterial keying
  | protectRtp id packet => exact h.withSession id fun s => s.selectedRemote_protectRtp packet
  | protectRtcp id packet => exact h.withSession id fun s => s.selectedRemote_protectRtcp packet

/-- In every run the username fragments are in bijection with the sessions and the capacity is
kept; and the routes lead to sessions that have their address selected, in every state of the run,
exactly when no nomination moves a session away from its route. -/
theorem routed_iff (digests : Digests) (crypto : Crypto) (capacity : ℕ) (calls : List Call) :
    Runs.Always (step digests crypto)
        (fun registry => registry.Indexed ∧ registry.sessions.size ≤ registry.capacity)
        (new capacity) calls ∧
      (Runs.Always (step digests crypto) Routed (new capacity) calls ↔
        Runs.Each (step digests crypto) (fun registry call => ¬registry.Moves digests call)
          (new capacity) calls) := by
  constructor
  · have hstep (registry : SessionRegistry) (call : Call) (h : registry.Sound) :
        (step digests crypto registry call).Sound := h.step call
    have hsound := Runs.always_of_step hstep (sound_new capacity) calls
    exact hsound.imp fun registry h => ⟨h.indexed, h.size_le⟩
  · refine Runs.always_iff_each
      (I := fun registry : SessionRegistry => registry.Sound ∧ registry.Routed)
      (fun registry h => h.2) ?_ ?_ ⟨sound_new capacity, routed_new capacity⟩ calls
    · intro registry call h hcall
      exact ⟨h.1.step call, h.2.step h.1 hcall⟩
    · intro registry call h hrouted hmoves
      cases call with
      | handleDatagram now localAddr remote bytes => exact not_routed_of_moves h.1 hmoves hrouted
      | _ => exact hmoves

/-- A choice by the byte that tells the three messages of the sample run apart. -/
def Sample.byMessage {α : Type} (input : Bytes) (request first second : α) : α :=
  if input.getD 27 0 = 118 then request else if input.getD 27 0 = 82 then first else second

/-- The hash functions on the messages of the sample run: the request, and a response to each
address. -/
def Sample.hashes : Digests where
  hmacSha1 _ input := byMessage input
    #v[123, 7, 126, 169, 9, 187, 211, 89, 56, 189, 249, 229, 188, 94, 255, 178, 151, 145, 49, 97]
    ⟨#[71, 198, 195, 74, 255, 56, 229, 78, 129, 176, 47, 118, 115, 218, 26, 132, 225, 73, 185, 232],
      by decide⟩
    #v[59, 157, 5, 7, 56, 236, 238, 132, 29, 5, 15, 48, 41, 5, 42, 84, 16, 0, 238, 30]
  hmacSha256 _ _ := .replicate 32 0
  crc32 input := byMessage input 423282685 1737256979 1169412078

def Sample.ciphers : Crypto := ⟨fun _ _ => .replicate 16 0, fun _ _ => .replicate 20 0⟩

def Sample.provisioning : SessionProvision where
  sessionId := "session-1"
  roomId := "room-1"
  participantId := "user-1"
  localUsernameFragment := "server"
  localPassword := "server-password-1234567".toUTF8.data.toList
  remoteUsernameFragment := "client"
  remotePassword := "client-password-1234567".toUTF8.data.toList
  expectedPeerFingerprint := "AA:BB"
  tieBreaker := 7

/-- A check of "server:client" with priority, USE-CANDIDATE, integrity and fingerprint. -/
def Sample.request : Bytes :=
  [0, 1, 0, 76, 33, 18, 164, 66, 1, 1, 1, 1, 1, 1, 1, 1, 1, 1, 1, 1, 0, 6, 0, 13, 115, 101, 114,
    118, 101, 114, 58, 99, 108, 105, 101, 110, 116, 0, 0, 0, 0, 36, 0, 4, 0, 0, 3, 232, 128, 42, 0,
    8, 0, 0, 0, 0, 0, 0, 0, 9, 0, 37, 0, 0, 0, 8, 0, 20, 123, 7, 126, 169, 9, 187, 211, 89, 56, 189,
    249, 229, 188, 94, 255, 178, 151, 145, 49, 97, 128, 40, 0, 4, 74, 110, 146, 179]

def Sample.address (port : UInt16) : SocketAddr := .v4 IpAddr.localhostV4 port

/-- The peer nominates from one port and then from another. -/
def Sample.calls : List Call :=
  [.provision Sample.provisioning,
    .handleDatagram 1 (Sample.address 5000) (Sample.address 40000) Sample.request,
    .handleDatagram 2 (Sample.address 5000) (Sample.address 40001) Sample.request]

/-- The route of the first port outlives the move to the second. -/
theorem stale_route_after_move :
    ¬Runs.Always (step Sample.hashes Sample.ciphers) Routed (new 2) Sample.calls := by
  rintro ⟨-, -, -, hrouted⟩
  have hstale : (Sample.calls.foldl (step Sample.hashes Sample.ciphers)
      (new 2)).remoteToSession[Sample.address 40000]? = some "session-1" := by decide
  have hmoved : ((Sample.calls.foldl (step Sample.hashes Sample.ciphers)
      (new 2)).sessions["session-1"]?.map fun managed => managed.session.selectedRemote) =
        some (some (Sample.address 40001)) := by decide
  have hlast : (Sample.calls.foldl (step Sample.hashes Sample.ciphers) (new 2)).Routed := hrouted
  obtain ⟨managed, hmanaged, hselected⟩ := hlast _ _ hstale
  rw [hmanaged, Option.map_some, hselected] at hmoved
  revert hmoved
  decide

end Fluvora.MediaNode.SessionRegistry
