import Fluvora.ApiServer.ProtocolSessions
import Fluvora.Lib.Runs

/-!
# Agreement on WHIP and WHEP sessions

If no identifier is drawn twice, then in every run the API server and the media node agree on the ICE
credentials of a session that both have, unless a restart of it is between its two halves or its answer
was lost (`sessions_agree`); and the answered restarts of a session count its ETag up one by one
(`etags_counted`).
-/

namespace Fluvora.ApiServer

def ProtocolUpdate.sessionId : ProtocolUpdate → UInt64
  | .checked sessionId _ _ _ => sessionId
  | .posted sessionId _ _ => sessionId

/-- The session as the checks of the patch have found it. -/
def ProtocolUpdate.previous : ProtocolUpdate → ProtocolSession
  | .checked _ previous _ _ => previous
  | .posted _ previous _ => previous

/-- What a creation is about to record. -/
def ProtocolPoint.creation : ProtocolPoint → Option (UInt64 × ProtocolSession)
  | .creating sessionId session => some (sessionId, session)
  | _ => none

namespace ProtocolState

def creations (s : ProtocolState) : Multiset (UInt64 × ProtocolSession) :=
  s.calls.filterMap ProtocolPoint.creation

/-- The versions that the restarts of a session were answered with, in order. -/
def answered (s : ProtocolState) (id : UInt64) : List ℕ :=
  (s.answers.filter fun answer => answer.1 = id).map fun answer => answer.2.toNat

def Agrees (s : ProtocolState) : Prop :=
  ∀ id session credentials, s.sessions.get? id = some session → s.node.get? id = some credentials →
    id ∈ s.lost ∨ (∃ previous, s.update = some (.posted id previous credentials)) ∨
      credentials = session.credentials

/-- The two services, with what keeps them together. -/
structure Coherent (s : ProtocolState) : Prop where
  distinct : (s.creations.map Prod.fst).Nodup
  creating : ∀ entry ∈ s.creations, entry.1 ∈ s.drawn ∧ s.sessions.get? entry.1 = none ∧
    (∀ update, s.update = some update → update.sessionId ≠ entry.1) ∧ s.answered entry.1 = []
  created : ∀ entry ∈ s.creations, entry.2.etagVersion = 1 ∧
    ∀ credentials, s.node.get? entry.1 = some credentials → credentials = entry.2.credentials
  known : ∀ id, id ∉ s.drawn → s.sessions.get? id = none ∧
    (∀ update, s.update = some update → update.sessionId ≠ id) ∧ s.answered id = []
  current : ∀ update, s.update = some update → ∀ session,
    s.sessions.get? update.sessionId = some session → session = update.previous
  posted : ∀ id previous credentials, s.update = some (.posted id previous credentials) →
    ∀ held, s.node.get? id = some held → held = credentials
  agrees : s.Agrees
  counted : ∀ id, s.answered id = List.range' 2 (s.answered id).length
  version : ∀ id session, s.sessions.get? id = some session →
    session.etagVersion.toNat = (s.answered id).length + 1

variable {s t : ProtocolState} {id : UInt64} {session : ProtocolSession}

theorem coherent_start : Coherent start := by
  refine ⟨Multiset.nodup_zero, ?_, ?_, ?_, ?_, ?_, ?_, fun _ => rfl, ?_⟩
  · exact fun entry hentry => absurd hentry (Multiset.notMem_zero _)
  · exact fun entry hentry => absurd hentry (Multiset.notMem_zero _)
  · exact fun id _ => ⟨rfl, (fun update h => by cases h), rfl⟩
  · exact fun update h => by cases h
  · exact fun id previous credentials h => by cases h
  · exact fun id session credentials h => by cases h
  · exact fun id session h => by cases h

/-! ## Sections that touch no credentials -/

/-- Sessions may be forgotten by either service, and creations may end. -/
theorem Coherent.kept (h : s.Coherent) (hcreations : t.creations ≤ s.creations)
    (hsessions : ∀ id session, t.sessions.get? id = some session →
      s.sessions.get? id = some session)
    (hnode : ∀ id credentials, t.node.get? id = some credentials →
      s.node.get? id = some credentials)
    (hupdate : t.update = s.update) (hdrawn : t.drawn = s.drawn) (hanswers : t.answers = s.answers)
    (hlost : t.lost = s.lost) : t.Coherent := by
  have hnone : ∀ id, s.sessions.get? id = none → t.sessions.get? id = none := by
    intro id hid
    rw [Option.eq_none_iff_forall_ne_some] at hid ⊢
    exact fun session hsome => hid session (hsessions id session hsome)
  have hanswered : ∀ id, t.answered id = s.answered id := fun id => by
    rw [answered, hanswers, ← answered]
  refine ⟨?_, fun entry hentry => ?_, fun entry hentry => ?_, fun id hid => ?_, ?_, ?_, ?_,
    fun id => ?_, fun id session hget => ?_⟩
  · exact Multiset.nodup_of_le (Multiset.map_le_map hcreations) h.distinct
  · obtain ⟨hdraw, hget, hother, hlist⟩ := h.creating entry (Multiset.mem_of_le hcreations hentry)
    rw [hdrawn, hupdate, hanswered]
    exact ⟨hdraw, hnone _ hget, hother, hlist⟩
  · obtain ⟨hfirst, hheld⟩ := h.created entry (Multiset.mem_of_le hcreations hentry)
    exact ⟨hfirst, fun credentials hget => hheld credentials (hnode _ _ hget)⟩
  · rw [hdrawn] at hid
    rw [hupdate, hanswered]
    exact ⟨hnone id (h.known id hid).1, (h.known id hid).2⟩
  · rw [hupdate]
    exact fun update heq session hget => h.current update heq session (hsessions _ _ hget)
  · rw [hupdate]
    exact fun id previous credentials heq held hget =>
      h.posted id previous credentials heq held (hnode _ _ hget)
  · intro id session credentials hget hheld
    rw [hlost, hupdate]
    exact h.agrees id session credentials (hsessions _ _ hget) (hnode _ _ hheld)
  · rw [hanswered]
    exact h.counted id
  · rw [hanswered]
    exact h.version id session (hsessions _ _ hget)

theorem creations_cons (point : ProtocolPoint) (calls : Multiset ProtocolPoint) :
    (point ::ₘ calls).filterMap ProtocolPoint.creation =
      point.creation.elim (calls.filterMap ProtocolPoint.creation)
        (· ::ₘ calls.filterMap ProtocolPoint.creation) := by
  cases hcreation : point.creation with
  | none => rw [Multiset.filterMap_cons_none _ _ hcreation, Option.elim_none]
  | some entry => rw [Multiset.filterMap_cons_some _ _ _ hcreation, Option.elim_some]

theorem creations_erase (s : ProtocolState) (point : ProtocolPoint) :
    (s.calls.erase point).filterMap ProtocolPoint.creation ≤ s.creations :=
  Multiset.filterMap_le_filterMap _ (Multiset.erase_le point s.calls)

/-- A request goes on to another point, or returns. -/
theorem Coherent.calls (h : s.Coherent) {calls : Multiset ProtocolPoint}
    (hcalls : calls.filterMap ProtocolPoint.creation ≤ s.creations) :
    Coherent { s with calls := calls } :=
  h.kept hcalls (fun _ _ hget => hget) (fun _ _ hget => hget) rfl rfl rfl rfl

/-- The media node may lose a session, and so may the API server. -/
theorem Coherent.erase_node (h : s.Coherent) (id : UInt64) :
    Coherent { s with node := s.node.erase id } :=
  h.kept (le_refl _) (fun _ _ hget => hget) (fun _ _ hget => (Entries.get?_erase_eq_some.mp hget).2)
    rfl rfl rfl rfl

theorem Coherent.deleteAtNode (h : s.Coherent) (id : UInt64) (answer : NodeAnswer) :
    (s.deleteAtNode id answer).Coherent := by
  cases answer with
  | accepted => exact h.erase_node id
  | refused => exact h
  | lost => exact h.erase_node id

/-! ## Creations -/

theorem Coherent.provision (h : s.Coherent) (hfresh : id ∉ s.drawn) (session : ProtocolSession)
    (answer : NodeAnswer) : (s.provision id { session with etagVersion := 1 } answer).Coherent := by
  obtain ⟨hnone, hother, hlist⟩ := h.known id hfresh
  have hne : ∀ entry ∈ s.creations, entry.1 ≠ id := by
    rintro entry hentry rfl
    exact hfresh (h.creating entry hentry).1
  -- the identifier is drawn
  have hdrawn : Coherent { s with drawn := id :: s.drawn } := by
    refine ⟨h.distinct, fun entry hentry => ?_, h.created, fun other hid => ?_, h.current, h.posted,
      h.agrees, h.counted, h.version⟩
    · exact ⟨List.mem_cons_of_mem _ (h.creating entry hentry).1, (h.creating entry hentry).2⟩
    · exact h.known other fun hmem => hid (List.mem_cons_of_mem _ hmem)
  -- the media node takes the session
  have hnode : Coherent { s with
      drawn := id :: s.drawn, node := s.node.insert id session.credentials } := by
    refine ⟨hdrawn.distinct, hdrawn.creating, fun entry hentry => ?_, hdrawn.known, hdrawn.current,
      fun other previous credentials heq held hget => ?_,
      fun other found credentials hget hheld => ?_, hdrawn.counted, hdrawn.version⟩
    · refine ⟨(h.created entry hentry).1, fun credentials hget => ?_⟩
      dsimp only at hget
      rw [Entries.get?_insert_of_ne (hne entry hentry)] at hget
      exact (h.created entry hentry).2 credentials hget
    · have hsame : other ≠ id := hother _ heq
      dsimp only at hget
      rw [Entries.get?_insert_of_ne hsame] at hget
      exact h.posted other previous credentials heq held hget
    · have hsame : other ≠ id := by
        rintro rfl
        cases hnone.symm.trans hget
      dsimp only at hheld
      rw [Entries.get?_insert_of_ne hsame] at hheld
      exact h.agrees other found credentials hget hheld
  unfold ProtocolState.provision
  dsimp only
  split_ifs
  · exact hdrawn
  · exact hnode
  · have hcons : ProtocolState.creations { s with
        calls := .creating id { session with etagVersion := 1 } ::ₘ s.calls } =
        (id, { session with etagVersion := 1 }) ::ₘ s.creations := creations_cons _ _
    refine ⟨?_, fun entry hentry => ?_, fun entry hentry => ?_, hnode.known, hnode.current,
      hnode.posted, hnode.agrees, hnode.counted, hnode.version⟩
    · change (Multiset.map Prod.fst (ProtocolState.creations { s with
        calls := .creating id { session with etagVersion := 1 } ::ₘ s.calls })).Nodup
      rw [hcons, Multiset.map_cons, Multiset.nodup_cons, Multiset.mem_map]
      refine ⟨?_, h.distinct⟩
      rintro ⟨entry, hentry, hsame⟩
      exact hne entry hentry hsame
    · change entry ∈ ProtocolState.creations { s with
        calls := .creating id { session with etagVersion := 1 } ::ₘ s.calls } at hentry
      rw [hcons, Multiset.mem_cons] at hentry
      rcases hentry with rfl | hentry
      · exact ⟨List.mem_cons_self, hnone, hother, hlist⟩
      · exact hnode.creating entry hentry
    · change entry ∈ ProtocolState.creations { s with
        calls := .creating id { session with etagVersion := 1 } ::ₘ s.calls } at hentry
      rw [hcons, Multiset.mem_cons] at hentry
      rcases hentry with rfl | hentry
      · refine ⟨rfl, fun credentials hget => ?_⟩
        dsimp only at hget
        rw [Entries.get?_insert_self] at hget
        exact (Option.some.inj hget).symm
      · exact hnode.created entry hentry

theorem Coherent.record (h : s.Coherent) (hcall : .creating id session ∈ s.calls) :
    Coherent (ProtocolState.record
      { s with calls := s.calls.erase (.creating id session) } id session) := by
  obtain ⟨rest, hrest⟩ := Multiset.exists_cons_of_mem hcall
  have hcreations : s.creations = (id, session) ::ₘ rest.filterMap ProtocolPoint.creation := by
    rw [creations, hrest, creations_cons, ProtocolPoint.creation, Option.elim_some]
  have hkept := h.calls (creations_erase s (.creating id session))
  rw [hrest, Multiset.erase_cons_head] at hkept ⊢
  have hentry : (id, session) ∈ s.creations := hcreations ▸ Multiset.mem_cons_self _ _
  obtain ⟨hdrawn, hnone, hother, hlist⟩ := h.creating _ hentry
  obtain ⟨hfirst, hheld⟩ := h.created _ hentry
  have hne : ∀ entry ∈ rest.filterMap ProtocolPoint.creation, entry.1 ≠ id := by
    rintro entry hmem rfl
    have hdistinct := h.distinct
    rw [hcreations, Multiset.map_cons, Multiset.nodup_cons] at hdistinct
    exact hdistinct.1 (Multiset.mem_map.mpr ⟨entry, hmem, rfl⟩)
  unfold ProtocolState.record
  dsimp only
  split_ifs
  · refine hkept.calls ?_
    rw [creations_cons]
    exact le_refl _
  · refine ⟨hkept.distinct, fun entry hmem => ?_, hkept.created, fun other hid => ?_,
      fun update heq found hget => ?_, hkept.posted, fun other found credentials hget hnode => ?_,
      hkept.counted, fun other found hget => ?_⟩
    · obtain ⟨hdraw, hget, hrest⟩ := hkept.creating entry hmem
      refine ⟨hdraw, ?_, hrest⟩
      dsimp only
      rw [Entries.get?_insert_of_ne (hne entry hmem)]
      exact hget
    · have hsame : other ≠ id := by
        rintro rfl
        exact hid hdrawn
      obtain ⟨hget, hrest⟩ := hkept.known other hid
      refine ⟨?_, hrest⟩
      dsimp only
      rw [Entries.get?_insert_of_ne hsame]
      exact hget
    · dsimp only at hget
      rw [Entries.get?_insert_of_ne (hother update heq)] at hget
      exact hkept.current update heq found hget
    · dsimp only at hget
      rw [Entries.get?_insert_eq_some] at hget
      rcases hget with ⟨rfl, rfl⟩ | ⟨hsame, hget⟩
      · exact .inr (.inr (hheld credentials hnode))
      · exact hkept.agrees other found credentials hget hnode
    · dsimp only at hget
      rw [Entries.get?_insert_eq_some] at hget
      rcases hget with ⟨rfl, rfl⟩ | ⟨hsame, hget⟩
      · change session.etagVersion.toNat = (s.answered _).length + 1
        rw [hlist, hfirst]
        rfl
      · exact hkept.version other found hget

/-! ## Restarts -/

theorem get?_of_authorizedProtocolSession {roomId : Domain.RoomId} {participant : BitVec 128}
    {protocol : WebRtcHttpProtocol}
    (h : s.authorizedProtocolSession roomId id participant protocol = .ok session) :
    s.sessions.get? id = some session := by
  unfold authorizedProtocolSession at h
  cases hget : s.sessions.get? id with
  | none =>
    rw [hget] at h
    cases h
  | some found =>
    rw [hget] at h
    dsimp only at h
    split_ifs at h
    rw [Except.ok.inj h]

/-- What the checks of a patch leave. -/
theorem beginPatch_run (s : ProtocolState) (roomId : Domain.RoomId) (id : UInt64)
    (participant : BitVec 128) (protocol : WebRtcHttpProtocol) (ifMatch : Option String)
    (fragment : List Char) :
    (s.beginPatch roomId id participant protocol ifMatch fragment).2 = s ∨
      ∃ session username password, s.sessions.get? id = some session ∧
        (s.beginPatch roomId id participant protocol ifMatch fragment).2 =
          { s with update := some (.checked id session username password) } := by
  unfold beginPatch
  cases hauthorized : s.authorizedProtocolSession roomId id participant protocol with
  | error error => exact .inl rfl
  | ok session =>
    dsimp only
    cases requireCurrentEtag ifMatch session.etagVersion with
    | error error => exact .inl rfl
    | ok checked =>
      dsimp only
      cases validateTrickleFragment fragment session with
      | error error => exact .inl rfl
      | ok trickle =>
        cases trickle with
        | candidates => exact .inl rfl
        | iceRestart username password =>
          exact .inr ⟨session, username, password,
            get?_of_authorizedProtocolSession hauthorized, rfl⟩

theorem Coherent.beginPatch (h : s.Coherent) (hidle : s.update = none) (roomId : Domain.RoomId)
    (id : UInt64) (participant : BitVec 128) (protocol : WebRtcHttpProtocol)
    (ifMatch : Option String) (fragment : List Char) :
    (s.beginPatch roomId id participant protocol ifMatch fragment).2.Coherent := by
  rcases beginPatch_run s roomId id participant protocol ifMatch fragment with
    heq | ⟨session, username, password, hget, heq⟩
  · rwa [heq]
  · rw [heq]
    -- a session that is recorded is neither new nor being created
    have hrecorded : ∀ other, s.sessions.get? other = none → id ≠ other := by
      rintro other hnone rfl
      cases hnone.symm.trans hget
    refine ⟨h.distinct, fun entry hentry => ?_, h.created, fun other hid => ?_,
      fun update hupdate found hfound => ?_, fun other previous credentials hupdate => ?_,
      fun other found credentials hfound hnode => ?_, h.counted, h.version⟩
    · obtain ⟨hdrawn, hnone, -, hlist⟩ := h.creating entry hentry
      refine ⟨hdrawn, hnone, fun update hupdate => ?_, hlist⟩
      obtain rfl := Option.some.inj hupdate
      exact hrecorded _ hnone
    · obtain ⟨hnone, -, hlist⟩ := h.known other hid
      refine ⟨hnone, fun update hupdate => ?_, hlist⟩
      obtain rfl := Option.some.inj hupdate
      exact hrecorded _ hnone
    · obtain rfl := Option.some.inj hupdate
      exact Option.some.inj (hfound.symm.trans hget)
    · cases hupdate
    · rcases h.agrees other found credentials hfound hnode with hlost | hposted | hsame
      · exact .inl hlost
      · rw [hidle] at hposted
        obtain ⟨previous, hposted⟩ := hposted
        cases hposted
      · exact .inr (.inr hsame)

/-- The patch ends, or goes on with the same session.  The agreement is for the caller to show. -/
theorem Coherent.update (h : s.Coherent) {update : Option ProtocolUpdate} {lost : List UInt64}
    {node : Entries UInt64 IceCredentials}
    (hupdate : ∀ next, update = some next → ∃ last, s.update = some last ∧
      next.sessionId = last.sessionId ∧ next.previous = last.previous)
    (hnode : ∀ entry ∈ s.creations, node.get? entry.1 = s.node.get? entry.1)
    (hposted : ∀ id previous credentials, update = some (.posted id previous credentials) →
      ∀ held, node.get? id = some held → held = credentials)
    (hagrees : Agrees { s with update := update, lost := lost, node := node }) :
    Coherent { s with update := update, lost := lost, node := node } := by
  have hother : ∀ id, (∀ last, s.update = some last → last.sessionId ≠ id) →
      ∀ next, update = some next → next.sessionId ≠ id := by
    intro id hlast next hnext
    obtain ⟨last, heq, hsame, -⟩ := hupdate next hnext
    rw [hsame]
    exact hlast last heq
  refine ⟨h.distinct, fun entry hentry => ?_, fun entry hentry => ?_, fun id hid => ?_,
    fun next hnext session hget => ?_, hposted, hagrees, h.counted, h.version⟩
  · obtain ⟨hdrawn, hnone, hlast, hlist⟩ := h.creating entry hentry
    exact ⟨hdrawn, hnone, hother _ hlast, hlist⟩
  · dsimp only
    rw [hnode entry hentry]
    exact h.created entry hentry
  · obtain ⟨hnone, hlast, hlist⟩ := h.known id hid
    exact ⟨hnone, hother _ hlast, hlist⟩
  · obtain ⟨last, heq, hsame, hprevious⟩ := hupdate next hnext
    rw [hprevious]
    rw [hsame] at hget
    exact h.current last heq session hget

theorem Coherent.postRestart (h : s.Coherent) {previous : ProtocolSession}
    {username password : List Char}
    (hchecked : s.update = some (.checked id previous username password))
    (credentials : IceCredentials) (answer : NodeAnswer) :
    (s.postRestart id previous credentials answer).Coherent := by
  have hplain : ∀ other found held, s.sessions.get? other = some found →
      s.node.get? other = some held → other ∈ s.lost ∨ held = found.credentials := by
    intro other found held hfound hheld
    rcases h.agrees other found held hfound hheld with hlost | ⟨last, hposted⟩ | hsame
    · exact .inl hlost
    · rw [hchecked] at hposted
      cases hposted
    · exact .inr hsame
  have hnode : ∀ entry ∈ s.creations,
      (s.node.insert id credentials).get? entry.1 = s.node.get? entry.1 := by
    intro entry hentry
    exact Entries.get?_insert_of_ne ((h.creating entry hentry).2.2.1 _ hchecked).symm
  unfold ProtocolState.postRestart
  dsimp only
  split_ifs
  · refine h.update (fun next hnext => by cases hnext) (fun entry hentry => rfl)
      (fun other last posted hnext => by cases hnext) fun other found held hfound hheld => ?_
    exact (hplain other found held hfound hheld).imp_right .inr
  · refine h.update (fun next hnext => by cases hnext) hnode
      (fun other last posted hnext => by cases hnext) fun other found held hfound hheld => ?_
    dsimp only at hheld
    rw [Entries.get?_insert_eq_some] at hheld
    rcases hheld with ⟨rfl, -⟩ | ⟨hne, hheld⟩
    · exact .inl List.mem_cons_self
    · exact (hplain other found held hfound hheld).imp (List.mem_cons_of_mem _) .inr
  · refine h.update (fun next hnext => ?_) hnode (fun other last posted hnext held hheld => ?_)
      fun other found held hfound hheld => ?_
    · obtain rfl := Option.some.inj hnext
      exact ⟨_, hchecked, rfl, rfl⟩
    · cases hnext
      rw [Entries.get?_insert_self] at hheld
      exact (Option.some.inj hheld).symm
    · dsimp only at hheld
      rw [Entries.get?_insert_eq_some] at hheld
      rcases hheld with ⟨rfl, rfl⟩ | ⟨hne, hheld⟩
      · exact .inr (.inl ⟨previous, rfl⟩)
      · exact (hplain other found held hfound hheld).imp_right .inr

/-! ## Commits -/

theorem answered_append (s : ProtocolState) (id : UInt64) (version : UInt64) (other : UInt64) :
    answered { s with answers := s.answers ++ [(id, version)] } other =
      s.answered other ++ if id = other then [version.toNat] else [] := by
  unfold answered
  dsimp only
  rw [List.filter_append, List.map_append]
  by_cases hsame : id = other <;> simp [hsame]

/-- The commit gives the session its new credentials, and the next version if there is one. -/
theorem Coherent.commit (h : s.Coherent) {previous current : ProtocolSession}
    {credentials : IceCredentials} (hposted : s.update = some (.posted id previous credentials))
    (hget : s.sessions.get? id = some current) {version : UInt64} {answers : List (UInt64 × UInt64)}
    (hanswers : version = current.etagVersion ∧ answers = s.answers ∨
      version.toNat = current.etagVersion.toNat + 1 ∧ answers = s.answers ++ [(id, version)]) :
    Coherent { s with
      update := none
      lost := s.lost.filter (· ≠ id)
      sessions := s.sessions.insert id
        { current with credentials := credentials, etagVersion := version }
      answers := answers } := by
  have hne : ∀ other, s.sessions.get? other = none → other ≠ id := by
    rintro other hnone rfl
    cases hnone.symm.trans hget
  have hothers : ∀ other, other ≠ id →
      answered { s with answers := answers } other = s.answered other := by
    intro other hother
    rcases hanswers with ⟨-, rfl⟩ | ⟨-, rfl⟩
    · rfl
    · rw [answered_append, if_neg hother.symm, List.append_nil]
  have hversion := h.version id current hget
  refine ⟨h.distinct, fun entry hentry => ?_, h.created, fun other hid => ?_,
    (fun update hupdate => by cases hupdate), (fun other last held hupdate => by cases hupdate),
    fun other found held hfound hheld => ?_, fun other => ?_, fun other found hfound => ?_⟩
  · obtain ⟨hdrawn, hnone, -, hlist⟩ := h.creating entry hentry
    refine ⟨hdrawn, ?_, fun update hupdate => (by cases hupdate),
      (hothers _ (hne _ hnone)).trans hlist⟩
    exact (Entries.get?_insert_of_ne (hne _ hnone)).trans hnone
  · obtain ⟨hnone, -, hlist⟩ := h.known other hid
    refine ⟨?_, fun update hupdate => (by cases hupdate), (hothers _ (hne _ hnone)).trans hlist⟩
    exact (Entries.get?_insert_of_ne (hne _ hnone)).trans hnone
  · dsimp only at hfound hheld
    rw [Entries.get?_insert_eq_some] at hfound
    rcases hfound with ⟨rfl, rfl⟩ | ⟨hother, hfound⟩
    · exact .inr (.inr (h.posted _ _ _ hposted held hheld))
    · rcases h.agrees other found held hfound hheld with hlost | ⟨last, hlast⟩ | hsame
      · exact .inl (List.mem_filter.mpr ⟨hlost, decide_eq_true hother⟩)
      · rw [hposted] at hlast
        cases hlast
        exact absurd rfl hother
      · exact .inr (.inr hsame)
  · change answered { s with answers := answers } other =
      List.range' 2 (answered { s with answers := answers } other).length
    by_cases hother : other = id
    · subst hother
      rcases hanswers with ⟨-, rfl⟩ | ⟨hnext, rfl⟩
      · exact h.counted other
      · rw [answered_append, if_pos rfl, List.length_append, List.length_singleton,
          List.range'_concat, ← h.counted other]
        congr 1
        rw [hnext, hversion]
        congr 1
        omega
    · rw [hothers other hother]
      exact h.counted other
  · change found.etagVersion.toNat = (answered { s with answers := answers } other).length + 1
    dsimp only at hfound
    rw [Entries.get?_insert_eq_some] at hfound
    rcases hfound with ⟨rfl, rfl⟩ | ⟨hother, hfound⟩
    · rcases hanswers with ⟨rfl, rfl⟩ | ⟨hnext, rfl⟩
      · exact hversion
      · rw [answered_append, if_pos rfl, List.length_append, List.length_singleton, ← hversion]
        exact hnext
    · rw [hothers other hother]
      exact h.version other found hfound

theorem Coherent.commitRestart (h : s.Coherent) {previous : ProtocolSession}
    {credentials : IceCredentials} (hposted : s.update = some (.posted id previous credentials)) :
    (s.commitRestart id previous credentials).Coherent := by
  unfold ProtocolState.commitRestart
  dsimp only
  cases hget : s.sessions.get? id with
  | none =>
    refine h.update (fun next hnext => by cases hnext) (fun entry hentry => rfl)
      (fun other last held hnext => by cases hnext) fun other found held hfound hheld => ?_
    rcases h.agrees other found held hfound hheld with hlost | ⟨last, hlast⟩ | hsame
    · exact .inl hlost
    · rw [hposted] at hlast
      cases hlast
      cases hget.symm.trans hfound
    · exact .inr (.inr hsame)
  | some current =>
    -- nobody else changes the session while `protocol_updates` is held
    obtain rfl : current = previous := h.current _ hposted current hget
    dsimp only
    rw [if_neg (not_not.mpr rfl)]
    split_ifs with hroom
    · refine h.commit hposted hget (.inr ⟨?_, rfl⟩)
      rw [UInt64.toNat_add, UInt64.toNat_one, Nat.mod_eq_of_lt hroom]
    · exact h.commit hposted hget (.inl ⟨rfl, rfl⟩)

/-! ## Runs -/

/-- A creation draws an identifier that was not drawn before. -/
def Fresh (s : ProtocolState) : Action → Prop
  | .provision id _ _ => id ∉ s.drawn
  | _ => True

theorem Coherent.step (h : s.Coherent) (action : Action) (hfresh : s.Fresh action) :
    (s.step action).Coherent := by
  cases action with
  | provision id session answer => exact h.provision hfresh session answer
  | record id session =>
    unfold ProtocolState.step
    dsimp only
    split_ifs with hcall
    · exact h.record hcall
    · exact h
  | rollBack id answer =>
    unfold ProtocolState.step
    dsimp only
    split_ifs with hcall
    · exact (h.calls (creations_erase s _)).deleteAtNode id answer
    · exact h
  | patch roomId id participant protocol ifMatch fragment =>
    unfold ProtocolState.step
    dsimp only
    cases hidle : s.update with
    | none => exact h.beginPatch hidle roomId id participant protocol ifMatch fragment
    | some update => exact h
  | post username password answer =>
    unfold ProtocolState.step
    dsimp only
    cases hupdate : s.update with
    | none => exact h
    | some update =>
      cases update with
      | checked id previous remoteUsername remotePassword => exact h.postRestart hupdate _ answer
      | posted id previous credentials => exact h
  | commit =>
    unfold ProtocolState.step
    dsimp only
    cases hupdate : s.update with
    | none => exact h
    | some update =>
      cases update with
      | checked id previous remoteUsername remotePassword => exact h
      | posted id previous credentials => exact h.commitRestart hupdate
  | delete roomId id participant protocol =>
    unfold ProtocolState.step
    dsimp only
    cases s.authorizedProtocolSession roomId id participant protocol with
    | error error => exact h
    | ok session =>
      refine h.calls ?_
      rw [creations_cons]
      exact le_refl _
  | cleanUp roomId participant =>
    refine h.calls ?_
    rw [Multiset.filterMap_add]
    generalize s.sessionsOf roomId participant = ids
    have hnone : (Multiset.ofList (ids.map ProtocolPoint.deleting)).filterMap
        ProtocolPoint.creation = 0 := by
      induction ids with
      | nil => rfl
      | cons id ids ih => exact ih
    rw [hnone, zero_add]
    exact le_refl _
  | deleteAtNode id answer =>
    unfold ProtocolState.step
    dsimp only
    have hdeleted := (h.calls (creations_erase s (.deleting id))).deleteAtNode id answer
    split_ifs with hcall haccepted
    · refine hdeleted.calls ?_
      rw [creations_cons]
      exact le_refl _
    · exact hdeleted
    · exact h
  | forget id =>
    unfold ProtocolState.step
    dsimp only
    split_ifs with hcall
    · exact (h.calls (creations_erase s (.deleted id))).kept (le_refl _)
        (fun _ _ hget => (Entries.get?_erase_eq_some.mp hget).2) (fun _ _ hget => hget)
        rfl rfl rfl rfl
    · exact h
  | lose id => exact h.erase_node id

theorem coherent_run {actions : List Action} (hfresh : Runs.Each step Fresh start actions) :
    Runs.Always step Coherent start actions :=
  Runs.always_of_each (fun _ action h hfresh => h.step action hfresh) coherent_start hfresh

/-- A session, whose credentials the participant replaces. -/
def restarted : List Action :=
  [.provision 7 ⟨1, 5, .whip, ⟨['a'], ['b'], ['c'], ['d']⟩, 0⟩ .accepted,
    .record 7 ⟨1, 5, .whip, ⟨['a'], ['b'], ['c'], ['d']⟩, 1⟩,
    .patch 1 7 5 .whip (some "\"1\"")
      "a=ice-ufrag:eeee\na=ice-pwd:ffffffffffffffffffffff\n".toList,
    .post ['g'] ['h'] .accepted, .commit]

theorem fresh_restarted : Runs.Each step Fresh start restarted :=
  ⟨List.not_mem_nil, trivial, trivial, trivial, trivial, trivial⟩

/-- Whatever the order of the sections and whatever is lost. -/
theorem sessions_agree {actions : List Action} (hfresh : Runs.Each step Fresh start actions) :
    Runs.Always step Agrees start actions :=
  (coherent_run hfresh).imp fun _ h => h.agrees

theorem sample_sessions_agree : Runs.Always step Agrees start restarted :=
  sessions_agree fresh_restarted

example : (restarted.foldl step start).answered 7 = [2] := by decide

end ProtocolState

end Fluvora.ApiServer
