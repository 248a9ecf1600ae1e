import Fluvora.ApiServer.TranscodeResources

/-!
# Who holds a transcoder

A reference to a job of the coordinator is held by a subscription, by a request between two of its
sections, or it was lost when a subscription was overwritten.  In every run that a `usize` can count the
active transcoders are the jobs of the coordinator, each with exactly these references
(`transcodes_shared`), and a subscription finds its transcoder active until the source is torn down
(`active_until_torn`).
-/

namespace Fluvora.ApiServer

open Domain (RoomId)
open TranscodeBridge

/-- The reference that a request holds. -/
def TranscodePoint.references : TranscodePoint → Multiset JobId
  | .subscribing _ jobId => {jobId}
  | .releasing jobId => {jobId}
  | .tearing _ => 0

namespace TranscodeServer

def heldBySubscriptions (subscriptions : Entries SubscriptionKey JobId) : Multiset JobId :=
  subscriptions.total fun _ jobId => {jobId}

def heldByCalls (calls : Multiset TranscodePoint) : Multiset JobId :=
  (calls.map TranscodePoint.references).sum

/-- The references that were handed out and not given back. -/
def sharers (s : TranscodeServer) : Multiset JobId :=
  heldBySubscriptions s.registry.subscriptions + heldByCalls s.calls + s.lost

/-- The coordinator counts `held`, the sharers of its jobs.  A job that is shared and not there was torn
down with its source. -/
structure Shares (s : TranscodeServer) (held sharers : Multiset JobId) : Prop where
  sound : s.registry.coordinator.Sound
  counts : s.registry.coordinator.Counts held
  active : ∀ id, (s.registry.active.get? id).isSome = true ↔ id ∈ held
  exact : ∀ id ∈ held, held.count id = sharers.count id
  issued : ∀ id ∈ sharers, id < s.registry.coordinator.nextJobId
  torn : ∀ id ∈ sharers, id ∈ held ∨ id ∈ s.torn
  gone : ∀ id ∈ s.torn, id ∉ held ∧ id < s.registry.coordinator.nextJobId

variable {s t : TranscodeServer} {held sharers : Multiset JobId} {jobId id : JobId}

/-! ## Requests and subscriptions -/

theorem heldByCalls_cons (point : TranscodePoint) (calls : Multiset TranscodePoint) :
    heldByCalls (point ::ₘ calls) = point.references + heldByCalls calls := by
  simp [heldByCalls]

theorem heldByCalls_erase {point : TranscodePoint} {calls : Multiset TranscodePoint}
    (h : point ∈ calls) :
    heldByCalls calls = point.references + heldByCalls (calls.erase point) := by
  rw [← heldByCalls_cons, Multiset.cons_erase h]

theorem count_heldBySubscriptions (subscriptions : Entries SubscriptionKey JobId) (id : JobId) :
    (heldBySubscriptions subscriptions).count id = subscriptions.count fun _ jobId => jobId = id := by
  unfold heldBySubscriptions Entries.total Entries.count
  induction subscriptions.toList with
  | nil => simp
  | cons entry entries ih =>
    rw [List.map_cons, List.sum_cons, Multiset.count_add, ih, List.countP_cons, add_comm,
      Multiset.count_singleton]
    by_cases hid : entry.2 = id
    · simp [hid]
    · simp [hid, Ne.symm hid]

/-! ## Sections -/

/-- The sharers of a job may be other ones, if there are as many of them. -/
theorem Shares.of_count (h : s.Shares held sharers) {others : Multiset JobId}
    (hcount : ∀ id ∈ held, sharers.count id = others.count id) (hfewer : others ⊆ sharers) :
    s.Shares held others :=
  ⟨h.sound, h.counts, h.active, fun id hid => (h.exact id hid).trans (hcount id hid),
    fun id hid => h.issued id (hfewer hid), fun id hid => h.torn id (hfewer hid), h.gone⟩

/-- Nobody got or gave back a reference. -/
theorem Shares.kept (h : s.Shares held sharers) (hsound : t.registry.coordinator.Sound)
    (hcounts : t.registry.coordinator.Counts held)
    (hnext : s.registry.coordinator.nextJobId ≤ t.registry.coordinator.nextJobId)
    (hactive : ∀ id, (t.registry.active.get? id).isSome = (s.registry.active.get? id).isSome)
    (htorn : t.torn = s.torn) : t.Shares held sharers := by
  refine ⟨hsound, hcounts, fun id => ?_, h.exact, fun id hid => ?_, htorn ▸ h.torn, fun id hid => ?_⟩
  · rw [hactive, h.active]
  · exact UInt64.lt_of_lt_of_le (h.issued id hid) hnext
  · rw [htorn] at hid
    exact ⟨(h.gone id hid).1, UInt64.lt_of_lt_of_le (h.gone id hid).2 hnext⟩

theorem releaseTranscode_run (s : TranscodeServer) (jobId : JobId) :
    (s.releaseTranscode jobId).registry.coordinator = (s.registry.coordinator.release jobId).2 ∧
      (s.releaseTranscode jobId).torn = s.torn ∧
      ∀ id, ((s.releaseTranscode jobId).registry.active.get? id).isSome =
        if s.registry.coordinator.references jobId = some 1 ∧ id = jobId then false
        else (s.registry.active.get? id).isSome := by
  unfold TranscodeServer.releaseTranscode
  dsimp only [withCoordinator]
  split_ifs with hfinal
  · cases hactive : s.registry.active.get? jobId with
    | some active =>
      refine ⟨rfl, rfl, fun id => ?_⟩
      dsimp only
      by_cases hid : id = jobId
      · rw [if_pos ⟨hfinal, hid⟩, hid, Entries.get?_erase_self, Option.isSome_none]
      · rw [if_neg fun h => hid h.2, Entries.get?_erase_of_ne hid]
    | none =>
      refine ⟨rfl, rfl, fun id => ?_⟩
      dsimp only
      by_cases hid : id = jobId
      · rw [if_pos ⟨hfinal, hid⟩, hid, hactive, Option.isSome_none]
      · rw [if_neg fun h => hid h.2]
  · refine ⟨rfl, rfl, fun id => ?_⟩
    rw [if_neg fun h => hfinal h.1]

/-- A reference is given back; the last one takes the transcoder out of the registry. -/
theorem Shares.releaseTranscode (h : s.Shares held (jobId ::ₘ sharers)) :
    (s.releaseTranscode jobId).Shares (held.erase jobId) sharers := by
  obtain ⟨-, hcounts⟩ := h.counts.release h.sound jobId
  obtain ⟨hcoordinator, htorn, hactive⟩ := releaseTranscode_run s jobId
  have hnext := nextJobId_release s.registry.coordinator jobId
  have hexact : ∀ id ∈ held, (held.erase jobId).count id = sharers.count id := by
    intro id hid
    have hsame := h.exact id hid
    by_cases heq : id = jobId
    · subst heq
      rw [Multiset.count_cons_self] at hsame
      rw [Multiset.count_erase_self]
      omega
    · rwa [Multiset.count_cons_of_ne heq, ← Multiset.count_erase_of_ne heq] at hsame
  refine ⟨?_, ?_, fun id => ?_, ?_, fun id hid => ?_, fun id hid => ?_, ?_⟩
  · rw [hcoordinator]
    exact h.sound.release jobId
  · rwa [hcoordinator]
  · rw [hactive]
    by_cases heq : id = jobId
    · have hlast : s.registry.coordinator.references jobId = some 1 ↔ held.count jobId = 1 := by
        rw [h.counts jobId, Coordinator.shown_eq_some]
        omega
      have hlive := h.active jobId
      rw [← Multiset.count_pos] at hlive
      rw [heq, ← Multiset.count_pos, Multiset.count_erase_self]
      split_ifs with hfinal
      · have hone := hlast.mp hfinal.1
        simp only [false_iff]
        omega
      · have hmore : held.count jobId ≠ 1 := fun hone => hfinal ⟨hlast.mpr hone, rfl⟩
        rw [hlive]
        omega
    · rw [if_neg fun hfinal => heq hfinal.2, h.active, Multiset.mem_erase_of_ne heq]
  · exact fun id hid => hexact id (Multiset.mem_of_mem_erase hid)
  · rw [hcoordinator, hnext]
    exact h.issued id (Multiset.mem_cons_of_mem hid)
  · rw [htorn]
    refine (h.torn id (Multiset.mem_cons_of_mem hid)).imp_left fun hmem => ?_
    rw [← Multiset.count_pos, hexact id hmem]
    exact Multiset.count_pos.mpr hid
  · rw [hcoordinator, hnext, htorn]
    exact fun id hid => ⟨fun hmem => (h.gone id hid).1 (Multiset.mem_of_mem_erase hmem),
      (h.gone id hid).2⟩

/-! ## Teardown -/

theorem releaseAll_run {c : Coordinator} (hsound : c.Sound) (hcounts : c.Counts held)
    (jobId : JobId) : (releaseAll c jobId).Sound ∧
      (releaseAll c jobId).Counts (held.filter (· ≠ jobId)) ∧
      (releaseAll c jobId).nextJobId = c.nextJobId := by
  have hloop : ∀ (n : ℕ) (c : Coordinator) (held : Multiset JobId), c.Sound → c.Counts held →
      held.count jobId = n → (releaseWhile c jobId n).Sound ∧
        (releaseWhile c jobId n).Counts (held.filter (· ≠ jobId)) ∧
        (releaseWhile c jobId n).nextJobId = c.nextJobId := by
    intro n
    induction n with
    | zero =>
      intro c held hsound hcounts hzero
      refine ⟨hsound, ?_, rfl⟩
      rw [Multiset.filter_eq_self.mpr]
      · exact hcounts
      · rintro id hid rfl
        exact Multiset.count_eq_zero.mp hzero hid
    | succ n ih =>
      intro c held hsound hcounts hcount
      have hnext := nextJobId_release c jobId
      have hsome : c.references jobId = some (n + 1) := by
        rw [hcounts, hcount, Coordinator.shown_of_pos (Nat.succ_pos n)]
      obtain ⟨hsound', hcounts', hnext'⟩ := ih (c.release jobId).2 (held.erase jobId)
        (hsound.release jobId) (hcounts.release hsound jobId).2
        (by rw [Multiset.count_erase_self, hcount, Nat.add_sub_cancel])
      unfold releaseWhile
      rw [hsome, if_pos (by simp)]
      refine ⟨hsound', ?_, hnext'.trans hnext⟩
      have hfilter : (held.erase jobId).filter (· ≠ jobId) = held.filter (· ≠ jobId) := by
        ext id
        rw [Multiset.count_filter, Multiset.count_filter]
        split_ifs with hne
        · rw [Multiset.count_erase_of_ne hne]
        · rfl
      rwa [hfilter] at hcounts'
  refine hloop _ c held hsound hcounts ?_
  rw [hcounts jobId]
  by_cases hzero : held.count jobId = 0
  · rw [hzero]
    rfl
  · rw [Coordinator.shown_of_pos (Nat.pos_of_ne_zero hzero)]
    rfl

theorem dropJob_run (s : TranscodeServer) (jobId : JobId) :
    (s.dropJob jobId).registry.coordinator = releaseAll s.registry.coordinator jobId ∧
      (s.dropJob jobId).torn = jobId ::ₘ s.torn ∧
      (∀ id, ((s.dropJob jobId).registry.active.get? id).isSome =
        if id = jobId then false else (s.registry.active.get? id).isSome) ∧
      (s.dropJob jobId).registry.subscriptions = s.registry.subscriptions ∧
      heldByCalls (s.dropJob jobId).calls = heldByCalls s.calls ∧
      (s.dropJob jobId).lost = s.lost := by
  unfold TranscodeServer.dropJob
  dsimp only [withCoordinator]
  cases hactive : s.registry.active.get? jobId with
  | some active =>
    refine ⟨rfl, rfl, fun id => ?_, rfl, ?_, rfl⟩
    · dsimp only
      split_ifs with hid
      · rw [hid, Entries.get?_erase_self, Option.isSome_none]
      · rw [Entries.get?_erase_of_ne hid]
    · dsimp only
      rw [heldByCalls_cons, TranscodePoint.references, zero_add]
  | none =>
    refine ⟨rfl, rfl, fun id => ?_, rfl, rfl, rfl⟩
    dsimp only
    split_ifs with hid
    · rw [hid, hactive, Option.isSome_none]
    · rfl

/-- A job is torn down, whoever shares it. -/
theorem Shares.dropJob (h : s.Shares held sharers)
    (hissued : jobId < s.registry.coordinator.nextJobId) :
    (s.dropJob jobId).Shares (held.filter (· ≠ jobId)) sharers := by
  obtain ⟨hcoordinator, htorn, hactive, -⟩ := dropJob_run s jobId
  obtain ⟨hsound, hcounts, hnext⟩ := releaseAll_run h.sound h.counts jobId
  refine ⟨?_, ?_, fun id => ?_, fun id hid => ?_, ?_, fun id hid => ?_, fun id hid => ?_⟩
  · rwa [hcoordinator]
  · rwa [hcoordinator]
  · rw [hactive, Multiset.mem_filter]
    split_ifs with hsame
    · simp [hsame]
    · rw [h.active, and_iff_left hsame]
  · rw [Multiset.mem_filter] at hid
    rw [Multiset.count_filter, if_pos hid.2]
    exact h.exact id hid.1
  · rw [hcoordinator, hnext]
    exact h.issued
  · rw [htorn, Multiset.mem_filter, Multiset.mem_cons]
    have hshared := h.torn id hid
    tauto
  · rw [htorn, Multiset.mem_cons] at hid
    rw [hcoordinator, hnext, Multiset.mem_filter]
    rcases hid with rfl | hid
    · exact ⟨fun hmem => hmem.2 rfl, hissued⟩
    · exact ⟨fun hmem => (h.gone id hid).1 hmem.1, (h.gone id hid).2⟩

/-- All jobs of a list are torn down. -/
theorem Shares.dropJobs {jobIds : List JobId} (h : s.Shares held sharers)
    (hissued : ∀ id ∈ jobIds, id < s.registry.coordinator.nextJobId) :
    (jobIds.foldl TranscodeServer.dropJob s).Shares (held.filter (· ∉ jobIds)) sharers ∧
      (jobIds.foldl TranscodeServer.dropJob s).sharers = s.sharers := by
  induction jobIds generalizing s held with
  | nil =>
    refine ⟨?_, rfl⟩
    rw [Multiset.filter_eq_self.mpr fun id _ => List.not_mem_nil]
    exact h
  | cons jobId jobIds ih =>
    obtain ⟨hcoordinator, -, -, hsubscriptions, hcalls, hlost⟩ := dropJob_run s jobId
    obtain ⟨-, -, hnext⟩ := releaseAll_run h.sound h.counts jobId
    rw [List.forall_mem_cons] at hissued
    obtain ⟨hshares, hsharers⟩ := ih (h.dropJob hissued.1) fun id hid => by
      rw [hcoordinator, hnext]
      exact hissued.2 id hid
    have hfilter : (held.filter (· ≠ jobId)).filter (· ∉ jobIds) =
        held.filter (· ∉ jobId :: jobIds) := by
      rw [Multiset.filter_filter]
      refine Multiset.filter_congr fun id _ => ?_
      rw [List.mem_cons, not_or, and_comm]
    rw [List.foldl_cons, ← hfilter]
    refine ⟨hshares, hsharers.trans ?_⟩
    rw [TranscodeServer.sharers, TranscodeServer.sharers, hsubscriptions, hcalls, hlost]

theorem Shares.lt_of_mem (h : s.Shares held sharers) (hid : id ∈ held) :
    id < s.registry.coordinator.nextJobId := by
  have hsome := h.counts id
  rw [Coordinator.shown_of_pos (Multiset.count_pos.mpr hid), h.sound.references_eq_some] at hsome
  obtain ⟨spec, job, hget, rfl, -⟩ := hsome
  exact h.sound.given spec job hget

theorem Shares.teardownTranscodesForSource (h : s.Shares held s.sharers) (roomId : RoomId)
    (sourceTrackId : UInt64) :
    (s.teardownTranscodesForSource roomId sourceTrackId).Shares
      (held.filter (· ∉ s.jobsOf roomId sourceTrackId))
      (s.teardownTranscodesForSource roomId sourceTrackId).sharers := by
  unfold TranscodeServer.teardownTranscodesForSource
  dsimp only
  generalize hjobIds : s.jobsOf roomId sourceTrackId = jobIds
  have hissued : ∀ id ∈ jobIds, id < s.registry.coordinator.nextJobId := by
    intro id hid
    rw [← hjobIds, jobsOf, List.mem_map] at hid
    obtain ⟨entry, hentry, rfl⟩ := hid
    have hactive := Entries.mem_toList.mp (List.mem_filter.mp hentry).1
    exact h.lt_of_mem ((h.active _).mp (Option.isSome_of_eq_some hactive))
  have hretained : Shares { s with
      registry.subscriptions := s.registry.subscriptions.retain fun _ jobId => jobId ∉ jobIds }
      held s.sharers := h.kept h.sound h.counts (UInt64.le_refl _) (fun _ => rfl) rfl
  obtain ⟨hshares, hsharers⟩ := hretained.dropJobs hissued
  rw [hsharers]
  refine hshares.of_count (fun id hid => ?_) fun id hid => ?_
  · rw [Multiset.mem_filter] at hid
    rw [TranscodeServer.sharers, TranscodeServer.sharers]
    simp only [Multiset.count_add, count_heldBySubscriptions]
    rw [Entries.count_retain]
    intro key jobId hget hsame
    rw [decide_eq_true_eq] at hsame
    rw [hsame, decide_eq_true_eq]
    exact hid.2
  · have hle := @Entries.count_retain_le _ _ _ s.registry.subscriptions (fun _ jobId => jobId = id)
      fun _ jobId => jobId ∉ jobIds
    rw [TranscodeServer.sharers, ← Multiset.count_pos] at hid ⊢
    simp only [Multiset.count_add, count_heldBySubscriptions] at hid ⊢
    omega

/-! ## Subscriptions -/

/-- A subscription takes over the reference of its request, and the one that it overwrites is lost. -/
theorem sharers_insertSubscription {key : SubscriptionKey}
    (hcall : .subscribing key jobId ∈ s.calls) :
    (insertSubscription { s with calls := s.calls.erase (.subscribing key jobId) } key jobId).sharers =
      s.sharers := by
  unfold TranscodeServer.sharers insertSubscription heldBySubscriptions
  dsimp only
  rw [heldByCalls_erase hcall, Entries.total_insert, TranscodePoint.references]
  cases hold : s.registry.subscriptions.get? key with
  | none =>
    rw [Entries.erase_of_get?_eq_none hold, Option.elim_none]
    abel
  | some old =>
    rw [Entries.total_of_get? hold, Option.elim_some]
    abel

/-- A subscription is forgotten, and its request holds its reference. -/
theorem sharers_unsubscribe {key : SubscriptionKey}
    (hget : s.registry.subscriptions.get? key = some jobId) :
    TranscodeServer.sharers { s with
      registry.subscriptions := s.registry.subscriptions.erase key
      calls := .releasing jobId ::ₘ s.calls } = s.sharers := by
  unfold TranscodeServer.sharers heldBySubscriptions
  dsimp only
  rw [heldByCalls_cons, Entries.total_of_get? hget, TranscodePoint.references]
  abel

/-- What a request that returns has held. -/
theorem sharers_returned {point : TranscodePoint} (hcall : point ∈ s.calls) :
    s.sharers = point.references +
      TranscodeServer.sharers { s with calls := s.calls.erase point } := by
  unfold TranscodeServer.sharers
  dsimp only
  rw [heldByCalls_erase hcall]
  abel

theorem sharers_releaseTranscode (s : TranscodeServer) (jobId : JobId) :
    (s.releaseTranscode jobId).sharers = s.sharers := by
  unfold TranscodeServer.releaseTranscode
  dsimp only [withCoordinator]
  split_ifs
  · cases s.registry.active.get? jobId with
    | some active =>
      unfold TranscodeServer.sharers
      dsimp only
      rw [heldByCalls_cons, TranscodePoint.references, zero_add]
    | none => rfl
  · rfl

/-! ## Acquisitions -/

/-- What an acquisition leaves: one more reference in the hands of the request, or what was there. -/
def Acquired (s : TranscodeServer) (held sharers : Multiset JobId) :
    Except AcquireFailure (JobId × ActiveTranscode) × TranscodeServer → Prop
  | (.ok (id, _), t) => t.Shares (id ::ₘ held) (id ::ₘ sharers) ∧ t.sharers = s.sharers
  | (.error error, t) => t.Shares held sharers ∧ t.sharers = s.sharers ∧ error ≠ .stateInconsistent

/-- A reference to a job more is held, and shared by the request that has it. -/
theorem Shares.cons (h : s.Shares held sharers) (hsound : t.registry.coordinator.Sound)
    (hcounts : t.registry.coordinator.Counts (id ::ₘ held))
    (hactive : ∀ other, (t.registry.active.get? other).isSome = true ↔
      other = id ∨ (s.registry.active.get? other).isSome = true)
    (hfresh : id ∈ held ∨ id = s.registry.coordinator.nextJobId)
    (hnext : s.registry.coordinator.nextJobId ≤ t.registry.coordinator.nextJobId)
    (hlt : id < t.registry.coordinator.nextJobId) (htorn : t.torn = s.torn) :
    t.Shares (id ::ₘ held) (id ::ₘ sharers) := by
  have hnew : id ∉ held → id ∉ sharers ∧ id ∉ s.torn := by
    intro hid
    have hsame := hfresh.resolve_left hid
    refine ⟨fun hmem => ?_, fun hmem => ?_⟩
    · exact UInt64.lt_irrefl _ (hsame ▸ h.issued id hmem)
    · exact UInt64.lt_irrefl _ (hsame ▸ (h.gone id hmem).2)
  have hcount : held.count id = sharers.count id := by
    by_cases hid : id ∈ held
    · exact h.exact id hid
    · rw [Multiset.count_eq_zero_of_notMem hid, Multiset.count_eq_zero_of_notMem (hnew hid).1]
  refine ⟨hsound, hcounts, fun other => ?_, fun other hother => ?_, fun other hother => ?_,
    fun other hother => ?_, fun other hother => ?_⟩
  · rw [hactive, h.active, Multiset.mem_cons]
  · by_cases hsame : other = id
    · rw [hsame, Multiset.count_cons_self, Multiset.count_cons_self, hcount]
    · rw [Multiset.count_cons_of_ne hsame, Multiset.count_cons_of_ne hsame]
      exact h.exact other ((Multiset.mem_cons.mp hother).resolve_left hsame)
  · rcases Multiset.mem_cons.mp hother with rfl | hmem
    · exact hlt
    · exact UInt64.lt_of_lt_of_le (h.issued other hmem) hnext
  · rw [htorn, Multiset.mem_cons, or_assoc]
    exact (Multiset.mem_cons.mp hother).imp_right (h.torn other)
  · rw [htorn] at hother
    obtain ⟨hgone, hbelow⟩ := h.gone other hother
    refine ⟨fun hmem => ?_, UInt64.lt_of_lt_of_le hbelow hnext⟩
    rcases Multiset.mem_cons.mp hmem with rfl | hmem
    · exact (hnew hgone).2 hother
    · exact hgone hmem

theorem Shares.acquireTranscode (h : s.Shares held sharers)
    (hroom : held.card < TranscodeBridge.usizeMax) (roomId : RoomId) (sourceTrackId : UInt64)
    (spec : TranscodeSpec) (io : ProvisionIo) :
    Acquired s held sharers (s.acquireTranscode roomId sourceTrackId spec io) := by
  have hcounts := fun allocation =>
    @Coordinator.Counts.acquire _ (roomIdText roomId) spec _ h.counts h.sound hroom allocation
  have hsound := h.sound.acquire (roomIdText roomId) spec
  have hacquires := Coordinator.acquire_acquires s.registry.coordinator (roomIdText roomId) spec
  unfold TranscodeServer.acquireTranscode
  generalize s.registry.coordinator.acquire (roomIdText roomId) spec = result
    at hacquires hcounts hsound
  cases hacquires with
  | refused error => exact ⟨h, rfl, by simp⟩
  | shared job hget =>
    have hheld : job.id ∈ held := by
      rw [← Multiset.count_pos, h.counts.count h.sound hget]
      exact h.sound.referenced spec job hget
    have hactive := (h.active job.id).mpr hheld
    dsimp only
    rw [if_pos rfl]
    cases hfound : s.registry.active.get? job.id with
    | none =>
      rw [hfound] at hactive
      cases hactive
    | some active =>
      refine ⟨h.cons hsound (hcounts _ rfl) (fun other => ?_) (.inl hheld) (UInt64.le_refl _)
        (h.lt_of_mem hheld) rfl, rfl⟩
      refine ⟨.inr, fun hother => hother.elim ?_ fun hsome => hsome⟩
      rintro rfl
      exact hactive
  | fresh next hvalid hget hglobal htenant hnumber =>
    have hnext : s.registry.coordinator.nextJobId < next := by
      rw [UInt64.lt_iff_toNat_lt]
      omega
    dsimp only
    rw [if_neg (by decide)]
    cases (provisionTranscode roomId sourceTrackId spec s.registry.coordinator.nextJobId io).active with
    | none =>
      -- the reference is given back at once, and the identifier is not given again
      have hreleased := (Coordinator.Counts.release (hcounts _ rfl) hsound
        s.registry.coordinator.nextJobId).2
      rw [Multiset.erase_cons_head] at hreleased
      refine ⟨h.kept (hsound.release _) hreleased ?_ (fun _ => rfl) rfl, rfl, by decide⟩
      dsimp only [withCoordinator]
      rw [nextJobId_release]
      exact UInt64.le_of_lt hnext
    | some active =>
      have hready := hsound.updateState s.registry.coordinator.nextJobId
        (.ready (toString active.outputTrackId.toNat))
      have hcount := Coordinator.Counts.updateState (hcounts _ rfl) hsound
        s.registry.coordinator.nextJobId (.ready (toString active.outputTrackId.toNat))
      obtain ⟨updated, hupdated, hkept⟩ := updateState_of_get? (c := ⟨s.registry.coordinator.quotas,
        next, s.registry.coordinator.jobs.insert spec
          ⟨s.registry.coordinator.nextJobId, roomIdText roomId, 1, .queued⟩⟩)
        Entries.get?_insert_self (.ready (toString active.outputTrackId.toNat))
      dsimp only at hupdated hready hcount hkept ⊢
      rw [hupdated] at hready hcount ⊢
      have hle : s.registry.coordinator.nextJobId ≤ updated.nextJobId := by
        rw [hkept]
        exact UInt64.le_of_lt hnext
      refine ⟨h.cons hready hcount (fun other => ?_) (.inr rfl) hle ?_ rfl, rfl⟩
      · dsimp only
        by_cases hsame : other = s.registry.coordinator.nextJobId
        · simp [hsame, Entries.get?_insert_self]
        · simp [hsame, Entries.get?_insert_of_ne hsame]
      · dsimp only [withCoordinator]
        rw [hkept]
        exact hnext

/-! ## Runs -/

/-- A request gives back the reference that it holds. -/
theorem Shares.returned (h : s.Shares held s.sharers) {point : TranscodePoint}
    (hcall : point ∈ s.calls) (hpoint : point.references = {jobId}) :
    Shares (TranscodeServer.releaseTranscode { s with calls := s.calls.erase point } jobId)
      (held.erase jobId)
      (TranscodeServer.releaseTranscode { s with calls := s.calls.erase point } jobId).sharers := by
  rw [sharers_returned hcall, hpoint, Multiset.singleton_add] at h
  rw [sharers_releaseTranscode]
  exact Shares.releaseTranscode (h.kept h.sound h.counts (UInt64.le_refl _) (fun _ => rfl) rfl)

/-- A new worker is no new reference. -/
theorem Shares.commitReplacement (h : s.Shares held s.sharers) (jobId : JobId)
    (active : ActiveTranscode) (replacement : Replacement) :
    (s.commitReplacement jobId active replacement).Shares held
      (s.commitReplacement jobId active replacement).sharers := by
  unfold TranscodeServer.commitReplacement
  cases hactive : s.registry.active.get? jobId with
  | none => exact h.kept h.sound h.counts (UInt64.le_refl _) (fun _ => rfl) rfl
  | some current =>
    dsimp only
    split_ifs
    · refine h.kept h.sound h.counts (UInt64.le_refl _) (fun id => ?_) rfl
      dsimp only
      by_cases hsame : id = jobId
      · rw [hsame, Entries.get?_insert_self, hactive, Option.isSome_some, Option.isSome_some]
      · rw [Entries.get?_insert_of_ne hsame]
    · exact h.kept h.sound h.counts (UInt64.le_refl _) (fun _ => rfl) rfl

/-- A section hands out one reference at most. -/
theorem Shares.step (h : s.Shares held s.sharers) (hroom : held.card < TranscodeBridge.usizeMax)
    (action : Action) :
    ∃ next : Multiset JobId, (s.step action).Shares next (s.step action).sharers ∧
      next.card ≤ held.card + 1 := by
  have hless : ∀ jobId, (held.erase jobId).card ≤ held.card + 1 := fun jobId =>
    (Multiset.card_le_card (Multiset.erase_le jobId held)).trans (Nat.le_succ _)
  have hreconciler : ∀ reconciler closed opened,
      Shares { s with reconciler := reconciler, closed := closed, opened := opened } held
        (TranscodeServer.sharers
          { s with reconciler := reconciler, closed := closed, opened := opened }) :=
    fun _ _ _ => h.kept h.sound h.counts (UInt64.le_refl _) (fun _ => rfl) rfl
  cases action with
  | subscribe key sourceTrackId spec io =>
    have hacquired := h.acquireTranscode hroom key.roomId sourceTrackId spec io
    unfold TranscodeServer.step
    dsimp only
    generalize s.acquireTranscode key.roomId sourceTrackId spec io = result at hacquired
    obtain ⟨answer, t⟩ := result
    cases answer with
    | error error =>
      obtain ⟨hshares, hsharers, -⟩ := hacquired
      refine ⟨held, ?_, Nat.le_succ _⟩
      rw [hsharers]
      exact hshares
    | ok found =>
      obtain ⟨hshares, hsharers⟩ := hacquired
      refine ⟨found.1 ::ₘ held, ?_, (Multiset.card_cons _ _).le⟩
      have hcall : TranscodeServer.sharers
          { t with calls := .subscribing key found.1 ::ₘ t.calls } = found.1 ::ₘ s.sharers := by
        rw [← hsharers, TranscodeServer.sharers, TranscodeServer.sharers, heldByCalls_cons,
          TranscodePoint.references, ← Multiset.singleton_add found.1]
        abel
      rw [hcall]
      exact hshares.kept hshares.sound hshares.counts (UInt64.le_refl _) (fun _ => rfl) rfl
  | answered key jobId accepted =>
    unfold TranscodeServer.step
    dsimp only
    split_ifs with hcall haccepted
    · refine ⟨held, ?_, Nat.le_succ _⟩
      rw [sharers_insertSubscription hcall]
      exact h.kept h.sound h.counts (UInt64.le_refl _) (fun _ => rfl) rfl
    · exact ⟨held.erase jobId, h.returned hcall rfl, hless jobId⟩
    · exact ⟨held, h, Nat.le_succ _⟩
  | unsubscribe key =>
    unfold TranscodeServer.step
    dsimp only
    cases hget : s.registry.subscriptions.get? key with
    | none => exact ⟨held, h, Nat.le_succ _⟩
    | some jobId =>
      refine ⟨held, ?_, Nat.le_succ _⟩
      dsimp only
      rw [sharers_unsubscribe hget]
      exact h.kept h.sound h.counts (UInt64.le_refl _) (fun _ => rfl) rfl
  | release jobId =>
    unfold TranscodeServer.step
    dsimp only
    split_ifs with hcall
    · exact ⟨held.erase jobId, h.returned hcall rfl, hless jobId⟩
    · exact ⟨held, h, Nat.le_succ _⟩
  | unpublish roomId sourceTrackId =>
    refine ⟨_, h.teardownTranscodesForSource roomId sourceTrackId, ?_⟩
    exact (Multiset.card_le_card (Multiset.filter_le _ _)).trans (Nat.le_succ _)
  | tearDown active =>
    unfold TranscodeServer.step
    dsimp only
    split_ifs with hcall
    · refine ⟨held, ?_, Nat.le_succ _⟩
      rw [sharers_returned hcall, TranscodePoint.references, zero_add] at h
      exact h.kept h.sound h.counts (UInt64.le_refl _) (fun _ => rfl) rfl
    · exact ⟨held, h, Nat.le_succ _⟩
  | restart jobId failedWorkerJobId =>
    refine ⟨held, ?_, Nat.le_succ _⟩
    unfold TranscodeServer.step
    dsimp only
    split
    · split_ifs
      · exact hreconciler _ _ _
      · exact h
    · exact h
  | replace io =>
    refine ⟨held, ?_, Nat.le_succ _⟩
    unfold TranscodeServer.step createReplacementWorker
    dsimp only
    split
    · split
      · exact hreconciler _ _ _
      · split
        · exact hreconciler _ _ _
        · split_ifs <;> exact hreconciler _ _ _
    · exact h
  | commit =>
    refine ⟨held, ?_, Nat.le_succ _⟩
    unfold TranscodeServer.step
    dsimp only
    split
    · exact h.commitReplacement _ _ _
    · exact h
  | finish =>
    refine ⟨held, ?_, Nat.le_succ _⟩
    unfold TranscodeServer.step
    dsimp only
    split
    · exact hreconciler _ _ _
    · exact hreconciler _ _ _
    · exact h

theorem Shares.run (h : s.Shares held s.sharers) (actions : List Action)
    (hroom : held.card + actions.length ≤ TranscodeBridge.usizeMax) :
    ∃ next : Multiset JobId, (actions.foldl TranscodeServer.step s).Shares next
        (actions.foldl TranscodeServer.step s).sharers ∧
      next.card ≤ held.card + actions.length := by
  induction actions generalizing s held with
  | nil => exact ⟨held, h, Nat.le_refl _⟩
  | cons action actions ih =>
    rw [List.length_cons] at hroom ⊢
    obtain ⟨middle, hmiddle, hcard⟩ := h.step (by omega) action
    obtain ⟨next, hnext, hle⟩ := ih hmiddle (by omega)
    exact ⟨next, hnext, by omega⟩

theorem shares_new (quotas : Quotas) : (new quotas).Shares 0 (new quotas).sharers := by
  have hsharers : (new quotas).sharers = 0 := rfl
  rw [hsharers]
  refine ⟨Coordinator.sound_new quotas, Coordinator.counts_new quotas, fun id => ?_, ?_, ?_, ?_, ?_⟩
  · simp [new]
  all_goals simp [new]

/-- In every state of a run that a `usize` can count, the coordinator has the jobs of the active
transcoders and no others, each with as many references as there are sharers of it.  No acquisition
finds a job without its transcoder. -/
theorem transcodes_shared (quotas : Quotas) (actions : List Action)
    (hshort : actions.length < TranscodeBridge.usizeMax) :
    (∀ id, (actions.foldl step (new quotas)).registry.coordinator.references id =
      if ((actions.foldl step (new quotas)).registry.active.get? id).isSome then
        some ((actions.foldl step (new quotas)).sharers.count id)
      else none) ∧
    ∀ roomId sourceTrackId spec io, ((actions.foldl step (new quotas)).acquireTranscode roomId
      sourceTrackId spec io).1 ≠ .error .stateInconsistent := by
  obtain ⟨held, hshares, hcard⟩ := (shares_new quotas).run actions
    (by rw [Multiset.card_zero]; omega)
  rw [Multiset.card_zero] at hcard
  generalize actions.foldl step (new quotas) = s at hshares
  refine ⟨fun id => ?_, fun roomId sourceTrackId spec io => ?_⟩
  · rw [hshares.counts id]
    split_ifs with hactive
    · have hmem := (hshares.active id).mp hactive
      rw [Coordinator.shown_of_pos (Multiset.count_pos.mpr hmem), hshares.exact id hmem]
    · rw [hshares.active] at hactive
      rw [Multiset.count_eq_zero_of_notMem hactive, Coordinator.shown_zero]
  · have hacquired := hshares.acquireTranscode (by omega) roomId sourceTrackId spec io
    generalize s.acquireTranscode roomId sourceTrackId spec io = result at hacquired
    obtain ⟨answer, t⟩ := result
    cases answer with
    | error error =>
      obtain ⟨-, -, herror⟩ := hacquired
      exact fun hsame => herror (Except.error.inj hsame)
    | ok found => simp

/-- In every state of such a run, the transcoder of a subscription is active unless it was torn down
with its source, and what was torn down does not come back. -/
theorem active_until_torn (quotas : Quotas) (actions : List Action)
    (hshort : actions.length < TranscodeBridge.usizeMax) (key : SubscriptionKey) (jobId : JobId)
    (hsubscribed : (actions.foldl step (new quotas)).registry.subscriptions.get? key = some jobId) :
    ((actions.foldl step (new quotas)).registry.active.get? jobId).isSome = true ↔
      jobId ∉ (actions.foldl step (new quotas)).torn := by
  obtain ⟨held, hshares, -⟩ := (shares_new quotas).run actions
    (by rw [Multiset.card_zero]; omega)
  generalize actions.foldl step (new quotas) = s at hshares hsubscribed
  have hmem : jobId ∈ s.sharers := by
    rw [TranscodeServer.sharers, heldBySubscriptions, Entries.total_of_get? hsubscribed]
    simp
  rw [hshares.active]
  constructor
  · exact fun hheld htorn => (hshares.gone jobId htorn).1 hheld
  · exact (hshares.torn jobId hmem).resolve_right

def sampleKey : SubscriptionKey := ⟨7, 9, 3⟩

def sampleIo : ProvisionIo where
  ingress := some ⟨20, 30, 40, .v4 #v[10, 0, 0, 1] 5000⟩
  placement := some ⟨"http://worker", 1⟩
  worker := some ⟨50, .v4 #v[10, 0, 0, 2] 6000⟩
  sink := true

/-- The source is torn down while a subscriber waits for its answer. -/
def sampleActions : List Action :=
  [.subscribe sampleKey 5 Coordinator.sampleSpec sampleIo, .unpublish 7 5,
    .answered sampleKey 1 true]

theorem sample_transcodes_shared :
    ((sampleActions.foldl step (new ⟨2, 1⟩)).acquireTranscode 7 5 Coordinator.sampleSpec
      sampleIo).1 ≠ .error .stateInconsistent :=
  (transcodes_shared ⟨2, 1⟩ sampleActions (by decide)).2 _ _ _ _

theorem sample_active_until_torn :
    ((sampleActions.foldl step (new ⟨2, 1⟩)).registry.active.get? 1).isSome = false := by
  have htorn := active_until_torn ⟨2, 1⟩ sampleActions (by decide) sampleKey 1 (by rfl)
  have hgone : (1 : JobId) ∈ (sampleActions.foldl step (new ⟨2, 1⟩)).torn := by decide
  rw [← Bool.not_eq_true, htorn, not_not]
  exact hgone

end TranscodeServer

end Fluvora.ApiServer
