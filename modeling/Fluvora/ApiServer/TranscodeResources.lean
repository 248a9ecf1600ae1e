import Fluvora.ApiServer.Transcodes

/-!
# What transcoders hold at other services

An ingress, a worker job or a sink that the server has opened is owned by an active transcoder, by a
teardown that is still to run, or by the reconciler, or it has been closed.  This holds in every state
of a run, whatever the order of the sections and whatever the other services answer, and counts every
resource as often as it was opened (`resources_conserved`).
-/

namespace Fluvora.ApiServer

open Domain (RoomId)
open TranscodeBridge

def TranscodePoint.resources : TranscodePoint → Multiset Resource
  | .subscribing _ _ => 0
  | .releasing _ => 0
  | .tearing active => active.resources

/-- What the reconciler has opened, or taken over, and neither closed nor handed over. -/
def Reconciler.resources : Reconciler → Multiset Resource
  | .idle => 0
  | .captured _ _ => 0
  | .replaced _ active replacement => TranscodeServer.replacementResources active replacement
  | .rollingBack active replacement => TranscodeServer.replacementResources active replacement
  | .retiring active => {active.worker, active.sink}

/-- The transcoder that the reconciler has read and not yet left. -/
def Reconciler.holds (jobId : JobId) (active : ActiveTranscode) : Reconciler → Prop
  | .captured other found => other = jobId ∧ found = active
  | .replaced other found _ => other = jobId ∧ found = active
  | _ => False

namespace TranscodeServer

def ownedByCalls (calls : Multiset TranscodePoint) : Multiset Resource :=
  (calls.map TranscodePoint.resources).sum

def ownedByActive (active : Entries JobId ActiveTranscode) : Multiset Resource :=
  active.total fun _ transcode => transcode.resources

/-- The resources that somebody is still going to close. -/
def owned (s : TranscodeServer) : Multiset Resource :=
  ownedByActive s.registry.active + ownedByCalls s.calls + s.reconciler.resources

/-- The account of the resources is balanced.  What the reconciler has read is what is active under
the identifier, if there is anything. -/
structure Balanced (s : TranscodeServer) : Prop where
  issued : ∀ id, (s.registry.active.get? id).isSome = true → id < s.registry.coordinator.nextJobId
  captured : ∀ id active, s.reconciler.holds id active →
    id < s.registry.coordinator.nextJobId ∧ ∀ current, s.registry.active.get? id = some current →
      current = active
  conserved : s.opened = s.closed + s.owned

variable {s t : TranscodeServer} {jobId : JobId} {active : ActiveTranscode}

/-! ## Requests on their way -/

@[simp]
theorem ownedByCalls_cons (point : TranscodePoint) (calls : Multiset TranscodePoint) :
    ownedByCalls (point ::ₘ calls) = point.resources + ownedByCalls calls := by
  simp [ownedByCalls]

theorem ownedByCalls_erase {point : TranscodePoint} {calls : Multiset TranscodePoint}
    (h : point ∈ calls) :
    ownedByCalls calls = point.resources + ownedByCalls (calls.erase point) := by
  rw [← ownedByCalls_cons, Multiset.cons_erase h]

/-- A transcoder has its old worker and sink, or the new ones. -/
theorem resources_replaceWorker (active : ActiveTranscode) (replacement : Replacement) :
    (active.replaceWorker replacement).resources + {active.worker, active.sink} =
      active.resources + replacementResources active replacement := by
  have hreplaced : (active.replaceWorker replacement).resources =
      active.ingress ::ₘ replacementResources active replacement := rfl
  have hactive : active.resources = active.ingress ::ₘ {active.worker, active.sink} := rfl
  rw [hreplaced, hactive, ← Multiset.singleton_add, ← Multiset.singleton_add active.ingress]
  abel

/-! ## Sections -/

/-- A job that leaves the registry takes its resources to a teardown. -/
theorem Balanced.moved (h : s.Balanced) (hactive : s.registry.active.get? jobId = some active)
    (hregistry : t.registry.active = s.registry.active.erase jobId)
    (hnext : t.registry.coordinator.nextJobId = s.registry.coordinator.nextJobId)
    (hcalls : ownedByCalls t.calls = active.resources + ownedByCalls s.calls)
    (hreconciler : t.reconciler = s.reconciler) (hopened : t.opened = s.opened)
    (hclosed : t.closed = s.closed) : t.Balanced := by
  have hback : ∀ id current, t.registry.active.get? id = some current →
      s.registry.active.get? id = some current := by
    intro id current hcurrent
    rw [hregistry] at hcurrent
    exact (Entries.get?_erase_eq_some.mp hcurrent).2
  refine ⟨fun id hid => ?_, fun id found hholds => ?_, ?_⟩
  · obtain ⟨current, hcurrent⟩ := Option.isSome_iff_exists.mp hid
    rw [hnext]
    exact h.issued id (Option.isSome_of_eq_some (hback id current hcurrent))
  · rw [hreconciler] at hholds
    obtain ⟨hlt, hsame⟩ := h.captured id found hholds
    rw [hnext]
    exact ⟨hlt, fun current hcurrent => hsame current (hback id current hcurrent)⟩
  · rw [hopened, hclosed, h.conserved]
    unfold owned
    rw [hcalls, hreconciler, hregistry, ownedByActive, ownedByActive, Entries.total_of_get? hactive]
    abel

/-- A section that leaves the active transcoders alone. -/
theorem Balanced.kept (h : s.Balanced) (hregistry : t.registry.active = s.registry.active)
    (hnext : s.registry.coordinator.nextJobId ≤ t.registry.coordinator.nextJobId)
    (hreconciler : ∀ id found, t.reconciler.holds id found → s.reconciler.holds id found)
    (hconserved : t.opened = t.closed + t.owned) : t.Balanced := by
  refine ⟨fun id hid => ?_, fun id found hholds => ?_, hconserved⟩
  · rw [hregistry] at hid
    exact UInt64.lt_of_lt_of_le (h.issued id hid) hnext
  · obtain ⟨hlt, hsame⟩ := h.captured id found (hreconciler id found hholds)
    rw [hregistry]
    exact ⟨UInt64.lt_of_lt_of_le hlt hnext, hsame⟩

theorem nextJobId_release (c : Coordinator) (jobId : JobId) :
    (c.release jobId).2.nextJobId = c.nextJobId := by
  unfold Coordinator.release
  cases c.find jobId <;> rfl

/-- A request that owns nothing returns. -/
theorem Balanced.returned (h : s.Balanced) {point : TranscodePoint} (hcall : point ∈ s.calls)
    (hnothing : point.resources = 0) : Balanced { s with calls := s.calls.erase point } := by
  refine h.kept rfl (UInt64.le_refl _) (fun _ _ hholds => hholds) ?_
  rw [h.conserved, owned, owned, ownedByCalls_erase hcall, hnothing, zero_add]

theorem updateState_of_get? {c : Coordinator} {spec : TranscodeSpec} {job : Job}
    (hget : c.jobs.get? spec = some job) (state : JobState) :
    ∃ next, c.updateState job.id state = (.ok (), next) ∧ next.nextJobId = c.nextJobId := by
  unfold Coordinator.updateState
  cases hfind : c.find job.id with
  | none => exact absurd rfl (Coordinator.find_eq_none.mp hfind spec job hget)
  | some entry => exact ⟨_, rfl, rfl⟩

theorem nextJobId_releaseAll (c : Coordinator) (jobId : JobId) :
    (releaseAll c jobId).nextJobId = c.nextJobId := by
  have hloop : ∀ (n : ℕ) (c : Coordinator), (releaseWhile c jobId n).nextJobId = c.nextJobId := by
    intro n
    induction n with
    | zero => exact fun _ => rfl
    | succ n ih =>
      intro c
      unfold releaseWhile
      split_ifs
      · rw [ih, nextJobId_release]
      · rfl
  exact hloop _ c

theorem Balanced.releaseTranscode (h : s.Balanced) (jobId : JobId) :
    (s.releaseTranscode jobId).Balanced := by
  have hnext := nextJobId_release s.registry.coordinator jobId
  have hcoordinator : (s.withCoordinator (s.registry.coordinator.release jobId).2).Balanced :=
    h.kept rfl (UInt64.le_of_eq hnext.symm) (fun _ _ hholds => hholds) h.conserved
  unfold TranscodeServer.releaseTranscode
  dsimp only [withCoordinator] at hcoordinator ⊢
  split_ifs
  · cases hactive : s.registry.active.get? jobId with
    | some active =>
      exact h.moved hactive rfl hnext (ownedByCalls_cons _ _) rfl rfl rfl
    | none => exact hcoordinator
  · exact hcoordinator

theorem Balanced.dropJob (h : s.Balanced) (jobId : JobId) : (s.dropJob jobId).Balanced := by
  have hnext := nextJobId_releaseAll s.registry.coordinator jobId
  unfold TranscodeServer.dropJob
  dsimp only [withCoordinator]
  cases hactive : s.registry.active.get? jobId with
  | some active => exact h.moved hactive rfl hnext (ownedByCalls_cons _ _) rfl rfl rfl
  | none => exact h.kept rfl (UInt64.le_of_eq hnext.symm) (fun _ _ hholds => hholds) h.conserved

theorem Balanced.teardownTranscodesForSource (h : s.Balanced) (roomId : RoomId)
    (sourceTrackId : UInt64) : (s.teardownTranscodesForSource roomId sourceTrackId).Balanced := by
  have hfold : ∀ (jobIds : List JobId) (s : TranscodeServer), s.Balanced →
      (jobIds.foldl TranscodeServer.dropJob s).Balanced := by
    intro jobIds
    induction jobIds with
    | nil => exact fun _ h => h
    | cons jobId jobIds ih => exact fun s h => ih _ (h.dropJob jobId)
  refine hfold _ _ ?_
  exact h.kept rfl (UInt64.le_refl _) (fun _ _ hholds => hholds) h.conserved

/-! ## Provisioning -/

/-- Provisioning that fails closes what it has opened, and one that succeeds has opened what the
transcoder holds. -/
theorem provisionTranscode_balanced (roomId : RoomId) (sourceTrackId : UInt64) (spec : TranscodeSpec)
    (jobId : JobId) (io : ProvisionIo) :
    (provisionTranscode roomId sourceTrackId spec jobId io).opened =
      (provisionTranscode roomId sourceTrackId spec jobId io).closed +
        (provisionTranscode roomId sourceTrackId spec jobId io).active.elim 0
          ActiveTranscode.resources := by
  unfold provisionTranscode
  cases io.ingress with
  | none => rfl
  | some ingress =>
    dsimp only
    cases io.placement with
    | none => simp
    | some placement =>
      dsimp only
      cases io.worker with
      | none => simp
      | some worker =>
        dsimp only
        split_ifs
        · simp
        · simp only [Option.elim_none, add_zero]
          exact Multiset.cons_swap _ _ 0

theorem Balanced.acquireTranscode (h : s.Balanced) (roomId : RoomId) (sourceTrackId : UInt64)
    (spec : TranscodeSpec) (io : ProvisionIo) :
    (s.acquireTranscode roomId sourceTrackId spec io).2.Balanced := by
  have hacquires := Coordinator.acquire_acquires s.registry.coordinator (roomIdText roomId) spec
  unfold TranscodeServer.acquireTranscode
  generalize s.registry.coordinator.acquire (roomIdText roomId) spec = result at hacquires
  have hcoordinator : ∀ c : Coordinator, s.registry.coordinator.nextJobId ≤ c.nextJobId →
      (s.withCoordinator c).Balanced := fun c hle =>
    h.kept rfl hle (fun _ _ hholds => hholds) h.conserved
  cases hacquires with
  | refused error => exact hcoordinator _ (UInt64.le_refl _)
  | shared job hget =>
    dsimp only
    rw [if_pos rfl]
    cases s.registry.active.get? job.id <;> exact hcoordinator _ (UInt64.le_refl _)
  | fresh next hvalid hget hglobal htenant hnumber =>
    have hlt : s.registry.coordinator.nextJobId < next := by
      rw [UInt64.lt_iff_toNat_lt]
      omega
    have hbalanced := provisionTranscode_balanced roomId sourceTrackId spec
      s.registry.coordinator.nextJobId io
    dsimp only
    rw [if_neg (by decide)]
    generalize provisionTranscode roomId sourceTrackId spec s.registry.coordinator.nextJobId io =
      provisioned at hbalanced
    cases hactive : provisioned.active with
    | none =>
      rw [hactive, Option.elim_none, add_zero] at hbalanced
      refine h.kept rfl ?_ (fun _ _ hholds => hholds) ?_
      · dsimp only [withCoordinator]
        rw [nextJobId_release]
        exact UInt64.le_of_lt hlt
      · change provisioned.opened + s.opened = provisioned.closed + s.closed + s.owned
        rw [hbalanced, h.conserved, add_assoc]
    | some active =>
      rw [hactive, Option.elim_some] at hbalanced
      dsimp only
      obtain ⟨updated, hupdated, hkept⟩ := updateState_of_get? (c := ⟨s.registry.coordinator.quotas,
        next, s.registry.coordinator.jobs.insert spec
          ⟨s.registry.coordinator.nextJobId, roomIdText roomId, 1, .queued⟩⟩)
        Entries.get?_insert_self (.ready (toString active.outputTrackId.toNat))
      dsimp only at hupdated
      rw [hupdated]
      dsimp only [withCoordinator] at hkept ⊢
      have hfree : s.registry.active.get? s.registry.coordinator.nextJobId = none := by
        cases hsome : s.registry.active.get? s.registry.coordinator.nextJobId with
        | none => rfl
        | some current =>
          exact absurd (h.issued _ (Option.isSome_of_eq_some hsome)) (UInt64.lt_irrefl _)
      refine ⟨fun id hid => ?_, fun id found hholds => ?_, ?_⟩
      · dsimp only at hid ⊢
        rw [hkept]
        by_cases hsame : id = s.registry.coordinator.nextJobId
        · rw [hsame]
          exact hlt
        · rw [Entries.get?_insert_of_ne hsame] at hid
          exact UInt64.lt_trans (h.issued id hid) hlt
      · obtain ⟨hbelow, hcurrent⟩ := h.captured id found hholds
        dsimp only
        rw [hkept]
        refine ⟨UInt64.lt_trans hbelow hlt, fun current hget' => ?_⟩
        have hne : id ≠ s.registry.coordinator.nextJobId := by
          rintro rfl
          exact UInt64.lt_irrefl _ hbelow
        rw [Entries.get?_insert_of_ne hne] at hget'
        exact hcurrent current hget'
      · change provisioned.opened + s.opened = provisioned.closed + s.closed +
          (ownedByActive (s.registry.active.insert s.registry.coordinator.nextJobId active) +
            ownedByCalls s.calls + s.reconciler.resources)
        rw [hbalanced, h.conserved, owned, ownedByActive, ownedByActive, Entries.total_insert,
          Entries.erase_of_get?_eq_none hfree]
        abel

theorem Balanced.createReplacementWorker (h : s.Balanced)
    (hcaptured : s.reconciler = .captured jobId active) (io : ReplaceIo) :
    (s.createReplacementWorker jobId active io).Balanced := by
  have hidle : Balanced { s with reconciler := .idle } := by
    refine h.kept rfl (UInt64.le_refl _) (fun _ _ hholds => hholds.elim) ?_
    rw [h.conserved, owned, owned, hcaptured]
    rfl
  unfold TranscodeServer.createReplacementWorker
  cases io.placement with
  | none => exact hidle
  | some placement =>
    dsimp only
    cases io.worker with
    | none => exact hidle
    | some worker =>
      dsimp only
      split_ifs
      · refine h.kept rfl (UInt64.le_refl _) (fun id found hholds => ?_) ?_
        · rw [hcaptured]
          exact hholds
        · change replacementResources active ⟨worker, placement⟩ + s.opened =
            s.closed + (ownedByActive s.registry.active + ownedByCalls s.calls +
              replacementResources active ⟨worker, placement⟩)
          rw [h.conserved, owned, hcaptured]
          change _ + (s.closed + (_ + _ + 0)) = _
          abel
      · refine hidle.kept rfl (UInt64.le_refl _) (fun _ _ hholds => hholds.elim) ?_
        change _ ::ₘ s.opened = _ ::ₘ s.closed + owned { s with reconciler := .idle }
        rw [Multiset.cons_add]
        exact congrArg _ hidle.conserved

theorem Balanced.commitReplacement (h : s.Balanced) {replacement : Replacement}
    (hreplaced : s.reconciler = .replaced jobId active replacement) :
    (s.commitReplacement jobId active replacement).Balanced := by
  have hrollback : Balanced { s with reconciler := .rollingBack active replacement } := by
    refine h.kept rfl (UInt64.le_refl _) (fun _ _ hholds => hholds.elim) ?_
    rw [h.conserved, owned, owned, hreplaced]
    rfl
  unfold TranscodeServer.commitReplacement
  cases hactive : s.registry.active.get? jobId with
  | none => exact hrollback
  | some current =>
    dsimp only
    split_ifs
    · have hsame : current = active :=
        (h.captured jobId active (by rw [hreplaced]; exact ⟨rfl, rfl⟩)).2 current hactive
      subst hsame
      refine ⟨fun id hid => ?_, fun _ _ hholds => hholds.elim, ?_⟩
      · dsimp only at hid ⊢
        by_cases hid' : id = jobId
        · rw [hid']
          exact h.issued jobId (Option.isSome_of_eq_some hactive)
        · rw [Entries.get?_insert_of_ne hid'] at hid
          exact h.issued id hid
      · have hworkers := resources_replaceWorker current replacement
        change s.opened = s.closed +
          (ownedByActive (s.registry.active.insert jobId (current.replaceWorker replacement)) +
            ownedByCalls s.calls + {current.worker, current.sink})
        rw [h.conserved, owned, hreplaced, ownedByActive, ownedByActive, Entries.total_insert,
          Entries.total_of_get? hactive]
        change s.closed + (current.resources + _ + _ + replacementResources current replacement) = _
        calc s.closed + (current.resources + (s.registry.active.erase jobId).total (fun _ transcode =>
              transcode.resources) + ownedByCalls s.calls + replacementResources current replacement)
            = s.closed + ((current.resources + replacementResources current replacement) +
                (s.registry.active.erase jobId).total (fun _ transcode => transcode.resources) +
                ownedByCalls s.calls) := by abel
          _ = _ := by
            rw [← hworkers]
            abel
    · exact hrollback

/-! ## Runs -/

theorem Balanced.step (h : s.Balanced) (action : Action) : (s.step action).Balanced := by
  cases action with
  | subscribe key sourceTrackId spec io =>
    have hacquired := h.acquireTranscode key.roomId sourceTrackId spec io
    unfold TranscodeServer.step
    dsimp only
    generalize s.acquireTranscode key.roomId sourceTrackId spec io = result at hacquired
    obtain ⟨answer, t⟩ := result
    cases answer with
    | error error => exact hacquired
    | ok found =>
      refine hacquired.kept rfl (UInt64.le_refl _) (fun _ _ hholds => hholds) ?_
      change t.opened = t.closed + (_ + ownedByCalls (_ ::ₘ t.calls) + _)
      rw [ownedByCalls_cons, TranscodePoint.resources, zero_add]
      exact hacquired.conserved
  | answered key jobId accepted =>
    unfold TranscodeServer.step
    dsimp only
    split_ifs with hcall haccepted
    · refine (h.returned hcall rfl).kept rfl (UInt64.le_refl _) (fun _ _ hholds => hholds) ?_
      exact (h.returned hcall rfl).conserved
    · exact (h.returned hcall rfl).releaseTranscode jobId
    · exact h
  | unsubscribe key =>
    unfold TranscodeServer.step
    dsimp only
    cases s.registry.subscriptions.get? key with
    | none => exact h
    | some jobId =>
      refine h.kept rfl (UInt64.le_refl _) (fun _ _ hholds => hholds) ?_
      change s.opened = s.closed + (_ + ownedByCalls (_ ::ₘ s.calls) + _)
      rw [ownedByCalls_cons, TranscodePoint.resources, zero_add]
      exact h.conserved
  | release jobId =>
    unfold TranscodeServer.step
    dsimp only
    split_ifs with hcall
    · exact (h.returned hcall rfl).releaseTranscode jobId
    · exact h
  | unpublish roomId sourceTrackId => exact h.teardownTranscodesForSource roomId sourceTrackId
  | tearDown active =>
    unfold TranscodeServer.step
    dsimp only
    split_ifs with hcall
    · refine h.kept rfl (UInt64.le_refl _) (fun _ _ hholds => hholds) ?_
      change s.opened = active.resources + s.closed + (_ + ownedByCalls (s.calls.erase _) + _)
      rw [h.conserved, owned, ownedByCalls_erase hcall, TranscodePoint.resources]
      abel
    · exact h
  | restart jobId failedWorkerJobId =>
    unfold TranscodeServer.step
    dsimp only
    cases hreconciler : s.reconciler with
    | idle =>
      cases hactive : s.registry.active.get? jobId with
      | none => exact h
      | some active =>
        cases s.registry.coordinator.specification jobId with
        | none => exact h
        | some spec =>
          dsimp only
          split_ifs
          · refine ⟨h.issued, ?_, ?_⟩
            · rintro id found ⟨rfl, rfl⟩
              refine ⟨h.issued jobId (Option.isSome_of_eq_some hactive), fun current hcurrent => ?_⟩
              exact Option.some.inj (hcurrent.symm.trans hactive)
            · rw [h.conserved, owned, owned, hreconciler]
              rfl
          · exact h
    | captured jobId active => exact h
    | replaced jobId active replacement => exact h
    | rollingBack active replacement => exact h
    | retiring active => exact h
  | replace io =>
    unfold TranscodeServer.step
    dsimp only
    cases hreconciler : s.reconciler with
    | captured jobId active => exact h.createReplacementWorker hreconciler io
    | idle => exact h
    | replaced jobId active replacement => exact h
    | rollingBack active replacement => exact h
    | retiring active => exact h
  | commit =>
    unfold TranscodeServer.step
    dsimp only
    cases hreconciler : s.reconciler with
    | replaced jobId active replacement => exact h.commitReplacement hreconciler
    | idle => exact h
    | captured jobId active => exact h
    | rollingBack active replacement => exact h
    | retiring active => exact h
  | finish =>
    have hclose : ∀ resources : Multiset Resource, s.reconciler.resources = resources →
        Balanced { s with reconciler := .idle, closed := resources + s.closed } := by
      intro resources hresources
      refine h.kept rfl (UInt64.le_refl _) (fun _ _ hholds => hholds.elim) ?_
      change s.opened = resources + s.closed + (ownedByActive s.registry.active +
        ownedByCalls s.calls + 0)
      rw [h.conserved, owned, hresources]
      abel
    unfold TranscodeServer.step
    dsimp only
    cases hreconciler : s.reconciler with
    | rollingBack active replacement => exact hclose _ (by rw [hreconciler]; rfl)
    | retiring active => exact hclose _ (by rw [hreconciler]; rfl)
    | idle => exact h
    | captured jobId active => exact h
    | replaced jobId active replacement => exact h

theorem balanced_new (quotas : Quotas) : (new quotas).Balanced := by
  refine ⟨fun id hid => ?_, fun _ _ hholds => hholds.elim, rfl⟩
  rw [new, Entries.get?_empty] at hid
  cases hid

end TranscodeServer

end Fluvora.ApiServer
