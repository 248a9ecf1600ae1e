import Fluvora.MediaWorker.Jobs

/-!
# Replaced jobs

A request that is accepted for a resource replaces the job that the resource had, and is to stop it.
`OneEncoder` says that this has worked: once all requests have returned, the only job of a resource
that still runs is that of the highest generation.  A request sends the cancellation through the
handle of the replaced job, and finds none while the request of that job is still between its commit
and the registration of the handle; `oneEncoder_of_registered` is the result for all runs in which
this does not happen.
-/

open Std (ExtTreeMap)

namespace Fluvora.MediaWorker

open Snapshots

/-- What a request is to the replacement of jobs. -/
inductive Phase
  | asking
  | replacing (replacedJobId : Option UInt64)
  | registering
  | running
  | cancelled
  | ended
deriving DecidableEq

/-- A request, as far as the replacement of jobs goes. -/
structure View where
  assignmentId : String
  generation : UInt64
  phase : Phase

def Creation.phase (c : Creation) : Phase :=
  match c.task with
  | some .done => .ended
  | some _ => if c.signalled then .cancelled else .running
  | none =>
      match c.point with
      | .cancelReplaced replacedJobId => .replacing replacedJobId
      | .register => .registering
      | _ => .asking

def Creation.view (c : Creation) : View where
  assignmentId := c.request.spec.kind.name ++ ":" ++ c.resourceId
  generation := c.generation
  phase := c.phase

theorem Creation.phase_eq_running {c : Creation} :
    c.phase = .running ↔ (∃ task, c.task = some task ∧ task ≠ .done) ∧ c.signalled = false := by
  unfold phase
  cases htask : c.task with
  | none => cases c.point <;> simp
  | some task => cases task <;> cases c.signalled <;> simp

theorem Creation.phase_of_task {c : Creation} {task : Task} (htask : c.task = some task)
    (hdone : task ≠ .done) : c.phase = if c.signalled then .cancelled else .running := by
  unfold phase
  rw [htask]
  cases task <;> first | rfl | exact absurd rfl hdone

/-! ## The phases of a replacement -/

/-- The handles are those of the jobs that run, and every accepted request is that of the active
assignment, or its job is about to be cancelled, or has been cancelled or has ended. -/
structure Tracked (jobId : ℕ → UInt64) (views : List View)
    (active : ExtTreeMap String WorkerAssignment) (cancellations : ExtTreeMap UInt64 ℕ) : Prop where
  handle : ∀ id call, cancellations[id]? = some call ↔
    jobId call = id ∧ ∃ v, views[call]? = some v ∧ v.phase = .running
  accounted : ∀ call v, views[call]? = some v → v.phase ≠ .asking →
    ∃ current, active[v.assignmentId]? = some current ∧ v.generation ≤ current.generation ∧
      (current.response.jobId = jobId call ∧ current.generation = v.generation ∨
        (∃ v' ∈ views, v'.phase = .replacing (some (jobId call))) ∨
        v.phase = .cancelled ∨ v.phase = .ended)

namespace Tracked

variable {jobId : ℕ → UInt64} {views : List View} {active : ExtTreeMap String WorkerAssignment}
  {cancellations : ExtTreeMap UInt64 ℕ}

theorem nil : Tracked jobId [] ∅ ∅ where
  handle := by simp
  accounted := by simp

/-- A request that is new. -/
theorem append (h : Tracked jobId views active cancellations) {v : View} (hv : v.phase = .asking) :
    Tracked jobId (views ++ [v]) active cancellations where
  handle id call := by
    rw [h.handle]
    refine and_congr_right fun _ => ?_
    constructor
    · rintro ⟨v', hv', hrunning⟩
      exact ⟨v', Calls.getElem?_append_singleton.mpr (.inl hv'), hrunning⟩
    · rintro ⟨v', hv', hrunning⟩
      rcases Calls.getElem?_append_singleton.mp hv' with hv' | ⟨-, rfl⟩
      · exact ⟨v', hv', hrunning⟩
      · rw [hv] at hrunning
        cases hrunning
  accounted call v' hv' hasking := by
    rcases Calls.getElem?_append_singleton.mp hv' with hv' | ⟨-, rfl⟩
    · obtain ⟨current, hcurrent, hle, hcase⟩ := h.accounted call v' hv' hasking
      refine ⟨current, hcurrent, hle, hcase.imp_right (Or.imp_left ?_)⟩
      rintro ⟨other, hother, hpending⟩
      exact ⟨other, List.mem_append_left _ hother, hpending⟩
    · exact absurd hv hasking

variable {call : ℕ} {v : View} (hv : views[call]? = some v)

include hv

theorem pending_set {v' : View} {id : UInt64} (hne : v.phase ≠ .replacing (some id))
    (h : ∃ other ∈ views, other.phase = .replacing (some id)) :
    ∃ other ∈ views.set call v', other.phase = .replacing (some id) := by
  obtain ⟨other, hmem, hpending⟩ := h
  refine ⟨other, Calls.mem_set_of_mem hv hmem ?_, hpending⟩
  rintro rfl
  exact hne hpending

/-- A request that is accepted replaces the job of the active assignment. -/
theorem accept (h : Tracked jobId views active cancellations) (hphase : v.phase = .asking)
    (hnewer : ∀ current, active[v.assignmentId]? = some current →
      current.generation < v.generation)
    {assignment : WorkerAssignment} (hgeneration : assignment.generation = v.generation)
    (hjob : assignment.response.jobId = jobId call) :
    Tracked jobId (views.set call { v with
        phase := .replacing (active[v.assignmentId]?.map (·.response.jobId)) })
      (active.insert v.assignmentId assignment) cancellations where
  handle id other := by
    rw [h.handle]
    refine and_congr_right fun _ => ?_
    rw [Calls.getElem?_set hv]
    split_ifs with heq
    · simp [heq, hv, hphase]
    · rfl
  accounted other v' hv' hasking := by
    rcases Calls.getElem?_set_eq_some hv' with ⟨rfl, rfl⟩ | ⟨hne, hv'⟩
    · refine ⟨assignment, ExtTreeMap.getElem?_insert_self, ?_, .inl ⟨hjob, hgeneration⟩⟩
      rw [hgeneration]
      exact UInt64.le_refl _
    obtain ⟨current, hcurrent, hle, hcase⟩ := h.accounted other v' hv' hasking
    by_cases hsame : v.assignmentId = v'.assignmentId
    · rw [← hsame] at hcurrent ⊢
      refine ⟨assignment, ExtTreeMap.getElem?_insert_self, ?_, .inr ?_⟩
      · rw [hgeneration]
        exact UInt64.le_of_lt (UInt64.lt_of_le_of_lt hle (hnewer current hcurrent))
      · rcases hcase with ⟨hactive, -⟩ | hcase
        · -- this request takes over the duty to cancel the job that was active
          refine .inl ⟨_, List.mem_of_getElem? (Calls.getElem?_set_self hv), ?_⟩
          rw [hcurrent, Option.map_some, hactive]
        · exact hcase.imp_left (pending_set hv (by simp [hphase]))
    · refine ⟨current, ?_, hle, hcase.imp_right (Or.imp_left (pending_set hv (by simp [hphase])))⟩
      rw [Maps.getElem?_insert_of_ne hsame]
      exact hcurrent

/-- The phase of an accepted request may change as long as its duty to cancel a job is done. -/
theorem accounted_set (h : Tracked jobId views active cancellations) (hphase : v.phase ≠ .asking)
    {phase : Phase}
    (hsettled : v.phase = .cancelled ∨ v.phase = .ended → phase = .cancelled ∨ phase = .ended)
    (hreplaced : ∀ other v', views[other]? = some v' →
      v.phase = .replacing (some (jobId other)) →
        v'.phase = .asking ∨ v'.phase = .cancelled ∨ v'.phase = .ended)
    (other : ℕ) (v' : View) (hv' : (views.set call { v with phase := phase })[other]? = some v')
    (hasking : v'.phase ≠ .asking) :
    ∃ current, active[v'.assignmentId]? = some current ∧ v'.generation ≤ current.generation ∧
      (current.response.jobId = jobId other ∧ current.generation = v'.generation ∨
        (∃ v'' ∈ views.set call { v with phase := phase },
          v''.phase = .replacing (some (jobId other))) ∨
        v'.phase = .cancelled ∨ v'.phase = .ended) := by
  rcases Calls.getElem?_set_eq_some hv' with ⟨rfl, rfl⟩ | ⟨hne, hv'⟩
  · obtain ⟨current, hcurrent, hle, hcase⟩ := h.accounted other v hv hphase
    refine ⟨current, hcurrent, hle, hcase.imp_right fun hcase => ?_⟩
    by_cases hreplace : v.phase = .replacing (some (jobId other))
    · have hself := (hreplaced other v hv hreplace).resolve_left hphase
      simp [hreplace] at hself
    · exact hcase.imp (pending_set hv hreplace) hsettled
  · obtain ⟨current, hcurrent, hle, hcase⟩ := h.accounted other v' hv' hasking
    refine ⟨current, hcurrent, hle, hcase.imp_right fun hcase => ?_⟩
    by_cases hreplace : v.phase = .replacing (some (jobId other))
    · exact .inr ((hreplaced other v' hv' hreplace).resolve_left hasking)
    · exact hcase.imp_left (pending_set hv hreplace)

/-- A request that has cancelled the job it replaces, or had none to cancel. -/
theorem release (h : Tracked jobId views active cancellations) {replaced : Option UInt64}
    (hphase : v.phase = .replacing replaced)
    (hreplaced : ∀ other v', views[other]? = some v' → replaced = some (jobId other) →
      v'.phase = .asking ∨ v'.phase = .cancelled ∨ v'.phase = .ended) :
    Tracked jobId (views.set call { v with phase := .registering }) active cancellations where
  handle id other := by
    rw [h.handle]
    refine and_congr_right fun _ => ?_
    rw [Calls.getElem?_set hv]
    split_ifs with heq
    · simp [heq, hv, hphase]
    · rfl
  accounted := by
    refine h.accounted_set hv (by simp [hphase]) (by simp [hphase]) ?_
    intro other v' hv' hreplace
    rw [hphase] at hreplace
    exact hreplaced other v' hv' (Phase.replacing.inj hreplace)

variable (hinjective : ∀ other v', views[other]? = some v' → jobId other = jobId call → other = call)

include hinjective

/-- A request that registers the handle of its job. -/
theorem register (h : Tracked jobId views active cancellations) (hphase : v.phase = .registering) :
    Tracked jobId (views.set call { v with phase := .running }) active
      (cancellations.insert (jobId call) call) where
  handle id other := by
    rw [Calls.getElem?_set hv, Maps.getElem?_insert_eq_some]
    by_cases heq : other = call
    · subst heq
      rw [if_pos rfl]
      constructor
      · rintro (⟨hid, -⟩ | ⟨-, hhandle⟩)
        · exact ⟨hid, _, rfl, rfl⟩
        · exact ⟨((h.handle id other).mp hhandle).1, _, rfl, rfl⟩
      · rintro ⟨hid, -⟩
        exact .inl ⟨hid, rfl⟩
    · rw [if_neg heq, ← h.handle]
      constructor
      · rintro (⟨-, hcall⟩ | ⟨-, hhandle⟩)
        · exact absurd hcall.symm heq
        · exact hhandle
      · intro hhandle
        refine .inr ⟨?_, hhandle⟩
        rintro rfl
        obtain ⟨hid, v', hv', -⟩ := (h.handle _ _).mp hhandle
        exact heq (hinjective other v' hv' hid)
  accounted := h.accounted_set hv (by simp [hphase]) (by simp [hphase]) (by simp [hphase])

/-- A job that was cancelled or has ended has no handle any more. -/
theorem settle (h : Tracked jobId views active cancellations)
    (hphase : v.phase = .running ∨ v.phase = .cancelled) {phase : Phase}
    (hsettled : phase = .cancelled ∨ phase = .ended) :
    Tracked jobId (views.set call { v with phase := phase }) active
      (cancellations.erase (jobId call)) where
  handle id other := by
    rw [Calls.getElem?_set hv, Maps.getElem?_erase_eq_some]
    by_cases heq : other = call
    · subst heq
      rw [if_pos rfl]
      constructor
      · rintro ⟨hne, hhandle⟩
        exact absurd ((h.handle id other).mp hhandle).1 hne
      · rintro ⟨-, v', hv', hrunning⟩
        rw [← Option.some.inj hv'] at hrunning
        rcases hsettled with rfl | rfl <;> cases hrunning
    · rw [if_neg heq, ← h.handle]
      constructor
      · exact fun hhandle => hhandle.2
      · intro hhandle
        refine ⟨?_, hhandle⟩
        rintro rfl
        obtain ⟨hid, v', hv', -⟩ := (h.handle _ _).mp hhandle
        exact heq (hinjective other v' hv' hid)
  accounted := by
    refine h.accounted_set hv ?_ (fun _ => hsettled) ?_
    · rcases hphase with hphase | hphase <;> simp [hphase]
    · rcases hphase with hphase | hphase <;> simp [hphase]

end Tracked

/-! ## The steps of a worker -/

/-- The request was accepted and has not yet registered the handle of its job. -/
def Point.unregistered : Point → Bool
  | .cancelReplaced _ => true
  | .register => true
  | _ => false

def Point.hasReturned : Point → Bool
  | .returned _ => true
  | _ => false

/-- The job that the request cancels next. -/
def Point.replacedJobId : Point → Option UInt64
  | .cancelReplaced replacedJobId => replacedJobId
  | _ => none

theorem Creation.phase_of_no_task {c : Creation} (htask : c.task = none)
    (hpoint : c.point.unregistered = false) : c.phase = .asking := by
  unfold phase
  rw [htask]
  cases hc : c.point with
  | cancelReplaced replacedJobId =>
    rw [hc] at hpoint
    cases hpoint
  | register =>
    rw [hc] at hpoint
    cases hpoint
  | _ => rfl

theorem Creation.phase_of_registered {c : Creation} (hpoint : c.point.unregistered = false)
    (hrunning : c.phase ≠ .running) :
    c.phase = .asking ∨ c.phase = .cancelled ∨ c.phase = .ended := by
  cases htask : c.task with
  | none => exact .inl (phase_of_no_task htask hpoint)
  | some task =>
    by_cases hdone : task = .done
    · refine .inr (.inr ?_)
      unfold phase
      rw [htask, hdone]
    · rw [phase_of_task htask hdone] at hrunning ⊢
      split_ifs at hrunning ⊢ with hsignalled
      · exact .inr (.inl rfl)
      · exact absurd rfl hrunning

theorem Creation.phase_setPoint {c : Creation} {point : Point}
    (hpoint : c.point.unregistered = false) (hpoint' : point.unregistered = false) :
    ({ c with point := point } : Creation).phase = c.phase := by
  cases htask : c.task with
  | none =>
    rw [phase_of_no_task htask hpoint]
    exact phase_of_no_task rfl hpoint'
  | some task =>
    unfold phase
    dsimp only
    rw [htask]
    cases task <;> rfl

namespace Worker

variable {toVec : FenceSnapshot → List UInt8} {fromSlice : List UInt8 → Option FenceSnapshot}

def AllReturned (w : Worker) : Prop :=
  ∀ c ∈ w.calls, c.point.hasReturned = true

instance (w : Worker) : Decidable w.AllReturned :=
  inferInstanceAs (Decidable (∀ c ∈ w.calls, c.point.hasReturned = true))

/-- Every accepted request is that of the active assignment of its resource, or its job has been
cancelled or has ended, and the active assignment has the highest generation. -/
def OneEncoder (w : Worker) : Prop :=
  ∀ (call : ℕ) (c : Creation), w.calls[call]? = some c → c.phase ≠ .asking →
    ∃ current, w.registry.active[c.view.assignmentId]? = some current ∧
      c.generation ≤ current.generation ∧
      (current.response.jobId = w.jobId call ∧ current.generation = c.generation ∨
        c.phase = .cancelled ∨ c.phase = .ended)

/-- A job is cancelled only after its own request has registered its handle.  Job identifiers are
given out once each. -/
def Registered (w : Worker) : Action → Prop
  | .create _ => w.calls.length < 2 ^ 64
  | .advance call _ => ∀ c jobId, w.calls[call]? = some c → c.point = .cancelReplaced (some jobId) →
      ∀ other c', w.calls[other]? = some c' → w.jobId other = jobId → c'.point.unregistered = false
  | _ => True

/-- Whether the job that a request cancels next has its handle. -/
def registeredAt (w : Worker) (call : ℕ) : Bool :=
  (w.calls[call]?.bind (·.point.replacedJobId)).all fun jobId =>
    w.calls.zipIdx.all fun entry => w.jobId entry.2 ≠ jobId || !entry.1.point.unregistered

theorem registered_advance_iff (w : Worker) (call : ℕ) (io : Io) :
    w.Registered (.advance call io) ↔ w.registeredAt call = true := by
  unfold registeredAt
  rw [Option.all_eq_true]
  constructor
  · intro h jobId hjobId
    obtain ⟨c, hc, hreplaced⟩ := Option.bind_eq_some_iff.mp hjobId
    have hpoint : c.point = .cancelReplaced (some jobId) := by
      unfold Point.replacedJobId at hreplaced
      split at hreplaced
      next hpoint => rw [hpoint, hreplaced]
      next => cases hreplaced
    rw [List.all_eq_true]
    rintro ⟨c', other⟩ hmem
    have hunregistered := h c jobId hc hpoint other c' (List.mem_zipIdx_iff_getElem?.mp hmem)
    by_cases hid : w.jobId other = jobId
    · simp [hunregistered hid]
    · simp [hid]
  · intro h c jobId hc hpoint other c' hc' hid
    have hall := h jobId (Option.bind_eq_some_iff.mpr ⟨c, hc, by rw [hpoint]; rfl⟩)
    have hother := List.all_eq_true.mp hall (c', other) (List.mem_zipIdx_iff_getElem?.mpr hc')
    simpa [hid] using hother

instance (w : Worker) : ∀ action, Decidable (w.Registered action)
  | .create _ => inferInstanceAs (Decidable (_ < _))
  | .advance call io => decidable_of_iff _ (w.registered_advance_iff call io).symm
  | .timeout _ => inferInstanceAs (Decidable True)
  | .task _ _ => inferInstanceAs (Decidable True)
  | .stop _ => inferInstanceAs (Decidable True)

structure Sound (w : Worker) : Prop where
  count : w.calls.length ≤ 2 ^ 64
  beforeTask : ∀ c ∈ w.calls, c.point.beforeTask = true → c.task = none ∧ c.signalled = false
  tracked : Tracked w.jobId (w.calls.map Creation.view) w.registry.active w.cancellations

namespace Sound

variable {w w' : Worker} {call : ℕ} {c c' : Creation}

theorem injective (h : w.Sound) (hc : w.calls[call]? = some c) (other : ℕ) (v : View)
    (hv : (w.calls.map Creation.view)[other]? = some v) (hid : w.jobId other = w.jobId call) :
    other = call := by
  obtain ⟨hlt, -⟩ := List.getElem?_eq_some_iff.mp hc
  obtain ⟨hlt', -⟩ := List.getElem?_eq_some_iff.mp hv
  rw [List.length_map] at hlt'
  exact jobId_injective h.count hlt' hlt hid

theorem of_set (h : w.Sound) (hseed : w'.seed = w.seed) (hcalls : w'.calls = w.calls.set call c')
    (hbefore : c'.point.beforeTask = true → c'.task = none ∧ c'.signalled = false)
    (htracked : Tracked w.jobId ((w.calls.map Creation.view).set call c'.view) w'.registry.active
      w'.cancellations) : w'.Sound where
  count := by
    rw [hcalls, List.length_set]
    exact h.count
  beforeTask other hother := by
    rw [hcalls] at hother
    rcases List.mem_or_eq_of_mem_set hother with hother | rfl
    · exact h.beforeTask other hother
    · exact hbefore
  tracked := by
    have hjobId : w'.jobId = w.jobId := by
      unfold jobId
      rw [hseed]
    rw [hjobId, hcalls, List.map_set]
    exact htracked

theorem view_of (hc : w.calls[call]? = some c) :
    (w.calls.map Creation.view)[call]? = some c.view := by
  rw [List.getElem?_map, hc, Option.map_some]

/-- A step that does not show. -/
theorem quiet (h : w.Sound) (hc : w.calls[call]? = some c) (hseed : w'.seed = w.seed)
    (hcalls : w'.calls = w.calls.set call c')
    (hbefore : c'.point.beforeTask = true → c'.task = none ∧ c'.signalled = false)
    (hactive : w'.registry.active = w.registry.active)
    (hcancellations : w'.cancellations = w.cancellations) (hview : c'.view = c.view) : w'.Sound := by
  refine h.of_set hseed hcalls hbefore ?_
  rw [hactive, hcancellations, hview, Calls.set_self (view_of hc)]
  exact h.tracked

/-- The cancellation is sent. -/
theorem cancel (h : w.Sound) (jobId : UInt64) : (w.cancel jobId).Sound := by
  unfold Worker.cancel
  cases hhandle : w.cancellations[jobId]? with
  | none => exact h
  | some call =>
    obtain ⟨rfl, v, hv, hrunning⟩ := (h.tracked.handle _ _).mp hhandle
    rw [List.getElem?_map, Option.map_eq_some_iff] at hv
    obtain ⟨c, hc, rfl⟩ := hv
    obtain ⟨⟨task, htask, hdone⟩, -⟩ := Creation.phase_eq_running.mp hrunning
    have hview : ({ c with signalled := true } : Creation).view =
        { c.view with phase := .cancelled } := by
      have hphase : ({ c with signalled := true } : Creation).phase = .cancelled :=
        Creation.phase_of_task (by exact htask) hdone
      simp only [Creation.view, hphase]
    refine h.of_set rfl (Calls.modify_eq_set hc _) (fun hpoint => ?_) ?_
    · exact absurd (htask ▸ (h.beforeTask c (List.mem_of_getElem? hc) hpoint).1) (by simp)
    rw [hview]
    exact h.tracked.settle (view_of hc) (h.injective hc) (.inl hrunning) (.inl rfl)

/-- Whatever ran under the identifier has been cancelled. -/
theorem phase_cancel (h : w.Sound) {jobId : UInt64} {other : ℕ} {v : View}
    (hv : ((w.cancel jobId).calls.map Creation.view)[other]? = some v)
    (hid : w.jobId other = jobId) : v.phase ≠ .running := by
  intro hrunning
  have hjobId : (w.cancel jobId).jobId other = jobId := by
    rw [jobId_cancel, hid]
  have hhandle := ((h.cancel jobId).tracked.handle jobId other).mpr ⟨hjobId, v, hv, hrunning⟩
  unfold Worker.cancel at hhandle
  split at hhandle
  · simp_all
  · simp at hhandle

theorem phase_of_replacing (h : w.Sound) (hc : w.calls[call]? = some c) {replaced : Option UInt64}
    (hpoint : c.point = .cancelReplaced replaced) : c.phase = .replacing replaced := by
  obtain ⟨htask, -⟩ := h.beforeTask c (List.mem_of_getElem? hc) (by rw [hpoint]; rfl)
  unfold Creation.phase
  rw [htask, hpoint]

/-- The replaced job needs no cancellation any more. -/
theorem release (h : w.Sound) (hc : w.calls[call]? = some c) {replaced : Option UInt64}
    (hpoint : c.point = .cancelReplaced replaced)
    (hreplaced : ∀ other c', w.calls[other]? = some c' → replaced = some (w.jobId other) →
      c'.phase = .asking ∨ c'.phase = .cancelled ∨ c'.phase = .ended) :
    (w.setCall call { c with point := .register }).Sound := by
  obtain ⟨htask, hsignalled⟩ := h.beforeTask c (List.mem_of_getElem? hc) (by rw [hpoint]; rfl)
  have hview : ({ c with point := .register } : Creation).view =
      { c.view with phase := .registering } := by
    have hphase : ({ c with point := .register } : Creation).phase = .registering := by
      unfold Creation.phase
      dsimp only
      rw [htask]
    simp only [Creation.view, hphase]
  refine h.of_set rfl rfl (fun _ => ⟨htask, hsignalled⟩) ?_
  rw [hview]
  refine h.tracked.release (view_of hc) (h.phase_of_replacing hc hpoint) ?_
  intro other v hv hid
  rw [List.getElem?_map, Option.map_eq_some_iff] at hv
  obtain ⟨c', hc', rfl⟩ := hv
  exact hreplaced other c' hc' hid

/-- The section that cancels the replaced job. -/
theorem cancelReplaced (h : w.Sound) (hc : w.calls[call]? = some c) {jobId : UInt64}
    (hpoint : c.point = .cancelReplaced (some jobId))
    (hregistered : ∀ other c', w.calls[other]? = some c' → w.jobId other = jobId →
      c'.point.unregistered = false) :
    ((w.setCall call { c with point := .register }).cancel jobId).Sound := by
  have hother : ∀ other, w.cancellations[jobId]? = some other → other ≠ call := by
    rintro other hhandle rfl
    obtain ⟨-, v, hv, hrunning⟩ := (h.tracked.handle _ _).mp hhandle
    rw [view_of hc, Option.some.injEq] at hv
    rw [← hv] at hrunning
    exact absurd ((h.phase_of_replacing hc hpoint).symm.trans hrunning) (by simp)
  rw [cancel_setCall hother]
  refine (h.cancel jobId).release ?_ hpoint ?_
  · exact getElem?_cancel_of_ne hc fun hhandle => hother call hhandle rfl
  · intro other c'' hc'' hid
    rw [jobId_cancel, Option.some.injEq] at hid
    obtain ⟨c', hc', hsame⟩ := getElem?_cancel hc''
    have hpoint' : c''.point.unregistered = false := by
      have := hregistered other c' hc' hid.symm
      rcases hsame with rfl | ⟨-, rfl⟩ <;> exact this
    exact Creation.phase_of_registered hpoint' (h.phase_cancel (view_of hc'') hid.symm)

/-- A section that neither accepts the request nor registers its job. -/
theorem move (h : w.Sound) (hc : w.calls[call]? = some c) (hseed : w'.seed = w.seed) {point : Point}
    (hcalls : w'.calls = w.calls.set call { c with point := point })
    (hbefore : point.beforeTask = false ∨ c.point.beforeTask = true)
    (hactive : w'.registry.active = w.registry.active)
    (hcancellations : w'.cancellations = w.cancellations)
    (hpoint : c.point.unregistered = false) (hpoint' : point.unregistered = false) : w'.Sound := by
  refine h.quiet hc hseed hcalls ?_ hactive hcancellations ?_
  · intro hpoint
    refine h.beforeTask c (List.mem_of_getElem? hc) (hbefore.resolve_left ?_)
    exact fun hfalse => Bool.false_ne_true (hfalse.symm.trans hpoint)
  · have hphase : ({ c with point := point } : Creation).phase = c.phase :=
      Creation.phase_setPoint hpoint hpoint'
    simp only [Creation.view, hphase]

/-- A step of a task that does not end it. -/
theorem moveTask (h : w.Sound) (hc : w.calls[call]? = some c) {task task' : Task}
    (htask : c.task = some task) (hdone : task ≠ .done) (hdone' : task' ≠ .done)
    {readiness : Option (Except String Unit)} (hseed : w'.seed = w.seed)
    (hcalls : w'.calls = w.calls.set call
      { c with task := some task', readiness := readiness })
    (hactive : w'.registry.active = w.registry.active)
    (hcancellations : w'.cancellations = w.cancellations) : w'.Sound := by
  refine h.quiet hc hseed hcalls ?_ hactive hcancellations ?_
  · intro hpoint
    exact absurd (htask ▸ (h.beforeTask c (List.mem_of_getElem? hc) hpoint).1) (by simp)
  · have hphase : ({ c with task := some task', readiness := readiness } : Creation).phase =
        c.phase := by
      rw [Creation.phase_of_task htask hdone]
      exact Creation.phase_of_task rfl hdone'
    simp only [Creation.view, hphase]

theorem runTask (h : w.Sound) (hc : w.calls[call]? = some c) (event : TaskEvent) :
    (w.runTask call c event).Sound := by
  have hstep := w.taskStep_runTask call c event
  generalize w.runTask call c event = w' at hstep ⊢
  cases hstep with
  | idle => exact h
  | moves jobs htask hmoves _ _ =>
    exact h.moveTask hc htask hmoves.ne_done.1 hmoves.ne_done.2 rfl rfl rfl rfl
  | finish htask =>
    have hphase : c.phase = .running ∨ c.phase = .cancelled := by
      rw [Creation.phase_of_task htask (by simp)]
      split_ifs
      · exact .inr rfl
      · exact .inl rfl
    refine h.of_set rfl rfl ?_ ?_
    · intro hpoint
      exact absurd (htask ▸ (h.beforeTask c (List.mem_of_getElem? hc) hpoint).1) (by simp)
    · exact h.tracked.settle (view_of hc) (h.injective hc) hphase (.inr rfl)

theorem accept (h : w.Sound) (hc : w.calls[call]? = some c) (hpoint : c.point = .commit)
    (hnewer : w.registry.Newer (c.assignment (w.jobId call))) (revision : UInt64)
    (directory : Files) :
    ({ w.setCall call { c with
        point := .cancelReplaced (w.registry.active[(c.assignment (w.jobId call)).assignmentId]?.map
          (·.response.jobId)) } with
      registry := w.registry.accept (c.assignment (w.jobId call)) revision directory } :
        Worker).Sound := by
  obtain ⟨htask, hsignalled⟩ := h.beforeTask c (List.mem_of_getElem? hc) (by rw [hpoint]; rfl)
  have hphase : c.phase = .asking := Creation.phase_of_no_task htask (by rw [hpoint]; rfl)
  refine h.of_set rfl rfl (fun _ => ⟨htask, hsignalled⟩) ?_
  have hview (replaced : Option UInt64) :
      ({ c with point := .cancelReplaced replaced } : Creation).view =
        { c.view with phase := .replacing replaced } := by
    have hphase' : ({ c with point := .cancelReplaced replaced } : Creation).phase =
        .replacing replaced := by
      unfold Creation.phase
      dsimp only
      rw [htask]
    simp only [Creation.view, hphase']
  rw [hview]
  exact h.tracked.accept (view_of hc) hphase hnewer.1 rfl (by simp [Creation.assignment])

theorem register (h : w.Sound) (hc : w.calls[call]? = some c) (hpoint : c.point = .register)
    {point : Point} (hbefore : point.beforeTask = false) {task : Task} (hdone : task ≠ .done) :
    ({ w.setCall call { c with point := point, task := some task } with
      cancellations := w.cancellations.insert (w.jobId call) call } : Worker).Sound := by
  obtain ⟨htask, hsignalled⟩ := h.beforeTask c (List.mem_of_getElem? hc) (by rw [hpoint]; rfl)
  have hphase : c.phase = .registering := by
    unfold Creation.phase
    rw [htask, hpoint]
  refine h.of_set rfl rfl (by simp [hbefore]) ?_
  have hview : ({ c with point := point, task := some task } : Creation).view =
      { c.view with phase := .running } := by
    have hphase' : ({ c with point := point, task := some task } : Creation).phase = .running :=
      Creation.phase_eq_running.mpr ⟨⟨task, rfl, hdone⟩, hsignalled⟩
    simp only [Creation.view, hphase']
  rw [hview]
  exact h.tracked.register (view_of hc) (h.injective hc) hphase

theorem sectionStep (h : w.Sound) (hc : w.calls[call]? = some c)
    (hregistered : ∀ jobId, c.point = .cancelReplaced (some jobId) →
      ∀ other c', w.calls[other]? = some c' → w.jobId other = jobId → c'.point.unregistered = false)
    (hstep : SectionStep w call c w') : w'.Sound := by
  cases hstep with
  | idle => exact h
  | full hpoint =>
    exact h.move hc rfl rfl (.inl rfl) rfl rfl (by rw [hpoint]; rfl) rfl
  | inserted jobs hpoint =>
    exact h.move hc rfl rfl (.inr (by rw [hpoint]; rfl)) rfl rfl (by rw [hpoint]; rfl) rfl
  | refused error hpoint =>
    exact h.move hc rfl rfl (.inr (by rw [hpoint]; rfl)) rfl rfl (by rw [hpoint]; rfl) rfl
  | duplicate hpoint =>
    exact h.move hc rfl rfl (.inr (by rw [hpoint]; rfl)) rfl rfl (by rw [hpoint]; rfl) rfl
  | accepted revision directory hpoint hnewer => exact h.accept hc hpoint hnewer revision directory
  | released hpoint => exact h.release hc hpoint (by simp)
  | cancelled hpoint => exact h.cancelReplaced hc hpoint (hregistered _ hpoint)
  | registered hpoint =>
    refine h.register hc hpoint ?_ ?_
    · unfold registeredPoint
      split_ifs <;> rfl
    · split_ifs <;> simp
  | ready hpoint =>
    exact h.move hc rfl rfl (.inl rfl) rfl rfl (by rw [hpoint]; rfl) rfl
  | notReady hpoint =>
    exact h.move hc rfl rfl (.inl rfl) rfl rfl (by rw [hpoint]; rfl) rfl
  | removed jobs hpoint =>
    exact h.move hc rfl rfl (.inl rfl) rfl rfl (by rw [hpoint]; rfl) rfl
  | responded hpoint =>
    exact h.move hc rfl rfl (.inl rfl) rfl rfl (by rw [hpoint]; rfl) rfl

theorem create (h : w.Sound) (hcount : w.calls.length < 2 ^ 64) (request : CreateRequest) :
    (w.create request).Sound := by
  unfold Worker.create
  split
  · exact h
  · have hphase (point : Point) (hpoint : point.unregistered = false) (resourceId : String)
        (generation : UInt64) :
        (⟨request, resourceId, generation, point, none, false, none⟩ : Creation).phase = .asking :=
      Creation.phase_of_no_task rfl hpoint
    refine ⟨?_, ?_, ?_⟩
    · rw [List.length_append, List.length_singleton]
      exact hcount
    · intro c hc
      rcases List.mem_append.mp hc with hc | hc
      · exact h.beforeTask c hc
      · rw [List.mem_singleton] at hc
        subst hc
        exact fun _ => ⟨rfl, rfl⟩
    · rw [List.map_append]
      refine h.tracked.append (hphase _ ?_ _ _)
      split_ifs <;> rfl

theorem step (h : w.Sound) {action : Action} (hregistered : w.Registered action) :
    (w.step toVec fromSlice action).Sound := by
  cases action with
  | create request => exact h.create hregistered request
  | advance call io =>
    unfold Worker.step
    dsimp only
    split
    next c hc =>
      exact h.sectionStep hc (fun jobId hpoint => hregistered c jobId hc hpoint)
        (sectionStep_runSection toVec fromSlice w call c io)
    next => exact h
  | timeout call =>
    unfold Worker.step
    dsimp only
    split
    next c hc =>
      rcases w.timeout_cases call c with hidle | ⟨hpoint, -, htimeout⟩
      · rw [hidle]
        exact h
      · rw [htimeout]
        exact h.move hc rfl rfl (.inl rfl) rfl rfl (by rw [hpoint]; rfl) rfl
    next => exact h
  | task call event =>
    unfold Worker.step
    dsimp only
    split
    next c hc => exact h.runTask hc event
    next => exact h
  | stop jobId => exact h.cancel jobId

theorem start (seed : UInt64) (listing : Listing) (directory : Files) :
    (Worker.start toVec fromSlice seed listing directory).Sound where
  count := Nat.zero_le _
  beforeTask c hc := by cases hc
  tracked := .nil

/-- Nobody is about to cancel a job once all requests have returned. -/
theorem oneEncoder (h : w.Sound) (hreturned : w.AllReturned) : w.OneEncoder := by
  intro call c hc hasking
  obtain ⟨current, hcurrent, hle, hcase⟩ := h.tracked.accounted call c.view (view_of hc) hasking
  refine ⟨current, hcurrent, hle, hcase.imp_right fun hcase => hcase.resolve_left ?_⟩
  rintro ⟨v, hv, hpending⟩
  obtain ⟨c', hc', rfl⟩ := List.mem_map.mp hv
  have hpoint : c'.point.unregistered = false := by
    have hpoint := hreturned c' hc'
    cases hc : c'.point <;> rw [hc] at hpoint <;> first | rfl | cases hpoint
  have hpending : c'.phase = .replacing (some (w.jobId call)) := hpending
  have hphase := Creation.phase_of_registered hpoint (by simp [hpending])
  simp [hpending] at hphase

end Sound

/-- In every run in which a job is cancelled only after its handle was registered, no replaced job
is left running once all requests have returned. -/
theorem oneEncoder_of_registered (seed : UInt64) (listing : Listing) (directory : Files)
    {actions : List Action}
    (hregistered : Runs.Each (step toVec fromSlice) Registered
      (start toVec fromSlice seed listing directory) actions) :
    Runs.Always (step toVec fromSlice) (fun w => w.AllReturned → w.OneEncoder)
      (start toVec fromSlice seed listing directory) actions := by
  have hsound : Runs.Always (step toVec fromSlice) Sound
      (start toVec fromSlice seed listing directory) actions :=
    Runs.always_of_each (fun _ _ h hcall => h.step hcall) (Sound.start seed listing directory) hregistered
  exact hsound.imp fun w h => h.oneEncoder

end Worker

/-! ## Two generations -/

namespace Generations

/-- A request to package a recording. -/
def request (generation : UInt64) : CreateRequest :=
  ⟨.vod, "asset", none, some generation⟩

/-- All sections of a request. -/
def sections (call : ℕ) : List Action :=
  List.replicate 5 (.advance call Crowd.fileSystem)

/-- The second request is made after the first has returned. -/
def sequential : List Action :=
  .create (request 1) :: sections 0 ++ .create (request 2) :: sections 1

/-- The second request goes through while the first stands in front of the registration of its
handle. -/
def overtaken : List Action :=
  .create (request 1) :: List.replicate 2 (.advance 0 Crowd.fileSystem) ++
    .create (request 2) :: sections 1 ++ List.replicate 3 (.advance 0 Crowd.fileSystem)

def start : Worker := .start fenceText readFences 1 .ascending ∅

theorem oneEncoder_sequential : Runs.Always (Worker.step fenceText readFences)
    (fun w => w.AllReturned → w.OneEncoder) start sequential :=
  Worker.oneEncoder_of_registered 1 .ascending ∅ (by decide)

/-- The state that the second run ends in. -/
def final : Worker := overtaken.foldl (Worker.step fenceText readFences) start

theorem allReturned_overtaken : final.AllReturned := by
  decide

theorem running_overtaken : ∃ c, final.calls[0]? = some c ∧ c.phase = .running ∧
    ∀ current, final.registry.active[c.view.assignmentId]? = some current →
      current.response.jobId = 2 := by
  have hfinal : (final.calls[0]?.any fun c => c.phase = .running ∧
      (final.registry.active[c.view.assignmentId]?.all fun current =>
        current.response.jobId = 2)) = true := by
    decide
  obtain ⟨c, hc, hcase⟩ := (Option.any_eq_true _ _).mp hfinal
  obtain ⟨hphase, hactive⟩ := of_decide_eq_true hcase
  refine ⟨c, hc, hphase, fun current hcurrent => ?_⟩
  exact of_decide_eq_true ((Option.all_eq_true _ _).mp hactive current hcurrent)

end Generations

/-- The job of the first generation is replaced and keeps running. -/
theorem not_oneEncoder_overtaken :
    ¬ ∀ (toVec : FenceSnapshot → List UInt8) (fromSlice : List UInt8 → Option FenceSnapshot)
      (seed : UInt64) (listing : Listing) (directory : Files) (actions : List Action),
      Runs.Always (Worker.step toVec fromSlice) (fun w => w.AllReturned → w.OneEncoder)
        (.start toVec fromSlice seed listing directory) actions := by
  intro hclaim
  have hfinal := (hclaim fenceText readFences 1 .ascending ∅ Generations.overtaken).foldl
    Generations.allReturned_overtaken
  obtain ⟨c, hc, hphase, hactive⟩ := Generations.running_overtaken
  obtain ⟨current, hcurrent, -, hcase⟩ := hfinal 0 c hc (by simp [hphase])
  rcases hcase with ⟨hjob, -⟩ | hcase
  · exact absurd ((hactive current hcurrent).symm.trans hjob) (by decide)
  · simp [hphase] at hcase

end Fluvora.MediaWorker
