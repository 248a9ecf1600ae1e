import Fluvora.MediaWorker.Jobs

/-!
# Jobs that are handed out

A live or realtime request that succeeds names a job, its own or, if it repeats another, the job of
the active assignment.  `NoDeadAnswer` says that this job has not failed, finished or been stopped by
the time at which the request returns.  The registry is asked for the assignment and nobody looks at
the job; `noDeadAnswer_of_live` is the result for all runs in which no request repeats the assignment
of a dead job and no job dies under an answer that is on its way.
-/

open Std (ExtTreeMap)

namespace Fluvora.MediaWorker

open ApiServer (ApiError)
open Snapshots

/-- The request has failed, or is about to. -/
def Point.refused : Point → Bool
  | .respond (.error _) => true
  | .returned (.error _) => true
  | _ => false

/-- The answer that the request is about to give. -/
def Point.answer : Point → Option AssignmentResponse
  | .removeJob (.ok response) => some response
  | .respond (.ok response) => some response
  | _ => none

theorem Point.answer_removeJob (result : Except ApiError AssignmentResponse) :
    (Point.respond result).answer = (Point.removeJob result).answer := by
  cases result <;> rfl

theorem Point.refused_respond (result : Except ApiError AssignmentResponse) :
    (Point.returned result).refused = (Point.respond result).refused := by
  cases result <;> rfl

namespace Task.Moves

variable {kind : AssignmentKind} {readiness readiness' : Option (Except String Unit)}
  {task task' : Task}

theorem stays_over (h : Moves kind readiness task task' readiness') (hover : task.over = true) :
    task'.over = true := by
  cases h with
  | failStart reason h => rfl
  | fail reason h => rfl
  | complete h => rfl
  | settle => rfl
  | _ => cases hover

/-- What a task sends to its request, if anything. -/
theorem readiness_cases (h : Moves kind readiness task task' readiness') :
    readiness' = readiness ∨
    task = .probing ∧ task' = .encoding ∧ readiness' = some (.ok ()) ∨
    task'.over = true ∧ ∃ reason, readiness' = some (.error reason) := by
  cases h with
  | confirm => exact .inr (.inl ⟨rfl, rfl, rfl⟩)
  | failStart reason h =>
    split_ifs
    · exact .inr (.inr ⟨rfl, reason, rfl⟩)
    · exact .inl rfl
  | _ => exact .inl rfl

/-- A realtime task that has not told its request anything is still starting. -/
theorem starting (h : Moves kind readiness task task' readiness') (hkind : kind = .realtime)
    (hnone : readiness' = none)
    (htask : task = .starting ∨ task = .spawning ∨ task = .probing) :
    task' = .starting ∨ task' = .spawning ∨ task' = .probing := by
  cases h with
  | run => exact .inr (.inl rfl)
  | probe => exact .inr (.inr rfl)
  | permit => simp at htask
  | spawn h => exact absurd hkind h
  | confirm => cases hnone
  | failStart reason h =>
    rw [if_pos hkind] at hnone
    cases hnone
  | fail reason h => rcases h with rfl | rfl <;> simp at htask
  | complete h => rcases h with rfl | rfl <;> simp at htask
  | settle => simp at htask

end Task.Moves

namespace Creation

/-- The job has ended, has been sent its cancellation, or was given up by its own request. -/
def dead (c : Creation) : Bool :=
  c.signalled || c.task.any Task.over || (c.task.isSome && c.point.refused)

/-- The job that a live or realtime request is going to answer with; `own` is its own. -/
def answers (c : Creation) (own : UInt64) : Option UInt64 :=
  if c.request.spec.kind = .vod then none
  else if c.point = .awaitReadiness then if c.readiness = some (.ok ()) then some own else none
  else c.point.answer.map (·.jobId)

theorem answers_eq_some {c : Creation} {own jobId : UInt64} :
    c.answers own = some jobId ↔ c.request.spec.kind ≠ .vod ∧
      (c.point = .awaitReadiness ∧ c.readiness = some (.ok ()) ∧ own = jobId ∨
        c.point.answer.map (·.jobId) = some jobId) := by
  unfold answers
  split_ifs with hkind hwait hready
  · simp [hkind]
  · simp [hkind, hwait, hready, Point.answer]
  · simp [hwait, hready, Point.answer]
  · simp [hkind, hwait]

theorem answers_of_no_answer {c : Creation} (hpoint : c.point.answer = none)
    (hwait : c.point ≠ .awaitReadiness) {own : UInt64} : c.answers own = none := by
  unfold answers
  rw [if_neg hwait, hpoint]
  split_ifs <;> rfl

theorem answers_of_refused {c : Creation} (hpoint : c.point.refused = true) {own : UInt64} :
    c.answers own = none := by
  unfold Point.refused at hpoint
  split at hpoint
  next hrespond => exact answers_of_no_answer (by rw [hrespond]; rfl) (by simp [hrespond])
  next hreturned => exact answers_of_no_answer (by rw [hreturned]; rfl) (by simp [hreturned])
  next => cases hpoint

end Creation

namespace Worker

variable {toVec : FenceSnapshot → List UInt8} {fromSlice : List UInt8 → Option FenceSnapshot}

/-- No job with the identifier is dead. -/
def AliveJob (w : Worker) (jobId : UInt64) : Prop :=
  ∀ (call : ℕ) (c : Creation), w.calls[call]? = some c → w.jobId call = jobId → c.dead = false

/-- A request is going to answer with the job. -/
def Answered (w : Worker) (jobId : UInt64) : Prop :=
  ∃ (call : ℕ) (c : Creation), w.calls[call]? = some c ∧ c.answers (w.jobId call) = some jobId

/-- A live or realtime request that returns a job returns one that is alive. -/
def NoDeadAnswer (w : Worker) : Action → Prop
  | .advance call _ => ∀ c response, w.calls[call]? = some c → c.request.spec.kind ≠ .vod →
      c.point = .respond (.ok response) → w.AliveJob response.jobId
  | _ => True

/-- A live or realtime request does not repeat the assignment of a dead job. -/
def FreshRequest (w : Worker) (call : ℕ) (c : Creation) : Prop :=
  c.request.spec.kind ≠ .vod → c.point = .commit →
    ∀ current, w.registry.active[(c.assignment (w.jobId call)).assignmentId]? = some current →
      current.generation = c.generation → current.jobKey = c.request.jobKey →
        w.AliveJob current.response.jobId

/-- Job identifiers are given out once each, no live or realtime request repeats the assignment of a
dead job, and no job is stopped, replaced, given up or ends while a request is going to answer with
it; a realtime job whose cancellation was sent does not confirm its start to its request. -/
def Live (w : Worker) : Action → Prop
  | .create _ => w.calls.length < 2 ^ 64
  | .advance call _ => ∀ c, w.calls[call]? = some c → w.FreshRequest call c ∧
      ∀ jobId, c.point = .cancelReplaced (some jobId) → jobId ∈ w.cancellations →
        ¬ w.Answered jobId
  | .timeout call => ∀ c, w.calls[call]? = some c → c.point = .awaitReadiness →
      c.readiness = none → ¬ w.Answered (w.jobId call)
  | .task call event => ∀ c task, w.calls[call]? = some c → c.task = some task →
      (task.endedBy event = true → ¬ w.Answered (w.jobId call)) ∧
      (event = .alive → c.point = .awaitReadiness → c.signalled = false)
  | .stop jobId => jobId ∈ w.cancellations → ¬ w.Answered jobId

/-- What holds between the steps of a run whose steps meet the condition. -/
structure Answering (w : Worker) : Prop where
  count : w.calls.length ≤ 2 ^ 64
  handle : ∀ jobId call, w.cancellations[jobId]? = some call → w.jobId call = jobId ∧
    ∃ c, w.calls[call]? = some c ∧ c.point.beforeTask = false
  beforeTask : ∀ c ∈ w.calls, c.point.beforeTask = true →
    c.task = none ∧ c.signalled = false ∧ c.readiness = none
  waiting : ∀ c ∈ w.calls, c.point = .awaitReadiness → c.request.spec.kind = .realtime ∧
    (c.readiness = none → c.task = some .starting ∨ c.task = some .spawning ∨
      c.task = some .probing) ∧
    ∀ reason, c.readiness = some (.error reason) → c.task.any Task.over = true
  alive : ∀ jobId, w.Answered jobId → w.AliveJob jobId

namespace Answering

variable {w w' : Worker} {call : ℕ} {c c' : Creation}

theorem set (h : w.Answering) (hc : w.calls[call]? = some c) (hseed : w'.seed = w.seed)
    (hcalls : w'.calls = w.calls.set call c')
    (hhandle : ∀ jobId other, w'.cancellations[jobId]? = some other →
      w.cancellations[jobId]? = some other ∨
        w.jobId call = jobId ∧ other = call ∧ c'.point.beforeTask = false)
    (hpoint : c'.point.beforeTask = true → c.point.beforeTask = true ∧
      c'.task = none ∧ c'.signalled = false ∧ c'.readiness = none)
    (hwaiting : c'.point = .awaitReadiness → c'.request.spec.kind = .realtime ∧
      (c'.readiness = none → c'.task = some .starting ∨ c'.task = some .spawning ∨
        c'.task = some .probing) ∧
      ∀ reason, c'.readiness = some (.error reason) → c'.task.any Task.over = true)
    (hanswers : ∀ jobId, c'.answers (w.jobId call) = some jobId →
      c.answers (w.jobId call) = some jobId ∨ w.AliveJob jobId)
    (hdead : c'.dead = true → c.dead = true ∨
      ¬ w.Answered (w.jobId call) ∧ c'.answers (w.jobId call) ≠ some (w.jobId call)) :
    w'.Answering := by
  have hjobId : w'.jobId = w.jobId := by
    unfold jobId
    rw [hseed]
  refine ⟨?_, ?_, ?_, ?_, ?_⟩
  · rw [hcalls, List.length_set]
    exact h.count
  · intro jobId other hother
    rw [hjobId, hcalls]
    rcases hhandle jobId other hother with hold | ⟨hid, rfl, hbefore⟩
    · obtain ⟨hid, c₁, hc₁, hbefore⟩ := h.handle jobId other hold
      by_cases heq : other = call
      · subst heq
        rw [hc, Option.some.injEq] at hc₁
        subst hc₁
        refine ⟨hid, c', Calls.getElem?_set_self hc, ?_⟩
        by_contra hbefore'
        have hold := (hpoint (by simpa using hbefore')).1
        rw [hbefore] at hold
        cases hold
      · exact ⟨hid, c₁, by rw [Calls.getElem?_set_of_ne heq, hc₁], hbefore⟩
    · exact ⟨hid, c', Calls.getElem?_set_self hc, hbefore⟩
  · intro c'' hc'' hbefore
    rw [hcalls] at hc''
    rcases List.mem_or_eq_of_mem_set hc'' with hmem | rfl
    · exact h.beforeTask c'' hmem hbefore
    · exact (hpoint hbefore).2
  · intro c'' hc'' hawait
    rw [hcalls] at hc''
    rcases List.mem_or_eq_of_mem_set hc'' with hmem | rfl
    · exact h.waiting c'' hmem hawait
    · exact hwaiting hawait
  · rintro jobId ⟨asking, c₁, hc₁, hanswer⟩
    rw [hjobId] at hanswer
    rw [hcalls] at hc₁
    have halive : w.AliveJob jobId := by
      rcases Calls.getElem?_set_eq_some hc₁ with ⟨rfl, rfl⟩ | ⟨-, hc₁⟩
      · rcases hanswers jobId hanswer with hold | halive
        · exact h.alive jobId ⟨asking, c, hc, hold⟩
        · exact halive
      · exact h.alive jobId ⟨asking, c₁, hc₁, hanswer⟩
    intro other c₂ hc₂ hid
    rw [hjobId] at hid
    rw [hcalls] at hc₂
    rcases Calls.getElem?_set_eq_some hc₂ with ⟨rfl, rfl⟩ | ⟨-, hc₂⟩
    · -- the call that has moved is the one that is answered with
      subst hid
      by_contra hdead'
      rcases hdead (by simpa using hdead') with hdead | ⟨hnone, hself⟩
      · rw [halive other c hc rfl] at hdead
        cases hdead
      · rcases Calls.getElem?_set_eq_some hc₁ with ⟨rfl, rfl⟩ | ⟨-, hc₁⟩
        · exact hself hanswer
        · exact hnone ⟨asking, c₁, hc₁, hanswer⟩
    · exact halive other c₂ hc₂ hid

/-- A step of a request that neither waits afterwards nor spawns its task. -/
theorem move (h : w.Answering) (hc : w.calls[call]? = some c) (hseed : w'.seed = w.seed)
    {point : Point} (hcalls : w'.calls = w.calls.set call { c with point := point })
    (hcancellations : w'.cancellations = w.cancellations)
    (hpoint : point.beforeTask = false ∨ c.point.beforeTask = true) (hwait : point ≠ .awaitReadiness)
    (hanswers : ∀ jobId, ({ c with point := point } : Creation).answers (w.jobId call) = some jobId →
      c.answers (w.jobId call) = some jobId ∨ w.AliveJob jobId)
    (hrefused : point.refused = true → c.task = none ∨ c.dead = true ∨
      ¬ w.Answered (w.jobId call)) : w'.Answering := by
  refine h.set hc hseed hcalls (fun jobId other hother => .inl (hcancellations ▸ hother)) ?_
    (fun hawait => absurd hawait hwait) hanswers ?_
  · intro hbefore
    have hpoint := hpoint.resolve_left fun hfalse =>
      Bool.false_ne_true (hfalse.symm.trans hbefore)
    exact ⟨hpoint, h.beforeTask c (List.mem_of_getElem? hc) hpoint⟩
  · intro hdead
    unfold Creation.dead at hdead ⊢
    dsimp only at hdead
    rw [Bool.or_eq_true, Bool.or_eq_true] at hdead
    rcases hdead with (hsignalled | hover) | hgiven
    · simp [hsignalled]
    · simp [hover]
    · rw [Bool.and_eq_true] at hgiven
      rcases hrefused hgiven.2 with htask | hdead | hnone
      · rw [htask] at hgiven
        cases hgiven.1
      · exact .inl hdead
      · refine .inr ⟨hnone, ?_⟩
        rw [Creation.answers_of_refused hgiven.2]
        simp

/-- The cancellation of a job with which nobody answers. -/
theorem cancel (h : w.Answering) {jobId : UInt64}
    (hnone : jobId ∈ w.cancellations → ¬ w.Answered jobId) : (w.cancel jobId).Answering := by
  unfold Worker.cancel
  cases hhandle : w.cancellations[jobId]? with
  | none => exact h
  | some call =>
    obtain ⟨hid, c, hc, hbefore⟩ := h.handle jobId call hhandle
    have hnone := hnone (Maps.mem_of_getElem? hhandle)
    refine h.set hc rfl (Calls.modify_eq_set hc _) ?_ ?_ ?_ ?_ ?_
    · intro id other hother
      exact .inl (Maps.getElem?_erase_eq_some.mp hother).2
    · intro hpoint
      exact absurd (hbefore.symm.trans hpoint) Bool.false_ne_true
    · exact h.waiting c (List.mem_of_getElem? hc)
    · exact fun id hanswer => .inl hanswer
    · intro _
      rw [hid]
      refine .inr ⟨hnone, fun hself => hnone ⟨call, c, hc, ?_⟩⟩
      rw [hid]
      exact hself

theorem answered_of_setCall (hc : w.calls[call]? = some c)
    (hanswers : ∀ jobId, c'.answers (w.jobId call) = some jobId →
      c.answers (w.jobId call) = some jobId) {jobId : UInt64}
    (h : (w.setCall call c').Answered jobId) : w.Answered jobId := by
  obtain ⟨asking, c₁, hc₁, hanswer⟩ := h
  rcases Calls.getElem?_set_eq_some hc₁ with ⟨rfl, rfl⟩ | ⟨-, hc₁⟩
  · exact ⟨asking, c, hc, hanswers jobId hanswer⟩
  · exact ⟨asking, c₁, hc₁, hanswer⟩

/-- The job of a request that repeats another is the one that the assignment has. -/
theorem answers_duplicate {existing : AssignmentResponse} {own jobId : UInt64}
    (h : ({ c with point := .removeJob (duplicateResult c.request.spec existing) } :
      Creation).answers own = some jobId) :
    c.request.spec.kind ≠ .vod ∧ existing.jobId = jobId := by
  obtain ⟨hkind, ⟨hwait, -⟩ | hanswer⟩ := Creation.answers_eq_some.mp h
  · cases hwait
  · refine ⟨hkind, ?_⟩
    dsimp only at hanswer hkind
    cases hspec : c.request.spec <;> rw [hspec] at hanswer hkind <;> cases existing <;>
      simp_all [duplicateResult, Point.answer, AssignmentResponse.jobId, JobSpec.kind]

theorem aliveJob_of_alive (h : w.Answering) (hc : w.calls[call]? = some c)
    (halive : c.dead = false) : w.AliveJob (w.jobId call) := by
  intro other c₁ hc₁ hid
  obtain ⟨hlt, -⟩ := List.getElem?_eq_some_iff.mp hc
  obtain ⟨hlt₁, -⟩ := List.getElem?_eq_some_iff.mp hc₁
  obtain rfl := jobId_injective h.count hlt₁ hlt hid
  rw [hc, Option.some.injEq] at hc₁
  rw [← hc₁]
  exact halive

/-- The section that registers the handle of a job and spawns its task. -/
theorem register (h : w.Answering) (hc : w.calls[call]? = some c) (hpoint : c.point = .register) :
    ({ w.setCall call { c with
        point := w.registeredPoint call c
        task := some (if c.request.spec.kind = .vod then .queued else .starting) } with
      cancellations := w.cancellations.insert (w.jobId call) call } : Worker).Answering := by
  obtain ⟨htask, hsignalled, hready⟩ :=
    h.beforeTask c (List.mem_of_getElem? hc) (by rw [hpoint]; rfl)
  have hafter : (w.registeredPoint call c).beforeTask = false ∧
      (w.registeredPoint call c).refused = false := by
    unfold registeredPoint
    split_ifs <;> exact ⟨rfl, rfl⟩
  have hover : Task.over (if c.request.spec.kind = .vod then .queued else .starting) = false := by
    split_ifs <;> rfl
  refine h.set hc rfl rfl ?_ ?_ ?_ ?_ ?_
  · intro jobId other hother
    rcases Maps.getElem?_insert_eq_some.mp hother with ⟨hid, hcall⟩ | ⟨-, hother⟩
    · exact .inr ⟨hid, hcall.symm, hafter.1⟩
    · exact .inl hother
  · intro hbefore
    exact absurd (hafter.1.symm.trans hbefore) Bool.false_ne_true
  · intro hwait
    have hkind : c.request.spec.kind = .realtime := by
      unfold registeredPoint at hwait
      dsimp only at hwait
      split_ifs at hwait with hkind
      exact hkind
    refine ⟨hkind, fun _ => .inl ?_, fun reason herror => ?_⟩
    · dsimp only
      rw [if_neg (by rw [hkind]; simp)]
    · exact absurd (hready.symm.trans herror) (by simp)
  · intro jobId hanswer
    obtain ⟨-, ⟨-, hok, -⟩ | hanswer⟩ := Creation.answers_eq_some.mp hanswer
    · exact absurd (hready.symm.trans hok) (by simp)
    · right
      have hid : w.jobId call = jobId := by
        unfold registeredPoint at hanswer
        dsimp only at hanswer
        split_ifs at hanswer
        · cases hanswer
        · simpa [Point.answer] using hanswer
      rw [← hid]
      exact h.aliveJob_of_alive hc (by simp [Creation.dead, htask, hsignalled])
  · intro hdead
    simp [Creation.dead, hsignalled, hover, hafter.2] at hdead

theorem sectionStep (h : w.Answering) (hc : w.calls[call]? = some c)
    (hfresh : w.FreshRequest call c)
    (hcancel : ∀ jobId, c.point = .cancelReplaced (some jobId) → jobId ∈ w.cancellations →
      ¬ w.Answered jobId) (hstep : SectionStep w call c w') : w'.Answering := by
  have hbefore := h.beforeTask c (List.mem_of_getElem? hc)
  cases hstep with
  | idle => exact h
  | full hpoint =>
    refine h.move hc rfl rfl rfl (.inl rfl) (by simp) ?_ ?_
    · intro jobId hanswer
      rw [Creation.answers_of_refused rfl] at hanswer
      cases hanswer
    · exact fun _ => .inl (hbefore (by rw [hpoint]; rfl)).1
  | inserted jobs hpoint =>
    refine h.move hc rfl rfl rfl (.inr (by rw [hpoint]; rfl)) (by simp) ?_ (by simp [Point.refused])
    intro jobId hanswer
    rw [Creation.answers_of_no_answer rfl (by simp)] at hanswer
    cases hanswer
  | refused error hpoint =>
    refine h.move hc rfl rfl rfl (.inr (by rw [hpoint]; rfl)) (by simp) ?_ (by simp [Point.refused])
    intro jobId hanswer
    rw [Creation.answers_of_no_answer rfl (by simp)] at hanswer
    cases hanswer
  | duplicate hpoint hcurrent hgeneration hjobKey =>
    refine h.move hc rfl rfl rfl (.inr (by rw [hpoint]; rfl)) (by simp) ?_ (by simp [Point.refused])
    intro jobId hanswer
    obtain ⟨hkind, rfl⟩ := answers_duplicate hanswer
    exact .inr (hfresh hkind hpoint _ hcurrent hgeneration hjobKey)
  | accepted revision directory hpoint hnewer =>
    refine h.move hc rfl rfl rfl (.inr (by rw [hpoint]; rfl)) (by simp) ?_ (by simp [Point.refused])
    intro jobId hanswer
    rw [Creation.answers_of_no_answer rfl (by simp)] at hanswer
    cases hanswer
  | released hpoint =>
    refine h.move hc rfl rfl rfl (.inr (by rw [hpoint]; rfl)) (by simp) ?_ (by simp [Point.refused])
    intro jobId hanswer
    rw [Creation.answers_of_no_answer rfl (by simp)] at hanswer
    cases hanswer
  | cancelled hpoint =>
    have hanswers : ∀ jobId, ({ c with point := .register } : Creation).answers (w.jobId call) =
        some jobId → c.answers (w.jobId call) = some jobId := by
      intro jobId hanswer
      rw [Creation.answers_of_no_answer rfl (by simp)] at hanswer
      cases hanswer
    have hmoved : (w.setCall call { c with point := .register }).Answering :=
      h.move hc rfl rfl rfl (.inr (by rw [hpoint]; rfl)) (by simp)
        (fun jobId hanswer => .inl (hanswers jobId hanswer)) (by simp [Point.refused])
    refine hmoved.cancel fun hmem hanswered => hcancel _ hpoint hmem ?_
    exact answered_of_setCall hc hanswers hanswered
  | registered hpoint => exact h.register hc hpoint
  | ready hpoint hready =>
    refine h.move hc rfl rfl rfl (.inl rfl) (by simp) ?_ (by simp [Point.refused])
    intro jobId hanswer
    obtain ⟨hkind, ⟨hwait, -⟩ | hanswer⟩ := Creation.answers_eq_some.mp hanswer
    · cases hwait
    · refine .inl (Creation.answers_eq_some.mpr ⟨hkind, .inl ⟨hpoint, hready, ?_⟩⟩)
      simpa [Point.answer] using hanswer
  | notReady hpoint hready =>
    refine h.move hc rfl rfl rfl (.inl rfl) (by simp) ?_ ?_
    · intro jobId hanswer
      rw [Creation.answers_of_refused rfl] at hanswer
      cases hanswer
    · intro _
      have hover := (h.waiting c (List.mem_of_getElem? hc) hpoint).2.2 _ hready
      refine .inr (.inl ?_)
      simp [Creation.dead, hover]
  | removed jobs hpoint =>
    refine h.move hc rfl rfl rfl (.inl rfl) (by simp) ?_ ?_
    · intro jobId hanswer
      obtain ⟨hkind, ⟨hwait, -⟩ | hanswer⟩ := Creation.answers_eq_some.mp hanswer
      · cases hwait
      · refine .inl (Creation.answers_eq_some.mpr ⟨hkind, .inr ?_⟩)
        rw [hpoint]
        exact Point.answer_removeJob _ ▸ hanswer
    · exact fun _ => .inl (hbefore (by rw [hpoint]; rfl)).1
  | responded hpoint =>
    refine h.move hc rfl rfl rfl (.inl rfl) (by simp) ?_ ?_
    · intro jobId hanswer
      rw [Creation.answers_of_no_answer rfl (by simp)] at hanswer
      cases hanswer
    · intro hrefused
      have hrefused : c.point.refused = true := by
        rw [hpoint]
        exact Point.refused_respond _ ▸ hrefused
      cases htask : c.task with
      | none => exact .inl rfl
      | some task => exact .inr (.inl (by simp [Creation.dead, htask, hrefused]))

theorem runTask (h : w.Answering) (hc : w.calls[call]? = some c) {event : TaskEvent}
    (hlive : ∀ task, c.task = some task →
      (task.endedBy event = true → ¬ w.Answered (w.jobId call)) ∧
      (event = .alive → c.point = .awaitReadiness → c.signalled = false)) :
    (w.runTask call c event).Answering := by
  have hspawned {task : Task} (htask : c.task = some task) : c.point.beforeTask = false := by
    by_contra hbefore
    have hnone := (h.beforeTask c (List.mem_of_getElem? hc) (by simpa using hbefore)).1
    rw [htask] at hnone
    cases hnone
  have hwaiting := h.waiting c (List.mem_of_getElem? hc)
  have hstep := w.taskStep_runTask call c event
  generalize w.runTask call c event = w' at hstep ⊢
  cases hstep with
  | idle => exact h
  | @moves task task' readiness jobs htask hmoves hends halive =>
    obtain ⟨hends', hsignalled⟩ := hlive _ htask
    -- the request is going to answer with its job as before, or because of this step
    have hanswers {jobId : UInt64} (hanswer : ({ c with task := some task', readiness := readiness } :
        Creation).answers (w.jobId call) = some jobId) :
        c.answers (w.jobId call) = some jobId ∨ c.point = .awaitReadiness ∧
          w.jobId call = jobId ∧ task = .probing ∧ task' = .encoding := by
      obtain ⟨hkind, ⟨hwait, hok, hid⟩ | hanswer⟩ := Creation.answers_eq_some.mp hanswer
      · dsimp only at hok
        rcases hmoves.readiness_cases with hsame | ⟨hprobing, hencoding, -⟩ | ⟨-, reason, herror⟩
        · rw [hsame] at hok
          exact .inl (Creation.answers_eq_some.mpr ⟨hkind, .inl ⟨hwait, hok, hid⟩⟩)
        · exact .inr ⟨hwait, hid, hprobing, hencoding⟩
        · rw [hok] at herror
          cases herror
      · exact .inl (Creation.answers_eq_some.mpr ⟨hkind, .inr hanswer⟩)
    refine h.set hc rfl rfl (fun jobId other hother => .inl hother) ?_ ?_ ?_ ?_
    · intro hbefore
      exact absurd ((hspawned htask).symm.trans hbefore) Bool.false_ne_true
    · intro hwait
      obtain ⟨hkind, hnone, herror⟩ := hwaiting hwait
      refine ⟨hkind, ?_, ?_⟩
      · intro hready
        dsimp only at hready
        rcases hmoves.readiness_cases with hsame | ⟨-, -, hok⟩ | ⟨-, reason, herror⟩
        · have hstart := hnone (hsame.symm.trans hready)
          rw [htask] at hstart
          simp only [Option.some.injEq] at hstart ⊢
          exact hmoves.starting hkind hready hstart
        · rw [hready] at hok
          cases hok
        · rw [hready] at herror
          cases herror
      · intro reason hready
        dsimp only at hready
        rcases hmoves.readiness_cases with hsame | ⟨-, -, hok⟩ | ⟨hover, -⟩
        · have hover := herror reason (hsame.symm.trans hready)
          rw [htask] at hover
          exact hmoves.stays_over hover
        · rw [hready] at hok
          cases hok
        · exact hover
    · intro jobId hanswer
      rcases hanswers hanswer with hold | ⟨hwait, rfl, hprobing, hencoding⟩
      · exact .inl hold
      · refine .inr (h.aliveJob_of_alive hc ?_)
        simp [Creation.dead, hsignalled (halive hprobing hencoding) hwait, htask, hprobing, Task.over,
          hwait, Point.refused]
    · intro hdead
      unfold Creation.dead at hdead ⊢
      dsimp only at hdead
      rw [Bool.or_eq_true, Bool.or_eq_true] at hdead
      rcases hdead with (hsignalled | hover) | hgiven
      · simp [hsignalled]
      · rcases hends with hover' | hends
        · simp [htask, hover']
        · have hnone := hends' (hends.symm.trans hover)
          refine .inr ⟨hnone, fun hself => ?_⟩
          rcases hanswers hself with hold | ⟨-, -, -, hencoding⟩
          · exact hnone ⟨call, c, hc, hold⟩
          · rw [hencoding] at hover
            cases hover
      · have hrefused : c.point.refused = true := hgiven
        simp [htask, hrefused]
  | finish htask =>
    have hover : c.dead = true := by simp [Creation.dead, htask, Task.over]
    refine h.set hc rfl rfl ?_ ?_ ?_ (fun jobId hanswer => .inl hanswer) (fun _ => .inl hover)
    · intro jobId other hother
      exact .inl (Maps.getElem?_erase_eq_some.mp hother).2
    · intro hbefore
      exact absurd ((hspawned htask).symm.trans hbefore) Bool.false_ne_true
    · intro hwait
      obtain ⟨hkind, hnone, -⟩ := hwaiting hwait
      refine ⟨hkind, fun hready => ?_, fun _ _ => rfl⟩
      have := hnone hready
      simp [htask] at this

theorem timeout (h : w.Answering) (hc : w.calls[call]? = some c)
    (hlive : c.point = .awaitReadiness → c.readiness = none → ¬ w.Answered (w.jobId call)) :
    (w.timeout call c).Answering := by
  rcases w.timeout_cases call c with hidle | ⟨hpoint, hready, htimeout⟩
  · rw [hidle]
    exact h
  · rw [htimeout]
    refine h.move hc rfl rfl rfl (.inl rfl) (by simp) ?_ fun _ => .inr (.inr (hlive hpoint hready))
    intro jobId hanswer
    rw [Creation.answers_of_refused rfl] at hanswer
    cases hanswer

theorem create (h : w.Answering) (hcount : w.calls.length < 2 ^ 64) (request : CreateRequest) :
    (w.create request).Answering := by
  unfold Worker.create
  split
  · exact h
  next resourceId generation _ =>
    dsimp only
    generalize hnew : (⟨request, resourceId, generation, _, none, false, none⟩ : Creation) = c
    have hpoint : c.point.answer = none ∧ c.point ≠ .awaitReadiness ∧ c.task = none ∧
        c.signalled = false ∧ c.readiness = none := by
      rw [← hnew]
      dsimp only
      split_ifs <;> simp [Point.answer]
    obtain ⟨hanswer, hwait, htask, hsignalled, hready⟩ := hpoint
    refine ⟨?_, ?_, ?_, ?_, ?_⟩
    · rw [List.length_append, List.length_singleton]
      exact hcount
    · intro jobId call hhandle
      obtain ⟨hid, c', hc', hbefore⟩ := h.handle jobId call hhandle
      exact ⟨hid, c', Calls.getElem?_append_singleton.mpr (.inl hc'), hbefore⟩
    · intro c' hc' hbefore
      rcases List.mem_append.mp hc' with hc' | hc'
      · exact h.beforeTask c' hc' hbefore
      · rw [List.mem_singleton] at hc'
        subst hc'
        exact ⟨htask, hsignalled, hready⟩
    · intro c' hc' hwait'
      rcases List.mem_append.mp hc' with hc' | hc'
      · exact h.waiting c' hc' hwait'
      · rw [List.mem_singleton] at hc'
        subst hc'
        exact absurd hwait' hwait
    · rintro jobId ⟨asking, c₁, hc₁, hanswer₁⟩ other c₂ hc₂ hid
      rcases Calls.getElem?_append_singleton.mp hc₂ with hc₂ | ⟨-, rfl⟩
      · rcases Calls.getElem?_append_singleton.mp hc₁ with hc₁ | ⟨-, rfl⟩
        · exact h.alive jobId ⟨asking, c₁, hc₁, hanswer₁⟩ other c₂ hc₂ hid
        · rw [Creation.answers_of_no_answer hanswer hwait] at hanswer₁
          cases hanswer₁
      · simp [Creation.dead, htask, hsignalled]

theorem step (h : w.Answering) {action : Action} (hlive : w.Live action) :
    (w.step toVec fromSlice action).Answering := by
  unfold Worker.step
  cases action with
  | create request => exact h.create hlive request
  | advance call io =>
    dsimp only
    split
    next c hc =>
      obtain ⟨hfresh, hcancel⟩ := hlive c hc
      exact h.sectionStep hc hfresh hcancel (sectionStep_runSection toVec fromSlice w call c io)
    next => exact h
  | timeout call =>
    dsimp only
    split
    next c hc => exact h.timeout hc (hlive c hc)
    next => exact h
  | task call event =>
    dsimp only
    split
    next c hc => exact h.runTask hc fun task htask => hlive c task hc htask
    next => exact h
  | stop jobId => exact h.cancel hlive

theorem start (seed : UInt64) (listing : Listing) (directory : Files) :
    (Worker.start toVec fromSlice seed listing directory).Answering where
  count := Nat.zero_le _
  handle jobId call hhandle := by simp [Worker.start] at hhandle
  beforeTask c hc := by cases hc
  waiting c hc := by cases hc
  alive jobId := by
    rintro ⟨call, c, hc, -⟩
    simp [Worker.start] at hc

theorem noDeadAnswer (h : w.Answering) (action : Action) : w.NoDeadAnswer action := by
  cases action with
  | advance call io =>
    intro c response hc hkind hpoint
    refine h.alive _ ⟨call, c, hc, Creation.answers_eq_some.mpr ⟨hkind, .inr ?_⟩⟩
    rw [hpoint]
    rfl
  | _ => trivial

end Answering

/-- In every run whose steps meet the condition, no live or realtime request returns a dead job. -/
theorem noDeadAnswer_of_live (seed : UInt64) (listing : Listing) (directory : Files)
    {actions : List Action}
    (hlive : Runs.Each (step toVec fromSlice) Live
      (start toVec fromSlice seed listing directory) actions) :
    Runs.Each (step toVec fromSlice) NoDeadAnswer
      (start toVec fromSlice seed listing directory) actions := by
  have halways : Runs.Always (step toVec fromSlice) Answering
      (start toVec fromSlice seed listing directory) actions :=
    Runs.always_of_each (fun _ _ h hcall => h.step hcall) (Answering.start seed listing directory)
      hlive
  exact Runs.Each.of_always (fun _ action h _ => h.noDeadAnswer action) halways hlive

/-! ## Checking a run -/

def aliveCheck (w : Worker) (jobId : UInt64) : Bool :=
  w.calls.zipIdx.all fun entry => w.jobId entry.2 ≠ jobId || !entry.1.dead

def answeredCheck (w : Worker) (jobId : UInt64) : Bool :=
  w.calls.zipIdx.any fun entry => entry.1.answers (w.jobId entry.2) = some jobId

def pointCheck (w : Worker) (call : ℕ) (c : Creation) : Bool :=
  match c.point with
  | .commit =>
      w.registry.active[(c.assignment (w.jobId call)).assignmentId]?.all fun current =>
        current.generation ≠ c.generation || current.jobKey ≠ c.request.jobKey ||
          w.aliveCheck current.response.jobId
  | .cancelReplaced (some jobId) => !w.answeredCheck jobId
  | _ => true

/-- A condition that can be evaluated and is enough. -/
def liveCheck (w : Worker) : Action → Bool
  | .create _ => w.calls.length < 2 ^ 64
  | .advance call _ => w.calls[call]?.all (w.pointCheck call)
  | .timeout call => !w.answeredCheck (w.jobId call)
  | .task call _ => !w.answeredCheck (w.jobId call) &&
      w.calls[call]?.all fun c => !c.signalled
  | .stop jobId => !w.answeredCheck jobId

theorem aliveJob_of_check {w : Worker} {jobId : UInt64} (h : w.aliveCheck jobId = true) :
    w.AliveJob jobId := by
  intro call c hc hid
  have hentry := List.all_eq_true.mp h (c, call) (List.mem_zipIdx_iff_getElem?.mpr hc)
  simpa [hid] using hentry

theorem not_answered_of_check {w : Worker} {jobId : UInt64} (h : (!w.answeredCheck jobId) = true) :
    ¬ w.Answered jobId := by
  rintro ⟨call, c, hc, hanswer⟩
  have hany : w.answeredCheck jobId = true :=
    List.any_eq_true.mpr ⟨(c, call), List.mem_zipIdx_iff_getElem?.mpr hc, decide_eq_true hanswer⟩
  rw [hany] at h
  cases h

theorem live_of_check {w : Worker} {action : Action} (h : w.liveCheck action = true) :
    w.Live action := by
  cases action with
  | create request =>
    have hcount : w.calls.length < 2 ^ 64 := by simpa [liveCheck] using h
    exact hcount
  | advance call io =>
    intro c hc
    have hpoint : w.pointCheck call c = true := (Option.all_eq_true _ _).mp h c hc
    unfold pointCheck at hpoint
    constructor
    · intro _ hcommit current hcurrent hgeneration hjobKey
      rw [hcommit] at hpoint
      have hcase := (Option.all_eq_true _ _).mp hpoint current hcurrent
      rw [hgeneration, hjobKey] at hcase
      exact aliveJob_of_check (by simpa using hcase)
    · intro jobId hcancel _
      rw [hcancel] at hpoint
      exact not_answered_of_check hpoint
  | timeout call => exact fun _ _ _ _ => not_answered_of_check h
  | task call event =>
    intro c task hc _
    rw [liveCheck, Bool.and_eq_true] at h
    refine ⟨fun _ => not_answered_of_check h.1, fun _ _ => ?_⟩
    simpa using (Option.all_eq_true _ _).mp h.2 c hc
  | stop jobId => exact fun _ => not_answered_of_check h

end Worker

/-! ## A retry -/

namespace Retry

def request : CreateRequest :=
  ⟨.realtime (.v4 IpAddr.localhostV4 40000), "job", none, some 1⟩

def start : Worker := .start fenceText readFences 1 .ascending ∅

def advance (call n : ℕ) : List Action := List.replicate n (.advance call Crowd.fileSystem)

/-- The encoder starts, and the request is repeated while it runs. -/
def started : List Action :=
  .create request :: advance 0 4 ++ [.task 0 .run, .task 0 .spawned, .task 0 .alive] ++ advance 0 2 ++
    .create request :: advance 1 4

/-- The encoder does not start, the request fails and is repeated. -/
def notStarted : List Action :=
  .create request :: advance 0 4 ++ [.task 0 .run, .task 0 .notSpawned, .task 0 .settle,
    .task 0 .finish] ++ advance 0 2 ++ .create request :: advance 1 3

theorem noDeadAnswer_started : Runs.Each (Worker.step fenceText readFences) Worker.NoDeadAnswer
    start started := by
  have hcheck : Runs.Each (Worker.step fenceText readFences) (fun w action =>
      w.liveCheck action = true) start started := by
    decide
  exact Worker.noDeadAnswer_of_live 1 .ascending ∅ (hcheck.imp fun _ _ => Worker.live_of_check)

def final : Worker := notStarted.foldl (Worker.step fenceText readFences) start

/-- The second request is about to answer with the job of the first one. -/
theorem answer_final : ∃ c response, final.calls[1]? = some c ∧ c.request.spec.kind ≠ .vod ∧
    c.point = .respond (.ok response) ∧ final.jobId 0 = response.jobId := by
  have hfinal : (final.calls[1]?.any fun c => c.request.spec.kind ≠ .vod ∧
      c.point = .respond (.ok (request.spec.response 1))) = true := by
    decide +kernel
  obtain ⟨c, hc, hcase⟩ := (Option.any_eq_true _ _).mp hfinal
  obtain ⟨hkind, hpoint⟩ := of_decide_eq_true hcase
  exact ⟨c, _, hc, hkind, hpoint, by decide +kernel⟩

theorem dead_final : ∃ c, final.calls[0]? = some c ∧ c.dead = true := by
  have hfinal : (final.calls[0]?.any Creation.dead) = true := by
    decide +kernel
  exact (Option.any_eq_true _ _).mp hfinal

end Retry

/-- A realtime request that failed because its encoder has not started is repeated, and succeeds
with the job that has failed. -/
theorem not_noDeadAnswer_retry :
    ¬ ∀ (toVec : FenceSnapshot → List UInt8) (fromSlice : List UInt8 → Option FenceSnapshot)
      (seed : UInt64) (listing : Listing) (directory : Files) (actions : List Action),
      Runs.Each (Worker.step toVec fromSlice) Worker.NoDeadAnswer
        (.start toVec fromSlice seed listing directory) actions := by
  intro hclaim
  have hlast := (hclaim fenceText readFences 1 .ascending ∅
    (Retry.notStarted ++ [.advance 1 Crowd.fileSystem])).last
  obtain ⟨c, response, hc, hkind, hpoint, hid⟩ := Retry.answer_final
  obtain ⟨c', hc', hdead⟩ := Retry.dead_final
  have halive := hlast c response hc hkind hpoint 0 c' hc' hid
  rw [hdead] at halive
  cases halive

end Fluvora.MediaWorker
