import Fluvora.TranscodeBridge.Coordinator

/-!
# Who shares a transcoder

The references that are out are those that acquisitions have answered with and releases have not
taken back.  As long as a `usize` can count them, the coordinator does: a job is there exactly if a
reference to it is out (`references_eq_held`).  An identifier stands for one output for ever, and one
that is given for a new job was never given before (`allocations_consistent`).
-/

namespace Fluvora.TranscodeBridge.Coordinator

variable {c : Coordinator} {tenantId : String} {spec : TranscodeSpec} {jobId id : JobId} {job : Job}
  {held : Multiset JobId}

/-! ## The count of a job -/

theorem Sound.references_of_get? (h : c.Sound) (hget : c.jobs.get? spec = some job) :
    c.references job.id = some job.references :=
  h.references_eq_some.mpr ⟨spec, job, hget, rfl, rfl⟩

theorem Sound.references_insert (h : c.Sound) {next : Job} {d : Coordinator} (hd : d.Sound)
    (hjobs : d.jobs = c.jobs.insert spec next)
    (hsame : ∀ job, c.jobs.get? spec = some job → next.id = job.id) :
    d.references id = if id = next.id then some next.references else c.references id := by
  apply Option.ext
  intro n
  rw [hd.references_eq_some, hjobs]
  split_ifs with hid
  · rw [Option.some.injEq]
    constructor
    · rintro ⟨other, found, hfound, hother, rfl⟩
      have hnext : d.jobs.get? spec = some next := by rw [hjobs, Entries.get?_insert_self]
      have hspec := hd.distinct other found (by rw [hjobs, hfound]) spec next hnext
        (by rw [hother, hid])
      subst hspec
      rw [Entries.get?_insert_self] at hfound
      rw [Option.some.inj hfound]
    · rintro rfl
      exact ⟨spec, next, Entries.get?_insert_self, hid.symm, rfl⟩
  · rw [h.references_eq_some]
    refine exists_congr fun other => exists_congr fun found => ?_
    rw [and_congr_left_iff]
    rintro ⟨rfl, -⟩
    rw [Entries.get?_insert_eq_some]
    constructor
    · rintro (⟨-, rfl⟩ | ⟨-, hfound⟩)
      · exact absurd rfl hid
      · exact hfound
    · intro hfound
      refine .inr ⟨?_, hfound⟩
      rintro rfl
      exact hid (hsame found hfound).symm

theorem Sound.references_erase (h : c.Sound) (hget : c.jobs.get? spec = some job) {d : Coordinator}
    (hd : d.Sound) (hjobs : d.jobs = c.jobs.erase spec) :
    d.references id = if id = job.id then none else c.references id := by
  apply Option.ext
  intro n
  rw [hd.references_eq_some, hjobs]
  split_ifs with hid
  · constructor
    · rintro ⟨other, found, hfound, hother, -⟩
      obtain ⟨hne, hfound⟩ := Entries.get?_erase_eq_some.mp hfound
      exact absurd (h.distinct other found hfound spec job hget (by rw [hother, hid])) hne
    · intro hnone
      cases hnone
  · rw [h.references_eq_some]
    refine exists_congr fun other => exists_congr fun found => ?_
    rw [and_congr_left_iff, Entries.get?_erase_eq_some]
    rintro ⟨rfl, -⟩
    refine and_iff_right_of_imp fun hfound => ?_
    rintro rfl
    exact hid (congrArg Job.id (Option.some.inj (hfound.symm.trans hget)))

/-! ## The references that are out -/

/-- What is shown of a job to which `n` references are out. -/
def shown (n : ℕ) : Option ℕ := if n = 0 then none else some n

@[simp]
theorem shown_zero : shown 0 = none := rfl

theorem shown_of_pos {n : ℕ} (h : 0 < n) : shown n = some n := if_neg h.ne'

theorem shown_eq_some {m n : ℕ} : shown m = some n ↔ m = n ∧ 0 < n := by
  unfold shown
  split_ifs with h
  · simp only [false_iff, not_and]
    omega
  · rw [Option.some.injEq]
    omega

/-- The coordinator counts the references that are out. -/
def Counts (c : Coordinator) (held : Multiset JobId) : Prop :=
  ∀ id, c.references id = shown (held.count id)

theorem counts_new (quotas : Quotas) : (new quotas).Counts 0 := fun _ => rfl

theorem Counts.references_eq_none (h : c.Counts held) : c.references id = none ↔ id ∉ held := by
  rw [h id, ← Multiset.count_eq_zero]
  unfold shown
  split_ifs with hzero <;> simp [hzero]

theorem Counts.count (h : c.Counts held) (hsound : c.Sound) (hget : c.jobs.get? spec = some job) :
    held.count job.id = job.references := by
  have hshown := hsound.references_of_get? hget
  rw [h job.id, shown_eq_some] at hshown
  exact hshown.1

theorem same_id (hget : c.jobs.get? spec = some job) {next : Job} (hid : next.id = job.id)
    (other : Job) (hother : c.jobs.get? spec = some other) : next.id = other.id := by
  rw [hget] at hother
  rw [hid, Option.some.inj hother]

/-- An acquisition hands out one more reference. -/
theorem Counts.acquire (h : c.Counts held) (hsound : c.Sound) (hroom : held.card < usizeMax)
    {allocation : Allocation} (hok : (c.acquire tenantId spec).1 = .ok allocation) :
    (c.acquire tenantId spec).2.Counts (allocation.jobId ::ₘ held) := by
  have hnext := hsound.acquire tenantId spec
  have hacquires := acquire_acquires c tenantId spec
  generalize c.acquire tenantId spec = result at hacquires hok hnext
  intro id
  cases hacquires with
  | refused error => cases hok
  | shared job hget =>
    cases hok
    have hcount := h.count hsound hget
    have hcard := Multiset.count_le_card job.id held
    have hless : min (job.references + 1) usizeMax = job.references + 1 := by omega
    rw [hsound.references_insert hnext rfl (same_id hget rfl), hless]
    dsimp only
    split_ifs with hid
    · rw [hid, Multiset.count_cons_self, hcount, shown_of_pos (Nat.succ_pos _)]
    · rw [Multiset.count_cons_of_ne hid, h id]
  | fresh next hvalid hget hglobal htenant hnumber =>
    cases hok
    have hnew : c.nextJobId ∉ held := by
      rw [← h.references_eq_none, Coordinator.references_eq_none]
      intro other found hfound heq
      have hlt := hsound.given other found hfound
      rw [heq] at hlt
      exact UInt64.lt_irrefl _ hlt
    rw [hsound.references_insert hnext rfl fun other hother => by rw [hget] at hother; cases hother]
    dsimp only
    split_ifs with hid
    · rw [hid, Multiset.count_cons_self, Multiset.count_eq_zero_of_notMem hnew]
      rfl
    · rw [Multiset.count_cons_of_ne hid, h id]

/-- A release takes back a reference that is out, and nothing else. -/
theorem Counts.release (h : c.Counts held) (hsound : c.Sound) (jobId : JobId) :
    (c.release jobId).1 = decide (jobId ∈ held) ∧
      (c.release jobId).2.Counts (held.erase jobId) := by
  have hnext := hsound.release jobId
  have hreleases := hsound.release_releases jobId
  generalize c.release jobId = result at hreleases hnext
  cases hreleases with
  | unknown hnone =>
    have hout := h.references_eq_none.mp hnone
    rw [Multiset.erase_of_notMem hout]
    exact ⟨by simp [hout], h⟩
  | last spec job hget hid hlast =>
    subst hid
    have hcount := h.count hsound hget
    have hmem : job.id ∈ held := Multiset.count_pos.mp (by omega)
    refine ⟨by simp [hmem], fun id => ?_⟩
    rw [hsound.references_erase hget hnext rfl]
    split_ifs with hid
    · rw [hid, Multiset.count_erase_self, hcount, hlast]
      rfl
    · rw [Multiset.count_erase_of_ne hid, h id]
  | shared spec job hget hid hmore =>
    subst hid
    have hcount := h.count hsound hget
    have hmem : job.id ∈ held := Multiset.count_pos.mp (by omega)
    refine ⟨by simp [hmem], fun id => ?_⟩
    rw [hsound.references_insert hnext rfl (same_id hget rfl)]
    dsimp only
    split_ifs with hid
    · rw [hid, Multiset.count_erase_self, hcount, shown_of_pos (by omega)]
    · rw [Multiset.count_erase_of_ne hid, h id]

theorem Counts.updateState (h : c.Counts held) (hsound : c.Sound) (jobId : JobId)
    (state : JobState) : (c.updateState jobId state).2.Counts held := by
  have hnext := hsound.updateState jobId state
  have hupdates := hsound.updateState_updates jobId state
  generalize c.updateState jobId state = result at hupdates hnext
  cases hupdates with
  | unknown hnone => exact h
  | updated spec job hget hid =>
    intro id
    rw [hsound.references_insert hnext rfl (same_id hget rfl)]
    dsimp only
    split_ifs with hsame
    · rw [hsame, ← h, hsound.references_of_get? hget]
    · exact h id

/-- What a call hands out, or takes back. -/
def heldAfter (c : Coordinator) (held : Multiset JobId) : Call → Multiset JobId
  | .acquire tenantId spec =>
      match (c.acquire tenantId spec).1 with
      | .ok allocation => allocation.jobId ::ₘ held
      | .error _ => held
  | .release jobId => if (c.release jobId).1 then held.erase jobId else held
  | .updateState _ _ => held

/-- A run of the coordinator with the references that are out. -/
def runHeld : Coordinator → Multiset JobId → List Call → Coordinator × Multiset JobId
  | c, held, [] => (c, held)
  | c, held, call :: calls => runHeld (c.step call) (c.heldAfter held call) calls

theorem runHeld_fst (c : Coordinator) (held : Multiset JobId) (calls : List Call) :
    (runHeld c held calls).1 = calls.foldl step c := by
  induction calls generalizing c held with
  | nil => rfl
  | cons call calls ih => exact ih _ _

theorem card_heldAfter_le (c : Coordinator) (held : Multiset JobId) (call : Call) :
    (c.heldAfter held call).card ≤ held.card + 1 := by
  cases call with
  | acquire tenantId spec =>
    unfold heldAfter
    dsimp only
    cases (c.acquire tenantId spec).1 <;> simp
  | release jobId =>
    unfold heldAfter
    have hle := Multiset.card_le_card (Multiset.erase_le jobId held)
    dsimp only
    split_ifs <;> omega
  | updateState jobId state => exact Nat.le_succ _

theorem Counts.step (h : c.Counts held) (hsound : c.Sound) (hroom : held.card < usizeMax)
    (call : Call) : (c.step call).Counts (c.heldAfter held call) := by
  cases call with
  | acquire tenantId spec =>
    unfold Coordinator.step heldAfter
    dsimp only
    cases hok : (c.acquire tenantId spec).1 with
    | ok allocation => exact h.acquire hsound hroom hok
    | error error =>
      have hacquires := acquire_acquires c tenantId spec
      generalize c.acquire tenantId spec = result at hacquires hok
      cases hacquires with
      | refused error => exact h
      | shared job hget => cases hok
      | fresh next hvalid hget hglobal htenant hnumber => cases hok
  | release jobId =>
    obtain ⟨hanswer, hcounts⟩ := h.release hsound jobId
    unfold Coordinator.step heldAfter
    dsimp only
    rw [hanswer]
    by_cases hmem : jobId ∈ held
    · rw [if_pos (by simp [hmem])]
      exact hcounts
    · rw [if_neg (by simp [hmem])]
      rwa [Multiset.erase_of_notMem hmem] at hcounts
  | updateState jobId state => exact h.updateState hsound jobId state

theorem counts_runHeld (calls : List Call) (h : c.Counts held) (hsound : c.Sound)
    (hroom : held.card + calls.length ≤ usizeMax) :
    (runHeld c held calls).1.Counts (runHeld c held calls).2 := by
  induction calls generalizing c held with
  | nil => exact h
  | cons call calls ih =>
    rw [List.length_cons] at hroom
    have hcard := card_heldAfter_le c held call
    exact ih (h.step hsound (by omega) call) (hsound.step call) (by omega)

/-- In every run with fewer calls than a `usize` counts, a job is there exactly if a reference to it is
out, and its count is the number of these references. -/
theorem references_eq_held (quotas : Quotas) (calls : List Call) (hshort : calls.length ≤ usizeMax)
    (id : JobId) :
    (calls.foldl step (new quotas)).references id =
      shown ((runHeld (new quotas) 0 calls).2.count id) := by
  have hcounts := counts_runHeld calls (counts_new quotas) (sound_new quotas)
    (by rw [Multiset.card_zero]; omega)
  rw [runHeld_fst] at hcounts
  exact hcounts id

def sampleSpec : TranscodeSpec where
  source := ⟨"track-1", .vp9, 1920, 1080, 30⟩
  targetCodec := .h264
  width := 1280
  height := 720
  framesPerSecond := 30
  bitrateBps := 1500000

/-- Two subscribers share an output, and one of them leaves. -/
def sampleCalls : List Call :=
  [.acquire "tenant-a" sampleSpec, .acquire "tenant-a" sampleSpec, .release 1]

theorem sample_references_eq_held :
    (sampleCalls.foldl step (new ⟨2, 1⟩)).references 1 = shown 1 := by
  have hheld := references_eq_held ⟨2, 1⟩ sampleCalls (by decide) 1
  have hcount : (runHeld (new ⟨2, 1⟩) 0 sampleCalls).2.count 1 = 1 := by decide
  rw [hheld, hcount]

/-! ## Identifiers -/

/-- What an acquisition is answered with, and the output that it is for. -/
def allocates (c : Coordinator) : Call → Option (TranscodeSpec × Allocation)
  | .acquire tenantId spec => (c.acquire tenantId spec).1.toOption.map fun found => (spec, found)
  | _ => none

/-- The identifier is still to be given, or stands for a job that is there. -/
def Ahead (c : Coordinator) (answer : TranscodeSpec × Allocation) : Prop :=
  answer.2.jobId < c.nextJobId → answer.2.reused = true ∧
    ∃ job, c.jobs.get? answer.1 = some job ∧ job.id = answer.2.jobId

theorem allocates_eq_some {call : Call} {answer : TranscodeSpec × Allocation}
    (h : c.allocates call = some answer) :
    ∃ tenantId, call = .acquire tenantId answer.1 ∧
      (c.acquire tenantId answer.1).1 = .ok answer.2 := by
  cases call with
  | acquire tenantId spec =>
    unfold allocates at h
    dsimp only at h
    cases hok : (c.acquire tenantId spec).1 with
    | error error =>
      rw [hok] at h
      cases h
    | ok allocation =>
      rw [hok] at h
      cases h
      exact ⟨tenantId, rfl, hok⟩
  | release jobId => cases h
  | updateState jobId state => cases h

theorem ahead_of_allocates {call : Call} {answer : TranscodeSpec × Allocation}
    (h : c.allocates call = some answer) : c.Ahead answer := by
  obtain ⟨tenantId, -, hok⟩ := allocates_eq_some h
  have hacquires := acquire_acquires c tenantId answer.1
  generalize c.acquire tenantId answer.1 = result at hacquires hok
  intro hlt
  cases hacquires with
  | refused error => cases hok
  | shared job hget =>
    dsimp only at hok
    cases hok' : answer.2 with
    | mk jobId reused state =>
      rw [hok'] at hok
      cases hok
      exact ⟨rfl, job, hget, rfl⟩
  | fresh next hvalid hget hglobal htenant hnumber =>
    dsimp only at hok
    rw [← Except.ok.inj hok] at hlt
    exact absurd hlt (UInt64.lt_irrefl _)

/-- A job that is there after a call, and whose identifier was given before, was there. -/
theorem Sound.get?_of_step (h : c.Sound) {call : Call} (hget : (c.step call).jobs.get? spec = some job)
    (hlt : job.id < c.nextJobId) : ∃ before, c.jobs.get? spec = some before ∧ before.id = job.id := by
  cases call with
  | acquire tenantId other =>
    change (c.acquire tenantId other).2.jobs.get? spec = some job at hget
    have hacquires := acquire_acquires c tenantId other
    generalize c.acquire tenantId other = result at hacquires hget
    cases hacquires with
    | refused error => exact ⟨job, hget, rfl⟩
    | shared found hfound =>
      obtain ⟨rfl, rfl⟩ | ⟨-, hold⟩ := Entries.get?_insert_eq_some.mp hget
      · exact ⟨found, hfound, rfl⟩
      · exact ⟨job, hold, rfl⟩
    | fresh next hvalid hnone hglobal htenant hnumber =>
      obtain ⟨-, rfl⟩ | ⟨-, hold⟩ := Entries.get?_insert_eq_some.mp hget
      · exact absurd hlt (UInt64.lt_irrefl _)
      · exact ⟨job, hold, rfl⟩
  | release jobId =>
    change (c.release jobId).2.jobs.get? spec = some job at hget
    have hreleases := h.release_releases jobId
    generalize c.release jobId = result at hreleases hget
    cases hreleases with
    | unknown hnone => exact ⟨job, hget, rfl⟩
    | last other found hfound hid hlast =>
      exact ⟨job, (Entries.get?_erase_eq_some.mp hget).2, rfl⟩
    | shared other found hfound hid hmore =>
      obtain ⟨rfl, rfl⟩ | ⟨-, hold⟩ := Entries.get?_insert_eq_some.mp hget
      · exact ⟨found, hfound, rfl⟩
      · exact ⟨job, hold, rfl⟩
  | updateState jobId state =>
    change (c.updateState jobId state).2.jobs.get? spec = some job at hget
    have hupdates := h.updateState_updates jobId state
    generalize c.updateState jobId state = result at hupdates hget
    cases hupdates with
    | unknown hnone => exact ⟨job, hget, rfl⟩
    | updated other found hfound hid =>
      obtain ⟨rfl, rfl⟩ | ⟨-, hold⟩ := Entries.get?_insert_eq_some.mp hget
      · exact ⟨found, hfound, rfl⟩
      · exact ⟨job, hold, rfl⟩

theorem nextJobId_le_step (h : c.Sound) (call : Call) : c.nextJobId ≤ (c.step call).nextJobId := by
  cases call with
  | acquire tenantId spec =>
    change c.nextJobId ≤ (c.acquire tenantId spec).2.nextJobId
    have hacquires := acquire_acquires c tenantId spec
    generalize c.acquire tenantId spec = result at hacquires
    cases hacquires with
    | refused error => exact UInt64.le_refl _
    | shared job hget => exact UInt64.le_refl _
    | fresh next hvalid hget hglobal htenant hnumber =>
      rw [UInt64.le_iff_toNat_le]
      dsimp only
      omega
  | release jobId =>
    change c.nextJobId ≤ (c.release jobId).2.nextJobId
    have hreleases := h.release_releases jobId
    generalize c.release jobId = result at hreleases
    cases hreleases <;> exact UInt64.le_refl _
  | updateState jobId state =>
    change c.nextJobId ≤ (c.updateState jobId state).2.nextJobId
    have hupdates := h.updateState_updates jobId state
    generalize c.updateState jobId state = result at hupdates
    cases hupdates <;> exact UInt64.le_refl _

theorem Sound.ahead_of_step (h : c.Sound) {call : Call} {answer : TranscodeSpec × Allocation}
    (hahead : (c.step call).Ahead answer) : c.Ahead answer := by
  intro hlt
  obtain ⟨hreused, job, hget, hid⟩ :=
    hahead (UInt64.lt_of_lt_of_le hlt (nextJobId_le_step h call))
  obtain ⟨before, hbefore, hsame⟩ := h.get?_of_step hget (by rwa [hid])
  exact ⟨hreused, before, hbefore, hsame.trans hid⟩

/-- What an acquisition has answered with is there afterwards. -/
theorem get?_of_allocates {call : Call} {answer : TranscodeSpec × Allocation}
    (h : c.allocates call = some answer) : ∃ job, (c.step call).jobs.get? answer.1 = some job ∧
      job.id = answer.2.jobId := by
  obtain ⟨tenantId, rfl, hok⟩ := allocates_eq_some h
  change ∃ job, (c.acquire tenantId answer.1).2.jobs.get? answer.1 = some job ∧ _
  have hacquires := acquire_acquires c tenantId answer.1
  generalize c.acquire tenantId answer.1 = result at hacquires hok
  cases hacquires with
  | refused error => cases hok
  | shared job hget =>
    dsimp only at hok
    rw [← Except.ok.inj hok]
    exact ⟨_, Entries.get?_insert_self, rfl⟩
  | fresh next hvalid hget hglobal htenant hnumber =>
    dsimp only at hok
    rw [← Except.ok.inj hok]
    exact ⟨_, Entries.get?_insert_self, rfl⟩

/-- In every run, of two answers the later one has a greater identifier if it is for a new job, and
two answers with one identifier are for one output. -/
theorem allocations_consistent (quotas : Quotas) (calls : List Call) :
    (Runs.produced step allocates (new quotas) calls).Pairwise fun earlier later =>
      (later.2.reused = false → earlier.2.jobId < later.2.jobId) ∧
        (earlier.2.jobId = later.2.jobId → earlier.1 = later.1) := by
  refine Runs.pairwise_produced_of_each (I := Sound) (Q := fun _ _ => True) Ahead ?_ ?_ ?_ ?_
    (sound_new quotas) (Runs.each_of_forall (fun _ _ => trivial) _)
  · exact fun c call hsound _ => hsound.step call
  · exact fun c call answer _ _ => ahead_of_allocates
  · exact fun c call answer hsound _ => hsound.ahead_of_step
  · intro c call earlier later hsound _ hearlier hlater
    obtain ⟨job, hget, hid⟩ := get?_of_allocates hearlier
    have hnext := hsound.step call
    have hlt : earlier.2.jobId < (c.step call).nextJobId := hid ▸ hnext.given _ _ hget
    refine ⟨fun hfresh => ?_, fun hsame => ?_⟩
    · refine UInt64.lt_of_lt_of_le hlt (UInt64.not_lt.mp fun hgiven => ?_)
      rw [(hlater hgiven).1] at hfresh
      cases hfresh
    · obtain ⟨-, other, hother, hid'⟩ := hlater (hsame ▸ hlt)
      exact hnext.distinct _ _ hget _ _ hother (by rw [hid, hid', hsame])

end Fluvora.TranscodeBridge.Coordinator
