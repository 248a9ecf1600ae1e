import Fluvora.Lib.Entries
import Fluvora.Lib.Results
import Fluvora.Lib.Runs

/-!
# Shared transcoder allocation

The coordinator of the transcode bridge: subscribers that ask for the same output share one encoder
job, and the job is there as long as somebody holds a reference to it.  `Sound` is what every call
keeps: the quotas, one job for each output, and identifiers that are never given again.
-/

namespace Fluvora.TranscodeBridge

/-! ## Outputs -/

inductive MediaCodec
  | opus
  | aac
  | vp8
  | vp9
  | h264
  | av1
deriving DecidableEq

def MediaCodec.isAudio : MediaCodec → Bool
  | .opus | .aac => true
  | _ => false

/-- Immutable source properties. -/
structure SourceDescriptor where
  sourceId : String
  codec : MediaCodec
  width : UInt16
  height : UInt16
  framesPerSecond : UInt16
deriving DecidableEq

/-- One reusable transcoder output. -/
structure TranscodeSpec where
  source : SourceDescriptor
  targetCodec : MediaCodec
  width : UInt16
  height : UInt16
  framesPerSecond : UInt16
  bitrateBps : UInt64
deriving DecidableEq

abbrev JobId := UInt64

inductive TranscodeError
  | invalidSpec (field : String)
  | upscaleNotAllowed
  | invalidTenant
  | globalQuota
  | tenantQuota
  | jobIdExhausted
  | unknownJob (id : JobId)
deriving DecidableEq

def TranscodeSpec.validate (spec : TranscodeSpec) : Except TranscodeError Unit :=
  if spec.source.sourceId.utf8ByteSize = 0 ∨ 256 < spec.source.sourceId.utf8ByteSize then
    .error (.invalidSpec "source id")
  else if spec.bitrateBps = 0 ∨ 100000000 < spec.bitrateBps then .error (.invalidSpec "bitrate")
  else
    let sourceIsAudio := spec.source.width = 0 && spec.source.height = 0
    let targetIsAudio := spec.width = 0 && spec.height = 0
    if sourceIsAudio ≠ targetIsAudio ∨ sourceIsAudio ≠ spec.source.codec.isAudio ∨
        targetIsAudio ≠ spec.targetCodec.isAudio then
      .error (.invalidSpec "media kind")
    else if sourceIsAudio = true ∧ (spec.source.framesPerSecond ≠ 0 ∨ spec.framesPerSecond ≠ 0) then
      .error (.invalidSpec "audio dimensions")
    else if sourceIsAudio = false ∧ (spec.width = 0 ∨ spec.height = 0 ∨ spec.framesPerSecond = 0 ∨
        spec.source.width < spec.width ∨ spec.source.height < spec.height ∨
        spec.source.framesPerSecond < spec.framesPerSecond) then
      .error .upscaleNotAllowed
    else .ok ()

/-- An output of the kind of its source, in no respect larger or faster. -/
@[mk_iff]
structure TranscodeSpec.Valid (spec : TranscodeSpec) : Prop where
  identified : 0 < spec.source.sourceId.utf8ByteSize ∧ spec.source.sourceId.utf8ByteSize ≤ 256
  bitrate : 0 < spec.bitrateBps ∧ spec.bitrateBps ≤ 100000000
  kind : spec.source.codec.isAudio = spec.targetCodec.isAudio
  audio : spec.targetCodec.isAudio = true →
    (spec.source.width = 0 ∧ spec.source.height = 0 ∧ spec.source.framesPerSecond = 0) ∧
      spec.width = 0 ∧ spec.height = 0 ∧ spec.framesPerSecond = 0
  video : spec.targetCodec.isAudio = false →
    (0 < spec.width ∧ spec.width ≤ spec.source.width) ∧
      (0 < spec.height ∧ spec.height ≤ spec.source.height) ∧
      0 < spec.framesPerSecond ∧ spec.framesPerSecond ≤ spec.source.framesPerSecond

theorem pos_iff_ne_zero {n : UInt16} : 0 < n ↔ n ≠ 0 := by
  rw [UInt16.lt_iff_toNat_lt, ne_eq, ← UInt16.toNat_inj, UInt16.toNat_zero]
  omega

theorem bitrate_iff {n : UInt64} :
    (n ≠ 0 ∧ ¬100000000 < n) ↔ 0 < n ∧ n ≤ 100000000 := by
  rw [UInt64.lt_iff_toNat_lt, UInt64.le_iff_toNat_le, UInt64.lt_iff_toNat_lt, ne_eq,
    ← UInt64.toNat_inj, UInt64.toNat_zero]
  omega

theorem TranscodeSpec.validate_iff (spec : TranscodeSpec) :
    spec.validate = .ok () ↔ spec.Valid := by
  have hwidth : spec.width ≤ spec.source.width → spec.source.width = 0 → spec.width = 0 := by
    intro hle hzero
    rw [hzero, UInt16.le_iff_toNat_le, UInt16.toNat_zero] at hle
    rw [← UInt16.toNat_inj, UInt16.toNat_zero]
    omega
  rw [valid_iff]
  unfold validate
  dsimp only
  simp only [Results.ite_error_eq_ok, and_true, not_or, not_lt, ← bitrate_iff, ← Nat.pos_iff_ne_zero,
    pos_iff_ne_zero]
  cases spec.targetCodec.isAudio <;> cases spec.source.codec.isAudio <;> grind

instance instDecidableValid (spec : TranscodeSpec) : Decidable spec.Valid :=
  decidable_of_iff _ spec.validate_iff

/-! ## Jobs -/

inductive JobState
  | queued
  | running
  | ready (outputId : String)
  | failed (reason : String) (attempts : UInt16)
deriving DecidableEq

structure Allocation where
  jobId : JobId
  reused : Bool
  state : JobState
deriving DecidableEq

structure Job where
  id : JobId
  tenantId : String
  references : ℕ
  state : JobState
deriving DecidableEq

structure Quotas where
  globalJobs : ℕ
  jobsPerTenant : ℕ
deriving DecidableEq

structure Coordinator where
  quotas : Quotas
  nextJobId : JobId
  jobs : Entries TranscodeSpec Job
deriving DecidableEq

def usizeMax : ℕ := 2 ^ 64 - 1

/-- `checked_add(1)` on a job identifier. -/
def JobId.next (id : JobId) : Option JobId := if id.toNat + 1 < 2 ^ 64 then some (id + 1) else none

namespace Coordinator

def new (quotas : Quotas) : Coordinator := ⟨quotas, 1, .empty⟩

def tenantJobs (c : Coordinator) (tenantId : String) : ℕ :=
  c.jobs.count fun _ job => job.tenantId = tenantId

/-- Reuses an exact output or allocates one new queued job. -/
def acquire (c : Coordinator) (tenantId : String) (spec : TranscodeSpec) :
    Except TranscodeError Allocation × Coordinator :=
  match spec.validate with
  | .error error => (.error error, c)
  | .ok () =>
      match c.jobs.get? spec with
      | some job =>
          (.ok ⟨job.id, true, job.state⟩,
            { c with
              jobs := c.jobs.insert spec
                { job with references := min (job.references + 1) usizeMax } })
      | none =>
          if tenantId.utf8ByteSize = 0 ∨ 128 < tenantId.utf8ByteSize then (.error .invalidTenant, c)
          else if c.quotas.globalJobs ≤ c.jobs.size then (.error .globalQuota, c)
          else if c.quotas.jobsPerTenant ≤ c.tenantJobs tenantId then (.error .tenantQuota, c)
          else
            match c.nextJobId.next with
            | none => (.error .jobIdExhausted, c)
            | some next =>
                (.ok ⟨c.nextJobId, false, .queued⟩,
                  { c with
                    nextJobId := next
                    jobs := c.jobs.insert spec ⟨c.nextJobId, tenantId, 1, .queued⟩ })

/-- The first job of the identifier, in the order of iteration. -/
def find (c : Coordinator) (jobId : JobId) : Option (TranscodeSpec × Job) :=
  c.jobs.toList.find? fun entry => entry.2.id = jobId

/-- Drops one reference and removes an unused job. -/
def release (c : Coordinator) (jobId : JobId) : Bool × Coordinator :=
  match c.find jobId with
  | none => (false, c)
  | some (key, job) =>
      let job := { job with references := job.references - 1 }
      let jobs := c.jobs.insert key job
      (true, { c with jobs := if job.references = 0 then jobs.erase key else jobs })

def updateState (c : Coordinator) (jobId : JobId) (state : JobState) :
    Except TranscodeError Unit × Coordinator :=
  match c.find jobId with
  | none => (.error (.unknownJob jobId), c)
  | some (key, job) => (.ok (), { c with jobs := c.jobs.insert key { job with state } })

def activeJobs (c : Coordinator) : ℕ := c.jobs.size

def specification (c : Coordinator) (jobId : JobId) : Option TranscodeSpec :=
  (c.find jobId).map Prod.fst

def references (c : Coordinator) (jobId : JobId) : Option ℕ :=
  (c.find jobId).map fun entry => entry.2.references

/-! ## What the calls do -/

section

variable {c : Coordinator} {tenantId : String} {spec other : TranscodeSpec} {jobId : JobId} {job : Job}

/-- What an acquisition does. -/
inductive Acquires (c : Coordinator) (tenantId : String) (spec : TranscodeSpec) :
    Except TranscodeError Allocation × Coordinator → Prop
  | refused (error : TranscodeError) : Acquires c tenantId spec (.error error, c)
  | shared (job : Job) (hget : c.jobs.get? spec = some job) :
      Acquires c tenantId spec (.ok ⟨job.id, true, job.state⟩,
        { c with
          jobs := c.jobs.insert spec { job with references := min (job.references + 1) usizeMax } })
  | fresh (next : JobId) (hvalid : spec.Valid) (hget : c.jobs.get? spec = none)
      (hglobal : c.jobs.size < c.quotas.globalJobs)
      (htenant : c.tenantJobs tenantId < c.quotas.jobsPerTenant)
      (hnext : c.nextJobId.toNat + 1 = next.toNat) :
      Acquires c tenantId spec (.ok ⟨c.nextJobId, false, .queued⟩,
        { c with
          nextJobId := next
          jobs := c.jobs.insert spec ⟨c.nextJobId, tenantId, 1, .queued⟩ })

theorem toNat_next {next : JobId} (h : jobId.next = some next) : jobId.toNat + 1 = next.toNat := by
  unfold JobId.next at h
  split_ifs at h with hlt
  cases h
  rw [UInt64.toNat_add, UInt64.toNat_one]
  omega

theorem acquire_acquires (c : Coordinator) (tenantId : String) (spec : TranscodeSpec) :
    Acquires c tenantId spec (c.acquire tenantId spec) := by
  unfold acquire
  cases hvalid : spec.validate with
  | error error => exact .refused error
  | ok _ =>
    dsimp only
    cases hget : c.jobs.get? spec with
    | some job => exact .shared job hget
    | none =>
      dsimp only
      split_ifs with htenant hglobal hroom
      · exact .refused _
      · exact .refused _
      · exact .refused _
      · cases hnext : c.nextJobId.next with
        | none => exact .refused _
        | some next =>
          exact .fresh next (spec.validate_iff.mp hvalid) hget (not_le.mp hglobal)
            (not_le.mp hroom) (toNat_next hnext)

end

/-- What every call keeps.  An identifier that is not below the next one was never given. -/
structure Sound (c : Coordinator) : Prop where
  global : c.jobs.size ≤ c.quotas.globalJobs
  tenant : ∀ tenantId, c.tenantJobs tenantId ≤ c.quotas.jobsPerTenant
  valid : ∀ spec job, c.jobs.get? spec = some job → spec.Valid
  referenced : ∀ spec job, c.jobs.get? spec = some job → 0 < job.references
  given : ∀ spec job, c.jobs.get? spec = some job → job.id < c.nextJobId
  distinct : ∀ spec job, c.jobs.get? spec = some job → ∀ other job', c.jobs.get? other = some job' →
    job.id = job'.id → spec = other

section

variable {c : Coordinator} {tenantId : String} {spec : TranscodeSpec} {jobId : JobId} {job : Job}

theorem find_eq_none : c.find jobId = none ↔
    ∀ spec job, c.jobs.get? spec = some job → job.id ≠ jobId := by
  unfold find
  rw [List.find?_eq_none]
  constructor
  · intro h spec job hget hid
    exact h (spec, job) (Entries.mem_toList.mpr hget) (by simp [hid])
  · intro h entry hentry hid
    exact h entry.1 entry.2 (Entries.mem_toList.mp hentry) (by simpa using hid)

/-- No two jobs have one identifier, so the order of iteration does not matter. -/
theorem Sound.find_eq_some (h : c.Sound) :
    c.find jobId = some (spec, job) ↔ c.jobs.get? spec = some job ∧ job.id = jobId := by
  constructor
  · intro hfind
    have hmem := List.mem_of_find?_eq_some hfind
    exact ⟨Entries.mem_toList.mp hmem, by simpa using List.find?_some hfind⟩
  · rintro ⟨hget, rfl⟩
    cases hfind : c.find job.id with
    | none => exact absurd rfl (find_eq_none.mp hfind spec job hget)
    | some entry =>
      have hmem := Entries.mem_toList.mp (List.mem_of_find?_eq_some hfind)
      have hid : entry.2.id = job.id := by simpa using List.find?_some hfind
      have hspec := h.distinct _ _ hmem _ _ hget hid
      rw [hspec, hget] at hmem
      rw [Option.some.injEq, Prod.ext_iff]
      exact ⟨hspec, (Option.some.inj hmem).symm⟩

theorem Sound.references_eq_some (h : c.Sound) {n : ℕ} : c.references jobId = some n ↔
    ∃ spec job, c.jobs.get? spec = some job ∧ job.id = jobId ∧ job.references = n := by
  unfold references
  rw [Option.map_eq_some_iff]
  constructor
  · rintro ⟨⟨spec, job⟩, hfind, rfl⟩
    obtain ⟨hget, hid⟩ := h.find_eq_some.mp hfind
    exact ⟨spec, job, hget, hid, rfl⟩
  · rintro ⟨spec, job, hget, hid, rfl⟩
    exact ⟨(spec, job), h.find_eq_some.mpr ⟨hget, hid⟩, rfl⟩

theorem references_eq_none : c.references jobId = none ↔
    ∀ spec job, c.jobs.get? spec = some job → job.id ≠ jobId := by
  unfold references
  rw [Option.map_eq_none_iff, find_eq_none]

/-- What a release does. -/
inductive Releases (c : Coordinator) (jobId : JobId) : Bool × Coordinator → Prop
  | unknown (hnone : c.references jobId = none) : Releases c jobId (false, c)
  | last (spec : TranscodeSpec) (job : Job) (hget : c.jobs.get? spec = some job)
      (hid : job.id = jobId) (hlast : job.references = 1) :
      Releases c jobId (true, { c with jobs := c.jobs.erase spec })
  | shared (spec : TranscodeSpec) (job : Job) (hget : c.jobs.get? spec = some job)
      (hid : job.id = jobId) (hmore : 1 < job.references) :
      Releases c jobId (true,
        { c with jobs := c.jobs.insert spec { job with references := job.references - 1 } })

theorem Sound.release_releases (h : c.Sound) (jobId : JobId) :
    Releases c jobId (c.release jobId) := by
  unfold release
  cases hfind : c.find jobId with
  | none =>
    refine .unknown ?_
    rw [references, hfind]
    rfl
  | some entry =>
    obtain ⟨hget, hid⟩ := h.find_eq_some.mp hfind
    have hpos := h.referenced _ _ hget
    dsimp only
    by_cases hlast : entry.2.references = 1
    · rw [if_pos (by omega), Entries.erase_insert_self]
      exact .last _ _ hget hid hlast
    · rw [if_neg (by omega)]
      exact .shared _ _ hget hid (by omega)

/-- What an update of a state does. -/
inductive Updates (c : Coordinator) (jobId : JobId) (state : JobState) :
    Except TranscodeError Unit × Coordinator → Prop
  | unknown (hnone : c.references jobId = none) :
      Updates c jobId state (.error (.unknownJob jobId), c)
  | updated (spec : TranscodeSpec) (job : Job) (hget : c.jobs.get? spec = some job)
      (hid : job.id = jobId) :
      Updates c jobId state (.ok (), { c with jobs := c.jobs.insert spec { job with state } })

theorem Sound.updateState_updates (h : c.Sound) (jobId : JobId) (state : JobState) :
    Updates c jobId state (c.updateState jobId state) := by
  unfold updateState
  cases hfind : c.find jobId with
  | none =>
    refine .unknown ?_
    rw [references, hfind]
    rfl
  | some entry =>
    obtain ⟨hget, hid⟩ := h.find_eq_some.mp hfind
    exact .updated _ _ hget hid

/-! ## What every call keeps -/

theorem sound_new (quotas : Quotas) : (new quotas).Sound := by
  refine ⟨Nat.zero_le _, fun _ => Nat.zero_le _, ?_, ?_, ?_, ?_⟩
  all_goals
    intro spec job hget
    cases hget

/-- A job is written anew under its own identifier. -/
theorem Sound.rewrite (h : c.Sound) (hget : c.jobs.get? spec = some job) {next : Job}
    (hid : next.id = job.id) (htenant : next.tenantId = job.tenantId)
    (hpos : 0 < next.references) : Sound { c with jobs := c.jobs.insert spec next } := by
  have hback : ∀ other found, (c.jobs.insert spec next).get? other = some found →
      ∃ before, c.jobs.get? other = some before ∧ found.id = before.id := by
    intro other found hfound
    obtain ⟨rfl, rfl⟩ | ⟨-, hfound⟩ := Entries.get?_insert_eq_some.mp hfound
    · exact ⟨job, hget, hid⟩
    · exact ⟨found, hfound, rfl⟩
  refine ⟨?_, ?_, ?_, ?_, ?_, ?_⟩
  · have hglobal := h.global
    rw [Entries.size_eq_count, Entries.count_of_get? hget] at hglobal
    rw [Entries.size_eq_count, Entries.count_insert]
    exact hglobal
  · intro tenantId
    have htenants := h.tenant tenantId
    unfold tenantJobs at htenants ⊢
    rw [Entries.count_of_get? hget] at htenants
    rw [Entries.count_insert, htenant]
    exact htenants
  · intro other found hfound
    obtain ⟨before, hbefore, -⟩ := hback other found hfound
    exact h.valid other before hbefore
  · intro other found hfound
    obtain ⟨-, rfl⟩ | ⟨-, hfound⟩ := Entries.get?_insert_eq_some.mp hfound
    · exact hpos
    · exact h.referenced other found hfound
  · intro other found hfound
    obtain ⟨before, hbefore, hsame⟩ := hback other found hfound
    rw [hsame]
    exact h.given other before hbefore
  · intro first one hone second two htwo hsame
    obtain ⟨one', hone', hfirst⟩ := hback first one hone
    obtain ⟨two', htwo', hsecond⟩ := hback second two htwo
    exact h.distinct first one' hone' second two' htwo' (by rw [← hfirst, ← hsecond, hsame])

theorem Sound.erase (h : c.Sound) (hget : c.jobs.get? spec = some job) :
    Sound { c with jobs := c.jobs.erase spec } := by
  have hback : ∀ other found, (c.jobs.erase spec).get? other = some found →
      c.jobs.get? other = some found := fun other found hfound =>
    (Entries.get?_erase_eq_some.mp hfound).2
  refine ⟨?_, ?_, ?_, ?_, ?_, ?_⟩
  · have hglobal := h.global
    rw [Entries.size_eq_count, Entries.count_of_get? hget] at hglobal
    rw [Entries.size_eq_count]
    exact (Nat.le_add_right _ _).trans hglobal
  · intro tenantId
    have htenants := h.tenant tenantId
    unfold tenantJobs at htenants ⊢
    rw [Entries.count_of_get? hget] at htenants
    exact (Nat.le_add_right _ _).trans htenants
  · exact fun other found hfound => h.valid other found (hback other found hfound)
  · exact fun other found hfound => h.referenced other found (hback other found hfound)
  · exact fun other found hfound => h.given other found (hback other found hfound)
  · exact fun first one hone second two htwo =>
      h.distinct first one (hback first one hone) second two (hback second two htwo)

theorem Sound.acquire (h : c.Sound) (tenantId : String) (spec : TranscodeSpec) :
    (c.acquire tenantId spec).2.Sound := by
  have hacquires := acquire_acquires c tenantId spec
  generalize c.acquire tenantId spec = result at hacquires
  cases hacquires with
  | refused error => exact h
  | shared job hget =>
    refine h.rewrite hget rfl rfl ?_
    have hpos := h.referenced spec job hget
    unfold usizeMax
    dsimp only
    omega
  | fresh next hvalid hget hglobal htenant hnext =>
    have hbelow : ∀ id : JobId, id < c.nextJobId → id < next := by
      intro id hid
      rw [UInt64.lt_iff_toNat_lt] at hid ⊢
      omega
    refine ⟨?_, ?_, ?_, ?_, ?_, ?_⟩
    · rw [Entries.size_eq_count, Entries.count_insert, Entries.count_erase_of_get?_eq_none hget,
        ← Entries.size_eq_count, if_pos rfl]
      exact hglobal
    · intro other
      have htenants := h.tenant other
      unfold tenantJobs at htenant htenants ⊢
      rw [Entries.count_insert, Entries.count_erase_of_get?_eq_none hget]
      dsimp only
      by_cases hother : tenantId = other
      · rw [if_pos (by simp [hother]), ← hother]
        exact htenant
      · rw [if_neg (by simp [hother])]
        exact htenants
    · intro other found hfound
      obtain ⟨rfl, -⟩ | ⟨-, hfound⟩ := Entries.get?_insert_eq_some.mp hfound
      · exact hvalid
      · exact h.valid other found hfound
    · intro other found hfound
      obtain ⟨-, rfl⟩ | ⟨-, hfound⟩ := Entries.get?_insert_eq_some.mp hfound
      · exact Nat.one_pos
      · exact h.referenced other found hfound
    · intro other found hfound
      obtain ⟨-, rfl⟩ | ⟨-, hfound⟩ := Entries.get?_insert_eq_some.mp hfound
      · rw [UInt64.lt_iff_toNat_lt]
        dsimp only
        omega
      · exact hbelow _ (h.given other found hfound)
    · intro first one hone second two htwo hsame
      obtain ⟨rfl, rfl⟩ | ⟨-, holdOne⟩ := Entries.get?_insert_eq_some.mp hone
      · obtain ⟨rfl, -⟩ | ⟨-, holdTwo⟩ := Entries.get?_insert_eq_some.mp htwo
        · rfl
        · have hlt := h.given second two holdTwo
          rw [← hsame] at hlt
          exact absurd hlt (UInt64.lt_irrefl _)
      · obtain ⟨rfl, rfl⟩ | ⟨-, holdTwo⟩ := Entries.get?_insert_eq_some.mp htwo
        · have hlt := h.given first one holdOne
          rw [hsame] at hlt
          exact absurd hlt (UInt64.lt_irrefl _)
        · exact h.distinct first one holdOne second two holdTwo hsame

theorem Sound.release (h : c.Sound) (jobId : JobId) : (c.release jobId).2.Sound := by
  have hreleases := h.release_releases jobId
  generalize c.release jobId = result at hreleases
  cases hreleases with
  | unknown hnone => exact h
  | last spec job hget hid hlast => exact h.erase hget
  | shared spec job hget hid hmore =>
    refine h.rewrite hget rfl rfl ?_
    dsimp only
    omega

theorem Sound.updateState (h : c.Sound) (jobId : JobId) (state : JobState) :
    (c.updateState jobId state).2.Sound := by
  have hupdates := h.updateState_updates jobId state
  generalize c.updateState jobId state = result at hupdates
  cases hupdates with
  | unknown hnone => exact h
  | updated spec job hget hid => exact h.rewrite hget rfl rfl (h.referenced spec job hget)

end

/-! ## Runs -/

inductive Call
  | acquire (tenantId : String) (spec : TranscodeSpec)
  | release (jobId : JobId)
  | updateState (jobId : JobId) (state : JobState)
deriving DecidableEq

def step (c : Coordinator) : Call → Coordinator
  | .acquire tenantId spec => (c.acquire tenantId spec).2
  | .release jobId => (c.release jobId).2
  | .updateState jobId state => (c.updateState jobId state).2

theorem Sound.step {c : Coordinator} (h : c.Sound) (call : Call) : (c.step call).Sound := by
  cases call with
  | acquire tenantId spec => exact h.acquire tenantId spec
  | release jobId => exact h.release jobId
  | updateState jobId state => exact h.updateState jobId state

theorem quotas_step (c : Coordinator) (call : Call) : (c.step call).quotas = c.quotas := by
  cases call with
  | acquire tenantId spec =>
    change (c.acquire tenantId spec).2.quotas = c.quotas
    have hacquires := acquire_acquires c tenantId spec
    generalize c.acquire tenantId spec = result at hacquires
    cases hacquires <;> rfl
  | release jobId =>
    change (c.release jobId).2.quotas = c.quotas
    unfold release
    cases c.find jobId <;> rfl
  | updateState jobId state =>
    change (c.updateState jobId state).2.quotas = c.quotas
    unfold updateState
    cases c.find jobId <;> rfl

/-- In every run of a new coordinator the quotas hold, every job has an output that is not larger than
its source, and somebody who holds it, and no two jobs have one output or one identifier. -/
theorem jobs_bounded (quotas : Quotas) (calls : List Call) :
    Runs.Always step (fun c => c.quotas = quotas ∧ c.Sound) (new quotas) calls := by
  refine Runs.always_of_step ?_ ⟨rfl, sound_new quotas⟩ calls
  rintro c call ⟨hquotas, hsound⟩
  exact ⟨(quotas_step c call).trans hquotas, hsound.step call⟩

end Coordinator

end Fluvora.TranscodeBridge
