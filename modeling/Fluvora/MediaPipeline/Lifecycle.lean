import Fluvora.Lib.Runs
import Fluvora.MediaPipeline.Asset

/-!
# The lifecycle of a VOD asset

Any operations on a new asset, accepted or not.  `each_sound_iff` tells when all that is promised of
them holds: an asset that fails before its upload is complete may be retried all the same, and then it
is in transcoding with a version that `validate` does not accept.
-/

namespace Fluvora.MediaPipeline

open Domain

/-! ## The check of a loaded asset, in one line for each state -/

namespace AssetState

/-- The data of the state are in order. -/
def InOrder : AssetState → Prop
  | .uploaded sourceBytes => sourceBytes ≠ 0
  | .ready manifestUri durationMillis =>
      validateRelativeUri manifestUri = .ok () ∧ durationMillis ≠ 0
  | .failed reason _ => isFailureReason reason = true
  | _ => True

/-- The least version that `validate` accepts. -/
def least : AssetState → ℕ
  | .created => 1
  | .uploading _ | .deleting | .failed _ _ => 2
  | .uploaded _ | .deleted => 3
  | .probing => 4
  | .transcoding _ => 5
  | .ready _ _ => 6

theorem least_pos (state : AssetState) : 1 ≤ state.least := by
  cases state <;> exact Nat.le_of_ble_eq_true rfl

/-- The states that come after a complete upload, except for failures and deletion. -/
def AfterUpload : AssetState → Prop
  | .uploaded _ | .probing | .transcoding _ | .ready _ _ => True
  | _ => False

end AssetState

theorem validateIdentifier_eq_ok_iff {value : String} :
    validateIdentifier value = .ok () ↔ isIdentifier value = true := by
  unfold validateIdentifier
  split_ifs with h <;> simp [h]

theorem minimumVersion_eq_ok_iff {asset : VodAsset} {minimum : UInt64} :
    asset.minimumVersion = .ok minimum ↔ asset.state.InOrder ∧
      (asset.state = .created → asset.version = 1) ∧ minimum = UInt64.ofNat asset.state.least := by
  obtain ⟨id, tenantId, version, state⟩ := asset
  unfold VodAsset.minimumVersion
  cases state with
  | created =>
    by_cases hversion : version = 1 <;>
      simp [AssetState.InOrder, AssetState.least, hversion, eq_comm]
  | uploaded sourceBytes =>
    by_cases hbytes : sourceBytes = 0 <;> simp [AssetState.InOrder, AssetState.least, hbytes, eq_comm]
  | ready manifestUri durationMillis =>
    cases huri : validateRelativeUri manifestUri with
    | error error => simp [AssetState.InOrder, huri, Results.bind_error]
    | ok =>
      by_cases hduration : durationMillis = 0 <;>
        simp [AssetState.InOrder, AssetState.least, huri, hduration, Results.bind_ok, eq_comm]
  | failed reason retryable =>
    by_cases hreason : isFailureReason reason = true <;>
      simp [AssetState.InOrder, AssetState.least, hreason, eq_comm]
  | _ => simp [AssetState.InOrder, AssetState.least, eq_comm]

theorem validate_eq_ok_iff {asset : VodAsset} :
    asset.validate = .ok () ↔ isIdentifier asset.id = true ∧ isIdentifier asset.tenantId = true ∧
      asset.state.InOrder ∧ (asset.state = .created → asset.version = 1) ∧
      asset.state.least ≤ asset.version.toNat := by
  have hleast : (UInt64.ofNat asset.state.least).toNat = asset.state.least := by
    cases asset.state <;> rfl
  unfold VodAsset.validate
  constructor
  · intro h
    obtain ⟨⟨⟩, hid, h⟩ := Results.bind_eq_ok.mp h
    obtain ⟨⟨⟩, htenant, h⟩ := Results.bind_eq_ok.mp h
    obtain ⟨minimum, hminimum, h⟩ := Results.bind_eq_ok.mp h
    obtain ⟨horder, hcreated, rfl⟩ := minimumVersion_eq_ok_iff.mp hminimum
    split_ifs at h with hversion
    rw [UInt64.not_lt, UInt64.le_iff_toNat_le, hleast] at hversion
    exact ⟨validateIdentifier_eq_ok_iff.mp hid, validateIdentifier_eq_ok_iff.mp htenant, horder,
      hcreated, hversion⟩
  · rintro ⟨hid, htenant, horder, hcreated, hversion⟩
    rw [validateIdentifier_eq_ok_iff.mpr hid, Results.bind_ok,
      validateIdentifier_eq_ok_iff.mpr htenant, Results.bind_ok,
      minimumVersion_eq_ok_iff.mpr ⟨horder, hcreated, rfl⟩, Results.bind_ok, if_neg]
    rw [UInt64.not_lt, UInt64.le_iff_toNat_le, hleast]
    exact hversion

/-! ## Runs -/

/-- An asset, and whether its upload was ever completed. -/
structure Lifecycle where
  asset : VodAsset
  uploaded : Bool

def AssetOperation.completes : AssetOperation → Bool
  | .completeUpload _ => true
  | _ => false

namespace Lifecycle

def step (lifecycle : Lifecycle) (operation : AssetOperation) : Lifecycle :=
  match operation.apply.run lifecycle.asset with
  | (.ok (), asset) => ⟨asset, lifecycle.uploaded || operation.completes⟩
  | (.error _, asset) => ⟨asset, lifecycle.uploaded⟩

/-- What is promised of an operation. -/
structure Sound (lifecycle : Lifecycle) (operation : AssetOperation) : Prop where
  valid : (lifecycle.step operation).asset.validate = .ok ()
  rejected : ∀ error, (operation.apply.run lifecycle.asset).1 = .error error →
    (lifecycle.step operation).asset = lifecycle.asset
  accepted : (operation.apply.run lifecycle.asset).1 = .ok () →
    (lifecycle.step operation).asset.version.toNat = lifecycle.asset.version.toNat + 1
  transcoding : ∀ outputs, (lifecycle.step operation).asset.state = .transcoding outputs →
    (lifecycle.step operation).uploaded = true
  ready : ∀ uri duration, (lifecycle.step operation).asset.state = .ready uri duration →
    (lifecycle.step operation).uploaded = true

/-- A failed asset is retried only if its upload was completed, or if no version is left. -/
def RetriesSource (lifecycle : Lifecycle) : AssetOperation → Prop
  | .startTranscode => ∀ reason, lifecycle.asset.state = .failed reason true →
      lifecycle.uploaded = true ∨ lifecycle.asset.version.toNat + 1 = 2 ^ 64
  | _ => True

/-- What holds of every asset whose failures are retried in this way. -/
structure Reached (lifecycle : Lifecycle) : Prop where
  valid : lifecycle.asset.validate = .ok ()
  afterUpload : lifecycle.asset.state.AfterUpload → lifecycle.uploaded = true
  version : lifecycle.uploaded = true → 3 ≤ lifecycle.asset.version.toNat
  failed : lifecycle.uploaded = true → ∀ reason retryable,
    lifecycle.asset.state = .failed reason retryable → 4 ≤ lifecycle.asset.version.toNat

/-! ### One operation -/

/-- A rejected operation changes nothing, and an accepted one moves the asset on. -/
inductive Steps (lifecycle : Lifecycle) (operation : AssetOperation) : Prop
  | rejected (hresult : ¬ (operation.apply.run lifecycle.asset).1 = .ok ())
      (hstep : lifecycle.step operation = lifecycle)
  | accepted (version : UInt64) (state : AssetState)
      (hresult : (operation.apply.run lifecycle.asset).1 = .ok ())
      (hmoves : Moves lifecycle.asset.state operation state)
      (hversion : version.toNat = lifecycle.asset.version.toNat + 1)
      (hstep : lifecycle.step operation =
        ⟨{ lifecycle.asset with version, state }, lifecycle.uploaded || operation.completes⟩)

theorem toNat_of_checkedSucc {n m : UInt64} (h : checkedSucc n = some m) :
    m.toNat = n.toNat + 1 := by
  unfold checkedSucc at h
  split_ifs at h with hlt
  rw [← Option.some.inj h, UInt64.toNat_add, UInt64.toNat_one, Nat.mod_eq_of_lt hlt]

theorem steps (lifecycle : Lifecycle) (operation : AssetOperation) :
    Steps lifecycle operation := by
  have happlies := run_apply operation lifecycle.asset
  generalize hrun : operation.apply.run lifecycle.asset = result at happlies
  cases happlies with
  | rejected error =>
    refine .rejected ?_ ?_
    · rw [hrun]
      exact nofun
    · unfold step
      rw [hrun]
  | accepted hmoves hversion =>
    refine .accepted _ _ ?_ hmoves (toNat_of_checkedSucc hversion) ?_
    · rw [hrun]
    · unfold step
      rw [hrun]

/-- The retries of failed assets that have a version left. -/
theorem uploaded_of_retry {lifecycle : Lifecycle} {reason : String} {version : UInt64}
    (hretries : lifecycle.RetriesSource .startTranscode)
    (hstate : lifecycle.asset.state = .failed reason true)
    (hversion : version.toNat = lifecycle.asset.version.toNat + 1) : lifecycle.uploaded = true := by
  rcases hretries reason hstate with huploaded | hexhausted
  · exact huploaded
  · have hlt := version.toNat_lt
    omega

theorem reached_step {lifecycle : Lifecycle} (h : lifecycle.Reached) {operation : AssetOperation}
    (hretries : lifecycle.RetriesSource operation) : (lifecycle.step operation).Reached := by
  cases steps lifecycle operation with
  | rejected hresult hstep =>
    rw [hstep]
    exact h
  | accepted version state hresult hmoves hversion hstep =>
    rw [hstep]
    obtain ⟨hid, htenant, horder, -, hleast⟩ := validate_eq_ok_iff.mp h.valid
    obtain ⟨⟨id, tenantId, old, before⟩, uploaded⟩ := lifecycle
    have huploaded : uploaded = true → 3 ≤ old.toNat := h.version
    have hafter : before.AfterUpload → uploaded = true := h.afterUpload
    have hfailed : uploaded = true → ∀ reason retryable, before = .failed reason retryable →
      4 ≤ old.toNat := h.failed
    dsimp only at hmoves hversion hleast hid htenant
    have hpositive : 1 ≤ old.toNat := before.least_pos.trans hleast
    -- it is enough to look at the new state
    suffices hnew : state.InOrder ∧ state ≠ .created ∧ state.least ≤ old.toNat + 1 ∧
        (state.AfterUpload → (uploaded || operation.completes) = true) ∧
        ((uploaded || operation.completes) = true → 3 ≤ old.toNat + 1) ∧
        ((uploaded || operation.completes) = true → ∀ reason retryable,
          state = .failed reason retryable → 4 ≤ old.toNat + 1) by
      obtain ⟨horder, hcreated, hleast, hafter, hthree, hfour⟩ := hnew
      rw [← hversion] at hleast hthree hfour
      exact ⟨validate_eq_ok_iff.mpr ⟨hid, htenant, horder, fun h => absurd h hcreated, hleast⟩,
        hafter, hthree, hfour⟩
    have hthree : uploaded = true → 3 ≤ old.toNat + 1 := fun hup =>
      (huploaded hup).trans (Nat.le_succ _)
    dsimp only [AssetState.least] at hleast
    cases hmoves with
    | upload =>
      simp only [AssetOperation.completes, Bool.or_false]
      exact ⟨trivial, nofun, Nat.succ_le_succ hpositive, nofun, hthree, nofun⟩
    | resume =>
      simp only [AssetOperation.completes, Bool.or_false]
      exact ⟨trivial, nofun, Nat.succ_le_succ hpositive, nofun, hthree, nofun⟩
    | complete hbytes =>
      simp only [AssetOperation.completes, Bool.or_true]
      exact ⟨hbytes, nofun, Nat.succ_le_succ hleast, fun _ => trivial,
        fun _ => Nat.succ_le_succ hleast, nofun⟩
    | probe =>
      simp only [AssetOperation.completes, Bool.or_false]
      exact ⟨trivial, nofun, Nat.succ_le_succ hleast, fun _ => hafter trivial, hthree, nofun⟩
    | transcode =>
      simp only [AssetOperation.completes, Bool.or_false]
      exact ⟨trivial, nofun, Nat.succ_le_succ hleast, fun _ => hafter trivial, hthree, nofun⟩
    | retry =>
      have hup : uploaded = true := uploaded_of_retry hretries rfl hversion
      simp only [AssetOperation.completes, Bool.or_false]
      exact ⟨trivial, nofun, Nat.succ_le_succ (hfailed hup _ _ rfl), fun _ => hup, hthree, nofun⟩
    | advance hcount =>
      simp only [AssetOperation.completes, Bool.or_false]
      exact ⟨trivial, nofun, hleast.trans (Nat.le_succ _), fun _ => hafter trivial, hthree, nofun⟩
    | publish huri hduration =>
      simp only [AssetOperation.completes, Bool.or_false]
      exact ⟨⟨huri, hduration⟩, nofun, Nat.succ_le_succ hleast, fun _ => hafter trivial, hthree,
        nofun⟩
    | fail hstate hreason =>
      simp only [AssetOperation.completes, Bool.or_false]
      exact ⟨hreason, nofun, Nat.succ_le_succ hpositive, nofun, hthree,
        fun hup _ _ _ => Nat.succ_le_succ (huploaded hup)⟩
    | startDelete hstate =>
      simp only [AssetOperation.completes, Bool.or_false]
      exact ⟨trivial, nofun, Nat.succ_le_succ hpositive, nofun, hthree, nofun⟩
    | finishDelete =>
      simp only [AssetOperation.completes, Bool.or_false]
      exact ⟨trivial, nofun, Nat.succ_le_succ hleast, nofun, hthree, nofun⟩

theorem step_retry {lifecycle : Lifecycle} {reason : String}
    (hstate : lifecycle.asset.state = .failed reason true)
    (hversion : lifecycle.asset.version.toNat + 1 ≠ 2 ^ 64) :
    lifecycle.step .startTranscode =
      ⟨{ lifecycle.asset with version := lifecycle.asset.version + 1, state := .transcoding 0 },
        lifecycle.uploaded⟩ := by
  have hlt : lifecycle.asset.version.toNat + 1 < 2 ^ 64 :=
    Nat.lt_of_le_of_ne lifecycle.asset.version.toNat_lt hversion
  have hmoves : Moves lifecycle.asset.state .startTranscode (.transcoding 0) := hstate ▸ .retry
  have hrun : (AssetOperation.apply .startTranscode).run lifecycle.asset = (.ok (),
      { lifecycle.asset with version := lifecycle.asset.version + 1, state := .transcoding 0 }) := by
    rw [run_of_moves hmoves, run_transition_eq, if_pos hlt]
  unfold step
  rw [hrun]
  simp [AssetOperation.completes]

/-- A retry without a source is the only operation that breaks the promises. -/
theorem sound_iff {lifecycle : Lifecycle} (h : lifecycle.Reached) (operation : AssetOperation) :
    lifecycle.Sound operation ↔ lifecycle.RetriesSource operation := by
  constructor
  · intro hsound
    cases operation with
    | startTranscode =>
      intro reason hstate
      cases hup : lifecycle.uploaded with
      | true => exact .inl rfl
      | false =>
        refine .inr ?_
        by_contra hversion
        have hstep := step_retry hstate hversion
        have htranscoding := hsound.transcoding 0 (by rw [hstep])
        rw [hstep, hup] at htranscoding
        cases htranscoding
    | _ => exact trivial
  · intro hretries
    have hreached := reached_step h hretries
    refine ⟨hreached.valid, ?_, ?_, ?_, ?_⟩
    · intro error herror
      cases steps lifecycle operation with
      | rejected hresult hstep => rw [hstep]
      | accepted version state hresult hmoves hversion hstep =>
        rw [hresult] at herror
        cases herror
    · intro hok
      cases steps lifecycle operation with
      | rejected hresult hstep => exact absurd hok hresult
      | accepted version state hresult hmoves hversion hstep =>
        rw [hstep]
        exact hversion
    · intro outputs hstate
      exact hreached.afterUpload (by rw [hstate]; trivial)
    · intro uri duration hstate
      exact hreached.afterUpload (by rw [hstate]; trivial)

theorem reached_create {id tenantId : String} {asset : VodAsset}
    (h : VodAsset.create id tenantId = .ok asset) : Reached ⟨asset, false⟩ := by
  unfold VodAsset.create at h
  obtain ⟨⟨⟩, hid, h⟩ := Results.bind_eq_ok.mp h
  obtain ⟨⟨⟩, htenant, h⟩ := Results.bind_eq_ok.mp h
  cases h
  exact ⟨validate_eq_ok_iff.mpr ⟨validateIdentifier_eq_ok_iff.mp hid,
    validateIdentifier_eq_ok_iff.mp htenant, trivial, fun _ => rfl, le_rfl⟩, nofun, nofun, nofun⟩

/-- A new asset is valid, and all that is promised holds exactly as long as no failed asset is
retried before its upload was completed. -/
theorem each_sound_iff {id tenantId : String} {asset : VodAsset}
    (h : VodAsset.create id tenantId = .ok asset) (operations : List AssetOperation) :
    (asset.validate = .ok () ∧ Runs.Each step Sound ⟨asset, false⟩ operations) ↔
      Runs.Each step RetriesSource ⟨asset, false⟩ operations := by
  have hcreated := reached_create h
  rw [and_iff_right hcreated.valid]
  exact Runs.each_iff_each (I := Reached) (fun _ _ hreached hretries => reached_step hreached hretries)
    (fun _ operation hreached => sound_iff hreached operation) hcreated operations

def movie : VodAsset := ⟨"movie", "tenant", 1, .created⟩

/-- A retry after the upload. -/
theorem each_sound_movie :
    movie.validate = .ok () ∧ Runs.Each step Sound ⟨movie, false⟩
      [.uploadProgress 8, .completeUpload 8, .fail "probe" true, .startTranscode] :=
  (@each_sound_iff "movie" "tenant" movie (by decide) _).mpr
    ⟨trivial, trivial, trivial, fun _ _ => .inl (by decide), trivial⟩

/-- A retry before the upload: the version is too low for the state. -/
theorem not_each_sound_movie :
    ¬ (movie.validate = .ok () ∧ Runs.Each step Sound ⟨movie, false⟩
      [.fail "no worker" true, .startTranscode]) := by
  intro h
  have hvalid := h.2.2.1.valid
  revert hvalid
  decide

end Lifecycle

end Fluvora.MediaPipeline
