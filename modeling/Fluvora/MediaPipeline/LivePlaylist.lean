import Fluvora.MediaPipeline.Asset

/-!
# Live playlists

The bounded window of segments `LivePlaylist` of `crates/media/media-pipeline`, and the check of one
that has been read back from disk.

`push_run` says that a playlist that passes the check still passes it after another segment.
-/

namespace Fluvora.MediaPipeline

open Domain Fallible

/-- Durations are in nanoseconds. -/
structure Segment where
  sequence : UInt64
  duration : ℕ
  uri : String
  discontinuity : Bool
  programDateTime : Option String
deriving DecidableEq

structure LivePlaylist where
  initUri : String
  windowSize : ℕ
  segments : List Segment
  nextSequence : UInt64
  ended : Bool
deriving DecidableEq

/-- Go on only if the condition holds. -/
def check (condition : Prop) [Decidable condition] (error : PipelineError) :
    Except PipelineError Unit :=
  if condition then .ok () else .error error

theorem check_eq_ok_iff {condition : Prop} [Decidable condition] {error : PipelineError} :
    check condition error = .ok () ↔ condition := by
  unfold check
  split_ifs with h <;> simp [h]

def isProgramDateTime (value : String) : Bool :=
  value.utf8ByteSize ≤ 64 && value.toList.getLast? = some 'Z'

def Segment.validate (segment : Segment) : Except PipelineError Unit := do
  check (segment.duration ≠ 0 ∧ segment.duration ≤ 60000000000) (.invalidSegment "duration")
  validateRelativeUri segment.uri
  check (segment.programDateTime.all isProgramDateTime) (.invalidSegment "program date time")

namespace LivePlaylist

def isWindowSize (size : ℕ) : Bool := 3 ≤ size && size ≤ 10000

def new (initUri : String) (windowSize : ℕ) (firstSequence : UInt64) :
    Except PipelineError LivePlaylist := do
  validateRelativeUri initUri
  check (isWindowSize windowSize) .invalidWindow
  return { initUri, windowSize, segments := [], nextSequence := firstSequence, ended := false }

/-- The sequence number behind some segments that are to begin with a number. -/
def checkSegments : UInt64 → List Segment → Except PipelineError UInt64
  | expected, [] => .ok expected
  | expected, segment :: segments => do
      segment.validate
      check (segment.sequence = expected) (.unexpectedSequence expected segment.sequence)
      match checkedSucc expected with
      | none => .error .sequenceExhausted
      | some next => checkSegments next segments

/-- The number of the first segment, if there is one. -/
def firstSequence (playlist : LivePlaylist) : UInt64 :=
  match playlist.segments with
  | [] => playlist.nextSequence
  | segment :: _ => segment.sequence

def validate (playlist : LivePlaylist) : Except PipelineError Unit := do
  validateRelativeUri playlist.initUri
  check (isWindowSize playlist.windowSize ∧ playlist.segments.length ≤ playlist.windowSize)
    .invalidWindow
  let expected ← checkSegments playlist.firstSequence playlist.segments
  check (expected = playlist.nextSequence) (.unexpectedSequence expected playlist.nextSequence)

/-- The oldest segment is evicted if the window is exceeded. -/
def push (segment : Segment) : Fallible LivePlaylist PipelineError (Option Segment) := do
  let playlist ← get
  ensure (playlist.ended = false) .playlistEnded
  ofExcept segment.validate
  ensure (segment.sequence = playlist.nextSequence)
    (.unexpectedSequence playlist.nextSequence segment.sequence)
  let nextSequence ← ofOption (checkedSucc playlist.nextSequence) .sequenceExhausted
  let segments := playlist.segments ++ [segment]
  if playlist.windowSize < segments.length then
    set { playlist with segments := segments.tail, nextSequence }
    return segments.head?
  else
    set { playlist with segments, nextSequence }
    return none

def finish (playlist : LivePlaylist) : LivePlaylist := { playlist with ended := true }

/-! ## What a player reads -/

/-- The whole seconds of the longest segment, and one more for a fraction. -/
def targetDuration (segments : List Segment) : ℕ :=
  let longest := (segments.map (·.duration)).foldr max 0
  if segments.isEmpty then 1
  else max (longest / 1000000000) 1 + if longest % 1000000000 = 0 then 0 else 1

section

-- Numbers of seconds with three decimals, of durations in nanoseconds.
variable (formatSeconds : ℕ → String)

def renderSegment (segment : Segment) : String :=
  (if segment.discontinuity then "#EXT-X-DISCONTINUITY\n" else "") ++
    (match segment.programDateTime with
    | some timestamp => s!"#EXT-X-PROGRAM-DATE-TIME:{timestamp}\n"
    | none => "") ++
    s!"#EXTINF:{formatSeconds segment.duration},\n{segment.uri}\n"

def render (playlist : LivePlaylist) : String :=
  s!"#EXTM3U\n#EXT-X-VERSION:7\n#EXT-X-TARGETDURATION:{targetDuration playlist.segments}\n" ++
    s!"#EXT-X-MEDIA-SEQUENCE:{playlist.firstSequence}\n#EXT-X-MAP:URI=\"{playlist.initUri}\"\n" ++
    String.join (playlist.segments.map (renderSegment formatSeconds)) ++
    if playlist.ended then "#EXT-X-ENDLIST\n" else ""

end

/-! ## The check, and what keeps it -/

/-- Valid segments that are numbered one after the other, up to a number. -/
inductive Numbered : UInt64 → List Segment → UInt64 → Prop
  | nil (number : UInt64) : Numbered number [] number
  | cons {segment : Segment} {segments : List Segment} {next last : UInt64}
      (hvalid : segment.validate = .ok ()) (hnext : checkedSucc segment.sequence = some next)
      (hrest : Numbered next segments last) : Numbered segment.sequence (segment :: segments) last

theorem checkSegments_eq_ok_iff {expected last : UInt64} {segments : List Segment} :
    checkSegments expected segments = .ok last ↔ Numbered expected segments last := by
  induction segments generalizing expected with
  | nil =>
    constructor
    · intro h
      cases h
      exact .nil _
    · intro h
      cases h
      rfl
  | cons segment segments ih =>
    constructor
    · intro h
      obtain ⟨⟨⟩, hvalid, h⟩ := Results.bind_eq_ok.mp h
      obtain ⟨⟨⟩, hsequence, h⟩ := Results.bind_eq_ok.mp h
      rw [check_eq_ok_iff] at hsequence
      subst hsequence
      cases hnext : checkedSucc segment.sequence with
      | none =>
        rw [hnext] at h
        cases h
      | some next =>
        rw [hnext] at h
        exact .cons hvalid hnext (ih.mp h)
    · intro h
      cases h with
      | cons hvalid hnext hrest =>
        unfold checkSegments
        rw [hvalid, Results.bind_ok, check_eq_ok_iff.mpr rfl, Results.bind_ok, hnext]
        exact ih.mpr hrest

theorem Numbered.append {first last : UInt64} {segments : List Segment} {segment : Segment}
    (h : Numbered first segments segment.sequence) (hvalid : segment.validate = .ok ())
    (hnext : checkedSucc segment.sequence = some last) :
    Numbered first (segments ++ [segment]) last := by
  generalize hend : segment.sequence = number at h
  induction h with
  | nil number =>
    subst hend
    exact .cons hvalid hnext (.nil last)
  | cons hvalid' hnext' _ ih => exact .cons hvalid' hnext' (ih hend)

theorem Numbered.exists_tail {first last : UInt64} {segments : List Segment}
    (h : Numbered first segments last) : ∃ second, Numbered second segments.tail last := by
  cases h with
  | nil => exact ⟨_, .nil _⟩
  | cons _ _ hrest => exact ⟨_, hrest⟩

/-- No other number than that of the first segment can be the first one. -/
theorem Numbered.firstSequence {playlist : LivePlaylist} {first : UInt64}
    (h : Numbered first playlist.segments playlist.nextSequence) :
    Numbered playlist.firstSequence playlist.segments playlist.nextSequence := by
  obtain ⟨initUri, windowSize, segments, nextSequence, ended⟩ := playlist
  cases h with
  | nil => exact .nil _
  | cons hvalid hnext hrest => exact .cons hvalid hnext hrest

theorem validate_eq_ok_iff {playlist : LivePlaylist} :
    playlist.validate = .ok () ↔ validateRelativeUri playlist.initUri = .ok () ∧
      isWindowSize playlist.windowSize = true ∧
      playlist.segments.length ≤ playlist.windowSize ∧
      Numbered playlist.firstSequence playlist.segments playlist.nextSequence := by
  unfold validate
  constructor
  · intro h
    obtain ⟨⟨⟩, huri, h⟩ := Results.bind_eq_ok.mp h
    obtain ⟨⟨⟩, hwindow, h⟩ := Results.bind_eq_ok.mp h
    obtain ⟨expected, hexpected, h⟩ := Results.bind_eq_ok.mp h
    rw [check_eq_ok_iff] at hwindow h
    subst h
    exact ⟨huri, hwindow.1, hwindow.2, checkSegments_eq_ok_iff.mp hexpected⟩
  · rintro ⟨huri, hwindow, hlength, hnumbered⟩
    rw [huri, Results.bind_ok, check_eq_ok_iff.mpr ⟨hwindow, hlength⟩, Results.bind_ok,
      checkSegments_eq_ok_iff.mpr hnumbered, Results.bind_ok, check_eq_ok_iff.mpr rfl]

theorem validate_new {initUri : String} {windowSize : ℕ} {firstSequence : UInt64}
    {playlist : LivePlaylist} (h : new initUri windowSize firstSequence = .ok playlist) :
    playlist.validate = .ok () := by
  unfold new at h
  obtain ⟨⟨⟩, huri, h⟩ := Results.bind_eq_ok.mp h
  obtain ⟨⟨⟩, hwindow, h⟩ := Results.bind_eq_ok.mp h
  cases h
  exact validate_eq_ok_iff.mpr ⟨huri, check_eq_ok_iff.mp hwindow, Nat.zero_le _, .nil firstSequence⟩

/-- The segment is the next one of a playlist that has not ended. -/
def IsNext (playlist : LivePlaylist) (segment : Segment) : Prop :=
  playlist.ended = false ∧ segment.validate = .ok () ∧ segment.sequence = playlist.nextSequence ∧
    playlist.nextSequence.toNat + 1 < 2 ^ 64

/-- A segment is rejected and changes nothing, or it is the next one and the playlist still passes
the check. -/
theorem push_run (segment : Segment) (playlist : LivePlaylist) :
    (∃ error, (push segment).run playlist = (.error error, playlist)) ∨
      ∃ evicted next, (push segment).run playlist = (.ok evicted, next) ∧
        playlist.IsNext segment ∧ (playlist.validate = .ok () → next.validate = .ok ()) := by
  unfold push
  rw [run_get_bind, run_ensure_bind]
  split_ifs with hended
  swap
  · exact .inl ⟨_, rfl⟩
  rw [run_ofExcept_bind]
  cases hvalid : segment.validate with
  | error error => exact .inl ⟨_, rfl⟩
  | ok =>
  dsimp only
  rw [run_ensure_bind]
  by_cases hsequence : segment.sequence = playlist.nextSequence
  swap
  · rw [if_neg hsequence]
    exact .inl ⟨_, rfl⟩
  rw [if_pos hsequence, run_ofOption_bind]
  cases hnext : checkedSucc playlist.nextSequence with
  | none => exact .inl ⟨_, rfl⟩
  | some next =>
  right
  dsimp only
  have hroom : playlist.nextSequence.toNat + 1 < 2 ^ 64 := by
    unfold checkedSucc at hnext
    split_ifs at hnext with hroom
    exact hroom
  have hnumbered : playlist.validate = .ok () →
      Numbered playlist.firstSequence (playlist.segments ++ [segment]) next := by
    intro hplaylist
    obtain ⟨-, -, -, hnumbered⟩ := validate_eq_ok_iff.mp hplaylist
    rw [← hsequence] at hnumbered hnext
    exact hnumbered.append hvalid hnext
  by_cases hfull : playlist.windowSize < (playlist.segments ++ [segment]).length
  · rw [if_pos hfull]
    refine ⟨_, _, rfl, ⟨hended, hvalid, hsequence, hroom⟩, fun hplaylist => ?_⟩
    obtain ⟨huri, hwindow, hlength, -⟩ := validate_eq_ok_iff.mp hplaylist
    obtain ⟨second, htail⟩ := (hnumbered hplaylist).exists_tail
    refine validate_eq_ok_iff.mpr ⟨huri, hwindow, ?_, Numbered.firstSequence htail⟩
    simpa using hlength
  · rw [if_neg hfull]
    refine ⟨_, _, rfl, ⟨hended, hvalid, hsequence, hroom⟩, fun hplaylist => ?_⟩
    obtain ⟨huri, hwindow, -, -⟩ := validate_eq_ok_iff.mp hplaylist
    exact validate_eq_ok_iff.mpr ⟨huri, hwindow, not_lt.mp hfull,
      Numbered.firstSequence (hnumbered hplaylist)⟩

end LivePlaylist

end Fluvora.MediaPipeline
