import Fluvora.Lib.Lines
import Fluvora.MediaPipeline.Lifecycle
import Fluvora.MediaPipeline.LivePlaylist

/-!
# Runs of a live playlist, and what a player reads

The segments that `push` accepts and those that it evicts, over any calls of `push` and `finish`; and
the lines of a rendered playlist.  A segment's URI is checked for newlines, its date is not: a date
with a line behind its first that is a tag or a URI of its own puts it into the playlist.
-/

namespace Fluvora.MediaPipeline

open Domain Fallible Lines

namespace LivePlaylist

/-! ## Runs -/

inductive Call
  | push (segment : Segment)
  | finish

/-- A playlist, with the segments that it has accepted and those that it has evicted. -/
structure Run where
  playlist : LivePlaylist
  pushed : List Segment := []
  evicted : List Segment := []

def Run.after (run : Run) (segment : Segment) :
    Except PipelineError (Option Segment) × LivePlaylist → Run
  | (.ok evicted, playlist) => ⟨playlist, run.pushed ++ [segment], run.evicted ++ evicted.toList⟩
  | (.error _, playlist) => { run with playlist }

def Run.step (run : Run) : Call → Run
  | .push segment => run.after segment ((push segment).run run.playlist)
  | .finish => { run with playlist := run.playlist.finish }

def runCalls (playlist : LivePlaylist) (calls : List Call) : Run :=
  calls.foldl Run.step { playlist }

/-- What `push` does: it changes nothing, or the segment comes behind the others and the oldest one
goes if the window is exceeded. -/
inductive Pushed (segment : Segment) (playlist : LivePlaylist) :
    Except PipelineError (Option Segment) → LivePlaylist → Prop
  | rejected (error : PipelineError)
      (hended : playlist.ended = true → error = .playlistEnded) :
      Pushed segment playlist (.error error) playlist
  | accepted (evicted : Option Segment) (segments : List Segment) (next : UInt64)
      (hended : playlist.ended = false) (hvalid : segment.validate = .ok ())
      (hsequence : segment.sequence = playlist.nextSequence)
      (hnext : checkedSucc segment.sequence = some next)
      (hsplit : evicted.toList ++ segments = playlist.segments ++ [segment])
      (hlength : playlist.segments.length ≤ playlist.windowSize →
        segments.length = min playlist.windowSize (playlist.segments.length + 1)) :
      Pushed segment playlist (.ok evicted) { playlist with segments, nextSequence := next }

theorem pushed_run (segment : Segment) (playlist : LivePlaylist) :
    Pushed segment playlist ((push segment).run playlist).1 ((push segment).run playlist).2 := by
  unfold push
  rw [run_get_bind, run_ensure_bind]
  by_cases hended : playlist.ended = false
  swap
  · rw [if_neg hended]
    exact .rejected _ fun _ => rfl
  have hopen {error : PipelineError} : playlist.ended = true → error = .playlistEnded := by
    rw [hended]
    simp
  rw [if_pos hended, run_ofExcept_bind]
  rcases hvalid : segment.validate with error | ⟨⟩
  · exact .rejected _ hopen
  dsimp only
  rw [run_ensure_bind]
  by_cases hsequence : segment.sequence = playlist.nextSequence
  swap
  · rw [if_neg hsequence]
    exact .rejected _ hopen
  rw [if_pos hsequence, run_ofOption_bind, ← hsequence]
  rcases hnext : checkedSucc segment.sequence with _ | next
  · exact .rejected _ hopen
  dsimp only
  have hlength : (playlist.segments ++ [segment]).length = playlist.segments.length + 1 := by simp
  by_cases hfull : playlist.windowSize < (playlist.segments ++ [segment]).length
  · rw [if_pos hfull]
    refine .accepted _ _ next hended hvalid hsequence hnext ?_ fun hwindow => ?_
    · rcases hsegments : playlist.segments ++ [segment] with _ | ⟨first, rest⟩
      · rw [hsegments] at hlength
        cases hlength
      · rfl
    · rw [List.length_tail, hlength]
      omega
  · rw [if_neg hfull]
    refine .accepted _ _ next hended hvalid hsequence hnext rfl fun hwindow => ?_
    rw [hlength] at hfull ⊢
    omega

/-- What every run keeps, from a playlist of a window size whose first segment is to have a number. -/
structure Kept (windowSize : ℕ) (first : UInt64) (run : Run) : Prop where
  size : run.playlist.windowSize = windowSize
  valid : run.playlist.validate = .ok ()
  window : run.evicted ++ run.playlist.segments = run.pushed
  length : run.playlist.segments.length = min windowSize run.pushed.length
  numbered : Numbered first run.pushed run.playlist.nextSequence

theorem Kept.step {windowSize : ℕ} {first : UInt64} {run : Run} (h : Kept windowSize first run)
    (call : Call) : Kept windowSize first (run.step call) := by
  cases call with
  | finish => exact ⟨h.size, h.valid, h.window, h.length, h.numbered⟩
  | push segment =>
    obtain ⟨huri, hsize, hwindow, hnumbered⟩ := validate_eq_ok_iff.mp h.valid
    have hpushed := pushed_run segment run.playlist
    rw [Run.step]
    generalize (push segment).run run.playlist = result at hpushed ⊢
    obtain ⟨answer, playlist⟩ := result
    cases hpushed with
    | rejected => exact ⟨h.size, h.valid, h.window, h.length, h.numbered⟩
    | accepted evicted segments next hended hvalid hsequence hnext hsplit hlength =>
      have hlength := hlength hwindow
      have hall : Numbered first (run.pushed ++ [segment]) next :=
        Numbered.append (hsequence ▸ h.numbered) hvalid hnext
      refine ⟨h.size, validate_eq_ok_iff.mpr ⟨huri, hsize, ?_, ?_⟩, ?_, ?_, hall⟩
      · show segments.length ≤ run.playlist.windowSize
        omega
      · have htail : Numbered run.playlist.firstSequence (evicted.toList ++ segments) next := by
          rw [hsplit]
          exact Numbered.append (hsequence ▸ hnumbered) hvalid hnext
        rcases evicted with _ | oldest
        · exact Numbered.firstSequence htail
        · obtain ⟨second, htail⟩ := htail.exists_tail
          exact Numbered.firstSequence htail
      · show run.evicted ++ evicted.toList ++ segments = run.pushed ++ [segment]
        rw [List.append_assoc, hsplit, ← List.append_assoc, h.window]
      · show segments.length = min windowSize (run.pushed ++ [segment]).length
        have hcount := h.length
        rw [h.size] at hlength
        rw [List.length_append, List.length_singleton]
        omega

theorem kept_runCalls {initUri : String} {windowSize : ℕ} {first : UInt64} {playlist : LivePlaylist}
    (hnew : new initUri windowSize first = .ok playlist) (calls : List Call) :
    Kept windowSize first (runCalls playlist calls) := by
  have hfirst : Kept windowSize first { playlist } := by
    have hvalid := validate_new hnew
    obtain ⟨⟨⟩, -, hnew⟩ := Results.bind_eq_ok.mp hnew
    obtain ⟨⟨⟩, -, hnew⟩ := Results.bind_eq_ok.mp hnew
    cases hnew
    exact ⟨rfl, hvalid, rfl, (Nat.min_zero _).symm, .nil first⟩
  unfold runCalls
  generalize ({ playlist } : Run) = run at hfirst
  induction calls generalizing run with
  | nil => exact hfirst
  | cons call calls ih => exact ih _ (hfirst.step call)

theorem Numbered.getElem {first last : UInt64} {segments : List Segment}
    (h : Numbered first segments last) (i : ℕ) (hi : i < segments.length) :
    segments[i].sequence.toNat = first.toNat + i := by
  induction h generalizing i with
  | nil => cases hi
  | cons hvalid hnext hrest ih =>
    cases i with
    | zero => rfl
    | succ i =>
      have hsucc := Lifecycle.toNat_of_checkedSucc hnext
      rw [List.getElem_cons_succ, ih i (by simpa using hi), hsucc]
      omega

theorem Numbered.valid {first last : UInt64} {segments : List Segment}
    (h : Numbered first segments last) {segment : Segment} (hsegment : segment ∈ segments) :
    segment.validate = .ok () := by
  induction h with
  | nil => cases hsegment
  | cons hvalid hnext hrest ih =>
    obtain rfl | hsegment := List.mem_cons.mp hsegment
    · exact hvalid
    · exact ih hsegment

/-- Once finished, a playlist stays as it is. -/
theorem foldl_step_ended (calls : List Call) {run : Run} (hended : run.playlist.ended = true) :
    calls.foldl Run.step run = run := by
  induction calls generalizing run with
  | nil => rfl
  | cons call calls ih =>
    have hstep : run.step call = run := by
      obtain ⟨⟨initUri, windowSize, segments, nextSequence, ended⟩, pushed, evicted⟩ := run
      cases hended
      cases call <;> rfl
    rw [List.foldl_cons, hstep, ih hended]

theorem step_ended (run : Run) (call : Call) :
    (run.step call).playlist.ended = true ↔ run.playlist.ended = true ∨ call = .finish := by
  cases call with
  | finish => simp [Run.step, finish]
  | push segment =>
    have hpushed := pushed_run segment run.playlist
    rw [Run.step]
    generalize (push segment).run run.playlist = result at hpushed ⊢
    obtain ⟨answer, playlist⟩ := result
    cases hpushed <;> simp [Run.after]

theorem ended_runCalls (playlist : LivePlaylist) (hopen : playlist.ended = false)
    (calls : List Call) : (runCalls playlist calls).playlist.ended = true ↔ .finish ∈ calls := by
  have hgeneral (run : Run) : (calls.foldl Run.step run).playlist.ended = true ↔
      run.playlist.ended = true ∨ .finish ∈ calls := by
    induction calls generalizing run with
    | nil => simp
    | cons call calls ih =>
      rw [List.foldl_cons, ih, step_ended, List.mem_cons, or_assoc, @eq_comm _ call]
  rw [runCalls, hgeneral]
  simp [hopen]

/-! ## Reading -/

def isTag (tag : String) (line : List Char) : Bool := tag.toList.isPrefixOf line

/-- A line that a player plays: neither blank nor a tag or a comment. -/
def isUriLine : List Char → Bool
  | [] => false
  | c :: _ => c ≠ '#'

/-- A line that says what is played, from which number on, how long and whether it is all. -/
def significant (line : List Char) : Bool :=
  isTag "#EXTINF:" line || isUriLine line || isTag "#EXT-X-TARGETDURATION:" line ||
    isTag "#EXT-X-MEDIA-SEQUENCE:" line || line = "#EXT-X-ENDLIST".toList

/-- The lines of a date behind its first have nothing to say to a player. -/
def PlainDate (segment : Segment) : Prop :=
  ∀ date ∈ segment.programDateTime, ∀ line ∈ (lines date.toList).tail, ¬significant line

section

variable (formatSeconds : ℕ → String)

def extinfLine (segment : Segment) : List Char :=
  "#EXTINF:".toList ++ (formatSeconds segment.duration).toList ++ ",".toList

/-- The lines that `render` writes for a segment; a date may hold newlines. -/
def writtenSegment (segment : Segment) : List (List Char) :=
  (if segment.discontinuity then ["#EXT-X-DISCONTINUITY".toList] else []) ++
    (match segment.programDateTime with
    | some timestamp => ["#EXT-X-PROGRAM-DATE-TIME:".toList ++ timestamp.toList]
    | none => []) ++
    [extinfLine formatSeconds segment, segment.uri.toList]

def targetDurationLine (playlist : LivePlaylist) : List Char :=
  "#EXT-X-TARGETDURATION:".toList ++ Nat.toDigits 10 (targetDuration playlist.segments)

def mediaSequenceLine (playlist : LivePlaylist) : List Char :=
  "#EXT-X-MEDIA-SEQUENCE:".toList ++ Nat.toDigits 10 playlist.firstSequence.toNat

def mapLine (playlist : LivePlaylist) : List Char :=
  "#EXT-X-MAP:URI=\"".toList ++ playlist.initUri.toList ++ "\"".toList

def header (playlist : LivePlaylist) : List (List Char) :=
  ["#EXTM3U".toList, "#EXT-X-VERSION:7".toList, targetDurationLine playlist,
    mediaSequenceLine playlist, mapLine playlist]

def written (playlist : LivePlaylist) : List (List Char) :=
  header playlist ++ playlist.segments.flatMap (writtenSegment formatSeconds) ++
    if playlist.ended then ["#EXT-X-ENDLIST".toList] else []

theorem renderSegment_toList (segment : Segment) : (renderSegment formatSeconds segment).toList =
    unlines (writtenSegment formatSeconds segment) := by
  have htext (text : String) : toString text = text := rfl
  unfold renderSegment writtenSegment extinfLine
  rcases segment with ⟨sequence, duration, uri, _ | _, _ | timestamp⟩ <;>
    simp [unlines, htext]

theorem render_toList (playlist : LivePlaylist) :
    (render formatSeconds playlist).toList = unlines (written formatSeconds playlist) := by
  have htext (text : String) : toString text = text := rfl
  have hnumber (n : ℕ) : (toString n).toList = Nat.toDigits 10 n := Nat.toList_repr
  have hsequence : (toString playlist.firstSequence).toList =
      Nat.toDigits 10 playlist.firstSequence.toNat := Nat.toList_repr
  have hsegments : (String.join (playlist.segments.map (renderSegment formatSeconds))).toList =
      unlines (playlist.segments.flatMap (writtenSegment formatSeconds)) := by
    rw [String.toList_join, List.flatMap_map, unlines_flatMap]
    exact List.flatMap_congr fun segment _ => renderSegment_toList formatSeconds segment
  -- the texts between the numbers, line by line
  have hversion : "#EXTM3U\n#EXT-X-VERSION:7\n#EXT-X-TARGETDURATION:".toList =
      "#EXTM3U".toList ++ '\n' :: ("#EXT-X-VERSION:7".toList ++
        '\n' :: "#EXT-X-TARGETDURATION:".toList) := by decide
  have hmap : "\n#EXT-X-MAP:URI=\"".toList = '\n' :: "#EXT-X-MAP:URI=\"".toList := by decide
  have hquote : "\"\n".toList = "\"".toList ++ ['\n'] := by decide
  have hend : "#EXT-X-ENDLIST\n".toList = "#EXT-X-ENDLIST".toList ++ ['\n'] := by decide
  have hended : (if playlist.ended then "#EXT-X-ENDLIST\n" else "").toList =
      unlines (if playlist.ended then ["#EXT-X-ENDLIST".toList] else []) := by
    split_ifs
    · rw [hend, unlines, List.flatMap_singleton]
    · rfl
  have hnewline : "\n".toList = ['\n'] := by decide
  unfold render written header targetDurationLine mediaSequenceLine mapLine
  simp only [unlines_append, unlines_cons, hsegments, hended, String.toList_append,
    htext, hnumber, hsequence, hversion, hmap, hquote, hnewline, List.append_assoc,
    List.cons_append, List.nil_append]

/-- The lines that a player is to find: for each segment its duration and its URI. -/
def expected (playlist : LivePlaylist) : List (List Char) :=
  [targetDurationLine playlist, mediaSequenceLine playlist] ++
    playlist.segments.flatMap (fun segment =>
      [extinfLine formatSeconds segment, segment.uri.toList]) ++
    if playlist.ended then ["#EXT-X-ENDLIST".toList] else []

end

theorem significant_tag (tag : String) (rest : List Char)
    (htag : tag ∈ ["#EXTINF:", "#EXT-X-TARGETDURATION:", "#EXT-X-MEDIA-SEQUENCE:"]) :
    significant (tag.toList ++ rest) = true := by
  simp only [List.mem_cons, List.not_mem_nil, or_false] at htag
  rcases htag with rfl | rfl | rfl <;> simp [significant, isTag]

theorem not_significant_tag (tag : String) (rest : List Char)
    (htag : tag ∈ ["#EXTM3U", "#EXT-X-VERSION:", "#EXT-X-MAP:", "#EXT-X-DISCONTINUITY",
      "#EXT-X-PROGRAM-DATE-TIME:"]) : significant (tag.toList ++ rest) = false := by
  simp only [List.mem_cons, List.not_mem_nil, or_false] at htag
  rcases htag with rfl | rfl | rfl | rfl | rfl <;>
    simp [significant, isTag, isUriLine, List.isPrefixOf]

/-- What the further lines of a date tell a player. -/
def dateLines (segment : Segment) : List (List Char) :=
  match segment.programDateTime with
  | some date => (lines date.toList).tail.filter significant
  | none => []

theorem dateLines_eq_nil_iff (segment : Segment) : dateLines segment = [] ↔ PlainDate segment := by
  unfold dateLines PlainDate
  rcases segment.programDateTime with _ | date
  · simp
  · simp [List.filter_eq_nil_iff]

/-- A line of one piece is read as it is. -/
theorem lines_piece {line : List Char} {last : Char} (hlast : line.getLast? = some last)
    (hreturn : last ≠ '\r') (hnewline : '\n' ∉ line) : lines (line ++ ['\n']) = [line] :=
  (lines_of_not_mem hnewline).1 (by rw [hlast]; simpa using hreturn)

theorem newline_not_mem_numeral (n : ℕ) : '\n' ∉ Nat.toDigits 10 n := by
  intro h
  cases Nat.isDigit_of_mem_toDigits (by decide) (by decide) h

theorem validateRelativeUri_eq_ok {uri : String} (h : validateRelativeUri uri = .ok ()) :
    uri.toList ≠ [] ∧ '\n' ∉ uri.toList ∧ '\r' ∉ uri.toList ∧ '#' ∉ uri.toList := by
  unfold validateRelativeUri at h
  split_ifs at h with hchars
  simp only [Bool.or_eq_true, not_or, Bool.not_eq_true, List.any_eq_false] at hchars
  obtain ⟨⟨hempty, -⟩, hchars⟩ := hchars
  have hnot (c : Char) (hc : "\\\r\n?#".toList.contains c = true) : c ∉ uri.toList :=
    fun hmem => absurd hc (by rw [hchars c hmem]; decide)
  refine ⟨?_, hnot _ (by decide), hnot _ (by decide), hnot _ (by decide)⟩
  intro hnil
  rw [String.toList_eq_nil_iff.mp hnil] at hempty
  cases hempty

/-- The line of a URI is one line, and one that is played. -/
theorem filter_lines_uri {uri : String} (h : validateRelativeUri uri = .ok ()) :
    (lines (uri.toList ++ ['\n'])).filter significant = [uri.toList] := by
  obtain ⟨hne, hnewline, hreturn, hhash⟩ := validateRelativeUri_eq_ok h
  have huri : significant uri.toList = true := by
    rcases hchars : uri.toList with _ | ⟨c, rest⟩
    · exact absurd hchars hne
    · have hc : c ≠ '#' := by
        rintro rfl
        exact hhash (hchars ▸ List.mem_cons_self)
      simp [significant, isUriLine, hc]
  rw [lines_piece (List.getLast?_eq_some_getLast hne)
    (fun heq => hreturn (heq ▸ List.getLast_mem hne)) hnewline, List.filter_cons_of_pos huri]
  rfl

section

variable {formatSeconds : ℕ → String}

theorem filter_lines_extinf (hseconds : ∀ duration, '\n' ∉ (formatSeconds duration).toList)
    (segment : Segment) :
    (lines (extinfLine formatSeconds segment ++ ['\n'])).filter significant =
      [extinfLine formatSeconds segment] := by
  have hcomma : ",".toList = [','] := by decide
  have hlast : (extinfLine formatSeconds segment).getLast? = some ',' := by
    unfold extinfLine
    rw [hcomma, List.getLast?_concat]
  have hnewline : '\n' ∉ extinfLine formatSeconds segment := by
    unfold extinfLine
    rw [List.mem_append, List.mem_append, not_or, not_or]
    exact ⟨⟨by decide, hseconds _⟩, by decide⟩
  rw [lines_piece hlast (by decide) hnewline, List.filter_cons_of_pos]
  · rfl
  · unfold extinfLine
    rw [List.append_assoc]
    exact significant_tag _ _ (by decide)

/-- What is read of a segment: what its date says, its duration and its URI. -/
theorem filter_lines_segment (hseconds : ∀ duration, '\n' ∉ (formatSeconds duration).toList)
    {segment : Segment} (hvalid : segment.validate = .ok ()) :
    ((writtenSegment formatSeconds segment).flatMap fun line => lines (line ++ ['\n'])).filter
        significant =
      dateLines segment ++ [extinfLine formatSeconds segment, segment.uri.toList] := by
  obtain ⟨⟨⟩, -, hvalid⟩ := Results.bind_eq_ok.mp hvalid
  obtain ⟨⟨⟩, huri, hvalid⟩ := Results.bind_eq_ok.mp hvalid
  rw [check_eq_ok_iff] at hvalid
  have hdiscontinuity : ((if segment.discontinuity then ["#EXT-X-DISCONTINUITY".toList] else
      []).flatMap fun line => lines (line ++ ['\n'])).filter significant = [] := by
    split_ifs
    · decide
    · rfl
  have hdate : ((match segment.programDateTime with
      | some timestamp => ["#EXT-X-PROGRAM-DATE-TIME:".toList ++ timestamp.toList]
      | none => []).flatMap fun line => lines (line ++ ['\n'])).filter significant =
      dateLines segment := by
    unfold dateLines
    rcases hsome : segment.programDateTime with _ | date
    · rfl
    rw [hsome, Option.all_some, isProgramDateTime, Bool.and_eq_true, decide_eq_true_iff,
      decide_eq_true_iff] at hvalid
    have hlines := lines_append_newline hvalid.2 (by decide) (by decide)
    have hne : date.toList ≠ [] := by
      intro hnil
      rw [hnil] at hvalid
      cases hvalid.2
    obtain ⟨first, more, hfirst⟩ := List.exists_cons_of_ne_nil (lines_ne_nil hne)
    rw [List.flatMap_singleton, List.append_assoc,
      lines_behind (by decide) (by decide) (hlines.trans hfirst),
      List.filter_cons_of_neg]
    · dsimp only
      rw [hfirst, List.tail_cons]
    · rw [not_significant_tag _ _ (by decide)]
      decide
  unfold writtenSegment
  rw [List.flatMap_append, List.flatMap_append, List.filter_append,
    List.filter_append, hdiscontinuity, hdate, List.flatMap_cons, List.flatMap_singleton,
    List.filter_append, filter_lines_extinf hseconds, filter_lines_uri huri]
  rfl

/-- The lines in front of the segments are read as they are. -/
theorem lines_header {playlist : LivePlaylist} (hvalid : playlist.validate = .ok ()) :
    ((header playlist).flatMap fun line => lines (line ++ ['\n'])) = header playlist := by
  obtain ⟨-, hinit, -, -⟩ := validateRelativeUri_eq_ok (validate_eq_ok_iff.mp hvalid).1
  have hnumber {tag : List Char} (n : ℕ) (htag : '\n' ∉ tag) :
      lines (tag ++ Nat.toDigits 10 n ++ ['\n']) = [tag ++ Nat.toDigits 10 n] := by
    have hdigit := Nat.isDigit_of_mem_toDigits (b := 10) (n := n) (by decide) (by decide)
      (List.getLast_mem Nat.toDigits_ne_nil)
    have hlast : (tag ++ Nat.toDigits 10 n).getLast? =
        some ((Nat.toDigits 10 n).getLast Nat.toDigits_ne_nil) := by
      rw [List.getLast?_append, List.getLast?_eq_some_getLast Nat.toDigits_ne_nil]
      rfl
    refine lines_piece hlast ?_ ?_
    · intro heq
      rw [heq] at hdigit
      cases hdigit
    · rw [List.mem_append, not_or]
      exact ⟨htag, newline_not_mem_numeral n⟩
  have hfirst : lines ("#EXTM3U".toList ++ ['\n']) = ["#EXTM3U".toList] ∧
      lines ("#EXT-X-VERSION:7".toList ++ ['\n']) = ["#EXT-X-VERSION:7".toList] := by
    decide
  have hmap : lines (mapLine playlist ++ ['\n']) = [mapLine playlist] := by
    have hquote : "\"".toList = ['"'] := by decide
    unfold mapLine
    rw [@lines_piece _ '"']
    · rw [hquote, List.getLast?_concat]
    · decide
    · rw [List.mem_append, List.mem_append, not_or, not_or]
      exact ⟨⟨by decide, hinit⟩, by decide⟩
  unfold header targetDurationLine mediaSequenceLine
  rw [List.flatMap_cons, List.flatMap_cons, List.flatMap_cons, List.flatMap_cons,
    List.flatMap_singleton, hfirst.1, hfirst.2, hnumber _ (by decide),
    hnumber _ (by decide), hmap]
  rfl

theorem filter_header (playlist : LivePlaylist) :
    (header playlist).filter significant =
      [targetDurationLine playlist, mediaSequenceLine playlist] := by
  have hfirst : significant "#EXTM3U".toList = false ∧
      significant "#EXT-X-VERSION:7".toList = false := by decide
  have htarget : significant (targetDurationLine playlist) = true := by
    unfold targetDurationLine
    exact significant_tag _ _ (by decide)
  have hsequence : significant (mediaSequenceLine playlist) = true := by
    unfold mediaSequenceLine
    exact significant_tag _ _ (by decide)
  have hmap : significant (mapLine playlist) = false := by
    have htag : "#EXT-X-MAP:URI=\"".toList = "#EXT-X-MAP:".toList ++ "URI=\"".toList := by
      decide
    unfold mapLine
    rw [htag, List.append_assoc, List.append_assoc]
    exact not_significant_tag _ _ (by decide)
  unfold header
  rw [List.filter_cons_of_neg (by rw [hfirst.1]; decide),
    List.filter_cons_of_neg (by rw [hfirst.2]; decide), List.filter_cons_of_pos htarget,
    List.filter_cons_of_pos hsequence, List.filter_cons_of_neg (by rw [hmap]; decide)]
  rfl

theorem lines_render {playlist : LivePlaylist} (hvalid : playlist.validate = .ok ()) :
    lines (render formatSeconds playlist).toList =
      header playlist ++
        (playlist.segments.flatMap (writtenSegment formatSeconds)).flatMap
          (fun line => lines (line ++ ['\n'])) ++
        if playlist.ended then ["#EXT-X-ENDLIST".toList] else [] := by
  have hend : ((if playlist.ended then ["#EXT-X-ENDLIST".toList] else []).flatMap
      fun line => lines (line ++ ['\n'])) =
      if playlist.ended then ["#EXT-X-ENDLIST".toList] else [] := by
    split_ifs
    · decide
    · rfl
  rw [render_toList, lines_unlines]
  unfold written
  rw [List.flatMap_append, List.flatMap_append, lines_header hvalid, hend]

/-- What is read of a playlist: the dates of its segments are in the way. -/
theorem filter_lines_render (hseconds : ∀ duration, '\n' ∉ (formatSeconds duration).toList)
    {playlist : LivePlaylist} (hvalid : playlist.validate = .ok ()) :
    (lines (render formatSeconds playlist).toList).filter significant =
      [targetDurationLine playlist, mediaSequenceLine playlist] ++
        playlist.segments.flatMap (fun segment => dateLines segment ++
          [extinfLine formatSeconds segment, segment.uri.toList]) ++
        if playlist.ended then ["#EXT-X-ENDLIST".toList] else [] := by
  have hnumbered := (validate_eq_ok_iff.mp hvalid).2.2.2
  have hsegments : ((playlist.segments.flatMap (writtenSegment formatSeconds)).flatMap
      fun line => lines (line ++ ['\n'])).filter significant =
      playlist.segments.flatMap fun segment => dateLines segment ++
        [extinfLine formatSeconds segment, segment.uri.toList] := by
    rw [List.flatMap_assoc, List.filter_flatMap]
    exact List.flatMap_congr fun segment hsegment =>
      filter_lines_segment hseconds (hnumbered.valid hsegment)
  have hend : (if playlist.ended then ["#EXT-X-ENDLIST".toList] else []).filter significant =
      if playlist.ended then ["#EXT-X-ENDLIST".toList] else [] := by
    split_ifs
    · decide
    · rfl
  rw [lines_render hvalid, List.filter_append, List.filter_append, filter_header, hsegments, hend]

theorem getElem?_lines_render {playlist : LivePlaylist} (hvalid : playlist.validate = .ok ()) :
    (lines (render formatSeconds playlist).toList)[4]? = some (mapLine playlist) := by
  rw [lines_render hvalid]
  unfold header
  rfl

/-- What is between the first two quotes of a line. -/
def quoted (line : List Char) : List Char :=
  ((line.dropWhile (· ≠ '"')).drop 1).takeWhile (· ≠ '"')

theorem quoted_mapLine_iff (playlist : LivePlaylist) :
    quoted (mapLine playlist) = playlist.initUri.toList ↔ '"' ∉ playlist.initUri.toList := by
  have htag : "#EXT-X-MAP:URI=\"".toList = "#EXT-X-MAP:URI=".toList ++ ['"'] := by decide
  have hquote : "\"".toList = ['"'] := by decide
  have hfree : '"' ∉ "#EXT-X-MAP:URI=".toList := by decide
  have hdrop : (mapLine playlist).dropWhile (· ≠ '"') =
      '"' :: (playlist.initUri.toList ++ ['"']) := by
    unfold mapLine
    rw [htag, hquote, List.append_assoc, List.append_assoc, List.dropWhile_append_of_pos,
      List.singleton_append, List.dropWhile_cons_of_neg (by decide)]
    exact fun c hc => by simpa using fun heq : c = '"' => hfree (heq ▸ hc)
  rw [quoted, hdrop, List.drop_one, List.tail_cons]
  constructor
  · intro h hmem
    rw [← h] at hmem
    simpa using List.mem_takeWhile_imp hmem
  · intro hnot
    rw [List.takeWhile_append_of_pos fun c hc => by
      simpa using fun heq : c = '"' => hnot (heq ▸ hc)]
    exact List.append_nil _

/-- The URI of the initialization segment is read back exactly when there is no quote in it. -/
theorem quoted_line_iff {playlist : LivePlaylist} (hvalid : playlist.validate = .ok ()) :
    (lines (render formatSeconds playlist).toList)[4]?.map quoted = some playlist.initUri.toList ↔
      '"' ∉ playlist.initUri.toList := by
  rw [getElem?_lines_render hvalid, Option.map_some, Option.some.injEq]
  exact quoted_mapLine_iff playlist

end

/-- Lists in front of others all stay away once the whole is as short as it is without them. -/
theorem eq_nil_of_flatMap_append {α β : Type} {f g : α → List β} {xs : List α}
    (h : xs.flatMap (fun x => f x ++ g x) = xs.flatMap g) : ∀ x ∈ xs, f x = [] := by
  have hle (xs : List α) : (xs.flatMap g).length ≤ (xs.flatMap fun x => f x ++ g x).length := by
    induction xs with
    | nil => exact le_rfl
    | cons x xs ih =>
      rw [List.flatMap_cons, List.flatMap_cons, List.length_append, List.length_append,
        List.length_append]
      omega
  replace h := congrArg List.length h
  induction xs with
  | nil => simp
  | cons x xs ih =>
    have hrest := hle xs
    rw [List.flatMap_cons, List.flatMap_cons, List.length_append, List.length_append,
      List.length_append] at h
    have hx : f x = [] := List.length_eq_zero_iff.mp (by omega)
    intro y hy
    obtain rfl | hy := List.mem_cons.mp hy
    · exact hx
    · exact ih (by omega) y hy

/-- A player finds what it is to find exactly when all dates are plain. -/
theorem filter_lines_render_iff {formatSeconds : ℕ → String}
    (hseconds : ∀ duration, '\n' ∉ (formatSeconds duration).toList) {playlist : LivePlaylist}
    (hvalid : playlist.validate = .ok ()) :
    (lines (render formatSeconds playlist).toList).filter significant =
        expected formatSeconds playlist ↔
      ∀ segment ∈ playlist.segments, PlainDate segment := by
  rw [filter_lines_render hseconds hvalid]
  unfold expected
  rw [List.append_cancel_right_eq, List.append_cancel_left_eq]
  constructor
  · intro h segment hsegment
    exact (dateLines_eq_nil_iff segment).mp (eq_nil_of_flatMap_append h segment hsegment)
  · intro hplain
    refine List.flatMap_congr fun segment hsegment => ?_
    rw [(dateLines_eq_nil_iff segment).mpr (hplain segment hsegment)]
    rfl

/-- Nanoseconds to the nearest second. -/
def roundedSeconds (duration : ℕ) : ℕ := (duration + 500000000) / 1000000000

theorem roundedSeconds_le {segments : List Segment} {segment : Segment}
    (h : segment ∈ segments) : roundedSeconds segment.duration ≤ targetDuration segments := by
  have hlongest (segments : List Segment) (h : segment ∈ segments) :
      segment.duration ≤ (segments.map (·.duration)).foldr max 0 := by
    induction segments with
    | nil => cases h
    | cons first rest ih =>
      rw [List.map_cons, List.foldr_cons]
      obtain rfl | h := List.mem_cons.mp h
      · exact le_max_left _ _
      · exact (ih h).trans (le_max_right _ _)
  have hle := hlongest segments h
  have hempty : segments.isEmpty = false := List.isEmpty_eq_false_iff.mpr (List.ne_nil_of_mem h)
  unfold targetDuration roundedSeconds
  dsimp only
  rw [hempty, if_neg (by decide)]
  split_ifs <;> omega

/-- Over every run, the window is the end of what was pushed, and passes the check; and a player finds
the playlist as it is unless the date of a segment in the window says otherwise, or there is a quote in
the URI of the initialization segment. -/
theorem live_window {formatSeconds : ℕ → String}
    (hseconds : ∀ duration, '\n' ∉ (formatSeconds duration).toList) {initUri : String}
    {windowSize : ℕ} {first : UInt64} {playlist : LivePlaylist}
    (hnew : new initUri windowSize first = .ok playlist) (calls : List Call) :
    (runCalls playlist calls).playlist.validate = .ok () ∧
      (runCalls playlist calls).evicted ++ (runCalls playlist calls).playlist.segments =
        (runCalls playlist calls).pushed ∧
      (runCalls playlist calls).playlist.segments.length =
        min windowSize (runCalls playlist calls).pushed.length ∧
      (∀ (i : ℕ) (hi : i < (runCalls playlist calls).playlist.segments.length),
        (runCalls playlist calls).playlist.segments[i].sequence.toNat =
          (runCalls playlist calls).playlist.firstSequence.toNat + i) ∧
      (.finish ∈ calls → ∀ later, runCalls playlist (calls ++ later) = runCalls playlist calls) ∧
      ((runCalls playlist calls).playlist.ended = true ↔ .finish ∈ calls) ∧
      (∀ segment ∈ (runCalls playlist calls).playlist.segments,
        roundedSeconds segment.duration ≤
          targetDuration (runCalls playlist calls).playlist.segments) ∧
      ((lines (render formatSeconds (runCalls playlist calls).playlist).toList).filter significant =
          expected formatSeconds (runCalls playlist calls).playlist ↔
        ∀ segment ∈ (runCalls playlist calls).playlist.segments, PlainDate segment) ∧
      (((lines (render formatSeconds (runCalls playlist calls).playlist).toList)[4]?.map quoted =
          some (runCalls playlist calls).playlist.initUri.toList) ↔
        '"' ∉ (runCalls playlist calls).playlist.initUri.toList) := by
  have hkept := kept_runCalls hnew calls
  have hnumbered := (validate_eq_ok_iff.mp hkept.valid).2.2.2
  have hopen : playlist.ended = false := by
    obtain ⟨⟨⟩, -, hnew⟩ := Results.bind_eq_ok.mp hnew
    obtain ⟨⟨⟩, -, hnew⟩ := Results.bind_eq_ok.mp hnew
    cases hnew
    rfl
  have hended := ended_runCalls playlist hopen calls
  refine ⟨hkept.valid, hkept.window, hkept.length, hnumbered.getElem, ?_, hended,
    fun segment => roundedSeconds_le, filter_lines_render_iff hseconds hkept.valid,
    quoted_line_iff hkept.valid⟩
  intro hfinish later
  rw [runCalls, List.foldl_append]
  exact foldl_step_ended later (hended.mpr hfinish)

namespace Sample

/-- Seconds to the nearest thousandth. -/
def formatSeconds (duration : ℕ) : String :=
  let millis := (duration + 500000) / 1000000
  String.ofList (Nat.toDigits 10 (millis / 1000) ++ '.' ::
    List.leftpad 3 '0' (Nat.toDigits 10 (millis % 1000)))

theorem newline_not_mem_formatSeconds (duration : ℕ) : '\n' ∉ (formatSeconds duration).toList := by
  unfold formatSeconds
  rw [String.toList_ofList, List.mem_append, List.mem_cons, List.leftpad, List.mem_append]
  rintro (h | h | h | h)
  · exact newline_not_mem_numeral _ h
  · cases h
  · cases List.eq_of_mem_replicate h
  · exact newline_not_mem_numeral _ h

def segment (sequence : UInt64) (date : String) : Segment :=
  ⟨sequence, 4000000000, "segment.m4s", false, some date⟩

/-- Its date puts an end behind the stream. -/
def forged : Segment := segment 0 "2024-01-01T00:00:00\n#EXT-X-ENDLIST\n#Z"

def playlist : LivePlaylist := ⟨"init.mp4", 3, [], 0, false⟩

theorem new_playlist : new "init.mp4" 3 0 = .ok playlist := by decide

end Sample

theorem live_window_sample :
    (lines (render Sample.formatSeconds (runCalls Sample.playlist
      [.push (Sample.segment 0 "2024-01-01T00:00:00Z"), .finish]).playlist).toList).filter
        significant =
      expected Sample.formatSeconds (runCalls Sample.playlist
        [.push (Sample.segment 0 "2024-01-01T00:00:00Z"), .finish]).playlist := by
  have h := live_window Sample.newline_not_mem_formatSeconds Sample.new_playlist
    [.push (Sample.segment 0 "2024-01-01T00:00:00Z"), .finish]
  refine h.2.2.2.2.2.2.2.1.mpr fun segment hsegment => ?_
  have hsegments : (runCalls Sample.playlist [.push (Sample.segment 0 "2024-01-01T00:00:00Z"),
      .finish]).playlist.segments = [Sample.segment 0 "2024-01-01T00:00:00Z"] := by decide
  rw [hsegments, List.mem_singleton] at hsegment
  subst hsegment
  rw [← dateLines_eq_nil_iff]
  decide

/-- An accepted segment ends a playlist that has not been finished. -/
theorem ended_by_date :
    new "init.mp4" 3 0 = .ok Sample.playlist ∧
      (runCalls Sample.playlist [.push Sample.forged]).pushed = [Sample.forged] ∧
      (lines (render Sample.formatSeconds
        (runCalls Sample.playlist [.push Sample.forged]).playlist).toList).filter significant ≠
        expected Sample.formatSeconds (runCalls Sample.playlist [.push Sample.forged]).playlist := by
  refine ⟨Sample.new_playlist, by decide, ?_⟩
  have hvalid := (kept_runCalls Sample.new_playlist [.push Sample.forged]).valid
  rw [ne_eq, filter_lines_render_iff Sample.newline_not_mem_formatSeconds hvalid]
  have hsegments : (runCalls Sample.playlist [.push Sample.forged]).playlist.segments =
      [Sample.forged] := by decide
  rw [hsegments, List.forall_mem_singleton, ← dateLines_eq_nil_iff]
  decide

end LivePlaylist

end Fluvora.MediaPipeline
