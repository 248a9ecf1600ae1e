import Fluvora.Lib.Inversion
import Fluvora.Srtp.EndToEnd

/-!
# The replay window as a set of indices

Runs of checks and of what is recorded after them.  The window stays in step with the set of the
indices that it has accepted, whatever the order of the indices is; no index is accepted twice, and no
shift of the bitmap is by the size of the word or more.  `unprotect_rtp` makes one attempt at the window
of its SSRC, and changes nothing where it fails.
-/

namespace Fluvora.Srtp

open Fallible

namespace ReplayWindow

/-! ## Shifts that panic -/

/-- `<<` of the source. -/
def shl (word : BitVec 64) (amount : ℕ) : Option (BitVec 64) :=
  if amount < 64 then some (word <<< amount) else none

/-- `check` with the shift of the source. -/
def checkShifting (window : ReplayWindow) (index : ℕ) : Option (Except ReplayError Unit) :=
  match window.maximum with
  | none => some (.ok ())
  | some maximum =>
      if maximum < index then
        some (.ok ())
      else if 64 ≤ maximum - index then
        some (.error .packetTooOld)
      else do
        let bit ← shl 1 (maximum - index)
        return if window.bitmap &&& bit ≠ 0 then .error .replayDetected else .ok ()

/-- `accept` with the shifts of the source. -/
def acceptShifting (window : ReplayWindow) (index : ℕ) : Option ReplayWindow :=
  match window.maximum with
  | none => some { maximum := some index, bitmap := 1 }
  | some maximum =>
      if maximum < index then do
        let bitmap ←
          if 64 ≤ index - maximum then some 1
          else (shl window.bitmap (index - maximum)).map (· ||| 1)
        return { maximum := some index, bitmap }
      else do
        let bit ← shl 1 (maximum - index)
        return { window with bitmap := window.bitmap ||| bit }

theorem shl_eq_some {word : BitVec 64} {amount : ℕ} (h : amount < 64) :
    shl word amount = some (word <<< amount) := if_pos h

theorem checkShifting_eq (window : ReplayWindow) (index : ℕ) :
    window.checkShifting index = some (window.check index) := by
  unfold checkShifting check
  cases window.maximum with
  | none => rfl
  | some maximum =>
    dsimp only
    split_ifs with hahead hold hbit
    · rfl
    · rfl
    · rw [shl_eq_some (not_le.mp hold)]
      exact congrArg some (if_pos hbit)
    · rw [shl_eq_some (not_le.mp hold)]
      exact congrArg some (if_neg hbit)

/-- What the check lets pass is inside the window, so its bit is. -/
theorem acceptShifting_eq {window : ReplayWindow} {index : ℕ} (h : window.check index = .ok ()) :
    window.acceptShifting index = some (window.accept index) := by
  unfold acceptShifting accept
  cases hmax : window.maximum with
  | none => rfl
  | some maximum =>
    dsimp only
    split_ifs with hahead hfar
    · rfl
    · rw [shl_eq_some (not_le.mp hfar)]
      rfl
    · have hnear : ¬64 ≤ maximum - index := by
        intro hold
        rw [check, hmax] at h
        dsimp only at h
        rw [if_neg hahead, if_pos hold] at h
        cases h
      rw [shl_eq_some (not_le.mp hnear)]
      rfl

/-! ## Attempts -/

/-- An index to check, and whether it is recorded if the check lets it pass. -/
structure Attempt where
  index : ℕ
  recorded : Bool

/-- A window, with the indices that it has accepted in order. -/
structure Run where
  window : ReplayWindow := {}
  accepted : List ℕ := []

def Run.attempt (run : Run) (attempt : Attempt) : Run :=
  if run.window.check attempt.index = .ok () ∧ attempt.recorded = true then
    ⟨run.window.accept attempt.index, run.accepted ++ [attempt.index]⟩
  else
    run

def Run.attemptShifting (run : Run) (attempt : Attempt) : Option Run := do
  let checked ← run.window.checkShifting attempt.index
  if checked = .ok () ∧ attempt.recorded = true then
    let window ← run.window.acceptShifting attempt.index
    return ⟨window, run.accepted ++ [attempt.index]⟩
  else
    return run

def runAttempts (attempts : List Attempt) : Run := attempts.foldl Run.attempt {}

theorem runAttempts_append (attempts : List Attempt) (attempt : Attempt) :
    runAttempts (attempts ++ [attempt]) = (runAttempts attempts).attempt attempt :=
  List.foldl_append

/-- The index is above all accepted ones, or less than 64 below the highest and not accepted. -/
def Admits (accepted : Finset ℕ) (index : ℕ) : Prop :=
  (∀ i ∈ accepted, i < index) ∨ (∀ i ∈ accepted, i < index + 64) ∧ index ∉ accepted

instance (accepted : Finset ℕ) (index : ℕ) : Decidable (Admits accepted index) :=
  inferInstanceAs (Decidable (_ ∨ _))

/-- The window as a set: what is admitted and recorded is put in. -/
def accepting (accepted : Finset ℕ) (attempt : Attempt) : Finset ℕ :=
  if Admits accepted attempt.index ∧ attempt.recorded = true then insert attempt.index accepted
  else accepted

theorem Admits.not_mem {accepted : Finset ℕ} {index : ℕ} (h : Admits accepted index) :
    index ∉ accepted := by
  rcases h with habove | ⟨-, hnew⟩
  · exact fun hmem => lt_irrefl _ (habove index hmem)
  · exact hnew

theorem Admits.near {accepted : Finset ℕ} {index : ℕ} (h : Admits accepted index) {i : ℕ}
    (hi : i ∈ accepted) : i < index + 64 := by
  rcases h with habove | ⟨hnear, -⟩
  · exact Nat.lt_add_right _ (habove i hi)
  · exact hnear i hi

/-- The check is membership in the abstract window. -/
theorem Represents.check_iff {window : ReplayWindow} {accepted : Finset ℕ}
    (h : Represents window accepted) (index : ℕ) :
    window.check index = .ok () ↔ Admits accepted index := by
  constructor
  · intro hcheck
    have hnear : ∀ m, window.maximum = some m → m < index + 64 := by
      intro m hmax
      rw [check, hmax] at hcheck
      dsimp only at hcheck
      split_ifs at hcheck with hahead hold
      · omega
      · omega
    right
    refine ⟨fun i hi => ?_, fun hmem => ?_⟩
    · obtain ⟨m, hmax⟩ : ∃ m, window.maximum = some m := by
        rw [← Option.ne_none_iff_exists', ne_eq, h.maximum_eq_none]
        exact Finset.ne_empty_of_mem hi
      have hle := ((h.maximum m).mp hmax).2 i hi
      have hlt := hnear m hmax
      omega
    · rw [h.check_eq hnear, if_pos hmem] at hcheck
      cases hcheck
  · intro hadmits
    have hnear : ∀ m, window.maximum = some m → m < index + 64 := fun m hmax =>
      hadmits.near ((h.maximum m).mp hmax).1
    rw [h.check_eq hnear, if_neg hadmits.not_mem]

/-- A window and its set after an attempt that was admitted. -/
theorem Represents.accept_of_admits {window : ReplayWindow} {accepted : Finset ℕ} {index : ℕ}
    (h : Represents window accepted) (hadmits : Admits accepted index) :
    Represents (window.accept index) (insert index accepted) :=
  h.accept fun m hmax => hadmits.near ((h.maximum m).mp hmax).1

/-- A run stands for its set: the window represents it, and every index was accepted once. -/
structure Run.StandsFor (run : Run) (accepted : Finset ℕ) : Prop where
  represents : Represents run.window accepted
  log : run.accepted.toFinset = accepted
  once : run.accepted.Nodup

theorem Run.StandsFor.attempt {run : Run} {accepted : Finset ℕ} (h : run.StandsFor accepted)
    (attempt : Attempt) :
    (run.attempt attempt).StandsFor (accepting accepted attempt) ∧
      run.attemptShifting attempt = some (run.attempt attempt) := by
  have hiff := h.represents.check_iff attempt.index
  unfold Run.attempt Run.attemptShifting accepting
  simp only [checkShifting_eq, ← hiff]
  by_cases hpass : run.window.check attempt.index = .ok () ∧ attempt.recorded = true
  · have hadmits := hiff.mp hpass.1
    have hnew : attempt.index ∉ run.accepted := by
      rw [← List.mem_toFinset, h.log]
      exact hadmits.not_mem
    rw [if_pos hpass, if_pos hpass]
    refine ⟨⟨h.represents.accept_of_admits hadmits, ?_, ?_⟩, ?_⟩
    · rw [List.toFinset_append, h.log, List.toFinset_cons, List.toFinset_nil, Finset.insert_eq,
        Finset.union_comm]
      rfl
    · exact List.Nodup.append h.once (List.nodup_singleton _)
        (List.disjoint_singleton.mpr hnew)
    · show (if run.window.check attempt.index = .ok () ∧ attempt.recorded = true then _ else _) = _
      rw [if_pos hpass, acceptShifting_eq hpass.1]
      rfl
  · rw [if_neg hpass, if_neg hpass]
    refine ⟨h, ?_⟩
    show (if run.window.check attempt.index = .ok () ∧ attempt.recorded = true then _ else _) = _
    rw [if_neg hpass]
    rfl

theorem Run.StandsFor.attempts {run : Run} {accepted : Finset ℕ} (h : run.StandsFor accepted)
    (attempts : List Attempt) :
    (attempts.foldl Run.attempt run).StandsFor (attempts.foldl accepting accepted) ∧
      attempts.foldlM Run.attemptShifting run = some (attempts.foldl Run.attempt run) := by
  induction attempts generalizing run accepted with
  | nil => exact ⟨h, rfl⟩
  | cons attempt attempts ih =>
    obtain ⟨hnext, hshifting⟩ := h.attempt attempt
    rw [List.foldl_cons, List.foldl_cons, List.foldlM_cons, hshifting]
    exact ih hnext

theorem standsFor_empty : Run.StandsFor {} ∅ :=
  ⟨represents_empty, rfl, List.nodup_nil⟩

end ReplayWindow

/-! ## Packets -/

namespace SrtpContext

/-- `unprotectRtp` fails and changes nothing, or its index has passed the check of the window of its
SSRC and is recorded there. -/
theorem unprotectRtp_run (crypto : Crypto) (packet : Bytes) (s : SrtpContext) :
    (∃ error, (unprotectRtp crypto packet).run s = (.error error, s)) ∨
    ∃ plaintext ssrc index, (s.window ssrc).check index = .ok () ∧
      (unprotectRtp crypto packet).run s = (.ok plaintext, s.withAccepted ssrc index) := by
  obtain ⟨Outcome, hOutcome⟩ : ∃ Outcome : Except SrtpError Bytes × SrtpContext → Prop,
      Outcome = fun result => (∃ error, result = (.error error, s)) ∨
        ∃ plaintext ssrc index, (s.window ssrc).check index = .ok () ∧
          result = (.ok plaintext, s.withAccepted ssrc index) := ⟨_, rfl⟩
  have hfail : ∀ error, Outcome (.error error, s) := by
    intro error
    rw [hOutcome]
    exact .inl ⟨error, rfl⟩
  suffices h : Outcome ((unprotectRtp crypto packet).run s) by rwa [hOutcome] at h
  rw [unprotectRtp, run_get_bind]
  refine run_ensure_bind_cases (hfail _) fun _ => ?_
  refine run_ofExcept_bind_cases (fun _ _ => hfail _) fun headerLen _ => ?_
  refine run_ofExcept_bind_cases (fun _ _ => hfail _) fun sequenceNumber _ => ?_
  refine run_ofExcept_bind_cases (fun _ _ => hfail _) fun ssrc _ => ?_
  refine run_ofExcept_bind_cases (fun _ _ => hfail _) fun _ hcheck => ?_
  refine run_ofExcept_bind_cases (fun _ _ => hfail _) fun roc _ => ?_
  refine run_ofExcept_bind_cases (fun _ _ => hfail _) fun _ _ => ?_
  refine run_ofExcept_bind_cases (fun _ _ => hfail _) fun parsed _ => ?_
  rw [hOutcome]
  exact .inr ⟨_, ssrc, _, Results.mapError_eq_ok.mp hcheck, rfl⟩

/-- The context behind some packets. -/
def receiveAll (s : SrtpContext) (crypto : Crypto) (packets : List Bytes) : SrtpContext :=
  packets.foldl (fun s packet => ((unprotectRtp crypto packet).run s).2) s

/-- The window of an SSRC goes through a run of attempts. -/
theorem window_receiveAll (crypto : Crypto) (packets : List Bytes) {s : SrtpContext} {ssrc : UInt32}
    {earlier : List ReplayWindow.Attempt}
    (h : s.window ssrc = (ReplayWindow.runAttempts earlier).window) :
    ∃ attempts, (s.receiveAll crypto packets).window ssrc =
      (ReplayWindow.runAttempts attempts).window := by
  induction packets generalizing s earlier with
  | nil => exact ⟨earlier, h⟩
  | cons packet packets ih =>
    unfold receiveAll
    rw [List.foldl_cons, ← receiveAll]
    obtain ⟨error, hrun⟩ | ⟨plaintext, other, index, hcheck, hrun⟩ :=
      unprotectRtp_run crypto packet s
    · rw [hrun]
      exact ih h
    · rw [hrun]
      by_cases heq : other = ssrc
      · subst heq
        refine @ih _ (earlier ++ [⟨index, true⟩]) ?_
        rw [h] at hcheck
        rw [window_withAccepted, h, ReplayWindow.runAttempts_append, ReplayWindow.Run.attempt,
          if_pos ⟨hcheck, rfl⟩]
      · refine @ih _ earlier ?_
        rw [window_withAccepted_of_ne s index heq, h]

end SrtpContext

/-- The window of 64 bits refines the set of accepted indices: over every run of attempts it
represents that set, its check is membership in the abstract window, no index is accepted twice and no
shift panics; `unprotectRtp` makes one attempt, and leaves everything as it was where it fails. -/
theorem window_refines_set :
    (∀ attempts : List ReplayWindow.Attempt,
      (ReplayWindow.runAttempts attempts).StandsFor (attempts.foldl ReplayWindow.accepting ∅) ∧
      (∀ index, (ReplayWindow.runAttempts attempts).window.check index = .ok () ↔
        ReplayWindow.Admits (attempts.foldl ReplayWindow.accepting ∅) index) ∧
      attempts.foldlM ReplayWindow.Run.attemptShifting {} =
        some (ReplayWindow.runAttempts attempts)) ∧
    (∀ window index, ReplayWindow.checkShifting window index = some (window.check index)) ∧
    ∀ (crypto : Crypto) (s : SrtpContext),
      (∀ packet, (∃ error, (SrtpContext.unprotectRtp crypto packet).run s = (.error error, s)) ∨
        ∃ plaintext ssrc index, (s.window ssrc).check index = .ok () ∧
          (SrtpContext.unprotectRtp crypto packet).run s =
            (.ok plaintext, s.withAccepted ssrc index)) ∧
      (s.inboundRtp = ∅ → ∀ packets ssrc, ∃ attempts,
        (s.receiveAll crypto packets).window ssrc =
          (ReplayWindow.runAttempts attempts).window) := by
  refine ⟨fun attempts => ?_, ReplayWindow.checkShifting_eq, fun crypto s =>
    ⟨fun packet => SrtpContext.unprotectRtp_run crypto packet s, fun hempty packets ssrc => ?_⟩⟩
  · obtain ⟨hstands, hshifting⟩ := ReplayWindow.standsFor_empty.attempts attempts
    exact ⟨hstands, hstands.represents.check_iff, hshifting⟩
  · refine SrtpContext.window_receiveAll crypto packets (show _ = (ReplayWindow.runAttempts []).window from ?_)
    simp [SrtpContext.window, hempty, ReplayWindow.runAttempts]

end Fluvora.Srtp
