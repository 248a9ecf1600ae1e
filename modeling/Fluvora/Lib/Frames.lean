import Mathlib

/-!
# Frames on a stream

A reader takes one frame off the front of a stream, finds that the stream has ended, or fails.
`readAll` reads until one of the last two.  If the reader takes each of some frames off whatever
follows it, the frames are read back from the stream that they make (`readAll_flatten`).
-/

namespace Fluvora.Frames

variable {α ε : Type}

/-- One frame and what follows it, or `none` at the end. -/
abbrev Reader (α ε : Type) := List α → Except ε (Option (List α × List α))

/-- Why no more frames are read, with what is left of the stream at its end. -/
inductive Stop (α ε : Type)
  | finished (left : List α)
  | failed (error : ε)
  | outOfFuel
deriving DecidableEq

def readAll (read : Reader α ε) : ℕ → List α → List (List α) × Stop α ε
  | 0, _ => ([], .outOfFuel)
  | fuel + 1, input =>
      match read input with
      | .error error => ([], .failed error)
      | .ok none => ([], .finished input)
      | .ok (some (frame, rest)) =>
          let (frames, stop) := readAll read fuel rest
          (frame :: frames, stop)

/-- The reader takes a frame off the front of every stream that begins with it. -/
def Takes (read : Reader α ε) (frame : List α) : Prop :=
  ∀ rest, read (frame ++ rest) = .ok (some (frame, rest))

theorem readAll_flatten_append {read : Reader α ε} {frames : List (List α)} {left : List α}
    (hframes : ∀ frame ∈ frames, Takes read frame) (hleft : read left = .ok none) {fuel : ℕ}
    (hfuel : frames.length < fuel) :
    readAll read fuel (frames.flatten ++ left) = (frames, .finished left) := by
  induction frames generalizing fuel with
  | nil =>
    obtain ⟨fuel, rfl⟩ : ∃ n, fuel = n + 1 := ⟨fuel - 1, by simp at hfuel; omega⟩
    rw [List.flatten_nil, List.nil_append, readAll, hleft]
  | cons frame frames ih =>
    obtain ⟨fuel, rfl⟩ : ∃ n, fuel = n + 1 := ⟨fuel - 1, by simp at hfuel; omega⟩
    have hhead := hframes frame List.mem_cons_self (frames.flatten ++ left)
    have htail := ih (fun other hother => hframes other (.tail _ hother))
      (Nat.lt_of_succ_lt_succ hfuel)
    rw [List.flatten_cons, List.append_assoc, readAll, hhead]
    dsimp only
    rw [htail]

theorem readAll_flatten {read : Reader α ε} {frames : List (List α)}
    (hframes : ∀ frame ∈ frames, Takes read frame) (hend : read [] = .ok none) {fuel : ℕ}
    (hfuel : frames.length < fuel) :
    readAll read fuel frames.flatten = (frames, .finished []) := by
  have h := readAll_flatten_append hframes hend hfuel
  rwa [List.append_nil] at h

end Fluvora.Frames
