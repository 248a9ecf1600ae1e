import Mathlib

/-!
# Lines of a text

A text is a list of characters.  `lines` splits it at each newline and drops the carriage return
before one; a newline at the very end starts no further line.  A text that is written line by line is
read back line by line, and a line that itself holds newlines is read as several.
-/

namespace Fluvora.Lines

def lines : List Char → List (List Char)
  | [] => []
  | c :: rest =>
      if c = '\n' then [] :: lines rest
      else if c = '\r' ∧ rest.head? = some '\n' then lines rest
      else
        match lines rest with
        | [] => [[c]]
        | line :: more => (c :: line) :: more

/-- Some lines, each ended by a newline. -/
def unlines (written : List (List Char)) : List Char := written.flatMap (· ++ ['\n'])

theorem unlines_cons (line : List Char) (written : List (List Char)) :
    unlines (line :: written) = line ++ '\n' :: unlines written := by
  rw [unlines, List.flatMap_cons, List.append_assoc]
  rfl

theorem unlines_append (written more : List (List Char)) :
    unlines (written ++ more) = unlines written ++ unlines more :=
  List.flatMap_append

theorem unlines_flatMap {α : Type} (f : α → List (List Char)) (xs : List α) :
    unlines (xs.flatMap f) = xs.flatMap fun x => unlines (f x) :=
  List.flatMap_assoc

theorem lines_newline (rest : List Char) : lines ('\n' :: rest) = [] :: lines rest := rfl

theorem lines_cons {c : Char} (hc : c ≠ '\n') (rest : List Char) :
    lines (c :: rest) =
      if c = '\r' ∧ rest.head? = some '\n' then lines rest
      else
        match lines rest with
        | [] => [[c]]
        | line :: more => (c :: line) :: more := by
  rw [lines, if_neg hc]

theorem lines_ne_nil {text : List Char} (h : text ≠ []) : lines text ≠ [] := by
  induction text with
  | nil => exact absurd rfl h
  | cons c rest ih =>
    by_cases hc : c = '\n'
    · rw [hc, lines_newline]
      exact List.cons_ne_nil _ _
    rw [lines_cons hc]
    split_ifs with hreturn
    · refine ih ?_
      rintro rfl
      cases hreturn.2
    · split <;> exact List.cons_ne_nil _ _

/-- What is in front of a newline is read on its own. -/
theorem lines_append (front rest : List Char) :
    lines (front ++ '\n' :: rest) = lines (front ++ ['\n']) ++ lines rest := by
  induction front with
  | nil => rfl
  | cons c front ih =>
    have hhead : (front ++ '\n' :: rest).head? = (front ++ ['\n']).head? := by
      cases front <;> rfl
    obtain ⟨line, more, hlines⟩ :=
      List.exists_cons_of_ne_nil (lines_ne_nil (List.append_ne_nil_of_right_ne_nil front
        (List.cons_ne_nil '\n' [])))
    rw [List.cons_append, List.cons_append]
    by_cases hc : c = '\n'
    · rw [hc, lines_newline, lines_newline, ih]
      rfl
    rw [lines_cons hc, lines_cons hc, hhead, ih, hlines]
    split_ifs <;> rfl

/-- Each line that was written is read on its own. -/
theorem lines_unlines (written : List (List Char)) :
    lines (unlines written) = written.flatMap fun line => lines (line ++ ['\n']) := by
  induction written with
  | nil => rfl
  | cons line written ih => rw [unlines_cons, lines_append, ih, List.flatMap_cons]

/-- A line that ends in a newline alone, or in a carriage return and a newline, is read without
them. -/
theorem lines_of_not_mem {line : List Char} (h : '\n' ∉ line) :
    (line.getLast? ≠ some '\r' → lines (line ++ ['\n']) = [line]) ∧
      lines (line ++ ['\r', '\n']) = [line] := by
  induction line with
  | nil => exact ⟨fun _ => rfl, rfl⟩
  | cons c line ih =>
    rw [List.mem_cons, not_or] at h
    obtain ⟨hc, hline⟩ := h
    obtain ⟨hbare, hreturn⟩ := ih hline
    constructor
    · intro hlast
      have hsafe : ¬(c = '\r' ∧ (line ++ ['\n']).head? = some '\n') := by
        rintro ⟨rfl, hhead⟩
        cases line with
        | nil => exact hlast rfl
        | cons d line => exact hline (by simpa using Or.inl (Option.some.inj hhead).symm)
      have hrest : line.getLast? ≠ some '\r' := by
        intro heq
        cases line with
        | nil => cases heq
        | cons d line => exact hlast heq
      rw [List.cons_append, lines_cons (Ne.symm hc), if_neg hsafe, hbare hrest]
    · have hsafe : ¬(c = '\r' ∧ (line ++ ['\r', '\n']).head? = some '\n') := by
        rintro ⟨-, hhead⟩
        cases line with
        | nil => cases hhead
        | cons d line => exact hline (by simpa using Or.inl (Option.some.inj hhead).symm)
      rw [List.cons_append, lines_cons (Ne.symm hc), if_neg hsafe, hreturn]

/-- A text in front of the first line belongs to it. -/
theorem lines_behind {front text line : List Char} {more : List (List Char)} (hnewline : '\n' ∉ front)
    (hreturn : '\r' ∉ front) (h : lines text = line :: more) :
    lines (front ++ text) = (front ++ line) :: more := by
  induction front with
  | nil => exact h
  | cons c front ih =>
    rw [List.mem_cons, not_or] at hnewline hreturn
    rw [List.cons_append, lines_cons (Ne.symm hnewline.1), if_neg fun hc => hreturn.1 hc.1.symm,
      ih hnewline.2 hreturn.2]
    rfl

/-- A newline at the end of a text changes nothing, unless the text ends in one or in a carriage
return. -/
theorem lines_append_newline {text : List Char} {last : Char} (hlast : text.getLast? = some last)
    (hnewline : last ≠ '\n') (hreturn : last ≠ '\r') : lines (text ++ ['\n']) = lines text := by
  induction text with
  | nil => cases hlast
  | cons c rest ih =>
    cases rest with
    | nil =>
      obtain rfl : c = last := Option.some.inj hlast
      rw [List.cons_append, lines_cons hnewline, lines_cons hnewline, if_neg fun h => hreturn h.1,
        if_neg fun h => hreturn h.1]
      rfl
    | cons d rest =>
      have hrest := ih hlast
      rw [List.cons_append]
      by_cases hc : c = '\n'
      · rw [hc, lines_newline, lines_newline, hrest]
      · rw [lines_cons hc, lines_cons hc, hrest]
        rfl

/-- The lines of a text hold no newline. -/
theorem not_mem_of_mem_lines {text line : List Char} (h : line ∈ lines text) : '\n' ∉ line := by
  induction text generalizing line with
  | nil => cases h
  | cons c rest ih =>
    by_cases hc : c = '\n'
    · rw [hc, lines_newline, List.mem_cons] at h
      obtain rfl | h := h
      · exact List.not_mem_nil
      · exact ih h
    rw [lines_cons hc] at h
    split_ifs at h with hreturn
    · exact ih h
    split at h
    · rw [List.mem_singleton.mp h]
      simpa using Ne.symm hc
    · next first more hlines =>
      rw [hlines] at ih
      obtain rfl | h := List.mem_cons.mp h
      · rw [List.mem_cons, not_or]
        exact ⟨Ne.symm hc, ih List.mem_cons_self⟩
      · exact ih (List.mem_cons_of_mem _ h)

end Fluvora.Lines
