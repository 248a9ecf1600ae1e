import Mathlib

/-!
# Words and numerals of a text

A text is a list of characters.  Words are what white space separates; words that are put together
with blanks are found again.  A text is split once at a character, and a decimal numeral is read with
a largest number, with an optional plus sign.
-/

namespace Fluvora.Words

/-- The white space of Unicode. -/
def isWhitespace (c : Char) : Bool :=
  [0x09, 0x0a, 0x0b, 0x0c, 0x0d, 0x20, 0x85, 0xa0, 0x1680, 0x2028, 0x2029, 0x202f, 0x205f,
    0x3000].contains c.toNat || (0x2000 ≤ c.toNat && c.toNat ≤ 0x200a)

def splitWhitespace (text : List Char) : List (List Char) :=
  (text.splitOnP isWhitespace).filter (· ≠ [])

def trim (text : List Char) : List Char :=
  ((text.dropWhile isWhitespace).reverse.dropWhile isWhitespace).reverse

/-- Some words with a blank between any two. -/
def joinWords (words : List (List Char)) : List Char := [' '].intercalate words

/-- What is before and behind the first occurrence of a character. -/
def splitOnce (c : Char) : List Char → Option (List Char × List Char)
  | [] => none
  | d :: rest =>
      if d = c then some ([], rest)
      else (splitOnce c rest).map fun (front, back) => (d :: front, back)

def eqIgnoreAsciiCase (a b : List Char) : Bool := a.map Char.toLower = b.map Char.toLower

/-- The size in bytes, in UTF-8. -/
def byteLength (text : List Char) : ℕ := (text.map Char.utf8Size).sum

theorem byteLength_append (a b : List Char) : byteLength (a ++ b) = byteLength a + byteLength b := by
  rw [byteLength, List.map_append, List.sum_append, byteLength, byteLength]

theorem byteLength_le_of_sublist {a b : List Char} (h : a.Sublist b) : byteLength a ≤ byteLength b :=
  (h.map _).sum_le_sum fun _ _ => Nat.zero_le _

/-! ## Words -/

def IsWord (word : List Char) : Prop := word ≠ [] ∧ ∀ c ∈ word, isWhitespace c = false

theorem splitWhitespace_cons {word : List Char} (h : IsWord word) {c : Char}
    (hc : isWhitespace c = true) (rest : List Char) :
    splitWhitespace (word ++ c :: rest) = word :: splitWhitespace rest := by
  rw [splitWhitespace, List.splitOnP_append_cons_of_forall_mem (fun d hd => by simp [h.2 d hd]) c hc,
    List.filter_cons_of_pos (by simpa using h.1), splitWhitespace]

theorem splitWhitespace_word {word : List Char} (h : IsWord word) :
    splitWhitespace word = [word] := by
  rw [splitWhitespace, List.splitOnP_eq_singleton h.2,
    List.filter_cons_of_pos (by simpa using h.1)]
  rfl

/-- What a split leaves are characters of the text, and none of them is a separator. -/
theorem of_mem_splitOnP {p : Char → Bool} {text piece : List Char} (h : piece ∈ text.splitOnP p) :
    ∀ c ∈ piece, p c = false ∧ c ∈ text := by
  induction text generalizing piece with
  | nil =>
    rw [List.splitOnP_nil, List.mem_singleton] at h
    simp [h]
  | cons c text ih =>
    have hcons : ∀ {piece}, piece ∈ text.splitOnP p → ∀ d ∈ piece, p d = false ∧ d ∈ c :: text :=
      fun hpiece d hd => ⟨(ih hpiece d hd).1, List.mem_cons_of_mem _ (ih hpiece d hd).2⟩
    rw [List.splitOnP_cons_eq_if_modifyHead] at h
    split_ifs at h with hc
    · obtain rfl | h := List.mem_cons.mp h
      · simp
      · exact hcons h
    · obtain ⟨first, more, hsplit⟩ := List.exists_cons_of_ne_nil (List.splitOnP_ne_nil p text)
      rw [hsplit] at h hcons
      rw [List.modifyHead_cons, List.mem_cons] at h
      obtain rfl | h := h
      · intro d hd
        obtain rfl | hd := List.mem_cons.mp hd
        · exact ⟨by simpa using hc, List.mem_cons_self⟩
        · exact hcons List.mem_cons_self d hd
      · exact hcons (List.mem_cons_of_mem _ h)

theorem isWord_of_mem_splitWhitespace {text word : List Char} (h : word ∈ splitWhitespace text) :
    IsWord word := by
  obtain ⟨hmem, hne⟩ := List.mem_filter.mp h
  exact ⟨by simpa using hne, fun c hc => (of_mem_splitOnP hmem c hc).1⟩

theorem IsWord.not_mem {word : List Char} (h : IsWord word) {c : Char}
    (hc : isWhitespace c = true) : c ∉ word := by
  intro hmem
  rw [h.2 c hmem] at hc
  cases hc

theorem joinWords_cons_cons (word next : List Char) (words : List (List Char)) :
    joinWords (word :: next :: words) = word ++ ' ' :: joinWords (next :: words) := by
  rw [joinWords, List.intercalate_cons_cons]
  simp [joinWords]

/-- Words that are put together are found again. -/
theorem splitWhitespace_joinWords {words : List (List Char)} (h : ∀ word ∈ words, IsWord word) :
    splitWhitespace (joinWords words) = words := by
  induction words with
  | nil => rfl
  | cons word words ih =>
    have hword := h word List.mem_cons_self
    have hrest := ih fun other hother => h other (List.mem_cons_of_mem _ hother)
    cases words with
    | nil =>
      rw [joinWords, List.intercalate_singleton]
      exact splitWhitespace_word hword
    | cons next words =>
      rw [joinWords_cons_cons, splitWhitespace_cons hword (by decide), hrest]

/-- Each word with a blank in front. -/
theorem flatMap_blank {words : List (List Char)} (h : words ≠ []) :
    words.flatMap (' ' :: ·) = ' ' :: joinWords words := by
  induction words with
  | nil => exact absurd rfl h
  | cons word words ih =>
    cases words with
    | nil => simp [joinWords]
    | cons next words =>
      rw [List.flatMap_cons, ih (List.cons_ne_nil _ _), joinWords_cons_cons]
      rfl

/-! ## Splitting at a character -/

theorem splitOnce_append {c : Char} {front : List Char} (h : c ∉ front) (back : List Char) :
    splitOnce c (front ++ c :: back) = some (front, back) := by
  induction front with
  | nil => rw [List.nil_append, splitOnce, if_pos rfl]
  | cons d front ih =>
    rw [List.mem_cons, not_or] at h
    rw [List.cons_append, splitOnce, if_neg (Ne.symm h.1), ih h.2]
    rfl

theorem splitOnce_of_not_mem {c : Char} {text : List Char} (h : c ∉ text) :
    splitOnce c text = none := by
  induction text with
  | nil => rfl
  | cons d text ih =>
    rw [List.mem_cons, not_or] at h
    rw [splitOnce, if_neg (Ne.symm h.1), ih h.2]
    rfl

theorem splitOnce_eq_some {c : Char} {text front back : List Char}
    (h : splitOnce c text = some (front, back)) : text = front ++ c :: back ∧ c ∉ front := by
  by_cases hmem : c ∈ text
  · obtain ⟨before, rest, rfl, hnot⟩ := List.eq_append_cons_of_mem hmem
    rw [splitOnce_append hnot] at h
    cases h
    exact ⟨rfl, hnot⟩
  · rw [splitOnce_of_not_mem hmem] at h
    cases h

/-! ## Numerals -/

def numeral (n : ℕ) : List Char := Nat.toDigits 10 n

/-- A text without a plus sign in front. -/
def stripSign : List Char → List Char
  | '+' :: rest => rest
  | text => text

def parseNumeral (maximum : ℕ) (text : List Char) : Option ℕ :=
  let digits := stripSign text
  if digits ≠ [] ∧ digits.all Char.isDigit then
    let n := Nat.ofDigitChars 10 digits 0
    if n ≤ maximum then some n else none
  else none

theorem isDigit_of_mem_numeral {n : ℕ} {c : Char} (h : c ∈ numeral n) : c.isDigit = true :=
  Nat.isDigit_of_mem_toDigits (by decide) (by decide) h

theorem isWord_numeral (n : ℕ) : IsWord (numeral n) := by
  refine ⟨Nat.toDigits_ne_nil, fun c hc => ?_⟩
  have hdigit := isDigit_of_mem_numeral hc
  have hrange : 48 ≤ c.toNat ∧ c.toNat ≤ 57 := by
    rw [Char.isDigit, Bool.and_eq_true, decide_eq_true_iff, decide_eq_true_iff] at hdigit
    exact hdigit
  rw [isWhitespace, Bool.or_eq_false_iff]
  constructor
  · simp only [List.contains_eq_mem, List.mem_cons, List.not_mem_nil, or_false,
      decide_eq_false_iff_not]
    omega
  · simp only [Bool.and_eq_false_imp, decide_eq_true_eq, decide_eq_false_iff_not]
    omega

theorem parseNumeral_numeral {n maximum : ℕ} (h : n ≤ maximum) :
    parseNumeral maximum (numeral n) = some n := by
  have hplus : ∀ rest, numeral n ≠ '+' :: rest := by
    intro rest heq
    have hdigit := isDigit_of_mem_numeral (n := n) (c := '+') (heq ▸ List.mem_cons_self)
    cases hdigit
  have hdigits : numeral n ≠ [] ∧ (numeral n).all Char.isDigit = true :=
    ⟨Nat.toDigits_ne_nil, List.all_eq_true.mpr fun c hc => isDigit_of_mem_numeral hc⟩
  have hvalue : Nat.ofDigitChars 10 (numeral n) 0 = n := Nat.ofDigitChars_ten_toDigits
  have hsign : stripSign (numeral n) = numeral n := by
    unfold stripSign
    split
    · next rest heq => exact absurd heq (hplus rest)
    · rfl
  unfold parseNumeral
  dsimp only
  rw [hsign, if_pos hdigits, hvalue, if_pos h]

end Fluvora.Words
