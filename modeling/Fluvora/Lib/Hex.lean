import Mathlib

/-!
# Hexadecimal numerals

Lowercase numerals of numbers, padded with zeros to a width and stripped of them again.  The numerals
of two words, padded and put together, are the numeral of the number that the words make up.  A padded
numeral tells its number.
-/

namespace Fluvora.Hex

def isHexDigit (c : Char) : Bool := ('0' ≤ c && c ≤ '9') || ('a' ≤ c && c ≤ 'f')

/-- Drops leading zeros as long as a digit follows. -/
def stripZeros : List Char → List Char
  | '0' :: c :: rest => if isHexDigit c then stripZeros (c :: rest) else '0' :: c :: rest
  | chars => chars

/-- The digits of a number, without leading zeros. -/
def numeral (n : ℕ) : List Char := Nat.toDigits 16 n

/-- A numeral starts with a digit, and with a zero only if it is the numeral of zero. -/
theorem numeral_eq_cons (n : ℕ) :
    ∃ c rest, numeral n = c :: rest ∧ isHexDigit c = true ∧ (c = '0' → rest = []) := by
  have hdigit : ∀ d < 16, isHexDigit (Nat.digitChar d) = true := by decide
  have hpositive : ∀ n, 0 < n → ∃ c rest, numeral n = c :: rest ∧ isHexDigit c = true ∧ c ≠ '0' := by
    intro n
    induction n using Nat.strong_induction_on with
    | _ n ih =>
      intro hn
      by_cases hsmall : n < 16
      · refine ⟨Nat.digitChar n, [], Nat.toDigits_of_lt_base hsmall, hdigit n hsmall, ?_⟩
        rw [ne_eq, Nat.digitChar_eq_zero]
        omega
      · obtain ⟨c, rest, hnumeral, hhex, hne⟩ := ih (n / 16) (by omega) (by omega)
        refine ⟨c, rest ++ [Nat.digitChar (n % 16)], ?_, hhex, hne⟩
        rw [numeral, Nat.toDigits_of_base_le (by decide) (not_lt.mp hsmall), ← numeral, hnumeral]
        rfl
  rcases Nat.eq_zero_or_pos n with rfl | hn
  · exact ⟨'0', [], rfl, by decide, fun _ => rfl⟩
  · obtain ⟨c, rest, hnumeral, hhex, hne⟩ := hpositive n hn
    exact ⟨c, rest, hnumeral, hhex, fun h => absurd h hne⟩

theorem stripZeros_zeros (count n : ℕ) :
    stripZeros (List.replicate count '0' ++ numeral n) = numeral n := by
  obtain ⟨c, rest, hnumeral, hhex, hzero⟩ := numeral_eq_cons n
  rw [hnumeral]
  induction count with
  | zero =>
    by_cases hc : c = '0'
    · rw [hzero hc, hc]
      rfl
    · rw [List.replicate_zero, List.nil_append, stripZeros]
      rintro d tail heq
      exact absurd (List.cons.inj heq).1 hc
  | succ count ih =>
    have hnext : ∃ d tail, List.replicate count '0' ++ c :: rest = d :: tail ∧ isHexDigit d = true := by
      cases count with
      | zero => exact ⟨c, rest, rfl, hhex⟩
      | succ count => exact ⟨'0', List.replicate count '0' ++ c :: rest, rfl, by decide⟩
    obtain ⟨d, tail, hsplit, hd⟩ := hnext
    rw [List.replicate_succ, List.cons_append, hsplit, stripZeros, if_pos hd, ← hsplit, ih]

theorem leftpad_numeral_succ {width n : ℕ} (hwidth : 0 < width) :
    List.leftpad (width + 1) '0' (numeral n) =
      List.leftpad width '0' (numeral (n / 16)) ++ numeral (n % 16) := by
  have hlast : numeral (n % 16) = [Nat.digitChar (n % 16)] :=
    Nat.toDigits_of_lt_base (Nat.mod_lt n (by decide))
  rw [hlast]
  by_cases hsmall : n < 16
  · have hzero : numeral (n / 16) = ['0'] := by
      rw [Nat.div_eq_of_lt hsmall]
      rfl
    have hone : numeral n = [Nat.digitChar n] := Nat.toDigits_of_lt_base hsmall
    rw [hzero, hone, Nat.mod_eq_of_lt hsmall, List.leftpad, List.leftpad, List.length_singleton,
      List.length_singleton, Nat.add_sub_cancel, ← List.replicate_succ', Nat.sub_add_cancel hwidth]
  · have hsplit : numeral n = numeral (n / 16) ++ [Nat.digitChar (n % 16)] :=
      Nat.toDigits_of_base_le (by decide) (not_lt.mp hsmall)
    rw [hsplit, List.leftpad, List.leftpad, List.length_append, List.length_singleton,
      Nat.add_sub_add_right, List.append_assoc]

/-- A positive number and a padded one behind it. -/
theorem numeral_append {width : ℕ} (hwidth : 0 < width) {high low : ℕ} (hhigh : 0 < high)
    (hlow : low < 16 ^ width) :
    numeral high ++ List.leftpad width '0' (numeral low) = numeral (high * 16 ^ width + low) := by
  induction width, hwidth using Nat.le_induction generalizing low with
  | base =>
    rw [pow_one] at hlow ⊢
    have hone : numeral low = [Nat.digitChar low] := Nat.toDigits_of_lt_base hlow
    have hpad : List.leftpad (0 + 1) '0' (numeral low) = numeral low := by
      rw [hone]
      rfl
    rw [show Nat.succ 0 = 0 + 1 from rfl, hpad, Nat.mul_comm]
    exact Nat.toDigits_append_toDigits (by decide) hhigh hlow
  | succ width hwidth ih =>
    have hdiv : low / 16 < 16 ^ width := by
      rw [pow_succ] at hlow
      omega
    have hmore : 0 < high * 16 ^ width + low / 16 := by positivity
    rw [leftpad_numeral_succ hwidth, ← List.append_assoc, ih hdiv]
    have hlast := Nat.toDigits_append_toDigits (b := 16) (by decide) hmore (Nat.mod_lt low (by decide))
    refine hlast.trans ?_
    rw [numeral]
    congr 1
    have hpow : high * 16 ^ (width + 1) = 16 * (high * 16 ^ width) := by ring
    omega

/-- Two padded words, stripped of their zeros, are the number that they make up. -/
theorem stripZeros_words {width : ℕ} (hwidth : 0 < width) (high : ℕ) {low : ℕ}
    (hlow : low < 16 ^ width) :
    stripZeros (List.leftpad width '0' (numeral high) ++ List.leftpad width '0' (numeral low)) =
      numeral (high * 16 ^ width + low) := by
  rcases Nat.eq_zero_or_pos high with rfl | hhigh
  · have hzeros : List.leftpad width '0' (numeral 0) = List.replicate width '0' := by
      have hzero : numeral 0 = ['0'] := rfl
      rw [hzero, List.leftpad, List.length_singleton, ← List.replicate_succ',
        Nat.sub_add_cancel hwidth]
    rw [hzeros, List.leftpad, ← List.append_assoc, List.replicate_append_replicate, stripZeros_zeros,
      Nat.zero_mul, Nat.zero_add]
  · rw [List.leftpad, List.append_assoc, numeral_append hwidth hhigh hlow, stripZeros_zeros]

/-! ## Reading numerals -/

/-- The number that digits make up. -/
def value (digits : List Char) : ℕ :=
  digits.foldl (fun n c => n * 16 + if c.isDigit then c.toNat - 48 else c.toNat - 87) 0

theorem value_concat (digits : List Char) (c : Char) :
    value (digits ++ [c]) =
      value digits * 16 + if c.isDigit then c.toNat - 48 else c.toNat - 87 := by
  rw [value, List.foldl_append, List.foldl_cons, List.foldl_nil, ← value]

theorem value_numeral (n : ℕ) : value (numeral n) = n := by
  have hdigit : ∀ d < 16, value [Nat.digitChar d] = d := by decide
  induction n using Nat.strong_induction_on with
  | _ n ih =>
    by_cases hsmall : n < 16
    · rw [numeral, Nat.toDigits_of_lt_base hsmall, hdigit n hsmall]
    · have hlast := hdigit (n % 16) (Nat.mod_lt n (by decide))
      rw [← List.nil_append [Nat.digitChar (n % 16)], value_concat] at hlast
      have hfront := ih (n / 16) (by omega)
      have hsplit : numeral n = numeral (n / 16) ++ [Nat.digitChar (n % 16)] :=
        Nat.toDigits_of_base_le (by decide) (not_lt.mp hsmall)
      rw [hsplit, value_concat, hfront]
      have hnil : value [] = 0 := rfl
      omega

theorem value_leftpad (width : ℕ) (digits : List Char) :
    value (List.leftpad width '0' digits) = value digits := by
  have hzeros : ∀ count, value (List.replicate count '0' ++ digits) = value digits := by
    intro count
    induction count with
    | zero => rfl
    | succ count ih => exact ih
  exact hzeros _

/-- Padded numerals are told apart by their numbers. -/
theorem leftpad_numeral_inj {width m n : ℕ}
    (h : List.leftpad width '0' (numeral m) = List.leftpad width '0' (numeral n)) : m = n := by
  have hvalue := congrArg value h
  rwa [value_leftpad, value_leftpad, value_numeral, value_numeral] at hvalue

end Fluvora.Hex
