import Mathlib

/-!
# Checked arithmetic

The plain operations of a language whose integers are of fixed width: an operation whose exact result is
not of the type is a fault, as is a division by zero.
-/

namespace Fluvora.Checked

inductive Fault
  | overflow
  | divisionByZero
deriving DecidableEq

/-- An exact result, in a type with these limits. -/
def within (low high n : ℤ) : Except Fault ℤ :=
  if low ≤ n ∧ n ≤ high then .ok n else .error .overflow

theorem within_of_mem {low high n : ℤ} (hlow : low ≤ n) (hhigh : n ≤ high) :
    within low high n = .ok n :=
  if_pos ⟨hlow, hhigh⟩

theorem within_of_lt {low high n : ℤ} (h : n < low) : within low high n = .error .overflow :=
  if_neg fun hmem => absurd hmem.1 (by omega)

/-- The difference of unsigned numbers. -/
def subtract (a b : ℕ) : Except Fault ℕ := if b ≤ a then .ok (a - b) else .error .overflow

theorem subtract_of_le {a b : ℕ} (h : b ≤ a) : subtract a b = .ok (a - b) := if_pos h

/-- The quotient of unsigned numbers. -/
def divide (a b : ℕ) : Except Fault ℕ := if b = 0 then .error .divisionByZero else .ok (a / b)

theorem divide_of_ne {b : ℕ} (a : ℕ) (h : b ≠ 0) : divide a b = .ok (a / b) := if_neg h

/-- The quotient of signed numbers, which is rounded towards zero. -/
def quotient (low high a b : ℤ) : Except Fault ℤ :=
  if b = 0 then .error .divisionByZero else within low high (a.tdiv b)

theorem quotient_of_mem {low high a b : ℤ} (hb : b ≠ 0) (hlow : low ≤ a.tdiv b)
    (hhigh : a.tdiv b ≤ high) : quotient low high a b = .ok (a.tdiv b) := by
  rw [quotient, if_neg hb, within_of_mem hlow hhigh]

/-- The sum of a list of unsigned numbers, onto a sum so far. -/
def total (high : ℕ) : ℕ → List ℕ → Except Fault ℕ
  | sum, [] => .ok sum
  | sum, n :: rest => if sum + n ≤ high then total high (sum + n) rest else .error .overflow

theorem total_of_le {high sum : ℕ} {numbers : List ℕ} (h : sum + numbers.sum ≤ high) :
    total high sum numbers = .ok (sum + numbers.sum) := by
  induction numbers generalizing sum with
  | nil => rfl
  | cons n rest ih =>
    rw [List.sum_cons, ← Nat.add_assoc] at h
    rw [total, if_pos (by omega), ih h, List.sum_cons, Nat.add_assoc]

theorem tdiv_of_nonpos {a : ℤ} (b : ℤ) (ha : a ≤ 0) : a.tdiv b = -(-a / b) := by
  rw [← Int.tdiv_eq_ediv_of_nonneg (by omega), Int.neg_tdiv, neg_neg]

/-- A quotient of a number that is not below the product is not below the factor. -/
theorem le_tdiv_of_mul_le {a b c : ℤ} (hb : 0 < b) (hc : c ≤ 0) (h : c * b ≤ a) : c ≤ a.tdiv b := by
  by_cases ha : 0 ≤ a
  · exact hc.trans (Int.tdiv_nonneg ha hb.le)
  · have hle : -a / b ≤ -c := by
      apply Int.ediv_le_of_le_mul hb
      rw [Int.neg_mul]
      omega
    rw [tdiv_of_nonpos b (by omega)]
    omega

theorem tdiv_le_of_le {a b c : ℤ} (hb : 0 < b) (hc : 0 ≤ c) (h : a ≤ c) : a.tdiv b ≤ c := by
  by_cases ha : 0 ≤ a
  · exact (Int.tdiv_le_self b ha).trans h
  · have hnonneg : 0 ≤ -a / b := Int.ediv_nonneg (by omega) hb.le
    rw [tdiv_of_nonpos b (by omega)]
    omega

end Fluvora.Checked
