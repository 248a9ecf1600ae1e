import Mathlib

/-!
# Linear feedback shift registers

A register of `w` bits that shifts to the right and adds a feedback word when a one falls out.  A step
is linear in exclusive or, and injective if the feedback word has its highest bit.  `foldl_absorb`
says that digits absorbed one after the other are one word absorbed at once, as long as the word fits
the register, so that different words lead to different registers (`foldl_absorb_injective`).
-/

namespace Fluvora.ShiftRegister

variable {w : ℕ} (feedback : BitVec w)

def step (x : BitVec w) : BitVec w := (x >>> 1) ^^^ (if x.getLsbD 0 then feedback else 0)

/-- A digit of `k` bits is added and shifted out. -/
def absorb (k : ℕ) (x digit : BitVec w) : BitVec w := (step feedback)^[k] (x ^^^ digit)

/-! ## Steps -/

theorem step_xor (x y : BitVec w) :
    step feedback (x ^^^ y) = step feedback x ^^^ step feedback y := by
  unfold step
  rw [BitVec.getLsbD_xor, BitVec.ushiftRight_xor_distrib]
  cases x.getLsbD 0 <;> cases y.getLsbD 0
  · simp
  · simp [BitVec.xor_assoc]
  · simp only [Bool.xor_false, if_true, Bool.false_eq_true, if_false]
    ac_rfl
  · have hcancel : x >>> 1 ^^^ feedback ^^^ (y >>> 1 ^^^ feedback) =
        x >>> 1 ^^^ y >>> 1 ^^^ (feedback ^^^ feedback) := by ac_rfl
    simpa using hcancel.symm

theorem iterate_step_xor (k : ℕ) (x y : BitVec w) :
    (step feedback)^[k] (x ^^^ y) = (step feedback)^[k] x ^^^ (step feedback)^[k] y := by
  induction k generalizing x y with
  | zero => rfl
  | succ k ih => rw [Function.iterate_succ_apply, step_xor, ih]; rfl

/-- The bit that falls out is the highest bit of the next register. -/
theorem msb_step (hfeedback : feedback.msb = true) (x : BitVec w) :
    (step feedback x).msb = x.getLsbD 0 := by
  unfold step
  rw [BitVec.msb_xor]
  have hshift : (x >>> 1).msb = false := by
    rw [BitVec.msb_ushiftRight]
    simp
  rw [hshift]
  cases x.getLsbD 0 <;> simp [hfeedback]

theorem step_injective (hfeedback : feedback.msb = true) : Function.Injective (step feedback) := by
  intro x y h
  have hlow : x.getLsbD 0 = y.getLsbD 0 := by
    rw [← msb_step feedback hfeedback, h, msb_step feedback hfeedback]
  have hhigh : x >>> 1 = y >>> 1 := by
    unfold step at h
    rw [hlow] at h
    exact (BitVec.xor_left_inj _).mp h
  apply BitVec.eq_of_getLsbD_eq
  intro i hi
  cases i with
  | zero => exact hlow
  | succ i =>
    have hbit := congrArg (BitVec.getLsbD · i) hhigh
    simpa [BitVec.getLsbD_ushiftRight, Nat.add_comm 1 i] using hbit

/-- As long as only zeros fall out, the register is shifted. -/
theorem iterate_step_of_low {k : ℕ} {x : BitVec w} (h : ∀ i < k, x.getLsbD i = false) :
    (step feedback)^[k] x = x >>> k := by
  induction k with
  | zero => simp
  | succ k ih =>
    rw [Function.iterate_succ_apply', ih fun i hi => h i (Nat.lt_succ_of_lt hi)]
    have hlow : (x >>> k).getLsbD 0 = false := by
      rw [BitVec.getLsbD_ushiftRight]
      exact h k (Nat.lt_succ_self k)
    unfold step
    rw [hlow, if_neg Bool.false_ne_true, BitVec.shiftRight_add]
    simp

/-! ## Words of several digits -/

/-- The word of `k`-bit digits, the first one the lowest. -/
def pack (k : ℕ) : List (BitVec w) → BitVec w
  | [] => 0
  | digit :: digits => digit ^^^ (pack k digits <<< k)

/-- Only the low `k` bits may be set. -/
def Fits (k : ℕ) (x : BitVec w) : Prop := ∀ i, k ≤ i → x.getLsbD i = false

variable {k : ℕ}

theorem fits_pack {digits : List (BitVec w)} (h : ∀ digit ∈ digits, Fits k digit) :
    Fits (k * digits.length) (pack k digits) := by
  induction digits with
  | nil => exact fun i _ => by simp [pack]
  | cons digit digits ih =>
    intro i hi
    rw [List.length_cons, Nat.mul_succ] at hi
    have hrest := ih (fun digit hmem => h digit (List.mem_cons_of_mem _ hmem)) (i - k) (by omega)
    rw [pack, BitVec.getLsbD_xor, h digit List.mem_cons_self i (by omega), BitVec.getLsbD_shiftLeft,
      hrest]
    simp

theorem getLsbD_pack_cons {digit : BitVec w} {digits : List (BitVec w)} (h : Fits k digit) {i : ℕ}
    (hi : i < w) : (pack k (digit :: digits)).getLsbD i =
      if i < k then digit.getLsbD i else (pack k digits).getLsbD (i - k) := by
  rw [pack, BitVec.getLsbD_xor, BitVec.getLsbD_shiftLeft]
  split_ifs with hlow
  · simp [hlow]
  · rw [h i (Nat.not_lt.mp hlow)]
    simp [hlow, hi]

/-- Different digits make different words. -/
theorem pack_injective {digits digits' : List (BitVec w)} (hlength : digits.length = digits'.length)
    (hwidth : k * digits.length ≤ w) (h : ∀ digit ∈ digits, Fits k digit)
    (h' : ∀ digit ∈ digits', Fits k digit) (hpack : pack k digits = pack k digits') :
    digits = digits' := by
  induction digits generalizing digits' with
  | nil => exact (List.eq_nil_of_length_eq_zero hlength.symm).symm
  | cons digit digits ih =>
    obtain _ | ⟨digit', digits'⟩ := digits'
    · cases hlength
    rw [List.length_cons, Nat.mul_succ] at hwidth
    have hfits := h digit List.mem_cons_self
    have hfits' := h' digit' List.mem_cons_self
    have hrest := fun digit hmem => h digit (List.mem_cons_of_mem _ hmem)
    have hrest' := fun digit hmem => h' digit (List.mem_cons_of_mem _ hmem)
    have hbits : ∀ i < w, (if i < k then digit.getLsbD i else (pack k digits).getLsbD (i - k)) =
        if i < k then digit'.getLsbD i else (pack k digits').getLsbD (i - k) := by
      intro i hi
      rw [← getLsbD_pack_cons hfits hi, ← getLsbD_pack_cons hfits' hi, hpack]
    have hdigit : digit = digit' := by
      apply BitVec.eq_of_getLsbD_eq
      intro i hi
      by_cases hlow : i < k
      · simpa [hlow] using hbits i hi
      · rw [hfits i (Nat.not_lt.mp hlow), hfits' i (Nat.not_lt.mp hlow)]
    have hdigits : pack k digits = pack k digits' := by
      apply BitVec.eq_of_getLsbD_eq
      intro i hi
      by_cases hinside : i + k < w
      · simpa using hbits (i + k) hinside
      · have hlength : digits'.length = digits.length := (Nat.succ.inj hlength).symm
        rw [fits_pack hrest i (by omega), fits_pack hrest' i (by rw [hlength]; omega)]
    rw [hdigit, ih (Nat.succ.inj hlength) (by omega) hrest hrest' hdigits]

/-- Digits that fit the register together are absorbed as one word. -/
theorem foldl_absorb {digits : List (BitVec w)} (hwidth : k * digits.length ≤ w)
    (h : ∀ digit ∈ digits, Fits k digit) (x : BitVec w) :
    digits.foldl (absorb feedback k) x =
      (step feedback)^[k * digits.length] (x ^^^ pack k digits) := by
  induction digits generalizing x with
  | nil => simp [pack]
  | cons digit digits ih =>
    rw [List.length_cons, Nat.mul_succ] at hwidth ⊢
    have hrest := fun digit hmem => h digit (List.mem_cons_of_mem _ hmem)
    -- the rest of the word is shifted into its place while the digit is shifted out
    have hshift : (step feedback)^[k] (pack k digits <<< k) = pack k digits := by
      rw [iterate_step_of_low feedback fun i hi => by simp [hi]]
      apply BitVec.eq_of_getLsbD_eq
      intro i hi
      rw [BitVec.getLsbD_ushiftRight, BitVec.getLsbD_shiftLeft]
      by_cases hinside : k + i < w
      · simp [hinside]
      · simp [hinside, fits_pack hrest i (by omega)]
    rw [List.foldl_cons, ih (by omega) hrest, Function.iterate_add_apply]
    congr 1
    rw [pack, absorb, ← BitVec.xor_assoc, iterate_step_xor feedback k (x ^^^ digit), hshift]

/-- From one register, different words lead to different registers. -/
theorem foldl_absorb_injective (hfeedback : feedback.msb = true) {digits digits' : List (BitVec w)}
    (hlength : digits.length = digits'.length) (hwidth : k * digits.length ≤ w)
    (h : ∀ digit ∈ digits, Fits k digit) (h' : ∀ digit ∈ digits', Fits k digit) {x : BitVec w}
    (heq : digits.foldl (absorb feedback k) x = digits'.foldl (absorb feedback k) x) :
    digits = digits' := by
  rw [foldl_absorb feedback hwidth h, foldl_absorb feedback (hlength ▸ hwidth) h', hlength] at heq
  have hword := (step_injective feedback hfeedback).iterate _ heq
  exact pack_injective hlength hwidth h h' ((BitVec.xor_right_inj _).mp hword)

end Fluvora.ShiftRegister
