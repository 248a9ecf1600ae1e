import Mathlib

/-!
# Serial numbers

32-bit sequence numbers that wrap around are compared by their distance from a base,
`(a - base).toNat`.  The lemmas move the base and translate between a number and its distance, so
that ordering arguments become linear arithmetic over the naturals.
-/

namespace Fluvora.Serial

/-- The number at distance `n` from the base. -/
theorem toNat_add_ofNat_sub (base : UInt32) {n : ℕ} (h : n < 2 ^ 32) :
    (base + UInt32.ofNat n - base).toNat = n := by
  rw [UInt32.toNat_sub, UInt32.toNat_add, UInt32.toNat_ofNat']
  have := base.toNat_lt
  omega

/-- Every number is at its distance from the base. -/
theorem add_ofNat_toNat_sub (base a : UInt32) : base + UInt32.ofNat (a - base).toNat = a := by
  rw [UInt32.ofNat_toNat]
  grind

/-- The number after the base is the only one at distance one. -/
theorem eq_add_one {base a : UInt32} (h : (a - base).toNat = 1) : a = base + 1 := by
  rw [← add_ofNat_toNat_sub base a, h]
  rfl

/-- Moving the base forward, not past the number, shortens the distance. -/
theorem toNat_sub_add_ofNat {base a : UInt32} {n : ℕ} (h : n ≤ (a - base).toNat) :
    (a - (base + UInt32.ofNat n)).toNat = (a - base).toNat - n := by
  rw [UInt32.toNat_sub] at h ⊢
  rw [UInt32.toNat_sub, UInt32.toNat_add, UInt32.toNat_ofNat']
  have := base.toNat_lt
  have := a.toNat_lt
  omega

/-- Moving the base past the number wraps the distance around. -/
theorem toNat_sub_add_ofNat_of_lt {base a : UInt32} {n : ℕ} (h : (a - base).toNat < n)
    (hn : n < 2 ^ 32) :
    (a - (base + UInt32.ofNat n)).toNat = 2 ^ 32 + (a - base).toNat - n := by
  rw [UInt32.toNat_sub] at h ⊢
  rw [UInt32.toNat_sub, UInt32.toNat_add, UInt32.toNat_ofNat']
  have := base.toNat_lt
  have := a.toNat_lt
  omega

/-- The distance is one-to-one. -/
theorem toNat_sub_inj {base a b : UInt32} : (a - base).toNat = (b - base).toNat ↔ a = b := by
  constructor
  · intro h
    rw [← add_ofNat_toNat_sub base a, h, add_ofNat_toNat_sub]
  · rintro rfl
    rfl

/-- The distances of two numbers from a base give the distance between them. -/
theorem toNat_sub_eq {base a b : UInt32} (h : (a - base).toNat ≤ (b - base).toNat) :
    (b - a).toNat = (b - base).toNat - (a - base).toNat := by
  rw [UInt32.toNat_sub, UInt32.toNat_sub] at h
  rw [UInt32.toNat_sub, UInt32.toNat_sub, UInt32.toNat_sub]
  have := base.toNat_lt
  have := a.toNat_lt
  have := b.toNat_lt
  omega

end Fluvora.Serial
