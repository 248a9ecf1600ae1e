import Fluvora.Srtp.Replay

/-!
# Sequence numbers and timestamps without wraparound

`SequenceNumberExtender` and `TimestampExtender` of `crates/webrtc/rtp`.  Both take a number that
wraps for the one nearest to the highest so far; so does `estimate_index` of `crates/webrtc/srtp`.  A
stream whose numbers stay within half the modulus of the highest one before is recovered from the low
bits, if it starts below the modulus.
-/

namespace Fluvora.Rtp

open Srtp (saturatingAdd estimateIndex)

def extendWrapping (highest value modulus : ℕ) : ℕ :=
  let half := modulus / 2
  let candidate := highest - highest % modulus + value
  if saturatingAdd candidate half < highest then
    saturatingAdd candidate modulus
  else if saturatingAdd highest half < candidate ∧ modulus ≤ candidate then
    candidate - modulus
  else
    candidate

/-- The extended value, and the highest one from then on. -/
def extendFrom (modulus : ℕ) (highest : Option ℕ) (value : ℕ) : ℕ × Option ℕ :=
  let extended := highest.elim value fun highest => extendWrapping highest value modulus
  (extended, if highest.all (· < extended) then some extended else highest)

structure SequenceNumberExtender where
  highest : Option ℕ := none
deriving DecidableEq

structure TimestampExtender where
  highest : Option ℕ := none
deriving DecidableEq

def SequenceNumberExtender.extend (extender : SequenceNumberExtender) (value : UInt16) :
    ℕ × SequenceNumberExtender :=
  let (extended, highest) := extendFrom (2 ^ 16) extender.highest value.toNat
  (extended, ⟨highest⟩)

def TimestampExtender.extend (extender : TimestampExtender) (value : UInt32) :
    ℕ × TimestampExtender :=
  let (extended, highest) := extendFrom (2 ^ 32) extender.highest value.toNat
  (extended, ⟨highest⟩)

/-- The calls of `extend` for one value after the other. -/
def SequenceNumberExtender.extendAll :
    SequenceNumberExtender → List UInt16 → List ℕ × SequenceNumberExtender
  | extender, [] => ([], extender)
  | extender, value :: values =>
      let (extended, extender) := extender.extend value
      let (more, extender) := extender.extendAll values
      (extended :: more, extender)

def TimestampExtender.extendAll : TimestampExtender → List UInt32 → List ℕ × TimestampExtender
  | extender, [] => ([], extender)
  | extender, value :: values =>
      let (extended, extender) := extender.extend value
      let (more, extender) := extender.extendAll values
      (extended :: more, extender)

/-! ## One number -/

theorem saturatingAdd_lt_iff {a b c : ℕ} (hc : c < 2 ^ 64) : saturatingAdd a b < c ↔ a + b < c := by
  unfold saturatingAdd Srtp.maxU64
  omega

/-- The sum of the source does not overflow: the low bits of a cycle are free. -/
theorem cycle_add_lt {highest value modulus : ℕ} (hdvd : modulus ∣ 2 ^ 64)
    (hhighest : highest < 2 ^ 64) (hvalue : value < modulus) :
    highest - highest % modulus + value < 2 ^ 64 := by
  obtain ⟨cycles, hcycles⟩ := hdvd
  have hbase : highest - highest % modulus = modulus * (highest / modulus) :=
    Nat.sub_eq_of_eq_add (Nat.div_add_mod highest modulus).symm
  have hlt : highest / modulus < cycles := by
    rw [hcycles] at hhighest
    exact Nat.div_lt_of_lt_mul hhighest
  have hnext : modulus * (highest / modulus + 1) ≤ modulus * cycles := Nat.mul_le_mul_left _ hlt
  rw [Nat.mul_add, Nat.mul_one, ← hcycles] at hnext
  rw [hbase]
  omega

/-- Numbers less than half the modulus apart are at most one cycle apart. -/
theorem cycle_eq {highest index modulus : ℕ} (hlow : highest < index + modulus / 2)
    (hhigh : index < highest + modulus / 2) :
    modulus * (index / modulus) = modulus * (highest / modulus) ∨
      modulus * (index / modulus) = modulus * (highest / modulus) + modulus ∨
      modulus * (index / modulus) + modulus = modulus * (highest / modulus) := by
  have hpositive : 0 < modulus := by
    rcases Nat.eq_zero_or_pos modulus with rfl | h
    · omega
    · exact h
  have hindex := Nat.div_add_mod index modulus
  have hhighest := Nat.div_add_mod highest modulus
  have hmod := Nat.mod_lt index hpositive
  have hmod' := Nat.mod_lt highest hpositive
  have hmore : ∀ p q : ℕ, p + 2 ≤ q → modulus * p + 2 * modulus ≤ modulus * q := by
    intro p q h
    calc modulus * p + 2 * modulus = modulus * (p + 2) := by ring
      _ ≤ modulus * q := Nat.mul_le_mul_left _ h
  rcases Nat.lt_trichotomy (index / modulus) (highest / modulus) with hlt | heq | hgt
  · right; right
    have hone : index / modulus + 1 = highest / modulus := by
      by_contra hne
      have := hmore _ _ (show index / modulus + 2 ≤ highest / modulus by omega)
      omega
    rw [← hone, Nat.mul_add, Nat.mul_one]
  · left
    rw [heq]
  · right; left
    have hone : index / modulus = highest / modulus + 1 := by
      by_contra hne
      have := hmore _ _ (show highest / modulus + 2 ≤ index / modulus by omega)
      omega
    rw [hone, Nat.mul_add, Nat.mul_one]

/-- A number near the highest one is recovered from its low bits. -/
theorem extendWrapping_eq {highest index modulus : ℕ} (hdvd : modulus ∣ 2 ^ 64)
    (hhighest : highest < 2 ^ 64) (hindex : index < 2 ^ 64)
    (hlow : highest < index + modulus / 2) (hhigh : index < highest + modulus / 2) :
    extendWrapping highest (index % modulus) modulus = index := by
  have hpositive : 0 < modulus := Nat.pos_of_dvd_of_pos hdvd (by decide)
  have hbase : highest - highest % modulus = modulus * (highest / modulus) :=
    Nat.sub_eq_of_eq_add (Nat.div_add_mod highest modulus).symm
  have hcandidate := cycle_add_lt hdvd hhighest (Nat.mod_lt index hpositive)
  have hsplit := Nat.div_add_mod index modulus
  have hmod := Nat.mod_lt index hpositive
  unfold extendWrapping
  simp only [saturatingAdd_lt_iff hhighest, saturatingAdd_lt_iff hcandidate]
  rw [hbase] at hcandidate ⊢
  rcases cycle_eq hlow hhigh with heq | hnext | hprevious
  · rw [if_neg (by omega), if_neg (by omega)]
    omega
  · rw [if_pos (by omega), Srtp.saturatingAdd_eq (by omega)]
    omega
  · rw [if_neg (by omega), if_pos (by omega)]
    omega

/-- The estimate of the SRTP receiver is the same function. -/
theorem extend_eq_estimateIndex (extender : SequenceNumberExtender) (value : UInt16) :
    (extender.extend value).1 = estimateIndex extender.highest value := by
  obtain ⟨highest⟩ := extender
  cases highest <;> rfl

/-! ## Streams -/

/-- Each number of a stream differs from the highest one before it by less than a half. -/
def Steady (half : ℕ) : Option ℕ → List UInt64 → Prop
  | _, [] => True
  | highest, index :: indices =>
      (∀ n ∈ highest, n < index.toNat + half ∧ index.toNat < n + half) ∧
        Steady half (some (max (highest.getD 0) index.toNat)) indices

instance Steady.decidable (half : ℕ) :
    ∀ (highest : Option ℕ) (indices : List UInt64), Decidable (Steady half highest indices)
  | _, [] => inferInstanceAs (Decidable True)
  | highest, index :: indices =>
      have := Steady.decidable half (some (max (highest.getD 0) index.toNat)) indices
      inferInstanceAs (Decidable (_ ∧ _))

/-- The numbers of a stream, and the highest of them. -/
def extendAllFrom (modulus : ℕ) : Option ℕ → List ℕ → List ℕ × Option ℕ
  | highest, [] => ([], highest)
  | highest, value :: values =>
      let (extended, highest) := extendFrom modulus highest value
      let (more, highest) := extendAllFrom modulus highest values
      (extended :: more, highest)

theorem SequenceNumberExtender.extendAll_eq (extender : SequenceNumberExtender)
    (values : List UInt16) :
    extender.extendAll values =
      ((extendAllFrom (2 ^ 16) extender.highest (values.map UInt16.toNat)).1,
        ⟨(extendAllFrom (2 ^ 16) extender.highest (values.map UInt16.toNat)).2⟩) := by
  induction values generalizing extender with
  | nil => rfl
  | cons value values ih =>
    rw [extendAll]
    dsimp only
    rw [ih]
    rfl

theorem TimestampExtender.extendAll_eq (extender : TimestampExtender) (values : List UInt32) :
    extender.extendAll values =
      ((extendAllFrom (2 ^ 32) extender.highest (values.map UInt32.toNat)).1,
        ⟨(extendAllFrom (2 ^ 32) extender.highest (values.map UInt32.toNat)).2⟩) := by
  induction values generalizing extender with
  | nil => rfl
  | cons value values ih =>
    rw [extendAll]
    dsimp only
    rw [ih]
    rfl

section

variable {modulus : ℕ} (hdvd : modulus ∣ 2 ^ 64)
include hdvd

/-- One number of a steady stream. -/
theorem extendFrom_eq {highest : Option ℕ} {index : UInt64} (hhighest : ∀ n ∈ highest, n < 2 ^ 64)
    (hfirst : highest = none → index.toNat < modulus)
    (hnear : ∀ n ∈ highest, n < index.toNat + modulus / 2 ∧ index.toNat < n + modulus / 2) :
    extendFrom modulus highest (index.toNat % modulus) =
      (index.toNat, some (max (highest.getD 0) index.toNat)) := by
  cases highest with
  | none =>
    rw [Nat.mod_eq_of_lt (hfirst rfl)]
    simp [extendFrom]
  | some n =>
    obtain ⟨hlow, hhigh⟩ := hnear n rfl
    have heq := extendWrapping_eq hdvd (hhighest n rfl) index.toNat_lt hlow hhigh
    unfold extendFrom
    simp only [Option.elim_some, heq, Option.all_some, decide_eq_true_eq, Option.getD_some,
      Prod.mk.injEq, true_and]
    split_ifs with hlt
    · rw [max_eq_right hlt.le]
    · rw [max_eq_left (not_lt.mp hlt)]

/-- A steady stream is recovered, and the highest of its numbers is known. -/
theorem extendAllFrom_eq {highest : Option ℕ} {indices : List UInt64}
    (hhighest : ∀ n ∈ highest, n < 2 ^ 64)
    (hfirst : highest = none → ∀ first ∈ indices.head?, first.toNat < modulus)
    (hsteady : Steady (modulus / 2) highest indices) :
    extendAllFrom modulus highest (indices.map fun index => index.toNat % modulus) =
      (indices.map UInt64.toNat, (highest.toList ++ indices.map UInt64.toNat).max?) := by
  induction indices generalizing highest with
  | nil => cases highest <;> rfl
  | cons index indices ih =>
    have hmax : ∀ n ∈ some (max (highest.getD 0) index.toNat), n < 2 ^ 64 := by
      rintro _ ⟨⟩
      refine max_lt ?_ index.toNat_lt
      cases highest with
      | none => decide
      | some n => exact hhighest n rfl
    have hrest : ((some (max (highest.getD 0) index.toNat)).toList ++ indices.map UInt64.toNat).max? =
        (highest.toList ++ index.toNat :: indices.map UInt64.toNat).max? := by
      cases highest with
      | none => simp
      | some n =>
        show (max n index.toNat :: indices.map UInt64.toNat).max? =
          (n :: index.toNat :: indices.map UInt64.toNat).max?
        rw [List.max?_cons', List.max?_cons', List.foldl_cons]
    rw [List.map_cons, extendAllFrom,
      extendFrom_eq hdvd hhighest (fun hnone => hfirst hnone index rfl) hsteady.1]
    dsimp only
    rw [ih hmax nofun hsteady.2, hrest]
    rfl

end

/-- Indices and timestamps near the highest one are recovered by the SRTP receiver and by the
extenders, over streams of any length that start below the modulus; and the two ways of recovering a
sequence number are the same. -/
theorem streams_recovered :
    (∀ highest index : UInt64, highest.toNat < index.toNat + 2 ^ 15 →
      index.toNat < highest.toNat + 2 ^ 15 →
        estimateIndex (some highest.toNat) index.toUInt16 = index.toNat) ∧
    (∀ indices : List UInt64, Steady (2 ^ 15) none indices →
      (∀ first ∈ indices.head?, first.toNat < 2 ^ 16) →
        SequenceNumberExtender.extendAll {} (indices.map UInt64.toUInt16) =
          (indices.map UInt64.toNat, ⟨(indices.map UInt64.toNat).max?⟩)) ∧
    (∀ indices : List UInt64, Steady (2 ^ 31) none indices →
      (∀ first ∈ indices.head?, first.toNat < 2 ^ 32) →
        TimestampExtender.extendAll {} (indices.map UInt64.toUInt32) =
          (indices.map UInt64.toNat, ⟨(indices.map UInt64.toNat).max?⟩)) ∧
    ∀ (extender : SequenceNumberExtender) (value : UInt16),
      (extender.extend value).1 = estimateIndex extender.highest value := by
  refine ⟨fun highest index hlow hhigh => ?_, fun indices hsteady hfirst => ?_,
    fun indices hsteady hfirst => ?_, extend_eq_estimateIndex⟩
  · have hextend := @extendWrapping_eq _ _ (2 ^ 16) ⟨2 ^ 48, by decide⟩ highest.toNat_lt
      index.toNat_lt hlow hhigh
    rw [← hextend]
    show _ = extendWrapping _ (index.toNat % 2 ^ 16) _
    rw [← UInt64.toNat_toUInt16]
    rfl
  · rw [SequenceNumberExtender.extendAll_eq, List.map_map]
    have h := @extendAllFrom_eq (2 ^ 16) ⟨2 ^ 48, by decide⟩ none indices nofun (fun _ => hfirst)
      hsteady
    have hvalues : indices.map (UInt16.toNat ∘ UInt64.toUInt16) =
        indices.map fun index => index.toNat % 2 ^ 16 :=
      List.map_congr_left fun index _ => UInt64.toNat_toUInt16 index
    rw [hvalues, h]
    rfl
  · rw [TimestampExtender.extendAll_eq, List.map_map]
    have h := @extendAllFrom_eq (2 ^ 32) ⟨2 ^ 32, by decide⟩ none indices nofun (fun _ => hfirst)
      hsteady
    have hvalues : indices.map (UInt32.toNat ∘ UInt64.toUInt32) =
        indices.map fun index => index.toNat % 2 ^ 32 :=
      List.map_congr_left fun index _ => UInt64.toNat_toUInt32 index
    rw [hvalues, h]
    rfl

/-- What starts above the modulus is recovered without its first cycles. -/
theorem first_cycle_lost :
    Steady (2 ^ 15) none [65536] ∧
      SequenceNumberExtender.extendAll {} ([65536].map UInt64.toUInt16) = ([0], ⟨some 0⟩) := by
  decide

end Fluvora.Rtp
