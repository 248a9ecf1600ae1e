import Mathlib

/-!
# The SRTP replay window

`ReplayWindow` and `estimateIndex` of `crates/webrtc/srtp`.  Packet indices are natural numbers; the
largest index in use has 48 bits, and the additions that the source saturates at 64 bits saturate
here too.  The window is a bitmap below the highest accepted index; `Represents` says which set of
accepted indices it stands for, and one lemma for each operation says that it stays in step.
-/

namespace Fluvora.Srtp

/-! ## Source -/

/-- The largest 64-bit number, at which additions saturate. -/
def maxU64 : ℕ := 2 ^ 64 - 1

def saturatingAdd (a b : ℕ) : ℕ := min (a + b) maxU64

/-- What the replay check can answer. -/
inductive ReplayError
  | packetTooOld
  | replayDetected
deriving DecidableEq

structure ReplayWindow where
  maximum : Option ℕ := none
  bitmap : BitVec 64 := 0
deriving DecidableEq

namespace ReplayWindow

def check (window : ReplayWindow) (index : ℕ) : Except ReplayError Unit :=
  match window.maximum with
  | none => .ok ()
  | some maximum =>
      if maximum < index then
        .ok ()
      else if 64 ≤ maximum - index then
        .error .packetTooOld
      else if window.bitmap &&& (1#64 <<< (maximum - index)) ≠ 0 then
        .error .replayDetected
      else
        .ok ()

def accept (window : ReplayWindow) (index : ℕ) : ReplayWindow :=
  match window.maximum with
  | none => { maximum := some index, bitmap := 1 }
  | some maximum =>
      if maximum < index then
        { maximum := some index
          bitmap := if 64 ≤ index - maximum then 1 else window.bitmap <<< (index - maximum) ||| 1 }
      else
        { window with bitmap := window.bitmap ||| 1#64 <<< (maximum - index) }

end ReplayWindow

/-- The index closest to the highest one with the given low 16 bits. -/
def estimateIndex (highest : Option ℕ) (sequenceNumber : UInt16) : ℕ :=
  match highest with
  | none => sequenceNumber.toNat
  | some highest =>
      let candidate := highest - highest % 2 ^ 16 + sequenceNumber.toNat
      if saturatingAdd candidate (2 ^ 15) < highest then
        saturatingAdd candidate (2 ^ 16)
      else if saturatingAdd highest (2 ^ 15) < candidate ∧ 2 ^ 16 ≤ candidate then
        candidate - 2 ^ 16
      else
        candidate

/-! ## The estimate -/

theorem saturatingAdd_eq {a b : ℕ} (h : a + b < 2 ^ 64) : saturatingAdd a b = a + b := by
  unfold saturatingAdd maxU64
  omega

/-- Far below the 64-bit limit nothing saturates. -/
theorem estimateIndex_some {highest candidate : ℕ} {sequenceNumber : UInt16}
    (hcandidate : candidate = highest - highest % 2 ^ 16 + sequenceNumber.toNat)
    (hbound : highest + 2 ^ 17 < 2 ^ 64) :
    estimateIndex (some highest) sequenceNumber =
      if candidate + 2 ^ 15 < highest then candidate + 2 ^ 16
      else if highest + 2 ^ 15 < candidate ∧ 2 ^ 16 ≤ candidate then candidate - 2 ^ 16
      else candidate := by
  have hseq := sequenceNumber.toNat_lt
  rw [estimateIndex]
  simp only [← hcandidate]
  rw [saturatingAdd_eq (by omega), saturatingAdd_eq (by omega), saturatingAdd_eq (by omega)]

/-- The estimate has the sequence number as its low bits. -/
theorem estimateIndex_mod (highest : Option ℕ) (sequenceNumber : UInt16)
    (h : ∀ n, highest = some n → n + 2 ^ 17 < 2 ^ 64) :
    estimateIndex highest sequenceNumber % 2 ^ 16 = sequenceNumber.toNat := by
  have hseq := sequenceNumber.toNat_lt
  cases highest with
  | none =>
    rw [estimateIndex]
    omega
  | some n =>
    rw [estimateIndex_some rfl (h n rfl)]
    split_ifs
    · omega
    · omega
    · omega

/-- An index less than half the number space away from the highest one is estimated right. -/
theorem estimateIndex_eq {highest index : ℕ} {sequenceNumber : UInt16}
    (hseq : sequenceNumber.toNat = index % 2 ^ 16) (hlow : highest < index + 2 ^ 15)
    (hhigh : index < highest + 2 ^ 15) (hbound : highest + 2 ^ 17 < 2 ^ 64) :
    estimateIndex (some highest) sequenceNumber = index := by
  rw [estimateIndex_some rfl hbound, hseq]
  split_ifs
  · omega
  · omega
  · omega

theorem estimateIndex_none {index : ℕ} {sequenceNumber : UInt16}
    (hseq : sequenceNumber.toNat = index % 2 ^ 16) (hindex : index < 2 ^ 16) :
    estimateIndex none sequenceNumber = index := by
  rw [estimateIndex, hseq, Nat.mod_eq_of_lt hindex]

/-! ## The window as a set of indices -/

namespace ReplayWindow

/-- The window stands for a set of accepted indices: it knows their maximum and, of the 64 indices
up to it, which are accepted. -/
structure Represents (window : ReplayWindow) (accepted : Finset ℕ) : Prop where
  maximum : ∀ m, window.maximum = some m ↔ m ∈ accepted ∧ ∀ i ∈ accepted, i ≤ m
  bitmap : ∀ m, window.maximum = some m → ∀ d < 64,
    window.bitmap.getLsbD d = true ↔ ∃ i ∈ accepted, i + d = m

theorem bit_ne_zero_iff (bitmap : BitVec 64) {d : ℕ} (h : d < 64) :
    bitmap &&& (1#64 <<< d) ≠ 0 ↔ bitmap.getLsbD d = true := by
  constructor
  · intro hne
    by_contra hbit
    apply hne
    apply BitVec.eq_of_getLsbD_eq
    intro i hi
    by_cases hid : i = d
    · subst hid
      simp [hbit]
    · have hone : (1#64 <<< d).getLsbD i = false := by
        rw [BitVec.getLsbD_shiftLeft, BitVec.getLsbD_one]
        by_cases hlt : i < d
        · simp [hlt]
        · have hpos : i - d ≠ 0 := by omega
          simp [hpos]
      simp [hone]
  · intro hbit hzero
    have hd : (bitmap &&& (1#64 <<< d)).getLsbD d = true := by
      simp [hbit, h]
    rw [hzero] at hd
    simp at hd

theorem represents_empty : Represents {} ∅ := by
  refine ⟨?_, ?_⟩
  · intro m
    simp
  · intro m h
    cases h

theorem Represents.maximum_eq_none {window : ReplayWindow} {accepted : Finset ℕ}
    (h : Represents window accepted) : window.maximum = none ↔ accepted = ∅ := by
  constructor
  · intro hnone
    by_contra hne
    obtain ⟨m, hm⟩ := Finset.nonempty_iff_ne_empty.mpr hne
    have hmax := (h.maximum (accepted.max' ⟨m, hm⟩)).mpr
      ⟨accepted.max'_mem ⟨m, hm⟩, fun i hi => accepted.le_max' i hi⟩
    rw [hnone] at hmax
    cases hmax
  · rintro rfl
    cases hmax : window.maximum with
    | none => rfl
    | some m =>
      have hmem := ((h.maximum m).mp hmax).1
      simp at hmem

/-- Inside the window the check tells accepted indices from new ones. -/
theorem Represents.check_eq {window : ReplayWindow} {accepted : Finset ℕ}
    (h : Represents window accepted) {index : ℕ}
    (hwindow : ∀ m, window.maximum = some m → m < index + 64) :
    window.check index = if index ∈ accepted then .error .replayDetected else .ok () := by
  cases hmax : window.maximum with
  | none =>
    have hempty := h.maximum_eq_none.mp hmax
    simp [check, hmax, hempty]
  | some m =>
    have hm := (h.maximum m).mp hmax
    have hnear := hwindow m hmax
    simp only [check, hmax]
    by_cases hahead : m < index
    · have hnew : index ∉ accepted := fun hmem => by
        have hle := hm.2 index hmem
        omega
      rw [if_pos hahead, if_neg hnew]
    · rw [if_neg hahead, if_neg (by omega)]
      have hbit := h.bitmap m hmax (m - index) (by omega)
      have hmem : (∃ i ∈ accepted, i + (m - index) = m) ↔ index ∈ accepted := by
        constructor
        · rintro ⟨i, hi, hsum⟩
          have heq : i = index := by omega
          rwa [← heq]
        · intro hi
          exact ⟨index, hi, by omega⟩
      by_cases hin : index ∈ accepted
      · rw [if_pos ((bit_ne_zero_iff _ (by omega)).mpr (hbit.mpr (hmem.mpr hin))), if_pos hin]
      · have hclear : ¬window.bitmap &&& (1#64 <<< (m - index)) ≠ 0 := by
          rw [bit_ne_zero_iff _ (by omega), hbit, hmem]
          exact hin
        rw [if_neg hclear, if_neg hin]

/-- The first index. -/
theorem represents_first (index : ℕ) :
    Represents { maximum := some index, bitmap := 1 } {index} := by
  refine ⟨?_, ?_⟩
  · intro m
    simp only [Option.some.injEq, Finset.mem_singleton, forall_eq]
    omega
  · intro m hm d hd
    have hm : index = m := Option.some.inj hm
    subst hm
    rw [show (1 : BitVec 64) = 1#64 from rfl, BitVec.getLsbD_one]
    simp only [Finset.mem_singleton, exists_eq_left, Bool.and_eq_true, decide_eq_true_eq]
    omega

/-- An index above the maximum shifts the window. -/
theorem Represents.accept_ahead {window : ReplayWindow} {accepted : Finset ℕ} {m index : ℕ}
    (h : Represents window accepted) (hmax : window.maximum = some m) (hahead : m < index) :
    Represents (window.accept index) (insert index accepted) := by
  have hm := (h.maximum m).mp hmax
  simp only [accept, hmax, if_pos hahead]
  refine ⟨?_, ?_⟩
  · intro n
    simp only [Option.some.injEq, Finset.mem_insert]
    constructor
    · rintro rfl
      refine ⟨.inl rfl, ?_⟩
      rintro i (rfl | hi)
      · exact le_rfl
      · have hle := hm.2 i hi
        omega
    · rintro ⟨rfl | hn, hall⟩
      · rfl
      · have hle := hm.2 n hn
        have hge := hall index (.inl rfl)
        omega
  · intro n hn d hd
    have hn : index = n := Option.some.inj hn
    subst hn
    -- bit `d` of the shifted window is bit `d - (index - m)` of the old one
    have hold : ∀ i ∈ accepted, i + d = index → index - m ≤ d ∧ i + (d - (index - m)) = m := by
      intro i hi hsum
      have hle := hm.2 i hi
      omega
    by_cases hfar : 64 ≤ index - m
    · rw [if_pos hfar, show (1 : BitVec 64) = 1#64 from rfl, BitVec.getLsbD_one]
      simp only [Finset.exists_mem_insert, Bool.and_eq_true, decide_eq_true_eq]
      constructor
      · rintro ⟨-, rfl⟩
        exact .inl rfl
      · rintro (hzero | ⟨i, hi, hsum⟩)
        · omega
        · have hfit := hold i hi hsum
          omega
    · rw [if_neg hfar, BitVec.getLsbD_or, BitVec.getLsbD_shiftLeft,
        show (1 : BitVec 64) = 1#64 from rfl, BitVec.getLsbD_one]
      simp only [Finset.exists_mem_insert, Bool.or_eq_true, Bool.and_eq_true, decide_eq_true_eq,
        Bool.not_eq_true', decide_eq_false_iff_not]
      constructor
      · rintro (⟨⟨-, hge⟩, hbit⟩ | ⟨-, rfl⟩)
        · right
          obtain ⟨i, hi, hsum⟩ := (h.bitmap m hmax _ (by omega)).mp hbit
          exact ⟨i, hi, by omega⟩
        · exact .inl rfl
      · rintro (hzero | ⟨i, hi, hsum⟩)
        · right
          omega
        · left
          obtain ⟨hge, hfit⟩ := hold i hi hsum
          refine ⟨⟨hd, by omega⟩, ?_⟩
          exact (h.bitmap m hmax _ (by omega)).mpr ⟨i, hi, hfit⟩

/-- An index inside the window sets its bit. -/
theorem Represents.accept_behind {window : ReplayWindow} {accepted : Finset ℕ} {m index : ℕ}
    (h : Represents window accepted) (hmax : window.maximum = some m) (hbehind : index ≤ m)
    (hnear : m < index + 64) : Represents (window.accept index) (insert index accepted) := by
  have hm := (h.maximum m).mp hmax
  simp only [accept, hmax, if_neg (not_lt.mpr hbehind)]
  refine ⟨?_, ?_⟩
  · intro n
    simp only [Option.some.injEq, Finset.mem_insert]
    constructor
    · rintro rfl
      refine ⟨.inr hm.1, ?_⟩
      rintro i (rfl | hi)
      · exact hbehind
      · exact hm.2 i hi
    · rintro ⟨hn, hall⟩
      have hge := hall m (.inr hm.1)
      rcases hn with rfl | hn
      · omega
      · have hle := hm.2 n hn
        omega
  · intro n hn d hd
    have hn : m = n := Option.some.inj hn
    subst hn
    rw [BitVec.getLsbD_or, BitVec.getLsbD_shiftLeft, BitVec.getLsbD_one]
    simp only [Finset.exists_mem_insert, Bool.or_eq_true, Bool.and_eq_true, decide_eq_true_eq,
      Bool.not_eq_true', decide_eq_false_iff_not, h.bitmap m hmax d hd]
    constructor
    · rintro (hold | ⟨⟨-, hge⟩, -, hzero⟩)
      · exact .inr hold
      · left
        omega
    · rintro (hsum | hold)
      · right
        omega
      · exact .inl hold

/-- Recording an index inside the window or above it adds it to the set. -/
theorem Represents.accept {window : ReplayWindow} {accepted : Finset ℕ} {index : ℕ}
    (h : Represents window accepted)
    (hwindow : ∀ m, window.maximum = some m → m < index + 64) :
    Represents (window.accept index) (insert index accepted) := by
  cases hmax : window.maximum with
  | none =>
    rw [h.maximum_eq_none.mp hmax, insert_empty_eq]
    simp only [ReplayWindow.accept, hmax]
    exact represents_first index
  | some m =>
    by_cases hahead : m < index
    · exact h.accept_ahead hmax hahead
    · exact h.accept_behind hmax (not_lt.mp hahead) (hwindow m hmax)

end ReplayWindow

end Fluvora.Srtp
