import Fluvora.TurnServer.Server

/-!
# The scan for a free relay port

`bind_relay_socket` of `crates/services/turn-server` tries as many candidates as the configured range
has ports, each from a 16-bit counter that all requests share.  The number of a candidate is reduced
modulo the size of the range, so a scan in which the counter passes the start of the range (where the
difference wraps) visits each port once only if the size divides 65536.

What a socket answers is a parameter, and the scan is one request's without others in between.
-/

namespace Fluvora.TurnServer

/-- What the system says when a UDP socket is bound to a port. -/
inductive BindResult
  | bound
  | addrInUse
  | failed
deriving DecidableEq

inductive BindError
  | addrNotAvailable
  | io
deriving DecidableEq

section

variable (minimum maximum : UInt16)

/-- `u16::saturating_sub` and `u16::saturating_add`. -/
def portCount : UInt16 := .ofNat (min (maximum.toNat - minimum.toNat + 1) 65535)

def candidatePort (candidate : UInt16) : UInt16 :=
  let offset := (candidate - minimum) % portCount minimum maximum
  minimum + offset

/-- The loop, with the number of candidates that are left and the shared counter. -/
def scan (bind : UInt16 → BindResult) : ℕ → UInt16 → Except BindError UInt16 × UInt16
  | 0, nextRelayPort => (.error .addrNotAvailable, nextRelayPort)
  | left + 1, nextRelayPort =>
      let port := candidatePort minimum maximum nextRelayPort
      match bind port with
      | .bound => (.ok port, nextRelayPort + 1)
      | .addrInUse => scan bind left (nextRelayPort + 1)
      | .failed => (.error .io, nextRelayPort + 1)

/-- The port that the socket is bound to, and the counter behind the scan; without a range, the
system chooses an ephemeral port. -/
def bindRelaySocket (bind : UInt16 → BindResult) (ephemeral : Except BindError UInt16)
    (nextRelayPort : UInt16) : Except BindError UInt16 × UInt16 :=
  if minimum = 0 then (ephemeral, nextRelayPort)
  else scan minimum maximum bind (portCount minimum maximum).toNat nextRelayPort

def validRelayPortRange (allocations : ℕ) : Bool :=
  if minimum = 0 || maximum = 0 then minimum = 0 && maximum = 0
  else minimum ≤ maximum && allocations ≤ (portCount minimum maximum).toNat

/-- What the ports of a range answer if some of them are busy. -/
def answer (busy : UInt16 → Bool) (port : UInt16) : BindResult :=
  if busy port then .addrInUse else .bound

/-- The ports that a scan tries as long as it finds all of them busy. -/
def tried (nextRelayPort : UInt16) : List UInt16 :=
  (List.range (portCount minimum maximum).toNat).map fun i =>
    candidatePort minimum maximum (nextRelayPort + .ofNat i)

/-- Where the counter stands in front of the scan, seen from the start of the range. -/
def distance (nextRelayPort : UInt16) : ℕ := (nextRelayPort - minimum).toNat

/-- The difference does not wrap during the scan, or the size of the range divides 65536. -/
def Aligned (nextRelayPort : UInt16) : Prop :=
  distance minimum nextRelayPort + (portCount minimum maximum).toNat ≤ 65536 ∨
    (portCount minimum maximum).toNat ∣ 65536

end

/-! ## The candidates of a scan -/

/-- A scan of ports that are free or busy finds a free one exactly if it tries one. -/
theorem scan_answer_iff {minimum maximum : UInt16} (busy : UInt16 → Bool) (left : ℕ)
    (nextRelayPort : UInt16) :
    (∃ port, (scan minimum maximum (answer busy) left nextRelayPort).1 = .ok port ∧
        busy port = false) ↔
      ∃ i < left, busy (candidatePort minimum maximum (nextRelayPort + .ofNat i)) = false := by
  induction left generalizing nextRelayPort with
  | zero =>
    constructor
    · rintro ⟨port, h, -⟩
      cases h
    · rintro ⟨i, hi, -⟩
      cases hi
  | succ left ih =>
    have hzero : nextRelayPort + UInt16.ofNat 0 = nextRelayPort := UInt16.add_zero _
    have hsucc (i : ℕ) : nextRelayPort + UInt16.ofNat (i + 1) = nextRelayPort + 1 + .ofNat i := by
      rw [UInt16.add_assoc, Nat.add_comm, UInt16.ofNat_add]
      rfl
    have hsplit (P : ℕ → Prop) : (∃ i < left + 1, P i) ↔ P 0 ∨ ∃ i < left, P (i + 1) := by
      constructor
      · rintro ⟨_ | i, hi, h⟩
        · exact .inl h
        · exact .inr ⟨i, by omega, h⟩
      · rintro (h | ⟨i, hi, h⟩)
        · exact ⟨0, by omega, h⟩
        · exact ⟨i + 1, by omega, h⟩
    rw [hsplit, hzero]
    simp only [hsucc, ← ih]
    rw [scan]
    rcases hbusy : busy (candidatePort minimum maximum nextRelayPort) with _ | _
    · simp [answer, hbusy]
    · simp [answer, hbusy]

section

variable {minimum maximum : UInt16}

theorem toNat_portCount (hzero : minimum ≠ 0) (hle : minimum ≤ maximum) :
    (portCount minimum maximum).toNat = maximum.toNat - minimum.toNat + 1 := by
  have hmaximum := maximum.toNat_lt
  have hminimum : minimum.toNat ≠ 0 := fun h => hzero (UInt16.toNat_inj.mp h)
  rw [UInt16.le_iff_toNat_le] at hle
  rw [portCount, UInt16.toNat_ofNat']
  omega

theorem toNat_candidatePort (hzero : minimum ≠ 0) (hle : minimum ≤ maximum) (nextRelayPort : UInt16)
    (i : ℕ) :
    (candidatePort minimum maximum (nextRelayPort + .ofNat i)).toNat =
      minimum.toNat +
        (distance minimum nextRelayPort + i) % 65536 % (portCount minimum maximum).toNat := by
  have hcount := toNat_portCount hzero hle
  have hmaximum := maximum.toNat_lt
  have hlt : (distance minimum nextRelayPort + i) % 65536 % (portCount minimum maximum).toNat <
      (portCount minimum maximum).toNat := Nat.mod_lt _ (by omega)
  have hdifference : (nextRelayPort + .ofNat i - minimum).toNat =
      (distance minimum nextRelayPort + i) % 65536 := by
    have hsum : nextRelayPort + .ofNat i - minimum = nextRelayPort - minimum + .ofNat i := by
      rw [UInt16.sub_eq_add_neg, UInt16.sub_eq_add_neg, UInt16.add_assoc, UInt16.add_assoc,
        UInt16.add_comm (.ofNat i)]
    rw [hsum, UInt16.toNat_add, UInt16.toNat_ofNat', distance]
    omega
  rw [UInt16.le_iff_toNat_le] at hle
  rw [candidatePort, UInt16.toNat_add, UInt16.toNat_mod, hdifference]
  omega

/-! ## Visiting every port -/

/-- The numbers that a wrapping counter gives modulo a size, counted from a start. -/
def residue (size start i : ℕ) : ℕ := (start + i) % 65536 % size

theorem residue_injOn_iff {size start : ℕ} (hsize : 0 < size) (hsmall : size < 65536)
    (hstart : start < 65536) :
    (∀ i < size, ∀ j < size, residue size start i = residue size start j → i = j) ↔
      start + size ≤ 65536 ∨ size ∣ 65536 := by
  unfold residue
  constructor
  · intro hinjective
    by_contra hnot
    rw [not_or, not_le] at hnot
    obtain ⟨hwrap, hdvd⟩ := hnot
    -- the counter wraps after `front` numbers, and begins again with the residue 0
    obtain ⟨front, hfront⟩ : ∃ front, start + front = 65536 := ⟨65536 - start, by omega⟩
    have hbehind (j : ℕ) (hj : j < size) : (start + (front + j)) % 65536 % size = j := by
      have hsum : (start + (front + j)) % 65536 = j := by omega
      rw [hsum, Nat.mod_eq_of_lt hj]
    have hbefore (i : ℕ) (hi : i < front) : (start + i) % 65536 = start + i :=
      Nat.mod_eq_of_lt (by omega)
    have hmod : start % size < size := Nat.mod_lt _ hsize
    by_cases hclose : start % size + front < size
    · -- the first number has a residue that comes again
      have hsame := hinjective 0 (by omega) (front + start % size) (by omega) (by
        rw [hbehind _ hmod, hbefore 0 (by omega), Nat.add_zero])
      omega
    · have hrest : start % size + front ≠ size := by
        intro heq
        apply hdvd
        have hdiv := Nat.div_add_mod start size
        exact ⟨start / size + 1, by rw [Nat.mul_add, Nat.mul_one]; omega⟩
      -- a number before the wrap has the residue 0 already
      have hmultiple : (start + (size - start % size)) % size = 0 := by
        have hdiv := Nat.div_add_mod start size
        have hsum : start + (size - start % size) = size * (start / size + 1) := by
          rw [Nat.mul_add, Nat.mul_one]
          omega
        rw [hsum, Nat.mul_mod_right]
      by_cases hfirst : start % size = 0
      · have hsame := hinjective 0 hsize front (by omega) (by
          have hzero := hbehind 0 hsize
          rw [Nat.add_zero] at hzero
          rw [hzero, hbefore 0 (by omega), Nat.add_zero, hfirst])
        omega
      · have hsame := hinjective (size - start % size) (by omega) front (by omega) (by
          have hzero := hbehind 0 hsize
          rw [Nat.add_zero] at hzero
          rw [hzero, hbefore _ (by omega), hmultiple])
        omega
  · have hshift (i j : ℕ) (hi : i < size) (hj : j < size)
        (heq : (start + i) % size = (start + j) % size) : i = j := by
      have hmodEq : i ≡ j [MOD size] := Nat.ModEq.add_left_cancel' start heq
      rwa [Nat.ModEq, Nat.mod_eq_of_lt hi, Nat.mod_eq_of_lt hj] at hmodEq
    rintro (hle | hdvd) i hi j hj heq
    · rw [Nat.mod_eq_of_lt (a := start + i) (by omega),
        Nat.mod_eq_of_lt (a := start + j) (by omega)] at heq
      exact hshift i j hi hj heq
    · rw [Nat.mod_mod_of_dvd _ hdvd, Nat.mod_mod_of_dvd _ hdvd] at heq
      exact hshift i j hi hj heq

/-- A scan that gives every number once also gives all of them, and the other way round. -/
theorem residue_surjOn_iff (start : ℕ) {size : ℕ} (hsize : 0 < size) :
    (∀ offset < size, ∃ i < size, residue size start i = offset) ↔
      ∀ i < size, ∀ j < size, residue size start i = residue size start j → i = j := by
  have hfinite := Finite.injective_iff_surjective (α := Fin size)
    (f := fun i => ⟨residue size start i, Nat.mod_lt _ hsize⟩)
  constructor
  · intro hsurjective
    have hinjective := hfinite.mpr fun offset => by
      obtain ⟨i, hi, h⟩ := hsurjective offset offset.isLt
      exact ⟨⟨i, hi⟩, Fin.ext h⟩
    intro i hi j hj heq
    exact Fin.mk.inj (@hinjective ⟨i, hi⟩ ⟨j, hj⟩ (Fin.ext heq))
  · intro hinjective offset hoffset
    have hsurjective := hfinite.mp fun i j heq =>
      Fin.ext (hinjective i i.isLt j j.isLt (congrArg Fin.val heq))
    obtain ⟨i, hi⟩ := hsurjective ⟨offset, hoffset⟩
    exact ⟨i, i.isLt, congrArg Fin.val hi⟩

theorem mem_tried_iff {minimum maximum nextRelayPort port : UInt16} :
    port ∈ tried minimum maximum nextRelayPort ↔
      ∃ i < (portCount minimum maximum).toNat,
        candidatePort minimum maximum (nextRelayPort + .ofNat i) = port := by
  simp [tried]

/-- A free port of the range is found, whichever ports are busy, only if the scan tries all of
them: else the ones that it tries are the busy ones. -/
theorem scan_finds_free_iff {minimum maximum nextRelayPort : UInt16} :
    (∀ busy : UInt16 → Bool,
        (∃ port, minimum ≤ port ∧ port ≤ maximum ∧ busy port = false) →
          ∃ port, (scan minimum maximum (answer busy) (portCount minimum maximum).toNat
            nextRelayPort).1 = .ok port ∧ busy port = false) ↔
      ∀ port, minimum ≤ port → port ≤ maximum → port ∈ tried minimum maximum nextRelayPort := by
  constructor
  · intro h port hfirst hlast
    obtain ⟨i, hi, hfree⟩ := (scan_answer_iff _ _ _).mp
      (h (fun other => other != port) ⟨port, hfirst, hlast, by simp⟩)
    exact mem_tried_iff.mpr ⟨i, hi, by simpa using hfree⟩
  · rintro h busy ⟨port, hfirst, hlast, hfree⟩
    obtain ⟨i, hi, heq⟩ := mem_tried_iff.mp (h port hfirst hlast)
    exact (scan_answer_iff busy _ _).mpr ⟨i, hi, by rw [heq, hfree]⟩

variable (hzero : minimum ≠ 0) (hle : minimum ≤ maximum) (nextRelayPort : UInt16)

include hzero hle

theorem candidatePort_eq_iff (port : UInt16) (hminimum : minimum ≤ port) (i : ℕ) :
    candidatePort minimum maximum (nextRelayPort + .ofNat i) = port ↔
      residue (portCount minimum maximum).toNat (distance minimum nextRelayPort) i =
        port.toNat - minimum.toNat := by
  rw [UInt16.le_iff_toNat_le] at hminimum
  rw [← UInt16.toNat_inj, toNat_candidatePort hzero hle, residue]
  omega

theorem candidatePort_mem_range (i : ℕ) :
    minimum ≤ candidatePort minimum maximum (nextRelayPort + .ofNat i) ∧
      candidatePort minimum maximum (nextRelayPort + .ofNat i) ≤ maximum := by
  have hcount := toNat_portCount hzero hle
  have hlt := Nat.mod_lt ((distance minimum nextRelayPort + i) % 65536)
    (y := (portCount minimum maximum).toNat) (by omega)
  rw [UInt16.le_iff_toNat_le] at hle
  rw [UInt16.le_iff_toNat_le, UInt16.le_iff_toNat_le, toNat_candidatePort hzero hle]
  omega

theorem tried_nodup_iff :
    (tried minimum maximum nextRelayPort).Nodup ↔ Aligned minimum maximum nextRelayPort := by
  have hcount := toNat_portCount hzero hle
  have hsmall := (portCount minimum maximum).toNat_lt
  have hsame (i j : ℕ) :
      candidatePort minimum maximum (nextRelayPort + .ofNat i) =
          candidatePort minimum maximum (nextRelayPort + .ofNat j) ↔
        residue (portCount minimum maximum).toNat (distance minimum nextRelayPort) i =
          residue (portCount minimum maximum).toNat (distance minimum nextRelayPort) j := by
    rw [← UInt16.toNat_inj, toNat_candidatePort hzero hle, toNat_candidatePort hzero hle, residue,
      residue]
    omega
  rw [tried, List.nodup_map_iff_inj_on List.nodup_range]
  simp only [hsame, List.mem_range]
  exact residue_injOn_iff (by omega) hsmall (UInt16.toNat_lt _)

theorem tried_covers_iff :
    (∀ port, minimum ≤ port → port ≤ maximum → port ∈ tried minimum maximum nextRelayPort) ↔
      Aligned minimum maximum nextRelayPort := by
  have hcount := toNat_portCount hzero hle
  have hsmall := (portCount minimum maximum).toNat_lt
  have hmaximum := maximum.toNat_lt
  have hle' := UInt16.le_iff_toNat_le.mp hle
  have hpositive : 0 < (portCount minimum maximum).toNat := by omega
  have hcovers := (residue_surjOn_iff (distance minimum nextRelayPort) hpositive).trans
    (residue_injOn_iff hpositive hsmall (UInt16.toNat_lt _))
  rw [Aligned, ← hcovers]
  constructor
  · intro h offset hoffset
    -- the port with this offset
    have hport : (minimum + .ofNat offset).toNat = minimum.toNat + offset := by
      rw [UInt16.toNat_add, UInt16.toNat_ofNat']
      omega
    have hfirst : minimum ≤ minimum + .ofNat offset := by
      rw [UInt16.le_iff_toNat_le]
      omega
    have hlast : minimum + .ofNat offset ≤ maximum := by
      rw [UInt16.le_iff_toNat_le]
      omega
    obtain ⟨i, hi, heq⟩ := mem_tried_iff.mp (h _ hfirst hlast)
    rw [candidatePort_eq_iff hzero hle nextRelayPort _ hfirst, hport] at heq
    exact ⟨i, hi, by omega⟩
  · intro h port hfirst hlast
    have hfirst' := UInt16.le_iff_toNat_le.mp hfirst
    have hlast' := UInt16.le_iff_toNat_le.mp hlast
    obtain ⟨i, hi, heq⟩ := h (port.toNat - minimum.toNat) (by omega)
    exact mem_tried_iff.mpr
      ⟨i, hi, (candidatePort_eq_iff hzero hle nextRelayPort port hfirst i).mpr heq⟩

end

/-- In a range that the configuration accepts, a relay socket finds a free port whenever there is
one, and tries every port once, exactly from the counters that are aligned with the range. -/
theorem bindRelaySocket_visits_range_iff (minimum maximum : UInt16) (allocations : ℕ)
    (ephemeral : Except BindError UInt16) (nextRelayPort : UInt16) (hzero : minimum ≠ 0)
    (hvalid : validRelayPortRange minimum maximum allocations = true) :
    ((∀ busy : UInt16 → Bool,
        (∃ port, minimum ≤ port ∧ port ≤ maximum ∧ busy port = false) →
          ∃ port, (bindRelaySocket minimum maximum (answer busy) ephemeral nextRelayPort).1 =
            .ok port ∧ busy port = false) ↔
      Aligned minimum maximum nextRelayPort) ∧
    (((tried minimum maximum nextRelayPort).Nodup ∧
        ∀ port, port ∈ tried minimum maximum nextRelayPort ↔ minimum ≤ port ∧ port ≤ maximum) ↔
      Aligned minimum maximum nextRelayPort) := by
  have hle : minimum ≤ maximum := by
    unfold validRelayPortRange at hvalid
    simp only [hzero, decide_false, Bool.false_or, Bool.false_and] at hvalid
    split at hvalid
    · cases hvalid
    · rw [Bool.and_eq_true, decide_eq_true_iff] at hvalid
      exact hvalid.1
  have hcovers := tried_covers_iff hzero hle nextRelayPort
  constructor
  · simp only [bindRelaySocket, if_neg hzero]
    exact scan_finds_free_iff.trans hcovers
  · rw [tried_nodup_iff hzero hle]
    constructor
    · exact fun h => h.1
    · refine fun h => ⟨h, fun port => ⟨fun hmem => ?_, fun hrange => ?_⟩⟩
      · obtain ⟨i, -, rfl⟩ := mem_tried_iff.mp hmem
        exact candidatePort_mem_range hzero hle nextRelayPort i
      · exact hcovers.mpr h port hrange.1 hrange.2

theorem bindRelaySocket_visits_range_iff_sample :
    ((∀ busy : UInt16 → Bool,
        (∃ port, (50000 : UInt16) ≤ port ∧ port ≤ 50002 ∧ busy port = false) →
          ∃ port, (bindRelaySocket 50000 50002 (answer busy) (.error .io) 50000).1 =
            .ok port ∧ busy port = false) ↔
      Aligned 50000 50002 50000) ∧
    (((tried 50000 50002 50000).Nodup ∧
        ∀ port, port ∈ tried 50000 50002 50000 ↔ (50000 : UInt16) ≤ port ∧ port ≤ 50002) ↔
      Aligned 50000 50002 50000) :=
  bindRelaySocket_visits_range_iff 50000 50002 3 (.error .io) 50000 (by decide) (by decide)

/-- From the counter 49999 the three candidates of this range are two ports, and the third one stays
out although it is free. -/
theorem bindRelaySocket_misses_free_port :
    validRelayPortRange 50000 50002 3 = true ∧
      tried 50000 50002 49999 = [50000, 50000, 50001] ∧
      (bindRelaySocket 50000 50002 (answer fun port => port != 50002) (.error .io) 49999).1 =
        .error .addrNotAvailable := by
  decide

end Fluvora.TurnServer
