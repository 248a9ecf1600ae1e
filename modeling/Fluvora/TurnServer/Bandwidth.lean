import Fluvora.TurnServer.Server
import Fluvora.Lib.Runs

/-!
# What the bandwidth limiter lets through

`BandwidthLimiter` of `crates/services/turn-server` is a token bucket in whole bytes.  It starts with
the burst, two seconds' worth, and adds what the time since its last refill is worth, rounded down; a
refill that is worth nothing leaves the clock where it is, so the part of a byte that has built up is
carried over (`carried_replenish`).

A refill inside an interval may therefore be paid in part by time in front of it.  That part is less
than a byte, and this is all by which an interval can exceed the burst and its own time's worth
(`consume_run_bounded`).
-/

namespace Fluvora.TurnServer

/-- One call of `consume`: its time in nanoseconds, and the bytes it asks for. -/
structure Consumption where
  now : ℕ
  bytes : ℕ
deriving DecidableEq

namespace BandwidthLimiter

variable (bytesPerSecond : ℕ)

def afterConsume (limiter : BandwidthLimiter) (request : Consumption) : BandwidthLimiter :=
  (limiter.consume request.now request.bytes bytesPerSecond).2

def grants (limiter : BandwidthLimiter) (request : Consumption) : Bool :=
  (limiter.consume request.now request.bytes bytesPerSecond).1

/-- The bytes that the calls of a run are granted between two times, both included. -/
def grantedWithin (start stop : ℕ) : BandwidthLimiter → List Consumption → ℕ
  | _, [] => 0
  | limiter, request :: requests =>
      (if start ≤ request.now ∧ request.now ≤ stop ∧ limiter.grants bytesPerSecond request then
        request.bytes else 0) +
      grantedWithin start stop (limiter.afterConsume bytesPerSecond request) requests

/-- What a time is worth, in billionths of a byte. -/
def worth (nanoseconds : ℕ) : ℕ := bytesPerSecond * nanoseconds

/-! ## One call -/

variable {bytesPerSecond} {limiter : BandwidthLimiter}

theorem burst_le (bytesPerSecond : ℕ) : burst bytesPerSecond ≤ 2 * bytesPerSecond := by
  rw [burst]
  omega

/-- A refill that happens is at most the time's worth, and moves the clock. -/
theorem replenish_cases (limiter : BandwidthLimiter) (now bytesPerSecond : ℕ) :
    (limiter.replenish now bytesPerSecond = limiter ∧
      worth bytesPerSecond (now - limiter.updatedAt) < 1000000000) ∨
    (limiter.updatedAt < now ∧ (limiter.replenish now bytesPerSecond).updatedAt = now ∧
      (limiter.replenish now bytesPerSecond).availableBytes ≤ burst bytesPerSecond ∧
      (limiter.replenish now bytesPerSecond).availableBytes ≤
        limiter.availableBytes + worth bytesPerSecond (now - limiter.updatedAt) / 1000000000) := by
  rw [replenish, worth]
  generalize hworth : bytesPerSecond * (now - limiter.updatedAt) = worth
  split
  next hnone =>
    left
    refine ⟨rfl, ?_⟩
    omega
  next hsome =>
    right
    have hlater : limiter.updatedAt < now := by
      by_contra hnot
      rw [Nat.sub_eq_zero_of_le (not_lt.mp hnot), Nat.mul_zero] at hworth
      omega
    have hle : min worth (2 ^ 128 - 1) / 1000000000 ≤ worth / 1000000000 :=
      Nat.div_le_div_right (Nat.min_le_left _ _)
    refine ⟨hlater, rfl, Nat.min_le_right _ _, ?_⟩
    dsimp only
    omega

/-- A second refill at the same time is worth nothing. -/
theorem replenish_replenish (limiter : BandwidthLimiter) (now bytesPerSecond : ℕ) :
    (limiter.replenish now bytesPerSecond).replenish now bytesPerSecond =
      limiter.replenish now bytesPerSecond := by
  obtain ⟨heq, -⟩ | ⟨hlater, hnow, -, -⟩ := replenish_cases limiter now bytesPerSecond
  · rw [heq, heq]
  · obtain ⟨heq, -⟩ | ⟨hlater', -⟩ :=
      replenish_cases (limiter.replenish now bytesPerSecond) now bytesPerSecond
    · exact heq
    · rw [hnow] at hlater'
      exact absurd hlater' (lt_irrefl now)

/-- The part of a byte that is carried over. -/
theorem carried_replenish (limiter : BandwidthLimiter) (now bytesPerSecond : ℕ) :
    worth bytesPerSecond (now - (limiter.replenish now bytesPerSecond).updatedAt) < 1000000000 := by
  obtain ⟨heq, hlt⟩ | ⟨-, hnow, -, -⟩ := replenish_cases limiter now bytesPerSecond
  · rwa [heq]
  · rw [hnow, worth, Nat.sub_self]
    omega

theorem availableBytes_replenish_le (h : limiter.availableBytes ≤ burst bytesPerSecond) (now : ℕ) :
    (limiter.replenish now bytesPerSecond).availableBytes ≤ burst bytesPerSecond := by
  obtain ⟨heq, -⟩ | ⟨-, -, hle, -⟩ := replenish_cases limiter now bytesPerSecond
  · rwa [heq]
  · exact hle

@[simp]
theorem updatedAt_afterConsume (request : Consumption) :
    (limiter.afterConsume bytesPerSecond request).updatedAt =
      (limiter.replenish request.now bytesPerSecond).updatedAt := by
  rw [afterConsume, consume]
  split <;> rfl

/-- A call that is granted has its bytes in the budget and takes exactly these; any other takes
nothing. -/
theorem availableBytes_afterConsume (limiter : BandwidthLimiter) (bytesPerSecond : ℕ)
    (request : Consumption) :
    (limiter.afterConsume bytesPerSecond request).availableBytes +
        (if limiter.grants bytesPerSecond request then request.bytes else 0) =
      (limiter.replenish request.now bytesPerSecond).availableBytes := by
  rw [afterConsume, grants, consume]
  split
  next => simp
  next hle =>
    dsimp only
    rw [if_pos rfl]
    omega

theorem availableBytes_afterConsume_le (limiter : BandwidthLimiter) (request : Consumption)
    (h : limiter.availableBytes ≤ burst bytesPerSecond) :
    (limiter.afterConsume bytesPerSecond request).availableBytes ≤ burst bytesPerSecond := by
  have hafter := availableBytes_afterConsume limiter bytesPerSecond request
  have hreplenish := availableBytes_replenish_le h request.now
  omega

/-! ## Runs -/

theorem grantedWithin_eq_zero (start : ℕ) {stop : ℕ} {requests : List Consumption}
    (h : ∀ request ∈ requests, stop < request.now) (limiter : BandwidthLimiter) :
    grantedWithin bytesPerSecond start stop limiter requests = 0 := by
  induction requests generalizing limiter with
  | nil => rfl
  | cons request requests ih =>
    have hlate := h request List.mem_cons_self
    rw [grantedWithin, if_neg (by omega), ih fun other hother => h other (.tail _ hother)]

theorem grantedWithin_replenish {start stop : ℕ} {request : Consumption}
    {requests : List Consumption} :
    grantedWithin bytesPerSecond start stop (limiter.replenish request.now bytesPerSecond)
        (request :: requests) =
      grantedWithin bytesPerSecond start stop limiter (request :: requests) := by
  have hconsume : (limiter.replenish request.now bytesPerSecond).consume request.now request.bytes
      bytesPerSecond = limiter.consume request.now request.bytes bytesPerSecond := by
    rw [consume, consume, replenish_replenish]
  unfold grantedWithin afterConsume grants
  rw [hconsume]

theorem worth_add_div_le (bytesPerSecond : ℕ) {first second third : ℕ} (h₁ : first ≤ second)
    (h₂ : second ≤ third) :
    worth bytesPerSecond (second - first) / 1000000000 +
        worth bytesPerSecond (third - second) / 1000000000 ≤
      worth bytesPerSecond (third - first) / 1000000000 := by
  have hsum : worth bytesPerSecond (second - first) + worth bytesPerSecond (third - second) =
      worth bytesPerSecond (third - first) := by
    rw [worth, worth, worth, ← Nat.mul_add]
    congr 1
    omega
  rw [← hsum]
  exact Nat.div_add_div_le_add_div

/-- What a run grants up to a time comes from the budget and from the time since the last refill. -/
theorem grantedWithin_le (bytesPerSecond start stop : ℕ) {requests : List Consumption}
    (hordered : requests.Pairwise fun earlier later => earlier.now ≤ later.now)
    (limiter : BandwidthLimiter) :
    grantedWithin bytesPerSecond start stop limiter requests ≤
      limiter.availableBytes + worth bytesPerSecond (stop - limiter.updatedAt) / 1000000000 := by
  induction requests generalizing limiter with
  | nil => exact Nat.zero_le _
  | cons request requests ih =>
    obtain ⟨hhead, htail⟩ := List.pairwise_cons.mp hordered
    by_cases hstop : request.now ≤ stop
    · have hrest := ih htail (limiter.afterConsume bytesPerSecond request)
      have hafter := availableBytes_afterConsume limiter bytesPerSecond request
      rw [updatedAt_afterConsume] at hrest
      have hbudget : (limiter.replenish request.now bytesPerSecond).availableBytes +
            worth bytesPerSecond (stop - (limiter.replenish request.now bytesPerSecond).updatedAt) /
              1000000000 ≤
          limiter.availableBytes + worth bytesPerSecond (stop - limiter.updatedAt) / 1000000000 := by
        obtain ⟨heq, -⟩ | ⟨hlater, hnow, -, hle⟩ :=
          replenish_cases limiter request.now bytesPerSecond
        · rw [heq]
        · have hworth := worth_add_div_le bytesPerSecond hlater.le hstop
          rw [hnow]
          omega
      have hgranted : (if start ≤ request.now ∧ request.now ≤ stop ∧
            limiter.grants bytesPerSecond request then request.bytes else 0) ≤
          if limiter.grants bytesPerSecond request then request.bytes else 0 := by
        split
        next hwithin => rw [if_pos hwithin.2.2]
        next => exact Nat.zero_le _
      rw [grantedWithin]
      omega
    · have hlate (other : Consumption) (hother : other ∈ request :: requests) :
          stop < other.now := by
        obtain rfl | hother := List.mem_cons.mp hother
        · omega
        · have hlater := hhead other hother
          omega
      rw [grantedWithin_eq_zero start hlate]
      exact Nat.zero_le _

/-- From any state within the burst, an interval is granted the burst, and its own time's worth
rounded up. -/
theorem grantedWithin_le_of_within_burst (start stop : ℕ) {requests : List Consumption}
    (hordered : requests.Pairwise fun earlier later => earlier.now ≤ later.now)
    (hburst : limiter.availableBytes ≤ burst bytesPerSecond) :
    grantedWithin bytesPerSecond start stop limiter requests ≤
      burst bytesPerSecond + (worth bytesPerSecond (stop - start) + 999999999) / 1000000000 := by
  induction requests generalizing limiter with
  | nil => exact Nat.zero_le _
  | cons request requests ih =>
    obtain ⟨hhead, htail⟩ := List.pairwise_cons.mp hordered
    by_cases hstart : start ≤ request.now
    · -- from the first call of the interval, only the time since the last refill may lie in front
      have hfirst := grantedWithin_le bytesPerSecond start stop hordered
        (limiter.replenish request.now bytesPerSecond)
      rw [grantedWithin_replenish] at hfirst
      have hbudget := availableBytes_replenish_le hburst request.now
      have hcarried := carried_replenish limiter request.now bytesPerSecond
      generalize (limiter.replenish request.now bytesPerSecond).updatedAt = updatedAt at *
      have hworth : worth bytesPerSecond (stop - updatedAt) ≤
          worth bytesPerSecond (stop - start) + worth bytesPerSecond (request.now - updatedAt) := by
        rw [worth, worth, worth, ← Nat.mul_add]
        exact Nat.mul_le_mul_left _ (by omega)
      omega
    · rw [grantedWithin, if_neg (by omega), Nat.zero_add]
      exact ih htail (availableBytes_afterConsume_le limiter request hburst)

/-- The budget of a limiter never exceeds two seconds' worth, a call that is granted finds its bytes
in it, and the calls of an interval are granted at most two seconds' worth and the interval's own
worth, rounded up to whole bytes. -/
theorem consume_run_bounded (bytesPerSecond created : ℕ) (requests : List Consumption)
    (hordered : requests.Pairwise fun earlier later => earlier.now ≤ later.now) :
    Runs.Always (afterConsume bytesPerSecond)
        (fun limiter => limiter.availableBytes ≤ 2 * bytesPerSecond) (new bytesPerSecond created)
        requests ∧
      Runs.Each (afterConsume bytesPerSecond)
        (fun limiter request => limiter.grants bytesPerSecond request = true →
          request.bytes ≤ (limiter.replenish request.now bytesPerSecond).availableBytes ∧
            (limiter.afterConsume bytesPerSecond request).availableBytes + request.bytes =
              (limiter.replenish request.now bytesPerSecond).availableBytes)
        (new bytesPerSecond created) requests ∧
      ∀ start stop, grantedWithin bytesPerSecond start stop (new bytesPerSecond created) requests ≤
        2 * bytesPerSecond + (bytesPerSecond * (stop - start) + 999999999) / 1000000000 := by
  have hnew : (new bytesPerSecond created).availableBytes ≤ burst bytesPerSecond := le_rfl
  have hburst : Runs.Always (afterConsume bytesPerSecond)
      (fun limiter => limiter.availableBytes ≤ burst bytesPerSecond) (new bytesPerSecond created)
      requests :=
    Runs.always_of_step availableBytes_afterConsume_le hnew requests
  refine ⟨hburst.imp fun limiter h => h.trans (burst_le bytesPerSecond), ?_, fun start stop => ?_⟩
  · have hany : Runs.Each (afterConsume bytesPerSecond) (fun _ _ => True)
        (new bytesPerSecond created) requests :=
      @Runs.each_of_forall _ _ _ (fun _ => True) _ (fun _ _ => trivial) _
    refine hany.imp fun limiter request _ hgrants => ?_
    have hafter := availableBytes_afterConsume limiter bytesPerSecond request
    rw [if_pos hgrants] at hafter
    exact ⟨by omega, hafter⟩
  · have hle := grantedWithin_le_of_within_burst start stop hordered hnew
    have hdouble := burst_le bytesPerSecond
    rw [worth] at hle
    omega

/-- Two requests at the same time. -/
theorem consume_run_bounded_sample :
    Runs.Always (afterConsume 65000) (fun limiter => limiter.availableBytes ≤ 2 * 65000)
        (new 65000 0) [⟨0, 65000⟩, ⟨1000000000, 65000⟩] ∧
      Runs.Each (afterConsume 65000)
        (fun limiter request => limiter.grants 65000 request = true →
          request.bytes ≤ (limiter.replenish request.now 65000).availableBytes ∧
            (limiter.afterConsume 65000 request).availableBytes + request.bytes =
              (limiter.replenish request.now 65000).availableBytes)
        (new 65000 0) [⟨0, 65000⟩, ⟨1000000000, 65000⟩] ∧
      ∀ start stop,
        grantedWithin 65000 start stop (new 65000 0) [⟨0, 65000⟩, ⟨1000000000, 65000⟩] ≤
          2 * 65000 + (65000 * (stop - start) + 999999999) / 1000000000 :=
  consume_run_bounded 65000 0 _ (by decide)

/-- With one byte in a second, a tenth of a second is granted three bytes: the refill at its end is
paid by the nine tenths in front of it. -/
theorem grantedWithin_exceeds_budget :
    ¬ grantedWithin 1 900000000 1000000000 (new 1 0) [⟨900000000, 2⟩, ⟨1000000000, 1⟩] *
        1000000000 ≤
      2 * 1 * 1000000000 + 1 * (1000000000 - 900000000) := by
  decide

end BandwidthLimiter

end Fluvora.TurnServer
