import Fluvora.CongestionControl.Estimator
import Fluvora.Lib.Checked
import Fluvora.Lib.Results

/-!
# The bandwidth estimator in its own integers

The estimator with the plain operations of its 64-bit and 128-bit integers: one whose exact result is not
of its type is a fault.  The saturating operations and the divisions by literals are those of the exact
estimator, with which it agrees unless the delay trend is a fault (`processFeedback_eq`): the times of a
report and its sums stay inside their types.
-/

namespace Fluvora.CongestionControl

open Checked Results Rtcp

/-! ## The checked estimator -/

namespace Strict

open BandwidthEstimator (deltaTicks reportedNumber)

def i64 (n : ℤ) : Except Fault ℤ := within i64Min i64Max n

/-- The loop over the statuses. -/
def matchFrom (history : List SentPacket) (base : UInt16) :
    ℕ → ℤ → List TwccStatus → Except Fault (List Observation)
  | _, _, [] => .ok []
  | offset, receiveTimeTicks, status :: statuses => do
      let sent := history.reverse.find? fun packet =>
        packet.sequenceNumber = reportedNumber base offset
      let receiveTimeTicks ← (deltaTicks status).elim (.ok receiveTimeTicks) fun delta =>
        i64 (receiveTimeTicks + delta)
      match sent with
      | some sent => do
          let receivedAtMicros ← (deltaTicks status).elim (.ok none) fun _ =>
            (i64 (receiveTimeTicks * 250)).map some
          let rest ← matchFrom history base (offset + 1) receiveTimeTicks statuses
          return ⟨sent.sentAt, sent.sizeBytes, receivedAtMicros⟩ :: rest
      | none => matchFrom history base (offset + 1) receiveTimeTicks statuses

def deliveryRate (received : List (Observation × ℤ)) : Except Fault ℕ :=
  match received.head?, received.getLast? with
  | some first, some last => do
      let receiveSpan := saturated (last.2 - first.2)
      let sendSpan := sendDelta first.1 last.1
      let spanMicros := max (max receiveSpan sendSpan) 1
      let bytes ← total u128Max 0 (received.map fun entry => entry.1.sizeBytes)
      return min (min (bytes * 8000000) u128Max / spanMicros.toNat) u64Max
  | _, _ => .ok 0

def deltas : List (Observation × ℤ) → ℤ → ℤ → Except Fault (ℤ × ℤ)
  | first :: second :: received, sum, samples => do
      let receiveDelta := saturated (second.2 - first.2)
      let sum := saturated (sum + saturated (receiveDelta - sendDelta first.1 second.1))
      let samples ← i64 (samples + 1)
      deltas (second :: received) sum samples
  | _, sum, samples => .ok (sum, samples)

def delaySample (received : List (Observation × ℤ)) : Except Fault (Option ℤ) := do
  let (sum, samples) ← deltas received 0 0
  if 0 < samples then (quotient i64Min i64Max sum samples).map some else .ok none

def calculateMetrics (observations : List Observation) : Except Fault Metrics :=
  if observations.isEmpty then .ok ⟨0, 0, none⟩
  else do
    let received := receivedOf observations
    let lost ← subtract observations.length received.length
    let lossPerMille ← divide (min (lost * 1000) u64Max) observations.length
    let deliveryRateBps ← deliveryRate received
    let delaySampleMicros ← delaySample received
    return {
      deliveryRateBps
      lossPerMille := min lossPerMille 65535
      delaySampleMicros }

/-- The smoothed trend. -/
def nextTrend (delayTrendMicros sample : ℤ) : Except Fault ℤ := do
  let scaled ← i64 (delayTrendMicros * 7)
  let sum ← i64 (scaled + sample)
  quotient i64Min i64Max sum 8

def processFeedback (s : BandwidthEstimator) (now : ℕ) (feedback : TransportWideFeedback) :
    Except Fault (BandwidthEstimator × Estimate) := do
  let s := s.expireHistory now
  let observations ← matchFrom s.history feedback.baseSequenceNumber 0 0 feedback.statuses
  let metrics ← calculateMetrics observations
  let trend ← metrics.delaySampleMicros.elim (.ok s.delayTrendMicros) (nextTrend s.delayTrendMicros)
  let usage := classify metrics.lossPerMille trend
  let s := { s with delayTrendMicros := trend }.updateTarget now metrics.deliveryRateBps usage
  let s := { s with lastUpdate := some now }
  return (s, ⟨s.targetBitrateBps, metrics.deliveryRateBps, metrics.lossPerMille, trend, usage,
    observations.length⟩)

/-- A packet that is sent, or a report that comes. -/
inductive Event
  | registerSent (packet : SentPacket)
  | processFeedback (now : ℕ) (feedback : TransportWideFeedback)

/-- Why a run has no end state. -/
inductive Stop
  | fault (fault : Fault)
  | endless
deriving DecidableEq

def step (s : BandwidthEstimator) : Event → Except Stop BandwidthEstimator
  | .registerSent packet => (s.registerSent packet).elim (.error .endless) .ok
  | .processFeedback now feedback => ((processFeedback s now feedback).map Prod.fst).mapError .fault

def run (s : BandwidthEstimator) (events : List Event) : Except Stop BandwidthEstimator :=
  events.foldlM step s

def sendTimes (events : List Event) : List ℕ :=
  events.filterMap fun
    | .registerSent packet => some packet.sentAt
    | .processFeedback _ _ => none

/-- What the callers promise: packets in the order of their times, of sizes in `usize`, and reports of as
many statuses as their 16-bit count says. -/
structure Sound (events : List Event) : Prop where
  ordered : (sendTimes events).Pairwise (· ≤ ·)
  sizes : ∀ packet, .registerSent packet ∈ events → packet.sizeBytes ≤ u64Max
  counts : ∀ now feedback, .processFeedback now feedback ∈ events → feedback.statuses.length ≤ 65535

/-! ## Reports -/

theorem deltaTicks_mem (status : TwccStatus) :
    -32768 ≤ (deltaTicks status).getD 0 ∧ (deltaTicks status).getD 0 ≤ 32767 := by
  cases status with
  | notReceived => decide
  | receivedSmallDelta small =>
    have := small.toNat_lt
    simp only [deltaTicks, Option.getD_some]
    omega
  | receivedLargeDelta large => exact ⟨large.le_toInt, Int.lt_add_one_iff.mp large.toInt_lt⟩

/-- A report of this length leaves its ticks far inside their type. -/
theorem matchFrom_eq {history : List SentPacket} {base : UInt16} {statuses : List TwccStatus}
    {offset : ℕ} {ticks : ℤ} (hlow : -2 ^ 40 ≤ ticks - 32768 * statuses.length)
    (hhigh : ticks + 32768 * statuses.length ≤ 2 ^ 40) :
    matchFrom history base offset ticks statuses =
      .ok (BandwidthEstimator.matchFrom history base offset ticks statuses) := by
  induction statuses generalizing offset ticks with
  | nil => rfl
  | cons status statuses ih =>
    rw [List.length_cons] at hlow hhigh
    have hdelta := deltaTicks_mem status
    have hadd : (deltaTicks status).elim (.ok ticks) (fun delta => i64 (ticks + delta)) =
        .ok (ticks + (deltaTicks status).getD 0) := by
      cases hticks : deltaTicks status with
      | none => simp
      | some delta =>
        rw [hticks] at hdelta
        exact within_of_mem (by simp [i64Min] at *; omega) (by simp [i64Max] at *; omega)
    have hscale : i64 ((ticks + (deltaTicks status).getD 0) * 250) =
        .ok ((ticks + (deltaTicks status).getD 0) * 250) :=
      within_of_mem (by simp only [i64Min]; omega) (by simp only [i64Max]; omega)
    have hrest := @ih (offset + 1) (ticks + (deltaTicks status).getD 0) (by omega) (by omega)
    rw [matchFrom, BandwidthEstimator.matchFrom, hadd, bind_ok, hrest]
    cases history.reverse.find? (fun packet => packet.sequenceNumber = reportedNumber base offset) with
    | none => rfl
    | some sent =>
      cases hticks : deltaTicks status with
      | none => rfl
      | some delta =>
        rw [hticks] at hscale
        dsimp only
        rw [Option.elim_some, hscale]
        rfl

theorem length_matchFrom_le (history : List SentPacket) (base : UInt16) (statuses : List TwccStatus)
    (offset : ℕ) (ticks : ℤ) :
    (BandwidthEstimator.matchFrom history base offset ticks statuses).length ≤ statuses.length := by
  induction statuses generalizing offset ticks with
  | nil => exact le_rfl
  | cons status statuses ih =>
    have hrest := ih (offset + 1) (ticks + (deltaTicks status).getD 0)
    rw [BandwidthEstimator.matchFrom]
    cases history.reverse.find? (fun packet => packet.sequenceNumber = reportedNumber base offset) with
    | none => exact hrest.trans (Nat.le_succ _)
    | some sent => exact Nat.succ_le_succ hrest

/-- Every observation is about a packet of the history. -/
theorem mem_matchFrom {history : List SentPacket} {base : UInt16} {statuses : List TwccStatus}
    {offset : ℕ} {ticks : ℤ} {observation : Observation}
    (h : observation ∈ BandwidthEstimator.matchFrom history base offset ticks statuses) :
    ∃ packet ∈ history, observation.sentAt = packet.sentAt ∧
      observation.sizeBytes = packet.sizeBytes := by
  induction statuses generalizing offset ticks with
  | nil => cases h
  | cons status statuses ih =>
    rw [BandwidthEstimator.matchFrom] at h
    cases hfind : history.reverse.find? (fun packet =>
        packet.sequenceNumber = reportedNumber base offset) with
    | none =>
      rw [hfind] at h
      exact ih h
    | some sent =>
      rw [hfind] at h
      rcases List.mem_cons.mp h with rfl | hrest
      · exact ⟨sent, List.mem_reverse.mp (List.mem_of_find?_eq_some hfind), rfl, rfl⟩
      · exact ih hrest

/-- What one status adds to the received observations. -/
theorem receivedOf_matchFrom_cons (history : List SentPacket) (base : UInt16) (offset : ℕ) (ticks : ℤ)
    (status : TwccStatus) (statuses : List TwccStatus) :
    receivedOf (BandwidthEstimator.matchFrom history base offset ticks (status :: statuses)) =
      ((history.reverse.find? fun packet =>
          packet.sequenceNumber = reportedNumber base offset).bind fun sent =>
        (deltaTicks status).map fun delta =>
          (⟨sent.sentAt, sent.sizeBytes, some ((ticks + delta) * 250)⟩, (ticks + delta) * 250)).toList ++
        receivedOf (BandwidthEstimator.matchFrom history base (offset + 1)
          (ticks + (deltaTicks status).getD 0) statuses) := by
  rw [BandwidthEstimator.matchFrom]
  cases history.reverse.find? (fun packet => packet.sequenceNumber = reportedNumber base offset) with
  | none => rfl
  | some sent => cases deltaTicks status <;> rfl

theorem received_mem {history : List SentPacket} {base : UInt16} {statuses : List TwccStatus}
    {offset : ℕ} {ticks : ℤ} {entry : Observation × ℤ}
    (h : entry ∈ receivedOf (BandwidthEstimator.matchFrom history base offset ticks statuses)) :
    (ticks - 32768 * statuses.length) * 250 ≤ entry.2 ∧
      entry.2 ≤ (ticks + 32768 * statuses.length) * 250 := by
  induction statuses generalizing offset ticks with
  | nil => cases h
  | cons status statuses ih =>
    rw [receivedOf_matchFrom_cons, List.mem_append] at h
    rw [List.length_cons]
    have hdelta := deltaTicks_mem status
    rcases h with hfirst | hrest
    · cases hticks : deltaTicks status with
      | none => simp [hticks] at hfirst
      | some delta =>
        rw [hticks] at hdelta hfirst
        simp only [Option.mem_toList, Option.bind_eq_some_iff, Option.map_some,
          Option.some.injEq] at hfirst
        obtain ⟨sent, -, rfl⟩ := hfirst
        simp only [Option.getD_some] at hdelta ⊢
        omega
    · have hbounds := ih hrest
      omega

/-- The received observations behind the first are at most as many deltas away. -/
theorem received_span {history : List SentPacket} {base : UInt16} {statuses : List TwccStatus}
    {offset : ℕ} {ticks : ℤ} {first : Observation × ℤ} {others : List (Observation × ℤ)}
    (h : receivedOf (BandwidthEstimator.matchFrom history base offset ticks statuses) =
      first :: others) :
    ∀ entry ∈ others, first.2 - 32768 * (statuses.length - 1) * 250 ≤ entry.2 ∧
      entry.2 ≤ first.2 + 32768 * (statuses.length - 1) * 250 := by
  induction statuses generalizing offset ticks with
  | nil => cases h
  | cons status statuses ih =>
    intro entry hentry
    rw [receivedOf_matchFrom_cons] at h
    rw [List.length_cons]
    generalize hhead : ((history.reverse.find? fun packet =>
      decide (packet.sequenceNumber = reportedNumber base offset)).bind fun sent =>
        (deltaTicks status).map fun delta => ((⟨sent.sentAt, sent.sizeBytes,
          some ((ticks + delta) * 250)⟩ : Observation), (ticks + delta) * 250)) = head at h
    cases head with
    | none =>
      have hbounds := ih h entry hentry
      omega
    | some head =>
      rw [Option.toList_some, List.singleton_append, List.cons.injEq] at h
      obtain ⟨rfl, rfl⟩ := h
      obtain ⟨sent, -, hhead⟩ := Option.bind_eq_some_iff.mp hhead
      obtain ⟨delta, hdelta, rfl⟩ := Option.map_eq_some_iff.mp hhead
      have hbounds := received_mem hentry
      rw [hdelta, Option.getD_some] at hbounds
      dsimp only
      omega

/-! ## Metrics -/

theorem mem_of_mem_receivedOf {observations : List Observation} {entry : Observation × ℤ}
    (h : entry ∈ receivedOf observations) : entry.1 ∈ observations := by
  obtain ⟨observation, hmem, hentry⟩ := List.mem_filterMap.mp h
  obtain ⟨received, -, rfl⟩ := Option.map_eq_some_iff.mp hentry
  exact hmem

theorem length_receivedOf_le (observations : List Observation) :
    (receivedOf observations).length ≤ observations.length :=
  List.length_filterMap_le _ _

theorem saturated_mem (n : ℤ) : i64Min ≤ saturated n ∧ saturated n ≤ i64Max := by
  unfold saturated i64Min i64Max
  omega

theorem deliveryRate_eq {received : List (Observation × ℤ)} (hlength : received.length ≤ 65535)
    (hsizes : ∀ entry ∈ received, entry.1.sizeBytes ≤ u64Max) :
    deliveryRate received = .ok (CongestionControl.deliveryRate received) := by
  have hsum : (received.map fun entry => entry.1.sizeBytes).sum ≤ received.length * u64Max := by
    have hle := List.sum_le_card_nsmul (received.map fun entry => entry.1.sizeBytes) u64Max
      (List.forall_mem_map.mpr hsizes)
    rwa [List.length_map, smul_eq_mul] at hle
  have hbound : 0 + (received.map fun entry => entry.1.sizeBytes).sum ≤ u128Max := by
    have hproduct : received.length * u64Max ≤ 65535 * u64Max := Nat.mul_le_mul_right _ hlength
    unfold u64Max u128Max at *
    omega
  rw [deliveryRate, CongestionControl.deliveryRate, total_of_le hbound, Nat.zero_add]
  cases received.head? <;> cases received.getLast? <;> rfl

/-- The samples are counted, and the sum stays in its type. -/
theorem deltas_eq {received : List (Observation × ℤ)} {sum samples : ℤ} (hsamples : 0 ≤ samples)
    (hlength : samples + received.length ≤ 65536) (hsum : i64Min ≤ sum ∧ sum ≤ i64Max) :
    deltas received sum samples = .ok (CongestionControl.deltas received sum samples) ∧
      (i64Min ≤ (CongestionControl.deltas received sum samples).1 ∧
        (CongestionControl.deltas received sum samples).1 ≤ i64Max) ∧
      (CongestionControl.deltas received sum samples).2 = samples + (received.length - 1 : ℕ) := by
  induction received generalizing sum samples with
  | nil => exact ⟨rfl, hsum, by simp [CongestionControl.deltas]⟩
  | cons first received ih =>
    cases received with
    | nil => exact ⟨rfl, hsum, by simp [CongestionControl.deltas]⟩
    | cons second received =>
      have hnext : i64 (samples + 1) = .ok (samples + 1) :=
        within_of_mem (by simp only [i64Min]; omega) (by
          simp only [List.length_cons] at hlength
          simp only [i64Max]
          omega)
      have hrest := @ih (saturated (sum + saturated (saturated (second.2 - first.2) -
        sendDelta first.1 second.1))) (samples + 1) (by omega) (by
          simp only [List.length_cons] at hlength ⊢
          omega) (saturated_mem _)
      rw [deltas, CongestionControl.deltas, hnext]
      refine ⟨hrest.1, hrest.2.1, hrest.2.2.trans ?_⟩
      simp only [List.length_cons]
      omega

theorem delaySample_eq {received : List (Observation × ℤ)} (hlength : received.length ≤ 65535) :
    delaySample received = .ok (CongestionControl.delaySample received) := by
  obtain ⟨hdeltas, ⟨hlow, hhigh⟩, hcount⟩ := @deltas_eq received 0 0 le_rfl (by omega) (by decide)
  rw [delaySample, CongestionControl.delaySample, hdeltas, bind_ok]
  dsimp only
  by_cases hpositive : 0 < (CongestionControl.deltas received 0 0).2
  · have hquotient : quotient i64Min i64Max (CongestionControl.deltas received 0 0).1
        (CongestionControl.deltas received 0 0).2 = .ok ((CongestionControl.deltas received 0 0).1.tdiv
          (CongestionControl.deltas received 0 0).2) := by
      refine quotient_of_mem hpositive.ne' ?_ (tdiv_le_of_le hpositive (by decide) hhigh)
      refine le_tdiv_of_mul_le hpositive (by decide) ?_
      simp only [i64Min] at hlow ⊢
      omega
    rw [if_pos hpositive, if_pos hpositive, hquotient]
    rfl
  · rw [if_neg hpositive, if_neg hpositive]

theorem calculateMetrics_eq {observations : List Observation} (hlength : observations.length ≤ 65535)
    (hsizes : ∀ observation ∈ observations, observation.sizeBytes ≤ u64Max) :
    calculateMetrics observations = .ok (CongestionControl.calculateMetrics observations) := by
  have hreceived := length_receivedOf_le observations
  rw [calculateMetrics, CongestionControl.calculateMetrics]
  by_cases hempty : observations.isEmpty
  · rw [if_pos hempty, if_pos hempty]
  · have hpositive : observations.length ≠ 0 := by
      intro hzero
      rw [List.eq_nil_of_length_eq_zero hzero] at hempty
      exact hempty rfl
    rw [if_neg hempty, if_neg hempty]
    dsimp only
    rw [subtract_of_le hreceived, bind_ok, divide_of_ne _ hpositive,
      deliveryRate_eq (by omega) fun entry hentry => hsizes _ (mem_of_mem_receivedOf hentry),
      delaySample_eq (by omega)]
    rfl

/-! ## Agreement -/

/-- The delay sample of a report. -/
def sampleOf (s : BandwidthEstimator) (now : ℕ) (feedback : TransportWideFeedback) : Option ℤ :=
  CongestionControl.delaySample (receivedOf ((s.expireHistory now).matchFeedback feedback))

theorem delaySampleMicros_eq (observations : List Observation) :
    (CongestionControl.calculateMetrics observations).delaySampleMicros =
      CongestionControl.delaySample (receivedOf observations) := by
  cases observations <;> rfl

theorem nextTrend_eq_ok {delayTrendMicros sample trend : ℤ}
    (h : nextTrend delayTrendMicros sample = .ok trend) :
    trend = (delayTrendMicros * 7 + sample).tdiv 8 := by
  simp only [nextTrend, i64, within, quotient, bind_eq_ok] at h
  obtain ⟨scaled, hscaled, sum, hsum, h⟩ := h
  split_ifs at hscaled hsum h
  · cases hscaled
    cases hsum
    cases h
    rfl

theorem mem_history_of_mem_expireHistory {s : BandwidthEstimator} {now : ℕ} {packet : SentPacket}
    (h : packet ∈ (s.expireHistory now).history) : packet ∈ s.history :=
  (List.dropWhile_suffix _).subset h

/-- The checked estimator is the exact one unless the trend is a fault. -/
theorem processFeedback_eq {s : BandwidthEstimator} (hsizes : ∀ packet ∈ s.history,
    packet.sizeBytes ≤ u64Max) (now : ℕ) {feedback : TransportWideFeedback}
    (hlength : feedback.statuses.length ≤ 65535) :
    processFeedback s now feedback =
      ((sampleOf s now feedback).elim (.ok s.delayTrendMicros) (nextTrend s.delayTrendMicros)).map
        fun _ => s.processFeedback now feedback := by
  have hobservations := length_matchFrom_le (s.expireHistory now).history
    feedback.baseSequenceNumber feedback.statuses 0 0
  have hmetrics := @calculateMetrics_eq ((s.expireHistory now).matchFeedback feedback)
    (hobservations.trans hlength) (by
      intro observation hmem
      obtain ⟨packet, hpacket, -, hsize⟩ := mem_matchFrom hmem
      rw [hsize]
      exact hsizes packet (mem_history_of_mem_expireHistory hpacket))
  rw [processFeedback]
  dsimp only
  rw [matchFrom_eq (by omega) (by omega), bind_ok]
  rw [BandwidthEstimator.matchFeedback] at hmetrics
  rw [hmetrics, bind_ok, delaySampleMicros_eq, sampleOf, BandwidthEstimator.processFeedback]
  dsimp only
  rw [BandwidthEstimator.matchFeedback, delaySampleMicros_eq]
  cases CongestionControl.delaySample (receivedOf (BandwidthEstimator.matchFrom
    (s.expireHistory now).history feedback.baseSequenceNumber 0 0 feedback.statuses)) with
  | none => rfl
  | some sample =>
    dsimp only [Option.elim_some]
    have htrend : (s.expireHistory now).delayTrendMicros = s.delayTrendMicros := rfl
    rw [htrend]
    cases hnext : nextTrend s.delayTrendMicros sample with
    | error fault => rfl
    | ok trend =>
      obtain rfl := nextTrend_eq_ok hnext
      rfl

end Strict

end Fluvora.CongestionControl
