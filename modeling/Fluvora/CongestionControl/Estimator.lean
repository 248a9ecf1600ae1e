import Fluvora.Rtcp.Packet

/-!
# The bandwidth estimator

`BandwidthEstimator` of `crates/webrtc/congestion-control`: the packets that were sent, the reports of
the receiver about them, and a target bitrate that grows slowly and shrinks by a factor.  A target
stays between the limits of the configuration, which both it and the estimator carry with them.

A report about packets that are not in the history leaves no observations.  It has no loss then, and
the delay trend is that of the report before it, so it counts as spare capacity or as congestion in
its own right, and moves the target (`processFeedback_unmatched_iff`).

Durations are nanoseconds.  The 64-bit integers are unbounded here, with the saturation of the source
where it has one.
-/

namespace Fluvora.CongestionControl

open Rtcp

def u64Max : ℕ := 2 ^ 64 - 1
def u128Max : ℕ := 2 ^ 128 - 1
def i64Max : ℤ := 2 ^ 63 - 1
def i64Min : ℤ := -2 ^ 63

/-- The saturating operations of `i64` on the exact result. -/
def saturated (n : ℤ) : ℤ := max i64Min (min n i64Max)

/-- A packet at the time at which it was sent. -/
structure SentPacket where
  sequenceNumber : UInt16
  sentAt : ℕ
  sizeBytes : ℕ
deriving DecidableEq

inductive BandwidthUsage
  | underusing
  | normal
  | overusing
deriving DecidableEq

/-- What one report says. -/
structure Estimate where
  targetBitrateBps : ℕ
  deliveryRateBps : ℕ
  lossPerMille : ℕ
  delayTrendMicros : ℤ
  usage : BandwidthUsage
  matchedPackets : ℕ
deriving DecidableEq

/-- Limits that are out of order make `clamp` panic. -/
structure BandwidthEstimatorConfig where
  initialBitrateBps : ℕ
  minimumBitrateBps : ℕ
  maximumBitrateBps : ℕ
  historyPackets : ℕ
  historyAge : ℕ
  minimum_le : minimumBitrateBps ≤ maximumBitrateBps
  maximum_le : maximumBitrateBps ≤ u64Max
deriving DecidableEq

namespace BandwidthEstimatorConfig

def default : BandwidthEstimatorConfig where
  initialBitrateBps := 800000
  minimumBitrateBps := 50000
  maximumBitrateBps := 20000000
  historyPackets := 16384
  historyAge := 10000000000
  minimum_le := by decide
  maximum_le := by decide

def clamp (configuration : BandwidthEstimatorConfig) (bitrate : ℕ) : ℕ :=
  max configuration.minimumBitrateBps (min bitrate configuration.maximumBitrateBps)

theorem minimum_le_clamp (configuration : BandwidthEstimatorConfig) (bitrate : ℕ) :
    configuration.minimumBitrateBps ≤ configuration.clamp bitrate :=
  le_max_left _ _

theorem clamp_le_maximum (configuration : BandwidthEstimatorConfig) (bitrate : ℕ) :
    configuration.clamp bitrate ≤ configuration.maximumBitrateBps :=
  max_le configuration.minimum_le (min_le_right _ _)

end BandwidthEstimatorConfig

structure BandwidthEstimator where
  configuration : BandwidthEstimatorConfig
  /-- The newest packet is the last one. -/
  history : List SentPacket
  targetBitrateBps : ℕ
  delayTrendMicros : ℤ
  lastUpdate : Option ℕ
  minimum_le_target : configuration.minimumBitrateBps ≤ targetBitrateBps
  target_le_maximum : targetBitrateBps ≤ configuration.maximumBitrateBps
deriving DecidableEq

/-- What a status says about a packet of the history. -/
structure Observation where
  sentAt : ℕ
  sizeBytes : ℕ
  receivedAtMicros : Option ℤ
deriving DecidableEq

structure Metrics where
  deliveryRateBps : ℕ
  lossPerMille : ℕ
  delaySampleMicros : Option ℤ
deriving DecidableEq

/-! ## Metrics -/

/-- The observations of received packets, with their times. -/
def receivedOf (observations : List Observation) : List (Observation × ℤ) :=
  observations.filterMap fun observation =>
    observation.receivedAtMicros.map fun received => (observation, received)

/-- `as_micros` of the difference of two durations, as `i64`. -/
def sendDelta (first second : Observation) : ℤ :=
  min (((second.sentAt - first.sentAt) / 1000 : ℕ) : ℤ) i64Max

def deliveryRate (received : List (Observation × ℤ)) : ℕ :=
  match received.head?, received.getLast? with
  | some first, some last =>
      let receiveSpan := saturated (last.2 - first.2)
      let sendSpan := sendDelta first.1 last.1
      let spanMicros := max (max receiveSpan sendSpan) 1
      let bytes := (received.map fun entry => entry.1.sizeBytes).sum
      min (min (bytes * 8000000) u128Max / spanMicros.toNat) u64Max
  | _, _ => 0

/-- The sum of the deltas between neighbours, and their number. -/
def deltas : List (Observation × ℤ) → ℤ → ℤ → ℤ × ℤ
  | first :: second :: received, sum, samples =>
      let receiveDelta := saturated (second.2 - first.2)
      let sum := saturated (sum + saturated (receiveDelta - sendDelta first.1 second.1))
      deltas (second :: received) sum (samples + 1)
  | _, sum, samples => (sum, samples)

def delaySample (received : List (Observation × ℤ)) : Option ℤ :=
  let (sum, samples) := deltas received 0 0
  if 0 < samples then some (sum.tdiv samples) else none

def calculateMetrics (observations : List Observation) : Metrics :=
  if observations.isEmpty then ⟨0, 0, none⟩
  else
    let received := receivedOf observations
    let lost := observations.length - received.length
    { deliveryRateBps := deliveryRate received
      lossPerMille := min (min (lost * 1000) u64Max / observations.length) 65535
      delaySampleMicros := delaySample received }

def classify (lossPerMille : ℕ) (delayTrendMicros : ℤ) : BandwidthUsage :=
  if 100 < lossPerMille ∨ 15000 < delayTrendMicros then .overusing
  else if lossPerMille < 20 ∧ delayTrendMicros < 5000 then .underusing
  else .normal

namespace BandwidthEstimator

def new (configuration : BandwidthEstimatorConfig) : BandwidthEstimator where
  configuration := configuration
  history := []
  targetBitrateBps := configuration.clamp configuration.initialBitrateBps
  delayTrendMicros := 0
  lastUpdate := none
  minimum_le_target := configuration.minimum_le_clamp _
  target_le_maximum := configuration.clamp_le_maximum _

/-! ## History -/

/-- The packets in front that are too old are dropped. -/
def expireHistory (s : BandwidthEstimator) (now : ℕ) : BandwidthEstimator :=
  { s with history := s.history.dropWhile fun packet =>
      s.configuration.historyAge < now - packet.sentAt }

/-- Without room for a packet the loop that makes room does not end. -/
def registerSent (s : BandwidthEstimator) (packet : SentPacket) : Option BandwidthEstimator :=
  let s := s.expireHistory packet.sentAt
  if s.configuration.historyPackets = 0 then none
  else
    let excess := s.history.length + 1 - s.configuration.historyPackets
    some { s with history := s.history.drop excess ++ [packet] }

/-- The ticks that a status adds to the receive time, if its packet was received. -/
def deltaTicks : TwccStatus → Option ℤ
  | .notReceived => none
  | .receivedSmallDelta delta => some delta.toNat
  | .receivedLargeDelta delta => some delta.toInt

/-- The number of the packet that a status is about. -/
def reportedNumber (base : UInt16) (offset : ℕ) : UInt16 :=
  base + if offset < 65536 then .ofNat offset else 0

/-- The loop over the statuses, from an offset and a receive time on. -/
def matchFrom (history : List SentPacket) (base : UInt16) :
    ℕ → ℤ → List TwccStatus → List Observation
  | _, _, [] => []
  | offset, receiveTimeTicks, status :: statuses =>
      let sent := history.reverse.find? fun packet =>
        packet.sequenceNumber = reportedNumber base offset
      let receiveTimeTicks := receiveTimeTicks + (deltaTicks status).getD 0
      let receivedAtTicks := (deltaTicks status).map fun _ => receiveTimeTicks
      let rest := matchFrom history base (offset + 1) receiveTimeTicks statuses
      match sent with
      | some sent => ⟨sent.sentAt, sent.sizeBytes, receivedAtTicks.map (· * 250)⟩ :: rest
      | none => rest

def matchFeedback (s : BandwidthEstimator) (feedback : TransportWideFeedback) : List Observation :=
  matchFrom s.history feedback.baseSequenceNumber 0 0 feedback.statuses

/-! ## The target -/

/-- The target in front of its clamp. -/
def nextTarget (s : BandwidthEstimator) (now deliveryRateBps : ℕ) : BandwidthUsage → ℕ
  | .overusing =>
      let baseline :=
        if 0 < deliveryRateBps then min s.targetBitrateBps deliveryRateBps else s.targetBitrateBps
      min (baseline * 85) u64Max / 100
  | .underusing =>
      let elapsedMillis := match s.lastUpdate with
        | none => 1000
        | some last => max 1 (min ((now - last) / 1000000) 5000)
      let perSecond := max (s.targetBitrateBps / 20) 10000
      let increase := min (min (perSecond * elapsedMillis) u128Max / 1000) u64Max
      let raised := min (s.targetBitrateBps + increase) u64Max
      if 0 < deliveryRateBps then min raised (min (deliveryRateBps * 11) u64Max / 10) else raised
  | .normal => s.targetBitrateBps

def updateTarget (s : BandwidthEstimator) (now deliveryRateBps : ℕ) (usage : BandwidthUsage) :
    BandwidthEstimator :=
  { s with
    targetBitrateBps := s.configuration.clamp (s.nextTarget now deliveryRateBps usage)
    minimum_le_target := s.configuration.minimum_le_clamp _
    target_le_maximum := s.configuration.clamp_le_maximum _ }

def processFeedback (s : BandwidthEstimator) (now : ℕ) (feedback : TransportWideFeedback) :
    BandwidthEstimator × Estimate :=
  let s := s.expireHistory now
  let observations := s.matchFeedback feedback
  let metrics := calculateMetrics observations
  let trend := match metrics.delaySampleMicros with
    | some sample => (s.delayTrendMicros * 7 + sample).tdiv 8
    | none => s.delayTrendMicros
  let usage := classify metrics.lossPerMille trend
  let s := { s with delayTrendMicros := trend }.updateTarget now metrics.deliveryRateBps usage
  let s := { s with lastUpdate := some now }
  (s, ⟨s.targetBitrateBps, metrics.deliveryRateBps, metrics.lossPerMille, trend, usage,
    observations.length⟩)

/-! ## Reports without information -/

/-- No status of the report is about a packet that is still in the history. -/
def Unmatched (s : BandwidthEstimator) (now : ℕ) (feedback : TransportWideFeedback) : Prop :=
  ∀ packet ∈ (s.expireHistory now).history, ∀ offset < feedback.statuses.length,
    packet.sequenceNumber ≠ reportedNumber feedback.baseSequenceNumber offset

theorem matchFrom_eq_nil {history : List SentPacket} {base : UInt16} {statuses : List TwccStatus}
    {offset : ℕ}
    (h : ∀ packet ∈ history, ∀ i < statuses.length,
      packet.sequenceNumber ≠ reportedNumber base (offset + i))
    (receiveTimeTicks : ℤ) : matchFrom history base offset receiveTimeTicks statuses = [] := by
  induction statuses generalizing offset receiveTimeTicks with
  | nil => rfl
  | cons status statuses ih =>
    have hnone : history.reverse.find? (fun packet =>
        packet.sequenceNumber = reportedNumber base offset) = none := by
      rw [List.find?_eq_none]
      intro packet hpacket
      have hne := h packet (List.mem_reverse.mp hpacket) 0 (by simp)
      simpa using hne
    rw [matchFrom, hnone]
    refine ih (fun packet hpacket i hi => ?_) _
    have hne := h packet hpacket (i + 1) (by simpa using hi)
    rwa [Nat.add_assoc, Nat.add_comm 1 i]

variable {s : BandwidthEstimator} {now : ℕ} {feedback : TransportWideFeedback}

theorem matchFeedback_of_unmatched (h : s.Unmatched now feedback) :
    (s.expireHistory now).matchFeedback feedback = [] :=
  matchFrom_eq_nil (fun packet hpacket i hi => by
    rw [Nat.zero_add]
    exact h packet hpacket i hi) 0

/-- Such a report leaves the trend, and moves the target by the trend alone. -/
theorem processFeedback_of_unmatched (h : s.Unmatched now feedback) :
    (s.processFeedback now feedback).1.delayTrendMicros = s.delayTrendMicros ∧
      (s.processFeedback now feedback).1.targetBitrateBps =
        s.configuration.clamp (s.nextTarget now 0 (classify 0 s.delayTrendMicros)) := by
  have hnone := matchFeedback_of_unmatched h
  rw [processFeedback, hnone]
  exact ⟨rfl, rfl⟩

theorem nextTarget_overusing (s : BandwidthEstimator) (now : ℕ) :
    s.nextTarget now 0 .overusing = min (s.targetBitrateBps * 85) u64Max / 100 := rfl

/-- Capacity that seems to be spare raises the target by at least ten bits per second. -/
theorem le_nextTarget_underusing (s : BandwidthEstimator) (now : ℕ) :
    min (s.targetBitrateBps + 10) u64Max ≤ s.nextTarget now 0 .underusing := by
  rw [nextTarget]
  generalize helapsed : (match s.lastUpdate with
    | none => 1000
    | some last => max 1 (min ((now - last) / 1000000) 5000)) = elapsedMillis
  have hpositive : 1 ≤ elapsedMillis := by
    rw [← helapsed]
    split <;> omega
  have hproduct : 10000 ≤ max (s.targetBitrateBps / 20) 10000 * elapsedMillis :=
    Nat.le_trans (le_max_right _ _) (Nat.le_mul_of_pos_right _ hpositive)
  simp only [lt_self_iff_false, if_false, u64Max, u128Max]
  omega

/-- A report about no packet of the history leaves the trend, and leaves the target exactly if the
trend is neither low nor high, or the target is at the limit to which it would go. -/
theorem processFeedback_unmatched_iff (s : BandwidthEstimator) (now : ℕ)
    (feedback : TransportWideFeedback) (h : s.Unmatched now feedback) :
    ((s.processFeedback now feedback).1.targetBitrateBps = s.targetBitrateBps ∧
        (s.processFeedback now feedback).1.delayTrendMicros = s.delayTrendMicros) ↔
      (5000 ≤ s.delayTrendMicros ∧ s.delayTrendMicros ≤ 15000) ∨
      (s.delayTrendMicros < 5000 ∧
        s.targetBitrateBps = s.configuration.maximumBitrateBps) ∨
      (15000 < s.delayTrendMicros ∧
        s.targetBitrateBps = s.configuration.minimumBitrateBps) := by
  obtain ⟨htrend, htarget⟩ := processFeedback_of_unmatched h
  rw [htrend, htarget, BandwidthEstimatorConfig.clamp, classify]
  have hminimum := s.minimum_le_target
  have hmaximum := s.target_le_maximum
  have hbound := s.configuration.maximum_le
  split_ifs with hover hunder
  · have hhigh : 15000 < s.delayTrendMicros := by omega
    rw [nextTarget_overusing]
    unfold u64Max at *
    omega
  · have hlow : s.delayTrendMicros < 5000 := hunder.2
    have hraised := le_nextTarget_underusing s now
    unfold u64Max at *
    omega
  · rw [nextTarget]
    omega

/-- A report that says of one packet that it was not received. -/
def sampleFeedback : TransportWideFeedback := ⟨1, 2, 7, 0, 0, [.notReceived]⟩

theorem processFeedback_unmatched_iff_sample :
    (((new .default).processFeedback 1000000000 sampleFeedback).1.targetBitrateBps =
          (new .default).targetBitrateBps ∧
        ((new .default).processFeedback 1000000000 sampleFeedback).1.delayTrendMicros =
          (new .default).delayTrendMicros) ↔
      (5000 ≤ (new .default).delayTrendMicros ∧ (new .default).delayTrendMicros ≤ 15000) ∨
      ((new .default).delayTrendMicros < 5000 ∧ (new .default).targetBitrateBps =
        (new .default).configuration.maximumBitrateBps) ∨
      (15000 < (new .default).delayTrendMicros ∧ (new .default).targetBitrateBps =
        (new .default).configuration.minimumBitrateBps) :=
  processFeedback_unmatched_iff (new .default) 1000000000 sampleFeedback nofun

/-- The target of a fresh estimator goes up with a report about a packet that was never sent. -/
theorem processFeedback_raises_unmatched :
    (new .default).Unmatched 1000000000 sampleFeedback ∧
      (new .default).targetBitrateBps = 800000 ∧
      ((new .default).processFeedback 1000000000 sampleFeedback).1.targetBitrateBps = 840000 :=
  ⟨nofun, by decide, by decide⟩

end BandwidthEstimator

end Fluvora.CongestionControl
