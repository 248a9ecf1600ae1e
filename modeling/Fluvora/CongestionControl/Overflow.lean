import Fluvora.CongestionControl.Strict

/-!
# Overflow in the bandwidth estimator

The only operation of the estimator that can leave its type is in the delay trend.  A sample is as low as
the history is long, and the trend comes within seven microseconds of the lowest sample, so the
configuration decides: a history of more than one packet must not be so long that eight times the lowest
sample is out of range.
-/

namespace Fluvora.CongestionControl

open Checked Results Rtcp

namespace BandwidthEstimatorConfig

/-- The magnitude of the lowest delay sample of a report: the age of the history, and as many deltas as a
report has behind its first status, of ticks of 250 microseconds. -/
def longestDelay (configuration : BandwidthEstimatorConfig) : ℤ :=
  (configuration.historyAge / 1000 : ℕ) + 65534 * 32768 * 250

/-- The history has no two packets, or is short enough for the trend. -/
def Short (configuration : BandwidthEstimatorConfig) : Prop :=
  configuration.historyPackets ≤ 1 ∨ configuration.longestDelay ≤ 2 ^ 60 + 6

end BandwidthEstimatorConfig

namespace Strict

open BandwidthEstimator (deltaTicks reportedNumber)

/-! ## The lowest sample -/

theorem sendDelta_nonneg (first second : Observation) : 0 ≤ sendDelta first second :=
  le_min (Int.natCast_nonneg _) (by decide)

theorem sendDelta_le {first second : Observation} {age : ℕ} (h : second.sentAt - first.sentAt ≤ age) :
    sendDelta first second ≤ (age / 1000 : ℕ) :=
  (min_le_left _ _).trans (Int.ofNat_le.mpr (Nat.div_le_div_right h))

/-- A sum is at least what its deltas come to, the send times being no further apart than the age. -/
theorem le_deltas {age : ℕ} {received : List (Observation × ℤ)} {first : Observation × ℤ}
    {sum samples behind : ℤ}
    (hspan : ∀ a ∈ first :: received, ∀ b ∈ first :: received, b.1.sentAt - a.1.sentAt ≤ age)
    (htimes : ∀ a ∈ first :: received, -2 ^ 40 ≤ a.2 ∧ a.2 ≤ 2 ^ 40)
    (hbehind : behind ≤ 2 ^ 42) (hsum : behind + first.2 ≤ sum) :
    ∃ entry ∈ first :: received, behind - (age / 1000 : ℕ) * received.length + entry.2 ≤
      (CongestionControl.deltas (first :: received) sum samples).1 := by
  induction received generalizing first sum samples behind with
  | nil => exact ⟨first, List.mem_cons_self, by simpa [CongestionControl.deltas] using hsum⟩
  | cons second received ih =>
    have hsecond : second ∈ first :: second :: received := List.mem_cons_of_mem _ List.mem_cons_self
    have hsend := sendDelta_le (hspan first List.mem_cons_self second hsecond)
    have hnonneg := sendDelta_nonneg first.1 second.1
    have hfirstTime := htimes first List.mem_cons_self
    have hsecondTime := htimes second hsecond
    have hnext : behind - (age / 1000 : ℕ) + second.2 ≤
        saturated (sum + saturated (saturated (second.2 - first.2) - sendDelta first.1 second.1)) := by
      unfold saturated i64Min i64Max
      omega
    obtain ⟨entry, hentry, hle⟩ := @ih second _ (samples + 1) (behind - (age / 1000 : ℕ))
      (fun a ha b hb => hspan a (List.mem_cons_of_mem _ ha) b (List.mem_cons_of_mem _ hb))
      (fun a ha => htimes a (List.mem_cons_of_mem _ ha)) (by omega) hnext
    refine ⟨entry, List.mem_cons_of_mem _ hentry, ?_⟩
    rw [CongestionControl.deltas, List.length_cons]
    refine le_trans (le_of_eq ?_) hle
    push_cast
    ring

/-- A sum is at most what its receive times come to. -/
theorem deltas_le {received : List (Observation × ℤ)} {first : Observation × ℤ}
    {sum samples behind : ℤ}
    (htimes : ∀ a ∈ first :: received, -2 ^ 40 ≤ a.2 ∧ a.2 ≤ 2 ^ 40)
    (hbehind : -2 ^ 42 ≤ behind) (hsum : sum ≤ behind + first.2) :
    ∃ entry ∈ first :: received,
      (CongestionControl.deltas (first :: received) sum samples).1 ≤ behind + entry.2 := by
  induction received generalizing first sum samples with
  | nil => exact ⟨first, List.mem_cons_self, by simpa [CongestionControl.deltas] using hsum⟩
  | cons second received ih =>
    have hsecond : second ∈ first :: second :: received := List.mem_cons_of_mem _ List.mem_cons_self
    have hnonneg := sendDelta_nonneg first.1 second.1
    have hfirstTime := htimes first List.mem_cons_self
    have hsecondTime := htimes second hsecond
    have hnext : saturated (sum + saturated (saturated (second.2 - first.2) -
        sendDelta first.1 second.1)) ≤ behind + second.2 := by
      unfold saturated i64Min i64Max
      omega
    obtain ⟨entry, hentry, hle⟩ := @ih second _ (samples + 1)
      (fun a ha => htimes a (List.mem_cons_of_mem _ ha)) hnext
    exact ⟨entry, List.mem_cons_of_mem _ hentry, hle⟩

/-- A report has a sample when it matches two packets. -/
theorem exists_of_delaySample {received : List (Observation × ℤ)} {sample : ℤ}
    (h : CongestionControl.delaySample received = some sample) (hlength : received.length ≤ 65535) :
    ∃ first second others, received = first :: second :: others ∧
      sample = (CongestionControl.deltas received 0 0).1.tdiv (others.length + 1) := by
  obtain ⟨-, -, hcount⟩ := @deltas_eq received 0 0 le_rfl (by omega) (by decide)
  rw [CongestionControl.delaySample] at h
  dsimp only at h
  split_ifs at h with hpositive
  cases h
  rw [hcount] at hpositive
  cases received with
  | nil => exact absurd hpositive (by decide)
  | cons first received =>
    cases received with
    | nil => exact absurd hpositive (by simp)
    | cons second others =>
      refine ⟨first, second, others, rfl, ?_⟩
      rw [hcount]
      simp

/-- The samples that a history of some age can give. -/
theorem delaySample_mem {history : List SentPacket} {age : ℕ}
    (hspan : ∀ a ∈ history, ∀ b ∈ history, b.sentAt - a.sentAt ≤ age) {base : UInt16}
    {statuses : List TwccStatus} (hlength : statuses.length ≤ 65535) {sample : ℤ}
    (h : CongestionControl.delaySample
      (receivedOf (BandwidthEstimator.matchFrom history base 0 0 statuses)) = some sample) :
    -((age / 1000 : ℕ) + 65534 * 32768 * 250) ≤ sample ∧ sample ≤ 65534 * 32768 * 250 := by
  have hobservations := length_matchFrom_le history base statuses 0 0
  have hreceived := length_receivedOf_le (BandwidthEstimator.matchFrom history base 0 0 statuses)
  obtain ⟨first, second, others, hsplit, rfl⟩ := exists_of_delaySample h (by omega)
  have htimes : ∀ a ∈ first :: second :: others, -2 ^ 40 ≤ a.2 ∧ a.2 ≤ 2 ^ 40 := by
    intro a ha
    rw [← hsplit] at ha
    have := received_mem ha
    omega
  have hspans : ∀ a ∈ first :: second :: others, ∀ b ∈ first :: second :: others,
      b.1.sentAt - a.1.sentAt ≤ age := by
    intro a ha b hb
    rw [← hsplit] at ha hb
    obtain ⟨p, hp, hpa, -⟩ := mem_matchFrom (mem_of_mem_receivedOf ha)
    obtain ⟨q, hq, hqb, -⟩ := mem_matchFrom (mem_of_mem_receivedOf hb)
    rw [hpa, hqb]
    exact hspan p hp q hq
  have hfirst := htimes first List.mem_cons_self
  have hnear : ∀ entry ∈ first :: second :: others,
      first.2 - 65534 * 32768 * 250 ≤ entry.2 ∧ entry.2 ≤ first.2 + 65534 * 32768 * 250 := by
    intro entry hentry
    rcases List.mem_cons.mp hentry with rfl | hentry
    · omega
    · have := received_span hsplit entry hentry
      omega
  rw [hsplit]
  constructor
  · obtain ⟨entry, hentry, hle⟩ := @le_deltas age (second :: others) first 0 0 (-first.2) hspans htimes
      (by omega) (by omega)
    have hbound := (hnear entry hentry).1
    refine le_tdiv_of_mul_le (by omega) (by omega) (le_trans ?_ hle)
    rw [List.length_cons]
    have hage : (0 : ℤ) ≤ (age / 1000 : ℕ) := Int.natCast_nonneg _
    generalize ((age / 1000 : ℕ) : ℤ) = A at *
    push_cast
    nlinarith
  · obtain ⟨entry, hentry, hle⟩ := @deltas_le (second :: others) first 0 0 (-first.2) htimes
      (by omega) (by omega)
    have hbound := (hnear entry hentry).2
    exact tdiv_le_of_le (by omega) (by decide) (by omega)

/-! ## The trend -/

/-- Within a bound the trend keeps seven microseconds above the lowest sample. -/
theorem nextTrend_mem {lowest delayTrendMicros sample : ℤ} (hlowest : lowest ≤ 2 ^ 60 + 6)
    (hpositive : 65534 * 32768 * 250 ≤ lowest)
    (htrend : -(lowest - 7) ≤ delayTrendMicros ∧ delayTrendMicros ≤ 65534 * 32768 * 250)
    (hsample : -lowest ≤ sample ∧ sample ≤ 65534 * 32768 * 250) :
    nextTrend delayTrendMicros sample = .ok ((delayTrendMicros * 7 + sample).tdiv 8) ∧
      -(lowest - 7) ≤ (delayTrendMicros * 7 + sample).tdiv 8 ∧
      (delayTrendMicros * 7 + sample).tdiv 8 ≤ 65534 * 32768 * 250 := by
  have hscaled : i64 (delayTrendMicros * 7) = .ok (delayTrendMicros * 7) :=
    within_of_mem (by simp only [i64Min]; omega) (by simp only [i64Max]; omega)
  have hsum : i64 (delayTrendMicros * 7 + sample) = .ok (delayTrendMicros * 7 + sample) :=
    within_of_mem (by simp only [i64Min]; omega) (by simp only [i64Max]; omega)
  have hlow : -(lowest - 7) ≤ (delayTrendMicros * 7 + sample).tdiv 8 := by
    by_cases hneg : delayTrendMicros * 7 + sample ≤ 0
    · rw [tdiv_of_nonpos 8 hneg]
      omega
    · exact le_tdiv_of_mul_le (by decide) (by omega) (by omega)
  have hhigh : (delayTrendMicros * 7 + sample).tdiv 8 ≤ 65534 * 32768 * 250 := by
    by_cases hneg : delayTrendMicros * 7 + sample ≤ 0
    · rw [tdiv_of_nonpos 8 hneg]
      omega
    · rw [Int.tdiv_eq_ediv_of_nonneg (by omega)]
      omega
  have hquotient : quotient i64Min i64Max (delayTrendMicros * 7 + sample) 8 =
      .ok ((delayTrendMicros * 7 + sample).tdiv 8) :=
    quotient_of_mem (by decide) (by simp only [i64Min]; omega) (by simp only [i64Max]; omega)
  refine ⟨?_, hlow, hhigh⟩
  rw [nextTrend, hscaled, bind_ok, hsum, bind_ok, hquotient]

/-! ## Runs -/

/-- What every reachable estimator is. -/
structure Kept (configuration : BandwidthEstimatorConfig) (latest : ℕ) (s : BandwidthEstimator) :
    Prop where
  configured : s.configuration = configuration
  ordered : s.history.Pairwise fun a b => a.sentAt ≤ b.sentAt
  past : ∀ packet ∈ s.history, packet.sentAt ≤ latest
  span : ∀ a ∈ s.history, ∀ b ∈ s.history, b.sentAt - a.sentAt ≤ configuration.historyAge
  room : s.history.length ≤ configuration.historyPackets
  sizes : ∀ packet ∈ s.history, packet.sizeBytes ≤ u64Max
  trend : -(configuration.longestDelay - 7) ≤ s.delayTrendMicros ∧
    s.delayTrendMicros ≤ 65534 * 32768 * 250

variable {configuration : BandwidthEstimatorConfig} {latest : ℕ} {s : BandwidthEstimator}

theorem kept_new (configuration : BandwidthEstimatorConfig) :
    Kept configuration 0 (.new configuration) where
  configured := rfl
  ordered := .nil
  past := nofun
  span := nofun
  room := Nat.zero_le _
  sizes := nofun
  trend := by
    show -(configuration.longestDelay - 7) ≤ 0 ∧ (0 : ℤ) ≤ 65534 * 32768 * 250
    have hage : (0 : ℤ) ≤ (configuration.historyAge / 1000 : ℕ) := Int.natCast_nonneg _
    rw [BandwidthEstimatorConfig.longestDelay]
    omega

theorem Kept.expireHistory (h : Kept configuration latest s) (now : ℕ) :
    Kept configuration latest (s.expireHistory now) where
  configured := h.configured
  ordered := h.ordered.sublist (List.dropWhile_sublist _)
  past := fun packet hpacket => h.past packet (mem_history_of_mem_expireHistory hpacket)
  span := fun a ha b hb => h.span a (mem_history_of_mem_expireHistory ha) b
    (mem_history_of_mem_expireHistory hb)
  room := (List.dropWhile_sublist _).length_le.trans h.room
  sizes := fun packet hpacket => h.sizes packet (mem_history_of_mem_expireHistory hpacket)
  trend := h.trend

/-- No packet of an ordered history that has been cut is too old. -/
theorem age_of_mem_dropWhile {history : List SentPacket} {now age : ℕ}
    (hordered : history.Pairwise fun a b => a.sentAt ≤ b.sentAt) {packet : SentPacket}
    (h : packet ∈ history.dropWhile fun packet => age < now - packet.sentAt) :
    now - packet.sentAt ≤ age := by
  induction history with
  | nil => cases h
  | cons oldest history ih =>
    rw [List.pairwise_cons] at hordered
    rw [List.dropWhile_cons] at h
    split_ifs at h with hold
    · exact ih hordered.2 h
    · rw [decide_eq_true_eq] at hold
      rcases List.mem_cons.mp h with rfl | hmem
      · omega
      · have := hordered.1 packet hmem
        omega

theorem Kept.registerSent (h : Kept configuration latest s) {packet : SentPacket}
    (hlatest : latest ≤ packet.sentAt) (hsize : packet.sizeBytes ≤ u64Max) {s' : BandwidthEstimator}
    (hregister : s.registerSent packet = some s') : Kept configuration packet.sentAt s' := by
  have hexpired := h.expireHistory packet.sentAt
  rw [BandwidthEstimator.registerSent] at hregister
  dsimp only at hregister
  split_ifs at hregister with hroom
  obtain rfl := Option.some.inj hregister
  generalize hexcess : (s.expireHistory packet.sentAt).history.length + 1 -
    (s.expireHistory packet.sentAt).configuration.historyPackets = excess
  have hkept : ∀ p ∈ (s.expireHistory packet.sentAt).history.drop excess,
      p ∈ (s.expireHistory packet.sentAt).history := fun p hp => List.mem_of_mem_drop hp
  have hage : ∀ p ∈ (s.expireHistory packet.sentAt).history.drop excess,
      p.sentAt ≤ packet.sentAt ∧ packet.sentAt - p.sentAt ≤ configuration.historyAge := by
    intro p hp
    refine ⟨(hexpired.past p (hkept p hp)).trans hlatest, ?_⟩
    rw [← h.configured]
    exact age_of_mem_dropWhile h.ordered (hkept p hp)
  refine ⟨h.configured, ?_, ?_, ?_, ?_, ?_, h.trend⟩
  · refine List.pairwise_append.mpr ⟨hexpired.ordered.sublist (List.drop_sublist _ _),
      List.pairwise_singleton _ _, fun a ha b hb => ?_⟩
    rw [List.mem_singleton.mp hb]
    exact (hage a ha).1
  · intro p hp
    rcases List.mem_append.mp hp with hp | hp
    · exact (hage p hp).1
    · rw [List.mem_singleton.mp hp]
  · intro a ha b hb
    have hb' : b.sentAt ≤ packet.sentAt := by
      rcases List.mem_append.mp hb with hb | hb
      · exact (hage b hb).1
      · rw [List.mem_singleton.mp hb]
    rcases List.mem_append.mp ha with ha | ha
    · have := (hage a ha).2
      omega
    · rw [List.mem_singleton.mp ha]
      omega
  · have hlength := hexpired.room
    rw [hexpired.configured] at hroom hexcess
    show ((s.expireHistory packet.sentAt).history.drop excess ++ [packet]).length ≤ _
    rw [List.length_append, List.length_drop, List.length_singleton]
    omega
  · intro p hp
    rcases List.mem_append.mp hp with hp | hp
    · exact hexpired.sizes p (hkept p hp)
    · rwa [List.mem_singleton.mp hp]

theorem reportedNumber_inj (base : UInt16) {i j : ℕ} (hi : i < 65536) (hj : j < 65536)
    (h : reportedNumber base i = reportedNumber base j) : i = j := by
  rw [reportedNumber, reportedNumber, if_pos hi, if_pos hj, UInt16.add_right_inj] at h
  have hnat := congrArg UInt16.toNat h
  rwa [UInt16.toNat_ofNat', UInt16.toNat_ofNat', Nat.mod_eq_of_lt hi, Nat.mod_eq_of_lt hj] at hnat

/-- A packet is matched once. -/
theorem length_matchFrom_singleton (packet : SentPacket) (base : UInt16) {statuses : List TwccStatus}
    {offset : ℕ} (hlength : offset + statuses.length ≤ 65536) (ticks : ℤ) :
    (BandwidthEstimator.matchFrom [packet] base offset ticks statuses).length ≤ 1 := by
  induction statuses generalizing offset ticks with
  | nil => exact Nat.zero_le _
  | cons status statuses ih =>
    rw [List.length_cons] at hlength
    rw [BandwidthEstimator.matchFrom]
    cases hfind : ([packet].reverse.find? fun packet =>
        packet.sequenceNumber = reportedNumber base offset) with
    | none => exact ih (by omega) _
    | some sent =>
      have hnumber : packet.sequenceNumber = reportedNumber base offset := by
        have hmem := List.mem_of_find?_eq_some hfind
        have hsent := List.find?_some hfind
        rw [List.reverse_singleton, List.mem_singleton] at hmem
        rw [hmem] at hsent
        exact of_decide_eq_true hsent
      have hrest := @BandwidthEstimator.matchFrom_eq_nil [packet] base statuses (offset + 1) (by
        intro p hp i hi heq
        rw [List.mem_singleton.mp hp, hnumber] at heq
        have := reportedNumber_inj base (by omega) (by omega) heq
        omega)
      dsimp only
      rw [hrest]
      exact le_rfl

/-- A report about a history without two packets has no sample. -/
theorem sampleOf_eq_none {now : ℕ} {feedback : TransportWideFeedback} (hhistory : s.history.length ≤ 1)
    (hlength : feedback.statuses.length ≤ 65535) : sampleOf s now feedback = none := by
  have hone : ((s.expireHistory now).matchFeedback feedback).length ≤ 1 := by
    have hexpired : (s.expireHistory now).history.length ≤ 1 :=
      (List.dropWhile_sublist _).length_le.trans hhistory
    rw [BandwidthEstimator.matchFeedback]
    cases hsplit : (s.expireHistory now).history with
    | nil =>
      rw [BandwidthEstimator.matchFrom_eq_nil (by simp)]
      exact Nat.zero_le _
    | cons packet others =>
      obtain rfl : others = [] := by
        rw [hsplit, List.length_cons] at hexpired
        exact List.eq_nil_of_length_eq_zero (by omega)
      exact length_matchFrom_singleton packet _ (by omega) 0
  have hreceived := (length_receivedOf_le ((s.expireHistory now).matchFeedback feedback)).trans hone
  rw [sampleOf, Option.eq_none_iff_forall_ne_some]
  intro sample hsample
  obtain ⟨first, second, others, hsplit, -⟩ := exists_of_delaySample hsample (by omega)
  rw [hsplit] at hreceived
  simp at hreceived

theorem delayTrendMicros_processFeedback (s : BandwidthEstimator) (now : ℕ)
    (feedback : TransportWideFeedback) :
    (s.processFeedback now feedback).1.delayTrendMicros =
      (sampleOf s now feedback).elim s.delayTrendMicros fun sample =>
        (s.delayTrendMicros * 7 + sample).tdiv 8 := by
  rw [sampleOf, ← delaySampleMicros_eq, BandwidthEstimator.processFeedback]
  dsimp only [BandwidthEstimator.updateTarget]
  cases (CongestionControl.calculateMetrics
    ((s.expireHistory now).matchFeedback feedback)).delaySampleMicros <;> rfl

/-- A report moves only the trend and the target. -/
theorem Kept.processFeedback (h : Kept configuration latest s) (now : ℕ)
    (feedback : TransportWideFeedback)
    (htrend : -(configuration.longestDelay - 7) ≤ (s.processFeedback now feedback).1.delayTrendMicros ∧
      (s.processFeedback now feedback).1.delayTrendMicros ≤ 65534 * 32768 * 250) :
    Kept configuration latest (s.processFeedback now feedback).1 := by
  have hexpired := h.expireHistory now
  exact ⟨h.configured, hexpired.ordered, hexpired.past, hexpired.span, hexpired.room, hexpired.sizes,
    htrend⟩

theorem step_processFeedback (hshort : configuration.Short) (h : Kept configuration latest s) (now : ℕ)
    {feedback : TransportWideFeedback} (hlength : feedback.statuses.length ≤ 65535) :
    ∃ s', step s (.processFeedback now feedback) = .ok s' ∧ Kept configuration latest s' := by
  have htrend := delayTrendMicros_processFeedback s now feedback
  rw [step, processFeedback_eq h.sizes now hlength]
  cases hsample : sampleOf s now feedback with
  | none =>
    refine ⟨_, rfl, h.processFeedback now feedback ?_⟩
    rw [htrend, hsample]
    exact h.trend
  | some sample =>
    have hpackets : 1 < configuration.historyPackets := by
      by_contra hone
      rw [sampleOf_eq_none (h.room.trans (by omega)) hlength] at hsample
      cases hsample
    have hlowest : configuration.longestDelay ≤ 2 ^ 60 + 6 := hshort.resolve_left (by omega)
    have hage : (0 : ℤ) ≤ (configuration.historyAge / 1000 : ℕ) := Int.natCast_nonneg _
    have hpositive : 65534 * 32768 * 250 ≤ configuration.longestDelay := by
      rw [BandwidthEstimatorConfig.longestDelay]
      omega
    have hmem := delaySample_mem (h.expireHistory now).span hlength hsample
    obtain ⟨hnext, hbounds⟩ := nextTrend_mem hlowest hpositive h.trend hmem
    rw [Option.elim_some, hnext]
    refine ⟨_, rfl, h.processFeedback now feedback ?_⟩
    rwa [htrend, hsample]

/-- What holds of an estimator holds of what a run makes of it, unless the run does not end. -/
theorem run_kept (hshort : configuration.Short) (h : Kept configuration latest s) {events : List Event}
    (hsound : Sound events) (hlatest : ∀ time ∈ sendTimes events, latest ≤ time) :
    run s events = .error .endless ∨
      ∃ s' latest', run s events = .ok s' ∧ Kept configuration latest' s' := by
  induction events generalizing s latest with
  | nil => exact .inr ⟨s, latest, rfl, h⟩
  | cons event events ih =>
    have hsizes := fun packet hpacket => hsound.sizes packet (List.mem_cons_of_mem _ hpacket)
    have hcounts := fun now feedback hfeedback =>
      hsound.counts now feedback (List.mem_cons_of_mem _ hfeedback)
    rw [run, List.foldlM_cons]
    cases event with
    | registerSent packet =>
      obtain ⟨hbehind, hordered⟩ := List.pairwise_cons.mp hsound.ordered
      rw [step]
      cases hregister : s.registerSent packet with
      | none => exact .inl rfl
      | some next =>
        have hnext := h.registerSent (hlatest packet.sentAt List.mem_cons_self)
          (hsound.sizes packet List.mem_cons_self) hregister
        exact ih hnext ⟨hordered, hsizes, hcounts⟩ hbehind
    | processFeedback now feedback =>
      obtain ⟨next, hstep, hnext⟩ :=
        step_processFeedback hshort h now (hsound.counts now feedback List.mem_cons_self)
      rw [hstep]
      exact ih hnext ⟨hsound.ordered, hsizes, hcounts⟩ hlatest

/-! ## A history that is too long -/

/-- Two packets, as far apart as eight times the lowest sample needs to leave its type. -/
def Sample.first : SentPacket := ⟨0, 0, 0⟩
def Sample.last : SentPacket := ⟨65534, 1000 * (2 ^ 60 + 7 - 65534 * 32768 * 250), 0⟩

/-- The last packet came as early as a report can say. -/
def Sample.report : TransportWideFeedback :=
  ⟨0, 0, 0, 0, 0, .receivedSmallDelta 0 :: List.replicate 65534 (.receivedLargeDelta (-32768))⟩

/-- The same report again and again. -/
def Sample.events (reports : ℕ) : List Event :=
  [.registerSent Sample.first, .registerSent Sample.last] ++
    List.replicate reports (.processFeedback Sample.last.sentAt Sample.report)

theorem sound_events (reports : ℕ) : Sound (Sample.events reports) where
  ordered := by
    have hreports : sendTimes (List.replicate reports
        (.processFeedback Sample.last.sentAt Sample.report)) = [] := by
      refine List.filterMap_eq_nil_iff.mpr fun event hevent => ?_
      rw [List.eq_of_mem_replicate hevent]
    rw [Sample.events, sendTimes, List.filterMap_append, ← sendTimes, ← sendTimes, hreports]
    decide
  sizes := by
    intro packet hpacket
    rcases List.mem_append.mp hpacket with hpacket | hpacket
    · rcases List.mem_cons.mp hpacket with hpacket | hpacket
      · cases hpacket
        decide
      · cases List.mem_singleton.mp hpacket
        decide
    · cases List.eq_of_mem_replicate hpacket
  counts := by
    intro now feedback hfeedback
    rcases List.mem_append.mp hfeedback with hfeedback | hfeedback
    · rcases List.mem_cons.mp hfeedback with hfeedback | hfeedback
      · cases hfeedback
      · cases List.mem_singleton.mp hfeedback
    · cases List.eq_of_mem_replicate hfeedback
      rw [Sample.report, List.length_cons, List.length_replicate]

/-- The packet that a status of the report is about. -/
theorem find_reported {offset : ℕ} (hoffset : offset < 65536) :
    [Sample.first, Sample.last].reverse.find? (fun packet =>
      packet.sequenceNumber = reportedNumber 0 offset) =
      if offset = 65534 then some Sample.last else if offset = 0 then some Sample.first else none := by
  have hlast : Sample.last.sequenceNumber = reportedNumber 0 offset ↔ offset = 65534 := by
    constructor
    · intro h
      exact (@reportedNumber_inj 0 65534 offset (by decide) hoffset h).symm
    · rintro rfl
      rfl
  have hfirst : Sample.first.sequenceNumber = reportedNumber 0 offset ↔ offset = 0 := by
    constructor
    · intro h
      exact (@reportedNumber_inj 0 0 offset (by decide) hoffset h).symm
    · rintro rfl
      rfl
  have hreverse : [Sample.first, Sample.last].reverse = [Sample.last, Sample.first] := rfl
  rw [hreverse, List.find?_cons, List.find?_singleton]
  simp only [hlast, hfirst]
  by_cases h : offset = 65534 <;> simp [h]

theorem matchFrom_last {between : ℕ} {offset : ℕ} (hoffset : offset ≠ 0)
    (hlast : offset + between = 65534) (ticks : ℤ) :
    BandwidthEstimator.matchFrom [Sample.first, Sample.last] 0 offset ticks
      (List.replicate (between + 1) (.receivedLargeDelta (-32768))) =
        [⟨Sample.last.sentAt, 0, some ((ticks - 32768 * (between + 1 : ℕ)) * 250)⟩] := by
  have hdelta : deltaTicks (.receivedLargeDelta (-32768)) = some (-32768) := by decide
  induction between generalizing offset ticks with
  | zero =>
    rw [List.replicate_one, BandwidthEstimator.matchFrom, find_reported (by omega), if_pos (by omega),
      hdelta]
    rfl
  | succ between ih =>
    rw [List.replicate_succ, BandwidthEstimator.matchFrom, find_reported (by omega), if_neg (by omega),
      if_neg hoffset, hdelta]
    dsimp only
    rw [ih (by omega) (by omega), Option.getD_some]
    congr 4
    push_cast
    ring

variable {s : BandwidthEstimator}

/-- A history that is not too old is kept. -/
theorem expireHistory_first {others : List SentPacket} (hhistory : s.history = Sample.first :: others)
    (hage : Sample.last.sentAt ≤ s.configuration.historyAge) :
    (s.expireHistory Sample.last.sentAt).history = Sample.first :: others := by
  rw [BandwidthEstimator.expireHistory, hhistory, List.dropWhile_cons_of_neg]
  rw [decide_eq_true_eq]
  omega

/-- The report has the sample that is eight times out of range. -/
theorem sampleOf_report (hhistory : s.history = [Sample.first, Sample.last])
    (hage : Sample.last.sentAt ≤ s.configuration.historyAge) :
    sampleOf s Sample.last.sentAt Sample.report = some (-(2 ^ 60 + 7)) := by
  have hexpired := expireHistory_first hhistory hage
  have hbehind : BandwidthEstimator.matchFrom [Sample.first, Sample.last] 0 1 0
      (List.replicate 65534 (.receivedLargeDelta (-32768))) =
        [⟨Sample.last.sentAt, 0, some ((0 - 32768 * (65533 + 1 : ℕ)) * 250)⟩] :=
    @matchFrom_last 65533 1 (by decide) rfl 0
  have hdelta : deltaTicks (.receivedSmallDelta 0) = some 0 := rfl
  have hmatch : (s.expireHistory Sample.last.sentAt).matchFeedback Sample.report =
      [⟨Sample.first.sentAt, 0, some 0⟩,
        ⟨Sample.last.sentAt, 0, some ((0 - 32768 * (65533 + 1 : ℕ)) * 250)⟩] := by
    rw [BandwidthEstimator.matchFeedback, hexpired, Sample.report, BandwidthEstimator.matchFrom,
      find_reported (by decide), if_neg (by decide), if_pos rfl, hdelta, Option.getD_some, Int.add_zero,
      Nat.zero_add, hbehind]
    rfl
  rw [sampleOf, hmatch]
  decide

/-- The estimator holds the two packets, and so many reports have lowered its trend. -/
structure Falling (configuration : BandwidthEstimatorConfig) (reports : ℕ) (s : BandwidthEstimator) :
    Prop where
  configured : s.configuration = configuration
  history : s.history = [Sample.first, Sample.last]
  trend : s.delayTrendMicros ≤ -reports

theorem registerSent_of_room {packet : SentPacket}
    (hroom : (s.expireHistory packet.sentAt).history.length < s.configuration.historyPackets) :
    ∃ s', s.registerSent packet = some s' ∧ s'.configuration = s.configuration ∧
      s'.history = (s.expireHistory packet.sentAt).history ++ [packet] ∧
      s'.delayTrendMicros = s.delayTrendMicros := by
  have hpackets : s.configuration.historyPackets ≠ 0 := by omega
  have hexcess : (s.expireHistory packet.sentAt).history.length + 1 -
      (s.expireHistory packet.sentAt).configuration.historyPackets = 0 := by
    show _ - s.configuration.historyPackets = 0
    omega
  refine ⟨_, if_neg hpackets, rfl, ?_, rfl⟩
  dsimp only
  rw [hexcess, List.drop_zero]

theorem run_registered {configuration : BandwidthEstimatorConfig}
    (hpackets : 1 < configuration.historyPackets)
    (hage : Sample.last.sentAt ≤ configuration.historyAge) :
    ∃ s, run (.new configuration) (Sample.events 0) = .ok s ∧ Falling configuration 0 s := by
  obtain ⟨one, hfirst, hone, hhistory, htrend⟩ :=
    @registerSent_of_room (.new configuration) Sample.first (Nat.zero_lt_of_lt hpackets)
  have hconfigured : one.configuration = configuration := hone
  have hexpired := expireHistory_first hhistory (by rw [hconfigured]; exact hage)
  obtain ⟨two, hlast, htwo, hboth, hsame⟩ := @registerSent_of_room one Sample.last (by
    rw [hexpired, hconfigured]
    exact hpackets)
  refine ⟨two, ?_, htwo.trans hconfigured, ?_, ?_⟩
  · rw [Sample.events, List.replicate_zero, List.append_nil, run, List.foldlM_cons, step, hfirst,
      Option.elim_some, bind_ok, List.foldlM_cons, step, hlast]
    rfl
  · rw [hboth, hexpired]
    rfl
  · rw [hsame, htrend]
    rfl

/-- One more report lowers the trend by a microsecond, or is a fault. -/
theorem Falling.step {configuration : BandwidthEstimatorConfig} {reports : ℕ}
    (h : Falling configuration reports s) (hage : Sample.last.sentAt ≤ configuration.historyAge) :
    (∃ fault, step s (.processFeedback Sample.last.sentAt Sample.report) = .error (.fault fault)) ∨
      reports < 2 ^ 60 ∧ ∃ s', step s (.processFeedback Sample.last.sentAt Sample.report) = .ok s' ∧
        Falling configuration (reports + 1) s' := by
  have hsizes : ∀ packet ∈ s.history, packet.sizeBytes ≤ u64Max := by
    rw [h.history]
    decide
  have hsample := sampleOf_report h.history (h.configured ▸ hage)
  have htrend := delayTrendMicros_processFeedback s Sample.last.sentAt Sample.report
  have hlength : Sample.report.statuses.length ≤ 65535 := by
    rw [Sample.report, List.length_cons, List.length_replicate]
  rw [Strict.step, processFeedback_eq hsizes _ hlength, hsample, Option.elim_some]
  cases hnext : nextTrend s.delayTrendMicros (-(2 ^ 60 + 7)) with
  | error fault => exact .inl ⟨fault, rfl⟩
  | ok trend =>
    have hfits : i64Min ≤ s.delayTrendMicros * 7 + -(2 ^ 60 + 7) := by
      simp only [nextTrend, i64, within, bind_eq_ok] at hnext
      obtain ⟨scaled, hscaled, sum, hsum, -⟩ := hnext
      split_ifs at hscaled hsum with hscaledMem hsumMem
      cases hscaled
      exact hsumMem.1
    have hfall := h.trend
    simp only [i64Min] at hfits
    refine .inr ⟨by omega, _, rfl, h.configured, ?_, ?_⟩
    · exact expireHistory_first h.history (h.configured ▸ hage)
    · rw [htrend, hsample, Option.elim_some, tdiv_of_nonpos 8 (by omega)]
      omega

/-- A run of reports that has no fault lowers the trend by as many microseconds. -/
theorem run_falling {configuration : BandwidthEstimatorConfig}
    (hpackets : 1 < configuration.historyPackets)
    (hage : Sample.last.sentAt ≤ configuration.historyAge)
    (hfaults : ∀ reports fault, run (.new configuration) (Sample.events reports) ≠ .error (.fault fault))
    (reports : ℕ) :
    reports ≤ 2 ^ 60 ∧
      ∃ s, run (.new configuration) (Sample.events reports) = .ok s ∧ Falling configuration reports s := by
  induction reports with
  | zero => exact ⟨Nat.zero_le _, run_registered hpackets hage⟩
  | succ reports ih =>
    obtain ⟨-, s, hrun, hfalling⟩ := ih
    have hevents : Sample.events (reports + 1) =
        Sample.events reports ++ [.processFeedback Sample.last.sentAt Sample.report] := by
      rw [Sample.events, List.replicate_succ', ← List.append_assoc, ← Sample.events]
    have hnext : run (.new configuration) (Sample.events (reports + 1)) =
        step s (.processFeedback Sample.last.sentAt Sample.report) := by
      rw [run, hevents, List.foldlM_append, ← run, hrun, bind_ok, List.foldlM_cons]
      cases step s (.processFeedback Sample.last.sentAt Sample.report) <;> rfl
    rw [hnext]
    rcases hfalling.step hage with ⟨fault, hfault⟩ | ⟨hfew, hfalls⟩
    · exact absurd (hnext.trans hfault) (hfaults (reports + 1) fault)
    · exact ⟨hfew, hfalls⟩

end Strict

open Strict

/-- Runs are without faults, and the target stays between its limits, exactly when the history has no two
packets or is short enough. -/
theorem no_faults_iff (configuration : BandwidthEstimatorConfig) :
    (∀ events, Sound events →
      (∀ fault, run (.new configuration) events ≠ .error (.fault fault)) ∧
        ∀ s, run (.new configuration) events = .ok s →
          configuration.minimumBitrateBps ≤ s.targetBitrateBps ∧
            s.targetBitrateBps ≤ configuration.maximumBitrateBps) ↔ configuration.Short := by
  constructor
  · intro hruns
    by_contra hlong
    rw [BandwidthEstimatorConfig.Short, not_or, BandwidthEstimatorConfig.longestDelay] at hlong
    have hage : Sample.last.sentAt ≤ configuration.historyAge := by
      show 1000 * (2 ^ 60 + 7 - 65534 * 32768 * 250) ≤ configuration.historyAge
      omega
    have hfalls := run_falling (by omega) hage
      (fun reports fault => (hruns _ (sound_events reports)).1 fault) (2 ^ 60 + 1)
    omega
  · intro hshort events hsound
    have hkept := run_kept hshort (kept_new configuration) hsound fun _ _ => Nat.zero_le _
    refine ⟨fun fault hfault => ?_, fun s hs => ?_⟩
    · rcases hkept with hendless | ⟨s', -, hok, -⟩
      · rw [hendless] at hfault
        cases hfault
      · rw [hok] at hfault
        cases hfault
    · rcases hkept with hendless | ⟨s', latest', hok, hend⟩
      · rw [hendless] at hs
        cases hs
      · rw [hok] at hs
        cases hs
        have hminimum := s.minimum_le_target
        have hmaximum := s.target_le_maximum
        rw [hend.configured] at hminimum hmaximum
        exact ⟨hminimum, hmaximum⟩

/-- A history that reaches over `i64::MAX` microseconds. -/
def Sample.longHistory : BandwidthEstimatorConfig := { BandwidthEstimatorConfig.default with
  historyAge := 9223372036854775808000 }

/-- Two packets that far apart, and two reports about both. -/
def Sample.farApart : List Event :=
  [.registerSent ⟨0, 0, 1200⟩, .registerSent ⟨1, 9223372036854775808000, 1200⟩,
    .processFeedback 9223372036854775808000
      ⟨1, 2, 0, 0, 0, [.receivedSmallDelta 0, .receivedSmallDelta 0]⟩,
    .processFeedback 9223372036854775808000
      ⟨1, 2, 0, 0, 0, [.receivedSmallDelta 0, .receivedSmallDelta 0]⟩]

theorem second_report_overflows :
    Sound Sample.farApart ∧
      run (.new Sample.longHistory) Sample.farApart = .error (.fault .overflow) := by
  refine ⟨⟨by decide, ?_, ?_⟩, by decide⟩
  · intro packet hpacket
    simp only [Sample.farApart, List.mem_cons, Event.registerSent.injEq, reduceCtorEq, List.not_mem_nil,
      or_false] at hpacket
    rcases hpacket with rfl | rfl <;> decide
  · intro now feedback hfeedback
    simp only [Sample.farApart, List.mem_cons, Event.processFeedback.injEq, reduceCtorEq,
      List.not_mem_nil, or_false, false_or, or_self] at hfeedback
    obtain ⟨-, rfl⟩ := hfeedback
    decide

end Fluvora.CongestionControl
