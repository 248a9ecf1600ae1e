import Fluvora.DataChannel.Reachable

/-!
# The send window

`InFlight` is the invariant of the send side: at most 256 TSNs are assigned and not cumulatively
acknowledged, and every outstanding or abandoned chunk lies between the cumulative TSN and the next
one.  Everything but a SACK keeps it.  `handleSack` takes the peer's cumulative TSN without comparing
it with what has been sent, so a SACK keeps it exactly when it acknowledges nothing unsent; the
theorem is about the runs in which no SACK does.
-/

open Std (ExtTreeMap)

namespace Fluvora.DataChannel

open Fallible

namespace Association

/-- A TSN strictly between the cumulative TSN and the next one. -/
def Sent (nextTsn outboundCumulativeTsn tsn : UInt32) : Prop :=
  0 < (tsn - outboundCumulativeTsn).toNat ∧
    (tsn - outboundCumulativeTsn).toNat < (nextTsn - outboundCumulativeTsn).toNat

/-- The flight is bounded, and outstanding and abandoned chunks are part of it. -/
structure InFlight (nextTsn outboundCumulativeTsn : UInt32)
    (outstanding : ExtTreeMap UInt32 Outstanding) (abandoned : ExtTreeMap UInt32 Abandoned) :
    Prop where
  pos : 0 < (nextTsn - outboundCumulativeTsn).toNat
  le : (nextTsn - outboundCumulativeTsn).toNat ≤ maxOutstanding + 1
  outstanding : ∀ tsn ∈ outstanding, Sent nextTsn outboundCumulativeTsn tsn
  abandoned : ∀ tsn ∈ abandoned, Sent nextTsn outboundCumulativeTsn tsn

/-- The send side of a state is in order. -/
def WindowKept (s : Association) : Prop :=
  InFlight s.nextTsn s.outboundCumulativeTsn s.outstanding s.abandoned

theorem windowKept_start (config : AssociationConfig) :
    InFlight config.initialTsn (config.initialTsn - 1) ∅ ∅ := by
  have hone : config.initialTsn - (config.initialTsn - 1) = 1 := by grind
  refine ⟨?_, ?_, ?_, ?_⟩
  · rw [hone]
    decide
  · rw [hone]
    decide
  · intro tsn h
    exact absurd h ExtTreeMap.not_mem_empty
  · intro tsn h
    exact absurd h ExtTreeMap.not_mem_empty

/-- Assigning `count` more TSNs, within the window, keeps the flight in order. -/
theorem InFlight.enqueue {nextTsn oc : UInt32} {outstanding outstanding' : ExtTreeMap UInt32 Outstanding}
    {abandoned : ExtTreeMap UInt32 Abandoned} {count : ℕ}
    (h : InFlight nextTsn oc outstanding abandoned)
    (hroom : (nextTsn - oc).toNat - 1 + count ≤ maxOutstanding)
    (hmem : ∀ tsn, tsn ∈ outstanding' ↔
      tsn ∈ outstanding ∨ ∃ i < count, tsn = nextTsn + .ofNat i) :
    InFlight (nextTsn + .ofNat count) oc outstanding' abandoned := by
  have hpos := h.pos
  have hle := h.le
  have hoffset : ∀ i ≤ count, (nextTsn + UInt32.ofNat i - oc).toNat = (nextTsn - oc).toNat + i := by
    intro i hi
    have hbase : nextTsn + UInt32.ofNat i = oc + UInt32.ofNat ((nextTsn - oc).toNat + i) := by
      rw [UInt32.ofNat_add, ← UInt32.add_assoc, Serial.add_ofNat_toNat_sub]
    rw [hbase, Serial.toNat_add_ofNat_sub]
    unfold maxOutstanding at hroom
    omega
  have hnext := hoffset count le_rfl
  refine ⟨by omega, by omega, ?_, ?_⟩
  · intro tsn htsn
    rcases (hmem tsn).mp htsn with hold | ⟨i, hi, rfl⟩
    · obtain ⟨hlo, hhi⟩ := h.outstanding tsn hold
      exact ⟨hlo, by omega⟩
    · have := hoffset i hi.le
      exact ⟨by omega, by omega⟩
  · intro tsn htsn
    obtain ⟨hlo, hhi⟩ := h.abandoned tsn htsn
    exact ⟨hlo, by omega⟩

/-- The window check of `enqueueMessage` bounds the flight. -/
theorem hasRoom_flight {s : Association} {count : ℕ} (h : s.hasRoom count = true) :
    (s.nextTsn - s.outboundCumulativeTsn).toNat - 1 + count ≤ maxOutstanding := by
  rw [hasRoom, Bool.and_eq_true, decide_eq_true_eq, decide_eq_true_eq] at h
  exact h.2

theorem ReceiveStep.windowKept {s t : Association} (h : ReceiveStep s t) (hs : WindowKept s) :
    WindowKept t := by
  cases h with
  | write => exact hs
  | process h =>
    cases h with
    | fragment => exact hs
    | message => exact hs
    | @opened payload channel packets outstanding hpayload hend hppid hroom hparse hout =>
      refine @InFlight.enqueue _ _ _ _ _ 1 hs (hasRoom_flight hroom) ?_
      intro tsn
      rw [hout]
      simp

theorem windowKept_receive {s t : Association} (h : Relation.ReflTransGen ReceiveStep s t)
    (hs : WindowKept s) : WindowKept t := by
  induction h with
  | refl => exact hs
  | tail _ hstep ih => exact hstep.windowKept ih

/-- The cumulative TSN of a SACK is behind the known one, or has been sent. -/
def acknowledgesSent (s : Association) (cumulative : UInt32) : Bool :=
  sequenceLessOrEqual cumulative s.outboundCumulativeTsn ||
    (cumulative - s.outboundCumulativeTsn).toNat < (s.nextTsn - s.outboundCumulativeTsn).toNat

/-- A SACK that the association accepts acknowledges nothing that has not been sent. -/
def sackInRange (tag : UInt32) (chunk : ParsedChunk) (s : Association) : Bool :=
  chunk.kind ≠ typeSack || tag ≠ s.config.verificationTag ||
    (sackHeader chunk.value).all fun header => s.acknowledgesSent header.1

/-- Fewer outstanding and abandoned chunks are still part of the flight. -/
theorem InFlight.mono {nextTsn oc : UInt32} {outstanding outstanding' : ExtTreeMap UInt32 Outstanding}
    {abandoned abandoned' : ExtTreeMap UInt32 Abandoned}
    (h : InFlight nextTsn oc outstanding abandoned)
    (hout : ∀ tsn ∈ outstanding', tsn ∈ outstanding)
    (haband : ∀ tsn ∈ abandoned', tsn ∈ abandoned ∨ tsn ∈ outstanding) :
    InFlight nextTsn oc outstanding' abandoned' :=
  ⟨h.pos, h.le, fun tsn htsn => h.outstanding tsn (hout tsn htsn),
    fun tsn htsn => (haband tsn htsn).elim (h.abandoned tsn) (h.outstanding tsn)⟩

/-- A sent TSN that a cumulative TSN in the flight does not cover lies behind it. -/
theorem Sent.of_not_covered {nextTsn oc cumulative tsn : UInt32} (h : Sent nextTsn oc tsn)
    (hle : (nextTsn - oc).toNat ≤ maxOutstanding + 1)
    (hcum : (cumulative - oc).toNat < (nextTsn - oc).toNat)
    (hcovered : sequenceLessOrEqual tsn cumulative = false) : Sent nextTsn cumulative tsn := by
  obtain ⟨hlo, hhi⟩ := h
  have hbehind : (cumulative - oc).toNat < (tsn - oc).toNat := by
    by_contra hnot
    have hdistance := Serial.toNat_sub_eq (by omega : (tsn - oc).toNat ≤ (cumulative - oc).toNat)
    rw [sequenceLessOrEqual, decide_eq_false_iff_not, UInt32.lt_iff_toNat_lt] at hcovered
    have : (0x80000000 : UInt32).toNat = 2 ^ 31 := rfl
    unfold maxOutstanding at hle
    omega
  have htsn := Serial.toNat_sub_eq hbehind.le
  have hnext := Serial.toNat_sub_eq hcum.le
  exact ⟨by omega, by omega⟩

theorem windowKept_ackCumulative {s : Association} {cumulative : UInt32} (hs : WindowKept s)
    (h : s.acknowledgesSent cumulative = true) : WindowKept (ackCumulative cumulative s) := by
  have hkept : InFlight s.nextTsn s.outboundCumulativeTsn
      (ackCumulative cumulative s).outstanding (ackCumulative cumulative s).abandoned := by
    refine InFlight.mono hs ?_ ?_
    · intro tsn htsn
      exact (ExtTreeMap.mem_filter.mp htsn).1
    · intro tsn htsn
      exact .inl (ExtTreeMap.mem_filter.mp htsn).1
  by_cases hbehind : sequenceLessOrEqual cumulative s.outboundCumulativeTsn = true
  · have hsame : (ackCumulative cumulative s).outboundCumulativeTsn = s.outboundCumulativeTsn := by
      simp [ackCumulative, hbehind]
    rw [WindowKept, hsame]
    exact hkept
  · have hmoved : (ackCumulative cumulative s).outboundCumulativeTsn = cumulative := by
      simp [ackCumulative, hbehind]
    have hsent : (cumulative - s.outboundCumulativeTsn).toNat <
        (s.nextTsn - s.outboundCumulativeTsn).toNat := by
      simpa [acknowledgesSent, hbehind] using h
    have hnext := Serial.toNat_sub_eq hsent.le
    have hle := hkept.le
    rw [WindowKept, hmoved]
    refine ⟨?_, ?_, ?_, ?_⟩
    · show 0 < (s.nextTsn - cumulative).toNat
      omega
    · show (s.nextTsn - cumulative).toNat ≤ maxOutstanding + 1
      omega
    · intro tsn htsn
      refine Sent.of_not_covered (hkept.outstanding tsn htsn) hle hsent ?_
      obtain ⟨_, hfilter⟩ := ExtTreeMap.mem_filter.mp htsn
      simpa using hfilter
    · intro tsn htsn
      refine Sent.of_not_covered (hkept.abandoned tsn htsn) hle hsent ?_
      obtain ⟨_, hfilter⟩ := ExtTreeMap.mem_filter.mp htsn
      simpa using hfilter

theorem ChunkEffect.windowKept {tag : UInt32} {chunk : ParsedChunk} {s t : Association}
    (h : ChunkEffect tag chunk s t) (hs : WindowKept s)
    (hrange : sackInRange tag chunk s = true) : WindowKept t := by
  cases h with
  | unchanged => exact hs
  | restart init => exact windowKept_start s.config
  | established => exact hs
  | closed => exact hs
  | receive hsteps => exact windowKept_receive hsteps hs
  | @sack cumulative gapCount hkind htag hheader =>
    have hsent : s.acknowledgesSent cumulative = true := by
      rw [sackInRange, hheader] at hrange
      simpa [hkind, htag] using hrange
    have hkept := windowKept_ackCumulative hs hsent
    exact ⟨hkept.pos, hkept.le, fun tsn htsn => hkept.outstanding tsn (mem_ackBlocks.mp htsn).1,
      hkept.abandoned⟩
  | reset h =>
    obtain ⟨hframe, -⟩ := h
    rw [hframe]
    exact hs

theorem windowKept_sendMessage (now : ℕ) (streamId : UInt16) (kind : MessageKind)
    (payload : Bytes) {s : Association} (hsound : Sound s) (hs : WindowKept s) :
    WindowKept ((sendMessage now streamId kind payload).run s).2 := by
  obtain ⟨error, hrun⟩ | ⟨hstate, channel, message, wire, -, hrun⟩ :=
    sendMessage_run now streamId kind payload s
  · rw [hrun]
    exact hs
  · obtain ⟨peer, hpeer⟩ := hsound.known (.inr hstate)
    rw [hrun]
    obtain ⟨-, hqueue⟩ | ⟨hroom, packets, outstanding, hqueue, hmem⟩ :=
      enqueueMessage_run now message wire { s with
        channels := s.channels.insert streamId
          { channel with nextOutgoingSequence := channel.nextOutgoingSequence + 1 } } hpeer
    · rw [hqueue]
      exact hs
    · rw [hqueue]
      exact InFlight.enqueue hs (hasRoom_flight hroom) hmem

theorem windowKept_tick (now : ℕ) {s : Association} (hs : WindowKept s) :
    WindowKept (tick now s).2 := by
  obtain ⟨state, outstanding, abandoned, pendingForwardTsn, hrun, -, hout, haband⟩ := tick_run now s
  rw [hrun]
  exact InFlight.mono hs hout haband

theorem windowKept_new {config : AssociationConfig} {s : Association} (h : new config = .ok s) :
    WindowKept s := by
  unfold new at h
  rcases hvalid : config.validate with error | ⟨⟩
  · rw [hvalid] at h
    cases h
  rw [hvalid] at h
  cases h
  exact windowKept_start config

theorem windowKept_runInputs {config : AssociationConfig} {start : Association}
    (hnew : new config = .ok start) (inputs : List Input)
    (hrange : allMeet (everyChunk sackInRange) inputs start = true) :
    WindowKept (runInputs inputs start) := by
  have hboth : Sound (runInputs inputs start) ∧ WindowKept (runInputs inputs start) := by
    refine runInputs_invariant (I := fun s => Sound s ∧ WindowKept s) ?_ ?_ ?_ inputs
      ⟨sound_new hnew, windowKept_new hnew⟩ hrange
    · intro now tag chunks s hs hcondition
      refine handleChunks_invariant (I := fun s => Sound s ∧ WindowKept s) now tag ?_ chunks hs
        hcondition
      rintro chunk s ⟨hsound, hkept⟩ hcondition
      have heffect := handleChunk_effect now tag chunk hsound
      exact ⟨heffect.sound hsound, heffect.windowKept hkept hcondition⟩
    · rintro now streamId kind payload s ⟨hsound, hkept⟩
      exact ⟨sound_sendMessage now streamId kind payload hsound,
        windowKept_sendMessage now streamId kind payload hsound hkept⟩
    · rintro now s ⟨hsound, hkept⟩
      exact ⟨sound_tick now hsound, windowKept_tick now hkept⟩
  exact hboth.2

/-! ## The window in serial order -/

/-- Strictly before, in serial order. -/
def serialLess (a b : UInt32) : Bool := a != b && sequenceLessOrEqual a b

theorem serialLess_of_toNat {a b : UInt32} (hpos : 0 < (b - a).toNat)
    (hle : (b - a).toNat < 2 ^ 31) : serialLess a b = true := by
  have hne : a ≠ b := by
    rintro rfl
    simp at hpos
  have hlt : sequenceLessOrEqual a b = true := by
    rw [sequenceLessOrEqual, decide_eq_true_eq, UInt32.lt_iff_toNat_lt]
    exact hle
  simp [serialLess, hne, hlt]

/-- At most 256 TSNs in flight, and the outstanding and abandoned ones strictly between the
cumulative TSN and the next one. -/
def WindowBounded (s : Association) : Prop :=
  (s.nextTsn - 1 - s.outboundCumulativeTsn).toNat ≤ 256 ∧
    ∀ tsn, tsn ∈ s.outstanding ∨ tsn ∈ s.abandoned →
      serialLess s.outboundCumulativeTsn tsn = true ∧ serialLess tsn s.nextTsn = true

theorem WindowKept.bounded {s : Association} (h : WindowKept s) : WindowBounded s := by
  have hle := h.le
  refine ⟨?_, ?_⟩
  · have hpos := h.pos
    have hone := Serial.toNat_sub_add_ofNat (n := 1) hpos
    rw [show UInt32.ofNat 1 = 1 from rfl] at hone
    rw [show s.nextTsn - 1 - s.outboundCumulativeTsn = s.nextTsn - (s.outboundCumulativeTsn + 1) by
      grind, hone]
    unfold maxOutstanding at hle
    omega
  · intro tsn htsn
    obtain ⟨hlo, hhi⟩ : Sent s.nextTsn s.outboundCumulativeTsn tsn :=
      htsn.elim (h.outstanding tsn) (h.abandoned tsn)
    have hahead := Serial.toNat_sub_eq hhi.le
    unfold maxOutstanding at hle
    exact ⟨serialLess_of_toNat hlo (by omega), serialLess_of_toNat (by omega) (by omega)⟩

/-- In every run in which no accepted SACK acknowledges an unsent TSN, the send window is bounded
in every state reached. -/
theorem windowBounded_of_sacks_in_range {config : AssociationConfig} {start : Association}
    (hnew : new config = .ok start) (inputs : List Input)
    (hrange : allMeet (everyChunk sackInRange) inputs start = true) :
    WindowBounded (runInputs inputs start) :=
  (windowKept_runInputs hnew inputs hrange).bounded

/-- A run with a channel, an acknowledged ACK and one message in flight. -/
theorem windowBounded_of_sacks_in_range_sample :
    ∃ start, new Sample.config = .ok start ∧
      (runInputs (Sample.establish false ++
        [.packet 2000000 (Sample.data 3 500 0 0 ppidDcep Sample.dcepOpenPayload),
          .packet 3000000 (Sample.peerPacket 0x11223344 typeSack 0 (Sample.sack 1000)),
          .send 4000000 0 .binary [1, 2, 3]]) start).outstanding.keys = [1001] ∧
      WindowBounded (runInputs (Sample.establish false ++
        [.packet 2000000 (Sample.data 3 500 0 0 ppidDcep Sample.dcepOpenPayload),
          .packet 3000000 (Sample.peerPacket 0x11223344 typeSack 0 (Sample.sack 1000)),
          .send 4000000 0 .binary [1, 2, 3]]) start) := by
  refine ⟨_, rfl, by decide +kernel, ?_⟩
  exact @windowBounded_of_sacks_in_range Sample.config _ rfl _ (by decide +kernel)

/-- A SACK for TSN 1005 of an association that has sent nothing: the cumulative TSN passes the next
TSN, and the flight spans almost the whole number space. -/
theorem unsent_sack_not_windowBounded :
    ∃ start, new Sample.config = .ok start ∧
      ¬WindowBounded (runInputs (Sample.establish false ++
        [.packet 2000000 (Sample.peerPacket 0x11223344 typeSack 0 (Sample.sack 1005))]) start) := by
  refine ⟨_, rfl, fun h => ?_⟩
  have hspan := h.1
  revert hspan
  decide +kernel

end Association

end Fluvora.DataChannel
