import Fluvora.DataChannel.SendWindow
import Fluvora.DataChannel.Writes

/-!
# The TSNs that are kept

`handleSack` takes any cumulative TSN, so outstanding and abandoned chunks need not lie behind it.
What holds in every run is that they are among the last 257 TSNs assigned: a message is queued only if
the flight leaves room, and a SACK that moves the cumulative TSN drops what lies before it.
`recent_runInputs` gives this for every run, and `DataPacket` for every packet kept.
-/

open Std (ExtTreeMap)

namespace Fluvora.DataChannel

namespace Association

variable {s t : Association}

/-- Among the last 257 TSNs assigned, and not behind the cumulative one. -/
structure Recent (nextTsn outboundCumulativeTsn tsn : UInt32) : Prop where
  pos : 0 < (nextTsn - tsn).toNat
  le : (nextTsn - tsn).toNat ≤ maxOutstanding + 1
  ahead : tsn = outboundCumulativeTsn ∨ sequenceLessOrEqual tsn outboundCumulativeTsn = false

theorem sequenceLessOrEqual_eq_false {a b : UInt32} :
    sequenceLessOrEqual a b = false ↔ 2 ^ 31 ≤ (b - a).toNat := by
  rw [sequenceLessOrEqual, decide_eq_false_iff_not, UInt32.lt_iff_toNat_lt, not_lt]
  rfl

/-- Queueing moves the kept TSNs back, within the window. -/
theorem Recent.queued {nextTsn oc tsn : UInt32} {count : ℕ} (h : Recent nextTsn oc tsn)
    (hroom : (nextTsn - oc).toNat - 1 + count ≤ maxOutstanding) :
    Recent (nextTsn + .ofNat count) oc tsn := by
  obtain ⟨hpos, hle, hahead⟩ := h
  unfold maxOutstanding at hroom hle
  have hnext : (nextTsn + UInt32.ofNat count - tsn).toNat = (nextTsn - tsn).toNat + count := by
    have hbase : nextTsn + UInt32.ofNat count = tsn + UInt32.ofNat ((nextTsn - tsn).toNat + count) := by
      rw [UInt32.ofNat_add, ← UInt32.add_assoc, Serial.add_ofNat_toNat_sub]
    rw [hbase, Serial.toNat_add_ofNat_sub]
    omega
  have hspan : (nextTsn - tsn).toNat + count ≤ maxOutstanding + 1 := by
    unfold maxOutstanding
    rcases hahead with rfl | hbehind
    · omega
    · -- the cumulative TSN is behind, so the flight covers the TSN
      rw [sequenceLessOrEqual_eq_false] at hbehind
      have hflight : (nextTsn - oc).toNat = (nextTsn - tsn).toNat + (2 ^ 32 - (oc - tsn).toNat) := by
        have hn := nextTsn.toNat_lt
        have ho := oc.toNat_lt
        have ht := tsn.toNat_lt
        clear hnext hroom hpos
        simp only [UInt32.toNat_sub] at hbehind hle ⊢
        omega
      have hlt := (oc - tsn).toNat_lt
      omega
  exact ⟨by omega, by rw [hnext]; exact hspan, hahead⟩

/-- A TSN that is assigned now. -/
theorem Recent.fresh {nextTsn oc : UInt32} {count i : ℕ} (hi : i < count)
    (hroom : (nextTsn - oc).toNat - 1 + count ≤ maxOutstanding) :
    Recent (nextTsn + .ofNat count) oc (nextTsn + .ofNat i) := by
  unfold maxOutstanding at hroom
  have hnext : (nextTsn + UInt32.ofNat count - (nextTsn + UInt32.ofNat i)).toNat = count - i := by
    have hbase : nextTsn + UInt32.ofNat count =
        nextTsn + UInt32.ofNat i + UInt32.ofNat (count - i) := by
      rw [UInt32.add_assoc, ← UInt32.ofNat_add]
      congr 2
      omega
    rw [hbase, Serial.toNat_add_ofNat_sub]
    omega
  refine ⟨by omega, by rw [hnext]; unfold maxOutstanding; omega, ?_⟩
  rw [sequenceLessOrEqual_eq_false]
  have hoffset : nextTsn + UInt32.ofNat i = oc + UInt32.ofNat ((nextTsn - oc).toNat + i) := by
    rw [UInt32.ofNat_add, ← UInt32.add_assoc, Serial.add_ofNat_toNat_sub]
  rw [hoffset]
  rcases Nat.eq_zero_or_pos ((nextTsn - oc).toNat + i) with hzero | hpos
  · left
    rw [hzero]
    simp
  · right
    have hback : (oc - (oc + UInt32.ofNat ((nextTsn - oc).toNat + i))).toNat =
        2 ^ 32 - ((nextTsn - oc).toNat + i) := by
      have hminus : oc - (oc + UInt32.ofNat ((nextTsn - oc).toNat + i)) =
          -UInt32.ofNat ((nextTsn - oc).toNat + i) := by grind
      rw [hminus, UInt32.toNat_neg, UInt32.toNat_ofNat']
      simp only [UInt32.size]
      omega
    omega

/-- The chunks that are kept: the outstanding ones in DATA packets, all under recent TSNs. -/
structure KeptRecent (s : Association) : Prop where
  outstanding : ∀ tsn ∈ s.outstanding, Recent s.nextTsn s.outboundCumulativeTsn tsn
  abandoned : ∀ tsn ∈ s.abandoned, Recent s.nextTsn s.outboundCumulativeTsn tsn
  packets : ∀ (tsn : UInt32) (chunk : Outstanding), s.outstanding[tsn]? = some chunk →
    DataPacket s.config chunk.packet

theorem SameSend.keptRecent (h : SameSend s t) (hs : KeptRecent s) : KeptRecent t := by
  refine ⟨?_, ?_, ?_⟩
  · rw [h.outstanding, h.nextTsn, h.outboundCumulativeTsn]
    exact hs.outstanding
  · rw [h.abandoned, h.nextTsn, h.outboundCumulativeTsn]
    exact hs.abandoned
  · rw [h.outstanding, h.config]
    exact hs.packets

/-- Under a TSN there is after queueing what was there before, or the fragment of that offset. -/
theorem Queued.getElem? {now : ℕ} {message : OutboundMessage} {packets : List Bytes}
    (h : Queued now message packets s t) (tsn : UInt32) :
    t.outstanding[tsn]? =
      if (tsn - s.nextTsn).toNat < packets.length then
        (packets[(tsn - s.nextTsn).toNat]?).map (freshChunk now message s.nextMessageId)
      else s.outstanding[tsn]? := by
  have hroom := hasRoom_le h.room
  unfold maxOutstanding at hroom
  rw [h.outstanding, getElem?_insertFrom]
  · rw [List.length_map, List.getElem?_map]
  · rw [List.length_map]
    omega

theorem Queued.keptRecent {now : ℕ} {message : OutboundMessage} {packets : List Bytes}
    (h : Queued now message packets s t) (hs : KeptRecent s) : KeptRecent t := by
  have hroom := hasRoom_flight h.room
  refine ⟨?_, ?_, ?_⟩
  · intro tsn htsn
    rw [Maps.mem_iff_exists, h.getElem?] at htsn
    rw [h.nextTsn, h.outboundCumulativeTsn]
    split_ifs at htsn with hnew
    · have hfresh := @Recent.fresh s.nextTsn s.outboundCumulativeTsn _ _ hnew hroom
      rwa [Serial.add_ofNat_toNat_sub] at hfresh
    · exact (hs.outstanding tsn (Maps.mem_iff_exists.mpr htsn)).queued hroom
  · intro tsn htsn
    rw [h.abandoned] at htsn
    rw [h.nextTsn, h.outboundCumulativeTsn]
    exact (hs.abandoned tsn htsn).queued hroom
  · intro tsn chunk hchunk
    rw [h.getElem?] at hchunk
    rw [h.config]
    split_ifs at hchunk with hnew
    · rw [Option.map_eq_some_iff] at hchunk
      obtain ⟨packet, hpacket, rfl⟩ := hchunk
      exact h.data packet (List.mem_of_getElem? hpacket)
    · exact hs.packets tsn chunk hchunk

/-- What a SACK leaves outstanding was outstanding and is not behind its cumulative TSN. -/
theorem getElem?_sacked {value : Bytes} {cumulative tsn : UInt32} {gapCount : ℕ} {chunk : Outstanding}
    (h : (sacked value cumulative gapCount s).outstanding[tsn]? = some chunk) :
    s.outstanding[tsn]? = some chunk ∧ sequenceLessOrEqual tsn cumulative = false := by
  have hblocks : ∀ (blocks : List (UInt16 × UInt16)) (m : ExtTreeMap UInt32 Outstanding),
      (ackBlocks cumulative blocks m)[tsn]? = some chunk → m[tsn]? = some chunk := by
    intro blocks
    induction blocks with
    | nil => exact fun m h => h
    | cons block rest ih =>
      intro m h
      have hrange := ih (ackRange cumulative block.1.toNat block.2.toNat m) h
      rw [ackRange, Maps.getElem?_foldl_erase] at hrange
      exact hrange.1
  have hfilter := hblocks _ _ h
  simpa [ackCumulative, Maps.getElem?_filter_eq_some] using hfilter

theorem keptRecent_sacked {value : Bytes} {cumulative : UInt32} {gapCount : ℕ} (hs : KeptRecent s) :
    KeptRecent (sacked value cumulative gapCount s) := by
  have hmoved (tsn : UInt32) (h : Recent s.nextTsn s.outboundCumulativeTsn tsn)
      (hkept : sequenceLessOrEqual tsn cumulative = false) :
      Recent s.nextTsn (sacked value cumulative gapCount s).outboundCumulativeTsn tsn := by
    refine ⟨h.pos, h.le, ?_⟩
    simp only [sacked, ackCumulative]
    split_ifs
    · exact .inr hkept
    · exact h.ahead
  refine ⟨?_, ?_, ?_⟩
  · intro tsn htsn
    obtain ⟨chunk, hchunk⟩ := Maps.mem_iff_exists.mp htsn
    obtain ⟨hold, hkept⟩ := getElem?_sacked hchunk
    exact hmoved tsn (hs.outstanding tsn (Maps.mem_of_getElem? hold)) hkept
  · intro tsn htsn
    have hfilter : tsn ∈ s.abandoned.filter fun tsn _ => !sequenceLessOrEqual tsn cumulative := htsn
    obtain ⟨hold, hkept⟩ := ExtTreeMap.mem_filter.mp hfilter
    exact hmoved tsn (hs.abandoned tsn hold) (by simpa using hkept)
  · intro tsn chunk hchunk
    exact hs.packets tsn chunk (getElem?_sacked hchunk).1

/-- A chunk after a tick is one from before, perhaps sent again. -/
theorem getElem?_tick {now : ℕ} {tsn : UInt32} {chunk : Outstanding}
    (h : (tick now s).2.outstanding[tsn]? = some chunk) :
    ∃ old, s.outstanding[tsn]? = some old ∧ (chunk = old ∨ chunk = Outstanding.refreshed now old) := by
  have heffect := tick_effect now s
  generalize (tick now s).1 = output, (tick now s).2 = t at heffect h
  cases heffect with
  | idle => exact ⟨chunk, h, .inl rfl⟩
  | @failed before _ _ _ _ _ _ _ hout =>
    rw [hout, refreshedUnder] at h
    split_ifs at h
    · obtain ⟨old, hold, rfl⟩ := Option.map_eq_some_iff.mp h
      exact ⟨old, hold, .inr rfl⟩
    · exact ⟨chunk, h, .inl rfl⟩
  | kept _ _ _ _ _ hout =>
    rw [hout] at h
    obtain ⟨old, hold, rfl⟩ := Option.map_eq_some_iff.mp h
    exact ⟨old, (Option.filter_eq_some_iff.mp hold).1, .inr rfl⟩

theorem Outstanding.packet_refreshed (now : ℕ) (chunk : Outstanding) :
    (Outstanding.refreshed now chunk).packet = chunk.packet := by
  unfold Outstanding.refreshed
  split_ifs <;> rfl

theorem keptRecent_tick (now : ℕ) (hs : KeptRecent s) : KeptRecent (tick now s).2 := by
  obtain ⟨state, outstanding, abandoned, pendingForwardTsn, hrun, -, hout, haband⟩ := tick_run now s
  refine ⟨?_, ?_, ?_⟩
  · rw [hrun]
    exact fun tsn htsn => hs.outstanding tsn (hout tsn htsn)
  · rw [hrun]
    exact fun tsn htsn => (haband tsn htsn).elim (hs.abandoned tsn) (hs.outstanding tsn)
  · intro tsn chunk hchunk
    obtain ⟨old, hold, hsame⟩ := getElem?_tick hchunk
    have hconfig : (tick now s).2.config = s.config := by rw [hrun]
    rw [hconfig]
    rcases hsame with rfl | rfl
    · exact hs.packets tsn chunk hold
    · rw [Outstanding.packet_refreshed]
      exact hs.packets tsn old hold

theorem keptRecent_restart (init : InitChunk) (s : Association) : KeptRecent (restart init s) :=
  ⟨by simp [restart], by simp [restart], by simp [restart]⟩

theorem WriteEffect.keptRecent {cause : Cause} (h : WriteEffect s cause t) (hs : KeptRecent s) :
    KeptRecent t := by
  cases h with
  | same h => exact h.keptRecent hs
  | queued h => exact h.keptRecent hs
  | restart init => exact keptRecent_restart init s
  | refused => exact hs
  | sack => exact keptRecent_sacked hs
  | tick now => exact keptRecent_tick now hs

theorem keptRecent_new {config : AssociationConfig} (h : new config = .ok s) : KeptRecent s := by
  unfold new at h
  rcases hvalid : config.validate with error | ⟨⟩
  · rw [hvalid] at h
    cases h
  rw [hvalid] at h
  cases h
  exact ⟨by simp, by simp, by simp⟩

/-- In every run, whatever the SACKs say, the kept chunks are under recent TSNs. -/
theorem Chain.keptRecent {writes : List Write} (h : Chain s writes t) (hs : KeptRecent s) :
    KeptRecent t :=
  h.invariant (fun _ _ heffect hbefore => heffect.keptRecent hbefore) hs

/-- At most 257 chunks are abandoned and not yet behind the cumulative TSN. -/
theorem KeptRecent.size_abandoned_le (hs : KeptRecent s) : s.abandoned.size ≤ maxOutstanding + 1 := by
  refine Maps.size_le_of_forall_mem (fun tsn => (s.nextTsn - tsn).toNat - 1) ?_ ?_
  · intro tsn htsn other hother heq
    have htsn := (hs.abandoned tsn htsn).pos
    have hother := (hs.abandoned other hother).pos
    have hsame : (s.nextTsn - tsn).toNat = (s.nextTsn - other).toNat := by omega
    rw [UInt32.toNat_inj] at hsame
    grind
  · intro tsn htsn
    have hpos := (hs.abandoned tsn htsn).pos
    have hle := (hs.abandoned tsn htsn).le
    omega

end Association

end Fluvora.DataChannel
