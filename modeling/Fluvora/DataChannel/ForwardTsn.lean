import Fluvora.DataChannel.SendWindow
import Fluvora.DataChannel.PacketSize
import Fluvora.DataChannel.PartialReliability

/-!
# What a FORWARD TSN skips

The last record of a TSN in the ledger is its fate.  `Fated` ties the fates to the state: in the flight
a TSN that is not outstanding has been acknowledged or abandoned, and `abandoned` holds what was
abandoned.  A FORWARD TSN that `tick` sends therefore skips only such TSNs, as long as no SACK has
acknowledged an unsent TSN: after such a SACK a new message can lie at or behind the cumulative TSN,
and a FORWARD TSN passes it.
-/

open Std (ExtTreeMap)

namespace Fluvora.DataChannel

open Fallible

namespace Association

variable {s t : Association} {now : ℕ} {records added : List Record} {tsn : UInt32}

/-! ## Fates -/

/-- The TSN that a record is about. -/
def Record.subject : Record → Option UInt32
  | .transmitted _ tsn _ => some tsn
  | .acknowledged tsn => some tsn
  | .abandoned tsn _ => some tsn
  | _ => none

/-- The last record about a TSN. -/
def fate (records : List Record) (tsn : UInt32) : Option Record :=
  (records.filter fun record => record.subject = some tsn).getLast?

theorem fate_append (records added : List Record) (tsn : UInt32) :
    fate (records ++ added) tsn = (fate added tsn).or (fate records tsn) := by
  rw [fate, List.filter_append, List.getLast?_append]
  rfl

theorem fate_append_of_not (h : ∀ record ∈ added, record.subject ≠ some tsn) :
    fate (records ++ added) tsn = fate records tsn := by
  have hnone : (added.filter fun record => record.subject = some tsn) = [] := by
    rw [List.filter_eq_nil_iff]
    simpa using h
  rw [fate_append, fate, hnone]
  rfl

/-- The fate of a TSN with added records is one of them. -/
theorem fate_append_of_exists (records : List Record)
    (h : ∃ record ∈ added, record.subject = some tsn) :
    ∃ record ∈ added, record.subject = some tsn ∧ fate (records ++ added) tsn = some record := by
  obtain ⟨record, hrecord, htsn⟩ := h
  have hmem : record ∈ added.filter fun record => record.subject = some tsn := by
    simp [hrecord, htsn]
  rcases hlast : (added.filter fun record => record.subject = some tsn).getLast? with _ | last
  · rw [List.getLast?_eq_none_iff.mp hlast] at hmem
    cases hmem
  · obtain ⟨hnew, hlasttsn⟩ := List.mem_filter.mp (List.mem_of_getLast? hlast)
    refine ⟨last, hnew, by simpa using hlasttsn, ?_⟩
    rw [fate_append, fate, hlast]
    rfl

/-- A TSN is done with: it was acknowledged, or abandoned with a message that is not reliable. -/
def Settled (records : List Record) (tsn : UInt32) : Prop :=
  fate records tsn = some (.acknowledged tsn) ∨
    ∃ chunk, fate records tsn = some (.abandoned tsn chunk) ∧ chunk.reliability ≠ .reliable

/-- The fates of the TSNs in flight. -/
structure Fated (records : List Record) (s : Association) : Prop where
  flying : ∀ tsn, Sent s.nextTsn s.outboundCumulativeTsn tsn → tsn ∈ s.outstanding →
    ∃ message chunk, fate records tsn = some (.transmitted message tsn chunk)
  settled : ∀ tsn, Sent s.nextTsn s.outboundCumulativeTsn tsn → tsn ∉ s.outstanding →
    Settled records tsn
  abandoned : ∀ tsn, Sent s.nextTsn s.outboundCumulativeTsn tsn → ∀ entry : Abandoned,
    s.abandoned[tsn]? = some entry ↔
      ∃ chunk, fate records tsn = some (.abandoned tsn chunk) ∧ Outstanding.abandon chunk = entry

theorem Settled.congr {records' : List Record} (h : Settled records tsn)
    (hfate : fate records' tsn = fate records tsn) : Settled records' tsn := by
  rw [Settled, hfate]
  exact h

/-- Nothing outstanding or abandoned has another status than before, and nothing more is in flight. -/
theorem Fated.congr (h : Fated records s)
    (hsent : ∀ tsn, Sent t.nextTsn t.outboundCumulativeTsn tsn →
      Sent s.nextTsn s.outboundCumulativeTsn tsn ∧
        (tsn ∈ t.outstanding ↔ tsn ∈ s.outstanding) ∧ t.abandoned[tsn]? = s.abandoned[tsn]?) :
    Fated records t := by
  refine ⟨?_, ?_, ?_⟩
  · intro tsn htsn hmem
    obtain ⟨hsent, hout, -⟩ := hsent tsn htsn
    exact h.flying tsn hsent (hout.mp hmem)
  · intro tsn htsn hmem
    obtain ⟨hsent, hout, -⟩ := hsent tsn htsn
    exact h.settled tsn hsent fun hold => hmem (hout.mpr hold)
  · intro tsn htsn entry
    obtain ⟨hsent, -, haband⟩ := hsent tsn htsn
    rw [haband]
    exact h.abandoned tsn hsent entry

/-! ## Queueing -/

theorem Queued.sent_cases {message : OutboundMessage} {packets : List Bytes}
    (h : Queued now message packets s t) (hkept : WindowKept s)
    (hsent : Sent t.nextTsn t.outboundCumulativeTsn tsn) :
    (∃ (i : ℕ) (packet : Bytes), packets[i]? = some packet ∧ tsn = s.nextTsn + UInt32.ofNat i ∧
        ¬Sent s.nextTsn s.outboundCumulativeTsn tsn) ∨
      Sent s.nextTsn s.outboundCumulativeTsn tsn ∧
        ∀ i < packets.length, tsn ≠ s.nextTsn + UInt32.ofNat i := by
  have hroom := hasRoom_flight h.room
  have hpos := hkept.pos
  unfold maxOutstanding at hroom
  obtain ⟨hlo, hhi⟩ := hsent
  rw [h.outboundCumulativeTsn] at hlo hhi
  have hoffset (i : ℕ) (hi : i ≤ packets.length) :
      (s.nextTsn + UInt32.ofNat i - s.outboundCumulativeTsn).toNat =
        (s.nextTsn - s.outboundCumulativeTsn).toNat + i := by
    have hbase : s.nextTsn + UInt32.ofNat i = s.outboundCumulativeTsn +
        UInt32.ofNat ((s.nextTsn - s.outboundCumulativeTsn).toNat + i) := by
      rw [UInt32.ofNat_add, ← UInt32.add_assoc, Serial.add_ofNat_toNat_sub]
    rw [hbase, Serial.toNat_add_ofNat_sub _ (by omega)]
  rw [h.nextTsn, hoffset _ le_rfl] at hhi
  by_cases hold : (tsn - s.outboundCumulativeTsn).toNat <
      (s.nextTsn - s.outboundCumulativeTsn).toNat
  · refine .inr ⟨⟨hlo, hold⟩, fun i hi heq => ?_⟩
    rw [heq, hoffset i hi.le] at hold
    omega
  · have hdistance := Serial.toNat_sub_eq (not_lt.mp hold)
    have hi : (tsn - s.nextTsn).toNat < packets.length := by omega
    exact .inl ⟨(tsn - s.nextTsn).toNat, packets[(tsn - s.nextTsn).toNat],
      List.getElem?_eq_getElem hi, (Serial.add_ofNat_toNat_sub s.nextTsn tsn).symm,
      fun hsent => hold hsent.2⟩

theorem Fated.queued {message : OutboundMessage} {packets : List Bytes} {queued : ℕ}
    (h : Fated records s) (hkept : WindowKept s) (hqueued : Queued now message packets s t) :
    Fated (records ++ queuedRecords queued s t) t := by
  have hroom := hasRoom_flight hqueued.room
  unfold maxOutstanding at hroom
  have hfresh {i : ℕ} {packet : Bytes} (hpacket : packets[i]? = some packet) :
      s.nextTsn + UInt32.ofNat i ∈ t.outstanding ∧
        ∃ chunk, fate (records ++ queuedRecords queued s t) (s.nextTsn + UInt32.ofNat i) =
          some (.transmitted queued (s.nextTsn + UInt32.ofNat i) chunk) := by
    obtain ⟨hi, -⟩ := List.getElem?_eq_some_iff.mp hpacket
    refine ⟨?_, ?_⟩
    · refine Maps.mem_iff_exists.mpr ⟨freshChunk now message s.nextMessageId packet, ?_⟩
      rw [hqueued.getElem?, Serial.toNat_add_ofNat_sub _ (by omega), if_pos hi, hpacket]
      rfl
    · obtain ⟨record, hrecord, htsn, hfate⟩ := fate_append_of_exists records
        ⟨_, (mem_queuedRecords queued hqueued).mpr ⟨i, packet, hpacket, rfl⟩, rfl⟩
      obtain ⟨j, packet', -, rfl⟩ := (mem_queuedRecords queued hqueued).mp hrecord
      rw [Record.subject, Option.some.injEq] at htsn
      rw [hfate, htsn]
      exact ⟨_, rfl⟩
  have hother {tsn : UInt32} (hnot : ∀ i < packets.length, tsn ≠ s.nextTsn + UInt32.ofNat i) :
      (tsn ∈ t.outstanding ↔ tsn ∈ s.outstanding) ∧
        fate (records ++ queuedRecords queued s t) tsn = fate records tsn := by
    refine ⟨?_, fate_append_of_not ?_⟩
    · rw [Maps.mem_iff_exists, Maps.mem_iff_exists, hqueued.getElem?, if_neg]
      exact fun hi => hnot _ hi (Serial.add_ofNat_toNat_sub s.nextTsn tsn).symm
    · intro record hrecord htsn
      obtain ⟨i, packet, hpacket, rfl⟩ := (mem_queuedRecords queued hqueued).mp hrecord
      obtain ⟨hi, -⟩ := List.getElem?_eq_some_iff.mp hpacket
      exact hnot i hi (Option.some.inj htsn).symm
  refine ⟨?_, ?_, ?_⟩
  · intro tsn htsn hmem
    obtain ⟨i, packet, hpacket, rfl, -⟩ | ⟨hsent, hnot⟩ := hqueued.sent_cases hkept htsn
    · obtain ⟨chunk, hfate⟩ := (hfresh hpacket).2
      exact ⟨queued, chunk, hfate⟩
    · obtain ⟨hout, hfate⟩ := hother hnot
      rw [hfate]
      exact h.flying tsn hsent (hout.mp hmem)
  · intro tsn htsn hmem
    obtain ⟨i, packet, hpacket, rfl, -⟩ | ⟨hsent, hnot⟩ := hqueued.sent_cases hkept htsn
    · exact absurd (hfresh hpacket).1 hmem
    · obtain ⟨hout, hfate⟩ := hother hnot
      exact (h.settled tsn hsent fun hold => hmem (hout.mpr hold)).congr hfate
  · intro tsn htsn entry
    rw [hqueued.abandoned]
    obtain ⟨i, packet, hpacket, rfl, hunsent⟩ | ⟨hsent, hnot⟩ := hqueued.sent_cases hkept htsn
    · obtain ⟨chunk, hfate⟩ := (hfresh hpacket).2
      constructor
      · exact fun hfind => absurd (hkept.abandoned _ (Maps.mem_of_getElem? hfind)) hunsent
      · rintro ⟨chunk', hfate', -⟩
        rw [hfate] at hfate'
        cases hfate'
    · rw [(hother hnot).2]
      exact h.abandoned tsn hsent entry

/-! ## Acknowledging -/

theorem fate_acknowledged (records : List Record) (tsns : List UInt32) (tsn : UInt32) :
    fate (records ++ tsns.map .acknowledged) tsn =
      if tsn ∈ tsns then some (.acknowledged tsn) else fate records tsn := by
  split_ifs with hmem
  · obtain ⟨record, hrecord, htsn, hfate⟩ := fate_append_of_exists records
      ⟨Record.acknowledged tsn, List.mem_map_of_mem hmem, rfl⟩
    obtain ⟨other, -, rfl⟩ := List.mem_map.mp hrecord
    rw [hfate, ← Option.some.inj htsn]
  · refine fate_append_of_not fun record hrecord htsn => hmem ?_
    obtain ⟨other, hother, rfl⟩ := List.mem_map.mp hrecord
    rwa [← Option.some.inj htsn]

/-- A SACK of sent TSNs leaves fewer TSNs in flight. -/
theorem sent_of_sacked {value : Bytes} {cumulative : UInt32} {gapCount : ℕ}
    (hrange : s.acknowledgesSent cumulative = true)
    (h : Sent (sacked value cumulative gapCount s).nextTsn
      (sacked value cumulative gapCount s).outboundCumulativeTsn tsn) :
    Sent s.nextTsn s.outboundCumulativeTsn tsn := by
  have hoc : (sacked value cumulative gapCount s).outboundCumulativeTsn =
      if !sequenceLessOrEqual cumulative s.outboundCumulativeTsn then cumulative
      else s.outboundCumulativeTsn := rfl
  have hnext : (sacked value cumulative gapCount s).nextTsn = s.nextTsn := rfl
  rw [hoc, hnext] at h
  rcases hbehind : sequenceLessOrEqual cumulative s.outboundCumulativeTsn
  · rw [hbehind] at h
    have hcum : (cumulative - s.outboundCumulativeTsn).toNat <
        (s.nextTsn - s.outboundCumulativeTsn).toNat := by
      simpa [acknowledgesSent, hbehind] using hrange
    obtain ⟨hlo, hhi⟩ : Sent s.nextTsn cumulative tsn := h
    have hnext := Serial.toNat_sub_eq hcum.le
    have hbound := (s.nextTsn - s.outboundCumulativeTsn).toNat_lt
    have hoffset : tsn = s.outboundCumulativeTsn +
        UInt32.ofNat ((cumulative - s.outboundCumulativeTsn).toNat + (tsn - cumulative).toNat) := by
      rw [UInt32.ofNat_add, ← UInt32.add_assoc, Serial.add_ofNat_toNat_sub, Serial.add_ofNat_toNat_sub]
    have hdistance := Serial.toNat_add_ofNat_sub s.outboundCumulativeTsn
      (n := (cumulative - s.outboundCumulativeTsn).toNat + (tsn - cumulative).toNat) (by omega)
    rw [← hoffset] at hdistance
    exact ⟨by omega, by omega⟩
  · rw [hbehind] at h
    exact h

theorem Fated.sacked {value : Bytes} {cumulative : UInt32} {gapCount : ℕ} (h : Fated records s)
    (hheader : sackHeader value = some (cumulative, gapCount))
    (hrange : s.acknowledgesSent cumulative = true) :
    Fated (records ++ (s.acknowledgedTsns value).map .acknowledged)
      (Association.sacked value cumulative gapCount s) := by
  have hout (tsn : UInt32) : tsn ∈ (Association.sacked value cumulative gapCount s).outstanding ↔
      tsn ∈ s.outstanding ∧ sackNames value tsn = false := by
    simp only [Maps.mem_iff_exists, getElem?_sacked_iff hheader, exists_and_right]
  have hpasses {tsn : UInt32} (h : sackPasses value tsn = true) : sackNames value tsn = true := by
    rw [sackPasses, hheader, Option.any_some] at h
    rw [sackNames, hheader, Option.any_some, h, Bool.true_or]
  have hmem (tsn : UInt32) : tsn ∈ s.acknowledgedTsns value ↔
      tsn ∈ s.outstanding ∧ sackNames value tsn = true ∨
        tsn ∈ s.abandoned ∧ sackPasses value tsn = true := by
    simp [acknowledgedTsns]
  refine ⟨?_, ?_, ?_⟩
  · intro tsn htsn hflying
    obtain ⟨hold, hunnamed⟩ := (hout tsn).mp hflying
    rw [fate_acknowledged, if_neg]
    · exact h.flying tsn (sent_of_sacked hrange htsn) hold
    · rw [hmem]
      rintro (⟨-, hnamed⟩ | ⟨-, hpassed⟩)
      · rw [hunnamed] at hnamed
        cases hnamed
      · rw [hpasses hpassed] at hunnamed
        cases hunnamed
  · intro tsn htsn hgone
    rw [Settled, fate_acknowledged]
    split_ifs with hacked
    · exact .inl rfl
    · refine h.settled tsn (sent_of_sacked hrange htsn) fun hold => ?_
      rw [hmem, not_or, not_and] at hacked
      exact hgone ((hout tsn).mpr ⟨hold, by simpa using hacked.1 hold⟩)
  · intro tsn htsn entry
    have hsent := sent_of_sacked hrange htsn
    have hfilter : (Association.sacked value cumulative gapCount s).abandoned[tsn]? = some entry ↔
        s.abandoned[tsn]? = some entry ∧ sackPasses value tsn = false := by
      have hkept : (Association.sacked value cumulative gapCount s).abandoned =
          s.abandoned.filter fun tsn _ => !sequenceLessOrEqual tsn cumulative := rfl
      rw [hkept, Maps.getElem?_filter_eq_some, sackPasses, hheader, Option.any_some, Bool.not_eq_true']
    rw [hfilter, fate_acknowledged]
    split_ifs with hacked
    · rcases (hmem tsn).mp hacked with ⟨hold, -⟩ | ⟨-, hpassed⟩
      · obtain ⟨message, chunk, hfate⟩ := h.flying tsn hsent hold
        constructor
        · rintro ⟨hfind, -⟩
          obtain ⟨other, hother, -⟩ := (h.abandoned tsn hsent entry).mp hfind
          rw [hfate] at hother
          cases hother
        · rintro ⟨other, hother, -⟩
          cases hother
      · simp [hpassed]
    · rw [← h.abandoned tsn hsent entry]
      refine and_iff_left_of_imp fun hfind => ?_
      rw [hmem, not_or, not_and] at hacked
      simpa [Maps.mem_of_getElem? hfind] using hacked.2

/-! ## One tick -/

/-- The records of a tick about a TSN: it is abandoned with its message, or sent again. -/
def TickSubjects (s : Association) (ids : List UInt64) (added : List Record) : Prop :=
  ∀ record ∈ added, ∀ tsn, record.subject = some tsn → ∃ chunk, s.outstanding[tsn]? = some chunk ∧
    (chunk.messageId ∈ ids ∧ record = .abandoned tsn chunk ∨
      chunk.messageId ∉ ids ∧ ∃ message, record = .transmitted message tsn chunk)

theorem Fated.ticked {entries : List (UInt32 × Outstanding)} {ids : List UInt64}
    (h : Fated records s) (hticked : Ticked now s entries ids t) (hnew : TickSubjects s ids added)
    (hall : ∀ (tsn : UInt32) (chunk : Outstanding), s.outstanding[tsn]? = some chunk →
      chunk.messageId ∈ ids → .abandoned tsn chunk ∈ added ∧ chunk.reliability ≠ .reliable) :
    Fated (records ++ added) t := by
  have hsame {tsn : UInt32} (hnone : s.outstanding[tsn]? = none) :
      fate (records ++ added) tsn = fate records tsn := by
    refine fate_append_of_not fun record hrecord htsn => ?_
    obtain ⟨chunk, hchunk, -⟩ := hnew record hrecord tsn htsn
    rw [hnone] at hchunk
    cases hchunk
  have habandoned {tsn : UInt32} {chunk : Outstanding} (hchunk : s.outstanding[tsn]? = some chunk)
      (hid : chunk.messageId ∈ ids) : fate (records ++ added) tsn = some (.abandoned tsn chunk) := by
    obtain ⟨record, hrecord, htsn, hfate⟩ := fate_append_of_exists records
      ⟨_, (hall tsn chunk hchunk hid).1, rfl⟩
    obtain ⟨other, hother, ⟨-, rfl⟩ | ⟨hnot, -⟩⟩ := hnew record hrecord tsn htsn
    · rw [hchunk] at hother
      obtain rfl := Option.some.inj hother
      exact hfate
    · rw [hchunk] at hother
      obtain rfl := Option.some.inj hother
      exact absurd hid hnot
  have hflying {tsn : UInt32} {chunk : Outstanding}
      (hsent : Sent s.nextTsn s.outboundCumulativeTsn tsn)
      (hchunk : s.outstanding[tsn]? = some chunk) (hid : chunk.messageId ∉ ids) :
      ∃ message chunk, fate (records ++ added) tsn = some (.transmitted message tsn chunk) := by
    by_cases hagain : ∃ record ∈ added, record.subject = some tsn
    · obtain ⟨record, hrecord, htsn, hfate⟩ := fate_append_of_exists records hagain
      obtain ⟨other, hother, ⟨hin, -⟩ | ⟨-, message, rfl⟩⟩ := hnew record hrecord tsn htsn
      · rw [hchunk] at hother
        obtain rfl := Option.some.inj hother
        exact absurd hin hid
      · exact ⟨message, other, hfate⟩
    · rw [not_exists] at hagain
      rw [fate_append_of_not fun record hrecord htsn => hagain record ⟨hrecord, htsn⟩]
      exact h.flying tsn hsent (Maps.mem_of_getElem? hchunk)
  refine ⟨?_, ?_, ?_⟩ <;> intro tsn hsent <;>
    rw [hticked.nextTsn, hticked.outboundCumulativeTsn] at hsent
  · intro hmem
    obtain ⟨chunk, hchunk⟩ := Maps.mem_iff_exists.mp hmem
    obtain ⟨old, hold, hid, -⟩ := (hticked.outstanding tsn chunk).mp hchunk
    exact hflying hsent hold hid
  · intro hgone
    rcases hold : s.outstanding[tsn]? with _ | old
    · exact (h.settled tsn hsent (Maps.not_mem_iff.mpr hold)).congr (hsame hold)
    · by_cases hid : old.messageId ∈ ids
      · exact .inr ⟨old, habandoned hold hid, (hall tsn old hold hid).2⟩
      · have hkept := (hticked.outstanding tsn _).mpr ⟨old, hold, hid, rfl⟩
        exact absurd (Maps.mem_of_getElem? hkept) hgone
  · intro entry
    rw [hticked.abandoned]
    rcases hold : s.outstanding[tsn]? with _ | old
    · rw [hsame hold]
      exact h.abandoned tsn hsent entry
    by_cases hid : old.messageId ∈ ids
    · rw [abandonedUnder, if_pos hid, habandoned hold hid]
      simp
    · obtain ⟨message, chunk, hfate⟩ := hflying hsent hold hid
      obtain ⟨message', chunk', hfate'⟩ := h.flying tsn hsent (Maps.mem_of_getElem? hold)
      rw [abandonedUnder, if_neg hid, h.abandoned tsn hsent entry, hfate, hfate']
      simp

theorem fated_tick {ledger : Ledger} (h : Fated ledger.records s) (hkept : LedgerKept ledger s)
    (now : ℕ) :
    Fated (ledger.records ++ s.tickRecords now ledger.queued) (tick now s).2 := by
  have hopen (hstate : s.state = .established) : SameAttempts s := by
    refine hkept.attempts ?_
    by_contra hfailed
    rw [Bool.not_eq_false] at hfailed
    rcases hkept.halted hfailed with hhalted | hhalted <;> rw [hstate] at hhalted <;> cases hhalted
  obtain ⟨hrecords, htick⟩ | ⟨tsn, hstate, hrecords, -, hticked⟩ |
    ⟨hstate, hrecords, -, hpassed, -, hmessages, -, hticked⟩ := tick_cases now ledger.queued s
  · rw [hrecords, htick, List.append_nil]
    exact h
  · rw [hrecords]
    refine h.ticked hticked ?_ (by simp)
    intro record hrecord other htsn
    rcases List.mem_append.mp hrecord with hrecord | hrecord
    · obtain ⟨_, chunk, hchunk, -, -, rfl⟩ := mem_sentAgain hticked hrecord
      obtain rfl := Option.some.inj htsn
      exact ⟨chunk, hchunk, .inr ⟨by simp, _, rfl⟩⟩
    · rw [List.mem_singleton.mp hrecord] at htsn
      cases htsn
  · have hagain : s.againRecords now ledger.queued =
        (resentEntries now s.outstanding.toList).map (sentAgain ledger.queued s) := by
      rw [againRecords, hpassed]
      rfl
    rw [hrecords, hagain]
    refine h.ticked hticked ?_ ?_
    · intro record hrecord other htsn
      rcases List.mem_append.mp hrecord with hrecord | hrecord
      · rcases List.mem_append.mp hrecord with hrecord | hrecord
        · obtain ⟨entry, hentry, rfl⟩ := List.mem_map.mp hrecord
          obtain ⟨hentry, hid⟩ := List.mem_filter.mp hentry
          obtain rfl := Option.some.inj htsn
          exact ⟨entry.2, ExtTreeMap.mem_toList_iff_getElem?_eq_some.mp hentry,
            .inl ⟨by simpa using hid, rfl⟩⟩
        · obtain ⟨message, -, rfl⟩ := List.mem_map.mp hrecord
          cases htsn
      · obtain ⟨_, chunk, hchunk, -, hresent, rfl⟩ := mem_sentAgain hticked hrecord
        obtain rfl := Option.some.inj htsn
        refine ⟨chunk, hchunk, .inr ⟨fun hid => ?_, _, rfl⟩⟩
        -- a message is sent again or abandoned as a whole
        obtain ⟨tsn', chunk', hchunk', habandon, hsame⟩ := (hmessages _).mp hid
        have hequal := Outstanding.shouldAbandon_congr now
          (hkept.origin _ _ chunk' chunk hchunk' hchunk hsame)
          (hopen hstate _ _ chunk' chunk hchunk' hchunk hsame)
        rw [habandon, not_shouldAbandon_of_resent hresent] at hequal
        cases hequal
    · intro tsn chunk hchunk hid
      refine ⟨List.mem_append_left _
        (List.mem_append_left _ (List.mem_map.mpr ⟨(tsn, chunk), ?_, rfl⟩)), ?_⟩
      · exact List.mem_filter.mpr
          ⟨ExtTreeMap.mem_toList_iff_getElem?_eq_some.mpr hchunk, by simpa using hid⟩
      · obtain ⟨tsn', chunk', hchunk', habandon, hsame⟩ := (hmessages _).mp hid
        have horigin := hkept.origin _ _ chunk' chunk hchunk' hchunk hsame
        simp only [Outstanding.origin, Prod.mk.injEq] at horigin
        exact horigin.2.2.1 ▸ reliability_ne_of_shouldAbandon habandon

/-! ## Runs -/

/-- A write that is no SACK of an unsent TSN. -/
def Write.InRange (write : Write) : Prop :=
  ∀ value, write.cause = .sack value → ∀ header, sackHeader value = some header →
    write.before.acknowledgesSent header.1 = true

theorem inRange_chunkWrites (now : ℕ) (tag : UInt32) (chunk : ParsedChunk)
    (h : sackInRange tag chunk s = true) : ∀ write ∈ s.chunkWrites now tag chunk, write.InRange := by
  intro write hwrite value hvalue header hheader
  unfold chunkWrites at hwrite
  split_ifs at hwrite with hinit hparse hsack
  · rw [List.mem_singleton.mp hwrite] at hvalue
    cases hvalue
  · cases hwrite
  · obtain rfl := List.mem_singleton.mp hwrite
    obtain rfl := Cause.sack.inj hvalue
    simp only [sackInRange, hsack.1, hsack.2, ne_eq, not_true, decide_false, Bool.false_or, hheader,
      Option.all_some] at h
    exact h
  · obtain ⟨moment, -, rfl⟩ := List.mem_map.mp hwrite
    cases hvalue

theorem inRange_chunksWrites (now : ℕ) (tag : UInt32) (chunks : List ParsedChunk) {s : Association}
    (h : everyChunk sackInRange now tag chunks s = true) :
    ∀ write ∈ chunksWrites now tag chunks s, write.InRange := by
  induction chunks generalizing s with
  | nil => simp [chunksWrites]
  | cons chunk rest ih =>
    rw [everyChunk, Bool.and_eq_true] at h
    obtain ⟨hfirst, hrest⟩ := h
    rw [chunksWrites, List.forall_mem_append]
    refine ⟨inRange_chunkWrites now tag chunk hfirst, ?_⟩
    rcases hrun : (handleChunk now tag chunk).run s with ⟨error | output, t⟩
    · simp
    · rw [hrun] at hrest
      exact ih hrest

theorem inRange_writes (inputs : List Input) {s : Association}
    (h : allMeet (everyChunk sackInRange) inputs s = true) :
    ∀ write ∈ writes inputs s, write.InRange := by
  induction inputs generalizing s with
  | nil => simp [writes]
  | cons input rest ih =>
    rw [allMeet, Bool.and_eq_true] at h
    rw [writes, List.forall_mem_append]
    refine ⟨?_, ih h.2⟩
    have hfirst := h.1
    intro write hwrite value hvalue header hheader
    cases input with
    | send =>
      rw [List.mem_singleton.mp hwrite] at hvalue
      cases hvalue
    | tick =>
      rw [List.mem_singleton.mp hwrite] at hvalue
      cases hvalue
    | packet now bytes =>
      rw [Input.writes] at hwrite
      rw [Input.meets] at hfirst
      rcases hparse : ParsedPacket.parse bytes with error | parsed
      · rw [hparse] at hwrite
        cases hwrite
      rw [hparse] at hwrite hfirst
      dsimp only at hwrite hfirst
      split_ifs at hwrite with hports
      · simp only [hports, and_self, decide_true, Bool.not_true, Bool.false_or] at hfirst
        exact inRange_chunksWrites now _ _ hfirst write hwrite value hvalue header hheader
      · cases hwrite

theorem WriteEffect.windowKept {cause : Cause} (h : WriteEffect s cause t)
    (hrange : Write.InRange ⟨s, t, cause⟩) (hs : WindowKept s) : WindowKept t := by
  cases h with
  | same h =>
    rw [WindowKept, h.nextTsn, h.outboundCumulativeTsn, h.outstanding, h.abandoned]
    exact hs
  | @queued _ _ message packets h =>
    rw [WindowKept, h.nextTsn, h.outboundCumulativeTsn, h.abandoned]
    have hroom := hasRoom_flight h.room
    refine InFlight.enqueue hs hroom fun tsn => ?_
    unfold maxOutstanding at hroom
    rw [Maps.mem_iff_exists, Maps.mem_iff_exists, h.getElem?]
    split_ifs with hnew
    · refine iff_of_true ⟨_, by rw [List.getElem?_eq_getElem hnew]; rfl⟩ (.inr ⟨_, hnew, ?_⟩)
      exact (Serial.add_ofNat_toNat_sub s.nextTsn tsn).symm
    · refine ⟨.inl, fun hor => hor.resolve_right ?_⟩
      rintro ⟨i, hi, rfl⟩
      rw [Serial.toNat_add_ofNat_sub _ (by omega)] at hnew
      exact hnew hi
  | restart init => exact windowKept_start s.config
  | refused => exact hs
  | @sack value cumulative gapCount hheader =>
    have hin : s.acknowledgesSent cumulative = true := hrange value rfl (cumulative, gapCount) hheader
    have hkept := windowKept_ackCumulative hs hin
    exact ⟨hkept.pos, hkept.le, fun tsn htsn => hkept.outstanding tsn (mem_ackBlocks.mp htsn).1,
      hkept.abandoned⟩
  | tick now => exact windowKept_tick now hs

theorem WriteEffect.fated {ledger : Ledger} {cause : Cause} (h : WriteEffect s cause t)
    (hrange : Write.InRange ⟨s, t, cause⟩) (hwindow : WindowKept s) (hkept : LedgerKept ledger s)
    (hs : Fated ledger.records s) : Fated (ledger.next ⟨s, t, cause⟩).records t := by
  cases h with
  | same h =>
    rw [Ledger.next]
    dsimp only
    rw [queuedRecords_same _ h, List.append_nil]
    refine hs.congr fun tsn hsent => ?_
    rw [h.nextTsn, h.outboundCumulativeTsn] at hsent
    exact ⟨hsent, by rw [h.outstanding], by rw [h.abandoned]⟩
  | queued h =>
    rw [Ledger.next]
    exact hs.queued hwindow h
  | restart init =>
    have hnone (tsn : UInt32) : ¬Sent (Association.restart init s).nextTsn
        (Association.restart init s).outboundCumulativeTsn tsn := by
      rintro ⟨hlo, hhi⟩
      have hone : (Association.restart init s).nextTsn -
          (Association.restart init s).outboundCumulativeTsn = 1 := by
        show s.config.initialTsn - (s.config.initialTsn - 1) = 1
        grind
      rw [hone] at hhi
      exact absurd (Nat.lt_one_iff.mp hhi) hlo.ne'
    exact ⟨fun tsn hsent => absurd hsent (hnone tsn), fun tsn hsent => absurd hsent (hnone tsn),
      fun tsn hsent => absurd hsent (hnone tsn)⟩
  | @refused value hheader =>
    have hacked : s.acknowledgedTsns value = [] := by
      simp [acknowledgedTsns, sackNames, sackPasses, hheader]
    rw [Ledger.next]
    dsimp only
    rw [hacked, List.map_nil, List.append_nil]
    exact hs
  | @sack value cumulative gapCount hheader =>
    have hin : s.acknowledgesSent cumulative = true := hrange value rfl (cumulative, gapCount) hheader
    rw [Ledger.next]
    exact hs.sacked hheader hin
  | tick now =>
    rw [Ledger.next]
    exact fated_tick hs hkept now

theorem fated_ledgerOf {config : AssociationConfig} {start : Association}
    (hnew : new config = .ok start) (inputs : List Input)
    (hrange : allMeet (everyChunk sackInRange) inputs start = true) :
    Fated (ledgerOf inputs start).records (runInputs inputs start) := by
  have hwindow := windowKept_new hnew
  have hfirst : Fated [] start := by
    have hnext : start.nextTsn - start.outboundCumulativeTsn = 1 := by
      unfold new at hnew
      rcases hvalid : config.validate with error | ⟨⟩
      · rw [hvalid] at hnew
        cases hnew
      rw [hvalid] at hnew
      cases hnew
      show config.initialTsn - (config.initialTsn - 1) = 1
      grind
    have hnone (tsn : UInt32) : ¬Sent start.nextTsn start.outboundCumulativeTsn tsn := by
      rintro ⟨hlo, hhi⟩
      rw [hnext] at hhi
      exact absurd (Nat.lt_one_iff.mp hhi) hlo.ne'
    exact ⟨fun tsn hsent => absurd hsent (hnone tsn), fun tsn hsent => absurd hsent (hnone tsn),
      fun tsn hsent => absurd hsent (hnone tsn)⟩
  have hall := @Chain.foldl_invariant start (runInputs inputs start) (writes inputs start) Ledger
    (fun ledger s => KeptRecent s ∧ WindowKept s ∧ LedgerKept ledger s ∧ Fated ledger.records s)
    Ledger.next (chain_writes inputs (sound_new hnew)) ?_ {}
    ⟨keptRecent_new hnew, hwindow, ledgerKept_new hnew, hfirst⟩
  · exact hall.2.2.2
  · rintro ledger write hmem heffect ⟨hrecent, hwindow, hkept, hfated⟩
    have hin := inRange_writes inputs hrange write hmem
    exact ⟨heffect.keptRecent hrecent, heffect.windowKept hin hwindow, heffect.kept hrecent hkept,
      heffect.fated hin hwindow hkept hfated⟩

/-! ## FORWARD TSNs -/

/-- Under the TSN an ordered message of the stream, of this number, has been abandoned. -/
def SkippedAs (records : List Record) (streamId streamSequence : UInt16) (tsn : UInt32) : Prop :=
  ∃ chunk, fate records tsn = some (.abandoned tsn chunk) ∧ chunk.streamId = streamId ∧
    chunk.streamSequence = streamSequence ∧ chunk.ordered = true

/-- What a FORWARD TSN may say: its cumulative TSN is not before the known one and before everything
outstanding, what it skips is done with, and it lists the last abandoned number of each stream. -/
def ForwardsSafely (records : List Record) (s : Association) (value : Bytes) : Prop :=
  ∃ (n : ℕ) (streams : List (UInt16 × UInt16)),
    value = forwardTsnValue (s.outboundCumulativeTsn + UInt32.ofNat n) streams ∧
    n ≤ maxOutstanding ∧
    sequenceLessOrEqual s.outboundCumulativeTsn (s.outboundCumulativeTsn + UInt32.ofNat n) = true ∧
    (∀ tsn ∈ s.outstanding,
      serialLess (s.outboundCumulativeTsn + UInt32.ofNat n) tsn = true) ∧
    (∀ i, 0 < i → i ≤ n → Settled records (s.outboundCumulativeTsn + UInt32.ofNat i)) ∧
    (streams.map Prod.fst).Nodup ∧
    ∀ streamId streamSequence, (streamId, streamSequence) ∈ streams ↔
      ∃ i, 0 < i ∧ i ≤ n ∧
        SkippedAs records streamId streamSequence (s.outboundCumulativeTsn + UInt32.ofNat i) ∧
        ∀ j, i < j → j ≤ n → ∀ other,
          ¬SkippedAs records streamId other (s.outboundCumulativeTsn + UInt32.ofNat j)

theorem Forwards.safely {packet : Bytes} {n : ℕ} {skipped : ExtTreeMap UInt16 UInt16}
    (h : Forwards s packet n skipped) (records : List Record) (hwindow : WindowKept s)
    (hfated : Fated records s) :
    ForwardsSafely records s
      (forwardTsnValue (s.outboundCumulativeTsn + UInt32.ofNat n) skipped.toList) := by
  have hpos := hwindow.pos
  have hle := hwindow.le
  unfold maxOutstanding at hle
  have hspan : (s.nextTsn - (s.outboundCumulativeTsn + 1)).toNat =
      (s.nextTsn - s.outboundCumulativeTsn).toNat - 1 := Serial.toNat_sub_add_ofNat (n := 1) hpos
  have hn := h.le
  rw [hspan] at hn
  have hshift (i : ℕ) : s.outboundCumulativeTsn + 1 + UInt32.ofNat i =
      s.outboundCumulativeTsn + UInt32.ofNat (i + 1) := by
    rw [UInt32.ofNat_add]
    grind
  have hoffset (i : ℕ) (hi : i ≤ n) :
      (s.outboundCumulativeTsn + UInt32.ofNat i - s.outboundCumulativeTsn).toNat = i :=
    Serial.toNat_add_ofNat_sub _ (by omega)
  have hquiet (i : ℕ) (hi : 0 < i) (hin : i ≤ n) :
      s.outboundCumulativeTsn + UInt32.ofNat i ∉ s.outstanding := by
    have hscan := h.scanned.quiet (i - 1) (by omega)
    rwa [hshift, Nat.sub_add_cancel hi] at hscan
  have hsent (i : ℕ) (hi : 0 < i) (hin : i ≤ n) :
      Sent s.nextTsn s.outboundCumulativeTsn (s.outboundCumulativeTsn + UInt32.ofNat i) := by
    refine ⟨?_, ?_⟩ <;> rw [hoffset i hin] <;> omega
  have hskipped (i : ℕ) (hi : 0 < i) (hin : i ≤ n) (streamId streamSequence : UInt16) :
      s.SkippedUnder streamId streamSequence (s.outboundCumulativeTsn + UInt32.ofNat i) ↔
        SkippedAs records streamId streamSequence (s.outboundCumulativeTsn + UInt32.ofNat i) := by
    rw [SkippedUnder, hfated.abandoned _ (hsent i hi hin), SkippedAs]
    simp only [Outstanding.abandon, Abandoned.mk.injEq]
  refine ⟨n, skipped.toList, rfl, ?_, ?_, ?_, ?_, ?_, ?_⟩
  · unfold maxOutstanding
    omega
  · rw [sequenceLessOrEqual, decide_eq_true_eq, UInt32.lt_iff_toNat_lt, hoffset n le_rfl]
    show n < 2 ^ 31
    omega
  · intro tsn htsn
    obtain ⟨hlo, hhi⟩ := hwindow.outstanding tsn htsn
    have hbehind : n < (tsn - s.outboundCumulativeTsn).toNat := by
      by_contra hnot
      refine hquiet _ hlo (not_lt.mp hnot) ?_
      rwa [Serial.add_ofNat_toNat_sub]
    have hdistance : (tsn - (s.outboundCumulativeTsn + UInt32.ofNat n)).toNat =
        (tsn - s.outboundCumulativeTsn).toNat - n := Serial.toNat_sub_add_ofNat hbehind.le
    exact serialLess_of_toNat (by omega) (by omega)
  · exact fun i hi hin => hfated.settled _ (hsent i hi hin) (hquiet i hi hin)
  · rw [ExtTreeMap.map_fst_toList_eq_keys]
    exact Maps.nodup_keys _
  · intro streamId streamSequence
    rw [ExtTreeMap.mem_toList_iff_getElem?_eq_some, h.scanned.skipped]
    constructor
    · rintro ⟨i, hi, hunder, hlast⟩
      rw [hshift, hskipped (i + 1) (Nat.succ_pos i) hi] at hunder
      refine ⟨i + 1, Nat.succ_pos i, hi, hunder, fun j hij hj other hother => ?_⟩
      refine hlast (j - 1) (by omega) (by omega) other ?_
      rwa [hshift, Nat.sub_add_cancel (by omega), hskipped j (by omega) hj]
    · rintro ⟨i, hi, hin, hunder, hlast⟩
      refine ⟨i - 1, by omega, ?_, fun j hij hj other hother => ?_⟩
      · rwa [hshift, Nat.sub_add_cancel hi, hskipped i hi hin]
      · rw [hshift, hskipped (j + 1) (Nat.succ_pos j) hj] at hother
        exact hlast (j + 1) (by omega) hj other hother

/-- A packet with one chunk, which is no FORWARD TSN. -/
def NoForwardTsn (packet : Bytes) : Prop :=
  ∀ parsed, ParsedPacket.parse packet = .ok parsed → ∀ chunk ∈ parsed.chunks,
    chunk.kind ≠ typeForwardTsn

theorem noForwardTsn_of_buildPacket {sourcePort destinationPort : UInt16} {tag : UInt32}
    {kind flags : UInt8} {value packet : Bytes}
    (h : buildPacket sourcePort destinationPort tag kind flags value = .ok packet)
    (hkind : kind ≠ typeForwardTsn) : NoForwardTsn packet := by
  intro parsed hparsed chunk hchunk
  rw [parse_buildPacket h] at hparsed
  obtain rfl := Except.ok.inj hparsed
  obtain rfl := List.mem_singleton.mp hchunk
  exact hkind

theorem noForwardTsn_of_dataPacket {config : AssociationConfig} {packet : Bytes}
    (h : DataPacket config packet) : NoForwardTsn packet := by
  obtain ⟨tag, flags, value, hbuilt, -⟩ := h
  exact noForwardTsn_of_buildPacket hbuilt (by decide)

theorem handleChunks_noForwardTsn {now : ℕ} {tag : UInt32} {chunks : List ParsedChunk}
    {output : AssociationOutput} {s t : Association} (hs : Sound s)
    (hrun : (handleChunks now tag chunks).run s = (.ok output, t)) :
    ∀ packet ∈ output.packets, NoForwardTsn packet := by
  induction chunks generalizing s output with
  | nil =>
    simp only [handleChunks, run_pure, Prod.mk.injEq, Except.ok.injEq] at hrun
    obtain ⟨rfl, -⟩ := hrun
    simp
  | cons chunk rest ih =>
    rw [handleChunks, run_bind_eq_ok] at hrun
    obtain ⟨first, u, hfirst, hrun⟩ := hrun
    rw [run_bind_eq_ok] at hrun
    obtain ⟨others, v, hothers, hlast⟩ := hrun
    simp only [run_pure, Prod.mk.injEq, Except.ok.injEq] at hlast
    obtain ⟨rfl, rfl⟩ := hlast
    have hu : Sound u := by
      have := (handleChunk_effect now tag chunk hs).sound hs
      rwa [hfirst] at this
    obtain ⟨queued, answer, hpackets, hqueued, -, hanswer⟩ := handleChunk_answerFits hs hfirst
    rw [AssociationOutput.packets_append, List.forall_mem_append, hpackets, List.forall_mem_append]
    refine ⟨⟨fun packet hpacket => noForwardTsn_of_dataPacket (hqueued packet hpacket),
      fun packet hpacket => ?_⟩, ih hu hothers⟩
    obtain ⟨peer, kind, flags, value, hbuilt, hkind, -⟩ := hanswer packet (Option.mem_toList.mp hpacket)
    exact noForwardTsn_of_buildPacket hbuilt hkind

/-- Only a tick sends a FORWARD TSN. -/
theorem Input.packets_forwardTsn (input : Input) (hs : Sound s) (hrecent : KeptRecent s) :
    ∀ packet ∈ input.packets s, NoForwardTsn packet ∨
      ∃ n skipped outstanding abandoned pendingForwardTsn,
        s.step input = { s with outstanding, abandoned, pendingForwardTsn } ∧
        Forwards { s with outstanding, abandoned } packet n skipped := by
  intro packet hpacket
  cases input with
  | packet now bytes =>
    rw [Input.packets] at hpacket
    rcases hrun : (handlePacket now bytes).run s with ⟨error | output, t⟩
    · rw [hrun] at hpacket
      cases hpacket
    rw [hrun] at hpacket
    rw [handlePacket, run_ofExcept_bind_eq_ok] at hrun
    obtain ⟨parsed, -, hrun⟩ := hrun
    rw [run_get_bind, run_ensure_bind_eq_ok] at hrun
    exact .inl (handleChunks_noForwardTsn hs hrun.2 packet hpacket)
  | send now streamId kind payload =>
    rw [Input.packets] at hpacket
    have hqueues := sendMessage_queues now streamId kind payload hs
    rcases hrun : (sendMessage now streamId kind payload).run s with ⟨error | packets, t⟩
    · rw [hrun] at hpacket
      cases hpacket
    rw [hrun] at hqueues hpacket
    obtain ⟨-, hrefused⟩ | ⟨message, queued, hok, hqueued⟩ := hqueues
    · exact absurd rfl (hrefused packets)
    · obtain rfl := Except.ok.inj hok
      exact .inl (noForwardTsn_of_dataPacket (hqueued.data packet hpacket))
  | tick now =>
    have hstored : ∀ entry ∈ s.outstanding.toList, NoForwardTsn entry.2.packet := by
      intro entry hentry
      exact noForwardTsn_of_dataPacket (hrecent.packets entry.1 entry.2
        (ExtTreeMap.mem_toList_iff_getElem?_eq_some.mp hentry))
    have heffect := tick_effect now s
    have hstep : s.step (.tick now) = (Association.tick now s).2 := rfl
    rw [Input.packets] at hpacket
    rw [hstep]
    rcases htick : Association.tick now s with ⟨output, t⟩
    rw [htick] at heffect hpacket
    cases heffect with
    | idle => cases hpacket
    | failed _ hentries =>
      obtain ⟨entry, hentry, rfl⟩ := mem_resentEntries hpacket
      refine .inl (hstored entry ?_)
      rw [hentries]
      exact List.mem_append_left _ hentry
    | kept _ _ _ _ _ _ _ hforward =>
      rcases List.mem_append.mp hpacket with hpacket | hpacket
      · obtain ⟨entry, hentry, rfl⟩ := mem_resentEntries hpacket
        exact .inl (hstored entry hentry)
      · obtain ⟨n, skipped, hforwards⟩ := hforward packet (Option.mem_toList.mp hpacket)
        exact .inr ⟨n, skipped, _, _, _, rfl, hforwards⟩

/-- In every run in which no accepted SACK acknowledges an unsent TSN, every FORWARD TSN that the next
call returns is safe. -/
theorem forwardTsn_safe_of_sacks_in_range {config : AssociationConfig} {start : Association}
    (hnew : new config = .ok start) (inputs : List Input) (input : Input)
    (hrange : allMeet (everyChunk sackInRange) (inputs ++ [input]) start = true) :
    ∀ packet ∈ input.packets (runInputs inputs start), ∀ parsed,
      ParsedPacket.parse packet = .ok parsed → ∀ chunk ∈ parsed.chunks,
        chunk.kind = typeForwardTsn →
          ForwardsSafely (ledgerOf (inputs ++ [input]) start).records
            (runInputs (inputs ++ [input]) start) chunk.value := by
  intro packet hpacket parsed hparsed chunk hchunk hkind
  have hwindow := windowKept_runInputs hnew (inputs ++ [input]) hrange
  have hfated := fated_ledgerOf hnew (inputs ++ [input]) hrange
  have hlast : runInputs (inputs ++ [input]) start = (runInputs inputs start).step input := by
    rw [runInputs, List.foldl_append]
    rfl
  have hrecent := (chain_writes inputs (sound_new hnew)).keptRecent (keptRecent_new hnew)
  obtain hnone | ⟨n, skipped, outstanding, abandoned, pendingForwardTsn, hstep, hforwards⟩ :=
    input.packets_forwardTsn (within_runInputs hnew inputs).sound hrecent packet hpacket
  · exact absurd hkind (hnone parsed hparsed chunk hchunk)
  · rw [hlast, hstep] at hwindow hfated ⊢
    have hsafe := hforwards.safely (ledgerOf (inputs ++ [input]) start).records hwindow
      ⟨hfated.flying, hfated.settled, hfated.abandoned⟩
    obtain ⟨tag, -, hbuilt⟩ := hforwards.built
    rw [parse_buildPacket hbuilt] at hparsed
    obtain rfl := Except.ok.inj hparsed
    obtain rfl := List.mem_singleton.mp hchunk
    exact hsafe

namespace Sample

/-- A channel whose messages are not sent again, opened and acknowledged up to `acknowledged`; then a
reliable channel, whose ACK is not answered, and a message on the first one. -/
def skipping (acknowledged : UInt32) : List Input :=
  establish true ++
    [.packet 2000000 (data 3 500 0 0 ppidDcep (limitedOpenPayload 0)),
      .packet 3000000 (peerPacket 0x11223344 typeSack 0 (sack acknowledged)),
      .send 4000000 0 .binary [1, 2, 3],
      .packet 5000000 (data 3 501 2 0 ppidDcep dcepOpenPayload)]

/-- The same, but the reliable channel is opened before the message is sent. -/
def overtaking (acknowledged : UInt32) : List Input :=
  establish true ++
    [.packet 2000000 (data 3 500 0 0 ppidDcep (limitedOpenPayload 0)),
      .packet 3000000 (peerPacket 0x11223344 typeSack 0 (sack acknowledged)),
      .packet 4000000 (data 3 501 2 0 ppidDcep dcepOpenPayload),
      .send 5000000 0 .binary [1, 2, 3]]

def forwardTsn (newCumulativeTsn : UInt32) (streams : List (UInt16 × UInt16)) : Bytes :=
  ((buildPacket 5000 5000 0xaabbccdd typeForwardTsn 0
    (forwardTsnValue newCumulativeTsn streams)).toOption).getD []

end Sample

theorem readU32_forwardTsnValue (newCumulativeTsn : UInt32) (streams : List (UInt16 × UInt16)) :
    readU32 (forwardTsnValue newCumulativeTsn streams) 0 = .ok newCumulativeTsn := by
  have hdrop : (forwardTsnValue newCumulativeTsn streams).drop 0 = Bytes.ofU32 newCumulativeTsn ++
      streams.flatMap fun entry => Bytes.ofU16 entry.1 ++ Bytes.ofU16 entry.2 := rfl
  rw [readU32, Bytes.u32At_of_drop hdrop]
  rfl

/-- The tick abandons the message under TSN 1001, skips it and lists its stream. -/
theorem forwardTsn_safe_of_sacks_in_range_sample :
    ∃ start, new Sample.config = .ok start ∧
      Sample.forwardTsn 1001 [(0, 0)] ∈
        (Input.tick 600000000).packets (runInputs (Sample.skipping 1000) start) ∧
      ForwardsSafely (ledgerOf (Sample.skipping 1000 ++ [.tick 600000000]) start).records
        (runInputs (Sample.skipping 1000 ++ [.tick 600000000]) start)
        (forwardTsnValue 1001 [(0, 0)]) := by
  obtain ⟨start, hnew⟩ : ∃ start, new Sample.config = .ok start := ⟨_, rfl⟩
  have hmem : Sample.forwardTsn 1001 [(0, 0)] ∈
      (Input.tick 600000000).packets (runInputs (Sample.skipping 1000) start) := by
    cases hnew
    decide +kernel
  have hbuilt : buildPacket 5000 5000 0xaabbccdd typeForwardTsn 0 (forwardTsnValue 1001 [(0, 0)]) =
      .ok (Sample.forwardTsn 1001 [(0, 0)]) := rfl
  refine ⟨start, hnew, hmem, ?_⟩
  exact @forwardTsn_safe_of_sacks_in_range Sample.config start hnew (Sample.skipping 1000)
    (.tick 600000000) (by cases hnew; decide +kernel) _ hmem _ (parse_buildPacket hbuilt) _
    List.mem_cons_self rfl

/-- The SACK of the unsent TSN 1001 makes the reliable channel's ACK, which gets this TSN, invisible:
the FORWARD TSN passes it. -/
theorem forwardTsn_passes_reliable :
    ∃ start, new Sample.config = .ok start ∧
      ¬∀ packet ∈ (Input.tick 600000000).packets (runInputs (Sample.overtaking 1001) start), ∀ parsed,
        ParsedPacket.parse packet = .ok parsed → ∀ chunk ∈ parsed.chunks,
          chunk.kind = typeForwardTsn →
            ForwardsSafely (ledgerOf (Sample.overtaking 1001 ++ [.tick 600000000]) start).records
              (runInputs (Sample.overtaking 1001 ++ [.tick 600000000]) start) chunk.value := by
  obtain ⟨start, hnew⟩ : ∃ start, new Sample.config = .ok start := ⟨_, rfl⟩
  refine ⟨start, hnew, fun h => ?_⟩
  have hmem : Sample.forwardTsn 1002 [(0, 0)] ∈
      (Input.tick 600000000).packets (runInputs (Sample.overtaking 1001) start) := by
    cases hnew
    decide +kernel
  have hout : (1001 : UInt32) ∈
      (runInputs (Sample.overtaking 1001 ++ [.tick 600000000]) start).outstanding := by
    cases hnew
    decide +kernel
  have hbuilt : buildPacket 5000 5000 0xaabbccdd typeForwardTsn 0 (forwardTsnValue 1002 [(0, 0)]) =
      .ok (Sample.forwardTsn 1002 [(0, 0)]) := rfl
  obtain ⟨n, streams, hvalue, -, -, hbefore, -⟩ :=
    h _ hmem _ (parse_buildPacket hbuilt) _ List.mem_cons_self rfl
  have hcumulative := congrArg (fun value => readU32 value 0) hvalue
  simp only [readU32_forwardTsnValue, Except.ok.injEq] at hcumulative
  have hpassed := hbefore 1001 hout
  rw [← hcumulative] at hpassed
  exact absurd hpassed (by decide)

end Association

end Fluvora.DataChannel
