import Fluvora.DataChannel.Bounds
import Fluvora.DataChannel.Encoding

/-!
# What a SACK says and does

`buildSack` lists the buffered TSNs as gap blocks of offsets from the cumulative TSN, and `handleSack`
takes the outstanding TSNs of such blocks out.  `gapBlocks_separated` and `covers_gapBlocks` say that
merging ascending offsets loses nothing and leaves no two blocks to merge; `sack_exact` puts both sides
together.
-/

open Std (ExtTreeMap)

namespace Fluvora.DataChannel

open Fallible

/-! ## Gap blocks -/

/-- An offset is in one of the blocks. -/
def Covers (gaps : List (UInt16 × UInt16)) (offset : ℕ) : Prop :=
  ∃ gap ∈ gaps, gap.1.toNat ≤ offset ∧ offset ≤ gap.2.toNat

/-- Ascending blocks with at least one offset between two of them. -/
structure Separated (gaps : List (UInt16 × UInt16)) : Prop where
  nonempty : ∀ gap ∈ gaps, gap.1.toNat ≤ gap.2.toNat
  apart : gaps.Pairwise fun gap later => gap.2.toNat + 1 < later.1.toNat

theorem covers_reverse {gaps : List (UInt16 × UInt16)} {offset : ℕ} :
    Covers gaps.reverse offset ↔ Covers gaps offset := by
  simp [Covers]

namespace Association

/-- An offset behind all blocks is added: the last block is extended, or another one follows. -/
theorem extendGaps_separated {gaps : List (UInt16 × UInt16)} {delta : UInt16}
    (h : Separated gaps.reverse) (hbehind : ∀ gap ∈ gaps, gap.2 < delta) :
    Separated (extendGaps gaps delta).reverse ∧
      (∀ offset, Covers (extendGaps gaps delta) offset ↔ Covers gaps offset ∨ delta.toNat = offset) ∧
      ∀ gap ∈ extendGaps gaps delta, gap.2 ≤ delta := by
  obtain ⟨hnonempty, hapart⟩ := h
  rw [List.pairwise_reverse] at hapart
  simp only [List.mem_reverse] at hnonempty
  match gaps with
  | [] =>
    refine ⟨⟨by simp [extendGaps], by simp [extendGaps]⟩, ?_, by simp [extendGaps]⟩
    intro offset
    simp only [Covers, extendGaps, List.mem_singleton, exists_eq_left, List.not_mem_nil, false_and,
      exists_false, false_or]
    omega
  | (start, stop) :: rest =>
    have hstop : stop.toNat < delta.toNat := UInt16.lt_iff_toNat_lt.mp (hbehind _ List.mem_cons_self)
    have hstart : start.toNat ≤ stop.toNat := hnonempty _ List.mem_cons_self
    have hfits := delta.toNat_lt
    have hne : stop ≠ 0xffff := by
      rintro rfl
      have hmax : (0xffff : UInt16).toNat = 65535 := rfl
      omega
    rw [List.pairwise_cons] at hapart
    have hrest : ∀ gap ∈ rest, gap.2.toNat + 1 < start.toNat := hapart.1
    have hnext : delta = stop + 1 ↔ delta.toNat = stop.toNat + 1 := by
      rw [← UInt16.toNat_inj, UInt16.toNat_add]
      have hone : (1 : UInt16).toNat = 1 := rfl
      omega
    unfold extendGaps
    simp only [if_neg hne, hnext]
    split_ifs with hadjacent
    · refine ⟨⟨?_, ?_⟩, ?_, ?_⟩
      · simp only [List.mem_reverse, List.forall_mem_cons]
        exact ⟨by omega, fun gap hgap => hnonempty gap (List.mem_cons_of_mem _ hgap)⟩
      · rw [List.pairwise_reverse, List.pairwise_cons]
        exact ⟨hrest, hapart.2⟩
      · intro offset
        simp only [Covers, List.mem_cons, exists_eq_or_imp]
        constructor
        · rintro (hfirst | hother)
          · omega
          · exact .inl (.inr hother)
        · rintro ((hfirst | hother) | hdelta)
          · exact .inl (by omega)
          · exact .inr hother
          · exact .inl (by omega)
      · simp only [List.forall_mem_cons]
        refine ⟨UInt16.le_refl _, fun gap hgap => UInt16.le_of_lt ?_⟩
        exact hbehind gap (List.mem_cons_of_mem _ hgap)
    · refine ⟨⟨?_, ?_⟩, ?_, ?_⟩
      · simp only [List.mem_reverse, List.forall_mem_cons]
        exact ⟨Nat.le_refl _, hstart, fun gap hgap => hnonempty gap (List.mem_cons_of_mem _ hgap)⟩
      · rw [List.pairwise_reverse, List.pairwise_cons, List.pairwise_cons, List.forall_mem_cons]
        refine ⟨⟨?_, fun gap hgap => ?_⟩, hapart⟩
        · show stop.toNat + 1 < delta.toNat
          omega
        · have hgap' := hrest gap hgap
          show gap.2.toNat + 1 < delta.toNat
          omega
      · intro offset
        simp only [Covers, List.mem_cons, exists_eq_or_imp]
        constructor
        · rintro (hdelta | hold)
          · exact .inr (by omega)
          · exact .inl hold
        · rintro (hold | hdelta)
          · exact .inr hold
          · exact .inl (by omega)
      · simp only [List.forall_mem_cons]
        refine ⟨UInt16.le_refl _, UInt16.le_of_lt (hbehind _ List.mem_cons_self), ?_⟩
        exact fun gap hgap => UInt16.le_of_lt (hbehind gap (List.mem_cons_of_mem _ hgap))

theorem foldl_extendGaps {deltas : List UInt16} {gaps : List (UInt16 × UInt16)}
    (hsorted : deltas.Pairwise (· < ·)) (h : Separated gaps.reverse)
    (hbehind : ∀ gap ∈ gaps, ∀ delta ∈ deltas, gap.2 < delta) :
    Separated (deltas.foldl extendGaps gaps).reverse ∧
      ∀ offset, Covers (deltas.foldl extendGaps gaps) offset ↔
        Covers gaps offset ∨ ∃ delta ∈ deltas, delta.toNat = offset := by
  induction deltas generalizing gaps with
  | nil => exact ⟨h, by simp⟩
  | cons delta deltas ih =>
    rw [List.pairwise_cons] at hsorted
    obtain ⟨hseparated, hcovers, hstops⟩ :=
      extendGaps_separated h fun gap hgap => hbehind gap hgap delta List.mem_cons_self
    obtain ⟨hseparated', hcovers'⟩ := ih hsorted.2 hseparated fun gap hgap later hlater =>
      UInt16.lt_of_le_of_lt (hstops gap hgap) (hsorted.1 later hlater)
    refine ⟨hseparated', fun offset => ?_⟩
    rw [List.foldl_cons, hcovers', hcovers, List.exists_mem_cons_iff, or_assoc]

theorem gapBlocks_separated {deltas : List UInt16} (hsorted : deltas.Pairwise (· < ·)) :
    Separated (gapBlocks deltas) :=
  (foldl_extendGaps hsorted ⟨by simp, by simp⟩ (by simp)).1

theorem covers_gapBlocks {deltas : List UInt16} (hsorted : deltas.Pairwise (· < ·)) (offset : ℕ) :
    Covers (gapBlocks deltas) offset ↔ ∃ delta ∈ deltas, delta.toNat = offset := by
  have hcovers := (@foldl_extendGaps deltas [] hsorted ⟨by simp, by simp⟩ (by simp)).2 offset
  rw [gapBlocks, covers_reverse, hcovers]
  simp [Covers]

/-! ## The offsets of the buffered TSNs -/

variable {s : Association} {cumulative : UInt32}

theorem mem_pendingDeltas (hbuf : Buffered cumulative s.pendingData) {offset : ℕ} :
    (∃ delta ∈ s.pendingDeltas cumulative, delta.toNat = offset) ↔
      ∃ tsn ∈ s.pendingData, (tsn - cumulative).toNat = offset := by
  have hsmall : ∀ tsn ∈ s.pendingData, (tsn - cumulative).toNat < 65536 := by
    intro tsn htsn
    obtain ⟨data, hdata⟩ := Maps.mem_iff_exists.mp htsn
    have hwindow := (hbuf tsn data hdata).2.2
    unfold maxPendingTsn at hwindow
    omega
  have hnat (delta : UInt32) (h : delta.toNat < 65536) : delta.toUInt16.toNat = delta.toNat := by
    rw [UInt32.toNat_toUInt16]
    omega
  unfold pendingDeltas
  simp only [List.mem_mergeSort, List.mem_map, List.mem_filter, ExtTreeMap.mem_keys,
    decide_eq_true_eq]
  constructor
  · rintro ⟨_, ⟨_, ⟨⟨tsn, htsn, rfl⟩, hlt⟩, rfl⟩, hoffset⟩
    exact ⟨tsn, htsn, by rw [← hoffset, hnat _ hlt]⟩
  · rintro ⟨tsn, htsn, hoffset⟩
    have hlt := hsmall tsn htsn
    exact ⟨_, ⟨_, ⟨⟨tsn, htsn, rfl⟩, hlt⟩, rfl⟩, by rw [hnat _ hlt, hoffset]⟩

theorem pairwise_pendingDeltas (s : Association) (cumulative : UInt32) :
    (s.pendingDeltas cumulative).Pairwise (· < ·) := by
  have hnodup : (s.pendingDeltas cumulative).Nodup := by
    unfold pendingDeltas
    rw [(List.mergeSort_perm _ _).nodup_iff]
    refine List.Nodup.map_on ?_ (List.Nodup.filter _ ?_)
    · intro a ha b hb hab
      simp only [List.mem_filter, decide_eq_true_eq] at ha hb
      have hnat := congrArg UInt16.toNat hab
      rw [UInt32.toNat_toUInt16, UInt32.toNat_toUInt16] at hnat
      apply UInt32.toNat_inj.mp
      omega
    · refine (Maps.nodup_keys s.pendingData).map fun a b hab => ?_
      have hsame : a - cumulative = b - cumulative := hab
      exact Serial.toNat_sub_inj.mp (congrArg UInt32.toNat hsame)
  have hsorted : (s.pendingDeltas cumulative).Pairwise (· ≤ ·) := by
    unfold pendingDeltas
    refine (List.pairwise_mergeSort ?_ ?_ _).imp fun h => of_decide_eq_true h
    · intro a b c hab hbc
      exact decide_eq_true (UInt16.le_trans (of_decide_eq_true hab) (of_decide_eq_true hbc))
    · intro a b
      simpa using UInt16.le_total a b
  exact hsorted.imp₂ (fun a b hle hne => UInt16.lt_of_le_of_ne hle hne) hnodup

/-! ## Reading the blocks back -/

/-- The blocks of a SACK on the wire. -/
def gapBytes (gaps : List (UInt16 × UInt16)) : Bytes :=
  gaps.flatMap fun gap => Bytes.ofU16 gap.1 ++ Bytes.ofU16 gap.2

theorem length_gapBytes (gaps : List (UInt16 × UInt16)) :
    (gapBytes gaps).length = 4 * gaps.length := by
  simp [gapBytes, List.length_flatMap, Nat.mul_comm]

/-- What `buildSack` writes into its chunk. -/
def sackValue (cumulative : UInt32) (gaps : List (UInt16 × UInt16)) : Bytes :=
  Bytes.ofU32 cumulative ++ Bytes.ofU32 defaultReceiveWindow ++ Bytes.ofU16 (.ofNat gaps.length) ++
    Bytes.ofU16 0 ++ gapBytes gaps

theorem appliedGaps_eq {value : Bytes} {index : ℕ} {gaps : List (UInt16 × UInt16)}
    (hvalue : value.drop (12 + index * 4) = gapBytes gaps)
    (hgaps : ∀ gap ∈ gaps, gap.1 ≠ 0 ∧ gap.1 ≤ gap.2) :
    appliedGaps value index gaps.length = gaps := by
  induction gaps generalizing index with
  | nil => rfl
  | cons gap gaps ih =>
    obtain ⟨start, stop⟩ := gap
    have hdrop : value.drop (12 + index * 4) =
        Bytes.ofU16 start ++ (Bytes.ofU16 stop ++ gapBytes gaps) := by
      rw [hvalue]
      simp [gapBytes]
    have hstop : value.drop (12 + index * 4 + 2) = Bytes.ofU16 stop ++ gapBytes gaps := by
      rw [← List.drop_drop, hdrop]
      rfl
    have hnext : value.drop (12 + (index + 1) * 4) = gapBytes gaps := by
      rw [show 12 + (index + 1) * 4 = 12 + index * 4 + 2 + 2 by omega, ← List.drop_drop, hstop]
      rfl
    rw [List.length_cons, appliedGaps, readU16, readU16, Bytes.u16At_of_drop hdrop,
      Bytes.u16At_of_drop hstop]
    dsimp only [Option.elim]
    rw [if_pos (hgaps _ List.mem_cons_self),
      ih hnext fun gap hgap => hgaps gap (List.mem_cons_of_mem _ hgap)]

theorem sackHeader_sackValue {cumulative : UInt32} {gaps : List (UInt16 × UInt16)}
    (hlength : gaps.length < 65536) :
    sackHeader (sackValue cumulative gaps) = some (cumulative, gaps.length) := by
  have hcumulative : (sackValue cumulative gaps).u32At 0 = some cumulative :=
    @Bytes.u32At_of_drop _ 0 cumulative _ (by rw [List.drop_zero, sackValue, List.append_assoc,
      List.append_assoc, List.append_assoc])
  have hcount : (sackValue cumulative gaps).u16At 8 = some (.ofNat gaps.length) :=
    @Bytes.u16At_of_drop _ 8 _ (Bytes.ofU16 0 ++ gapBytes gaps) (by simp [sackValue, Bytes.ofU32])
  have hduplicates : (sackValue cumulative gaps).u16At 10 = some 0 :=
    @Bytes.u16At_of_drop _ 10 0 (gapBytes gaps) (by simp [sackValue, Bytes.ofU32, Bytes.ofU16])
  have hnat : (UInt16.ofNat gaps.length).toNat = gaps.length := by
    rw [UInt16.toNat_ofNat']
    omega
  have htotal : (sackValue cumulative gaps).length = 12 + gaps.length * 4 := by
    simp only [sackValue, List.length_append, Bytes.length_ofU32, Bytes.length_ofU16,
      length_gapBytes]
    omega
  unfold sackHeader readU32 readU16
  rw [hcumulative, hcount, hduplicates]
  dsimp only [Option.elim]
  have hzero : (0 : UInt16).toNat = 0 := rfl
  rw [hnat, htotal, hzero, if_pos]
  unfold sackFixedLen
  omega

/-! ## What the sender takes out -/

theorem getElem?_ackBlocks {cumulative tsn : UInt32} {blocks : List (UInt16 × UInt16)}
    {outstanding : ExtTreeMap UInt32 Outstanding} {entry : Outstanding} :
    (ackBlocks cumulative blocks outstanding)[tsn]? = some entry ↔
      outstanding[tsn]? = some entry ∧ ¬Covers blocks (tsn - cumulative).toNat := by
  have hrange (start stop : ℕ) (outstanding : ExtTreeMap UInt32 Outstanding)
      (hstop : stop < 65536) :
      (ackRange cumulative start stop outstanding)[tsn]? = some entry ↔
        outstanding[tsn]? = some entry ∧
          ¬(start ≤ (tsn - cumulative).toNat ∧ (tsn - cumulative).toNat ≤ stop) := by
    rw [ackRange, Maps.getElem?_foldl_erase _ (fun delta => cumulative + UInt32.ofNat delta)]
    refine and_congr_right fun _ => ?_
    constructor
    · rintro h ⟨hlo, hhi⟩
      exact h _ (List.mem_range'_1.mpr (by omega)) (Serial.add_ofNat_toNat_sub cumulative tsn)
    · rintro h delta hdelta rfl
      rw [List.mem_range'_1] at hdelta
      refine h ?_
      rw [Serial.toNat_add_ofNat_sub _ (by omega)]
      omega
  induction blocks generalizing outstanding with
  | nil => simp [ackBlocks, Covers]
  | cons block blocks ih =>
    rw [ackBlocks, List.foldl_cons]
    refine ih.trans ?_
    rw [hrange _ _ _ block.2.toNat_lt, and_assoc, Covers, Covers, List.exists_mem_cons_iff, not_or]

/-- Exactly the outstanding chunks at or before the cumulative TSN, or in a block, are taken out. -/
theorem handleSack_sackValue {cumulative : UInt32} {gaps : List (UInt16 × UInt16)}
    (hlength : gaps.length < 65536) (hgaps : ∀ gap ∈ gaps, gap.1 ≠ 0 ∧ gap.1 ≤ gap.2)
    (sender : Association) :
    ∃ sender', (handleSack (sackValue cumulative gaps)).run sender = (.ok (), sender') ∧
      ∀ tsn entry, sender'.outstanding[tsn]? = some entry ↔
        sender.outstanding[tsn]? = some entry ∧ sequenceLessOrEqual tsn cumulative = false ∧
          ¬Covers gaps (tsn - cumulative).toNat := by
  have happlied : appliedGaps (sackValue cumulative gaps) 0 gaps.length = gaps := by
    refine appliedGaps_eq ?_ hgaps
    rw [sackValue, List.drop_left']
    rfl
  have hrun := handleSack_run (sackValue cumulative gaps) sender
  rw [sackHeader_sackValue hlength] at hrun
  obtain ⟨result, hrun, hok⟩ := hrun
  rw [happlied] at hrun hok
  obtain ⟨⟨⟩, rfl⟩ : ∃ value, result = .ok value := by
    rcases result with error | value
    · cases hok.mpr rfl
    · exact ⟨value, rfl⟩
  refine ⟨_, hrun, fun tsn entry => ?_⟩
  rw [getElem?_ackBlocks]
  dsimp only [ackCumulative]
  rw [Maps.getElem?_filter_eq_some, and_assoc, Bool.not_eq_true']

/-! ## Both sides -/

/-- A receiver's SACK lists its cumulative TSN and its buffered TSNs, the latter as blocks that are
ascending, apart and begin at least two TSNs ahead; a sender takes exactly these TSNs, and those up to
the cumulative one, out of what it has outstanding. -/
theorem sack_exact {receiver : Association} (h : Reachable receiver) {tag cumulative : UInt32}
    (htag : receiver.peerVerificationTag = some tag)
    (hcumulative : receiver.cumulativePeerTsn = some cumulative) :
    ∃ packet gaps, receiver.buildSack = .ok packet ∧
      ParsedPacket.parse packet = .ok ⟨receiver.config.localPort, receiver.config.remotePort, tag,
        [⟨typeSack, 0, sackValue cumulative gaps⟩]⟩ ∧
      Separated gaps ∧ (∀ gap ∈ gaps, 2 ≤ gap.1.toNat) ∧
      (∀ tsn, tsn ∈ receiver.pendingData ↔ Covers gaps (tsn - cumulative).toNat) ∧
      ∀ sender : Association, ∃ sender',
        (handleSack (sackValue cumulative gaps)).run sender = (.ok (), sender') ∧
        ∀ tsn entry, sender'.outstanding[tsn]? = some entry ↔
          sender.outstanding[tsn]? = some entry ∧
            ¬(sequenceLessOrEqual tsn cumulative = true ∨ tsn ∈ receiver.pendingData) := by
  have hbuf := h.sound.buffered cumulative hcumulative
  have hsorted := pairwise_pendingDeltas receiver cumulative
  generalize hgaps : gapBlocks (receiver.pendingDeltas cumulative) = gaps
  have hlength : gaps.length < maxPendingTsn := by
    rw [← hgaps]
    exact (length_gapBlocks_le _).trans_lt
      ((length_pendingDeltas_le receiver cumulative).trans_lt hbuf.size_lt)
  have hseparated : Separated gaps := hgaps ▸ gapBlocks_separated hsorted
  have hcovers (offset : ℕ) : Covers gaps offset ↔
      ∃ tsn ∈ receiver.pendingData, (tsn - cumulative).toNat = offset := by
    rw [← hgaps, covers_gapBlocks hsorted, mem_pendingDeltas hbuf]
  have hpending (tsn : UInt32) :
      tsn ∈ receiver.pendingData ↔ Covers gaps (tsn - cumulative).toNat := by
    rw [hcovers]
    constructor
    · exact fun htsn => ⟨tsn, htsn, rfl⟩
    · rintro ⟨other, hother, heq⟩
      rwa [← Serial.toNat_sub_inj.mp heq]
  have htwo : ∀ gap ∈ gaps, 2 ≤ gap.1.toNat := by
    intro gap hgap
    obtain ⟨tsn, htsn, heq⟩ := (hcovers gap.1.toNat).mp
      ⟨gap, hgap, Nat.le_refl _, hseparated.nonempty gap hgap⟩
    obtain ⟨data, hdata⟩ := Maps.mem_iff_exists.mp htsn
    rw [← heq]
    exact (hbuf tsn data hdata).2.1
  have hblocks : ∀ gap ∈ gaps, gap.1 ≠ 0 ∧ gap.1 ≤ gap.2 := by
    intro gap hgap
    refine ⟨?_, UInt16.le_iff_toNat_le.mpr (hseparated.nonempty gap hgap)⟩
    intro hzero
    have hstart := htwo gap hgap
    rw [hzero] at hstart
    exact absurd hstart (by decide)
  obtain ⟨packet, hpacket⟩ := buildSack_ok htag hcumulative hbuf.size_lt
  have hbuilt : receiver.packetWithChunk tag typeSack 0 (sackValue cumulative gaps) =
      .ok packet := by
    unfold maxPendingTsn at hlength
    rw [← hpacket, buildSack, hcumulative, peerTag_eq htag]
    simp only [Option.elim, Results.bind_ok, hgaps, sackValue, gapBytes]
    rw [min_eq_left (by omega)]
  unfold maxPendingTsn at hlength
  refine ⟨packet, gaps, hpacket, parse_buildPacket hbuilt, hseparated, htwo, hpending, ?_⟩
  intro sender
  obtain ⟨sender', hrun, hout⟩ :=
    @handleSack_sackValue cumulative gaps (by omega) hblocks sender
  refine ⟨sender', hrun, fun tsn entry => ?_⟩
  rw [hout, not_or, hpending, Bool.not_eq_true]

/-- TSN 502 is missing. -/
def Sample.gapped : List Input :=
  Sample.establish false ++
    [.packet 2000000 (Sample.data 3 500 0 0 ppidDcep Sample.dcepOpenPayload),
      .packet 3000000 (Sample.data 2 501 0 0 ppidBinary [1, 2]),
      .packet 4000000 (Sample.data 1 503 0 0 ppidBinary [3])]

theorem sack_exact_sample :
    ∃ start, new Sample.config = .ok start ∧
      (runInputs Sample.gapped start).pendingData.keys = [503] ∧
      ∃ packet gaps, (runInputs Sample.gapped start).buildSack = .ok packet ∧
        ∀ tsn, tsn ∈ (runInputs Sample.gapped start).pendingData ↔
          Covers gaps (tsn - 501).toNat := by
  refine ⟨_, rfl, by decide +kernel, ?_⟩
  obtain ⟨packet, gaps, hpacket, -, -, -, hpending, -⟩ :=
    @sack_exact (runInputs Sample.gapped _) ⟨Sample.config, _, Sample.gapped, rfl, rfl⟩
      0xaabbccdd 501 (by decide +kernel) (by decide +kernel)
  exact ⟨packet, gaps, hpacket, hpending⟩

end Association

end Fluvora.DataChannel
