import Fluvora.Lib.Inversion
import Fluvora.DataChannel.Acknowledgement
import Fluvora.DataChannel.RecentTsns

/-!
# The size of the packets sent

DATA is divided so that its packets have at most `maxPacketBytes`, and a FORWARD TSN lists at most 257
streams.  Nothing limits the answers to a peer: a SACK lists every gap of the reorder buffer, a
HEARTBEAT is answered with all its bytes, and an incoming reset with all the streams it lists.
`answersFit` says in the state before a chunk that its answer fits.
-/

open Std (ExtTreeMap)

namespace Fluvora.DataChannel

open Fallible

namespace Association

variable {s t : Association} {now : ℕ} {tag : UInt32} {chunk : ParsedChunk}

/-! ## The packets of a run -/

/-- The packets that a call returns; a call that fails returns none. -/
def Input.packets (input : Input) (s : Association) : List Bytes :=
  match input with
  | .packet now bytes =>
      match (handlePacket now bytes).run s with
      | (.ok output, _) => output.packets
      | (.error _, _) => []
  | .send now streamId kind payload =>
      match (sendMessage now streamId kind payload).run s with
      | (.ok packets, _) => packets
      | (.error _, _) => []
  | .tick now => (Association.tick now s).1.packets

/-- The packets that a run returns. -/
def sentPackets : List Input → Association → List Bytes
  | [], _ => []
  | input :: rest, s => input.packets s ++ sentPackets rest (s.step input)

/-! ## Which answers fit -/

/-- The runs of consecutive TSNs in the reorder buffer, without one that starts behind the cumulative
TSN. -/
def gapRuns (pending : ExtTreeMap UInt32 DataChunk) (cumulative : UInt32) : ℕ :=
  (pending.filter fun tsn _ => !pending.contains (tsn - 1) && tsn != cumulative + 1).size

/-- What a chunk can hold in a packet of full size. -/
def maxChunkValue : ℕ := maxPacketBytes - commonHeaderLen - chunkHeaderLen

/-- As many gap blocks as a SACK of full size lists. -/
def maxGapBlocks : ℕ := (maxChunkValue - (sackFixedLen - chunkHeaderLen)) / 4

/-- The reorder buffer that a DATA chunk leaves has few enough gaps. -/
def dataFits (s : Association) (flags : UInt8) (value : Bytes) : Bool :=
  match DataChunk.parse flags value, s.cumulativePeerTsn with
  | .ok data, some cumulative =>
      if data.tsn - cumulative = 0 ∨ 0x80000000 ≤ data.tsn - cumulative then
        gapRuns s.pendingData cumulative ≤ maxGapBlocks
      else gapRuns (s.pendingData.insertIfNew data.tsn data) cumulative ≤ maxGapBlocks
  | _, _ => true

/-- The reorder buffer that a FORWARD TSN leaves has few enough gaps. -/
def forwardTsnFits (s : Association) (value : Bytes) : Bool :=
  match readU32 value 0, s.cumulativePeerTsn with
  | .ok newCumulativeTsn, some current =>
      if sequenceLessOrEqual newCumulativeTsn current then
        gapRuns s.pendingData current ≤ maxGapBlocks
      else
        gapRuns (s.pendingData.filter fun tsn _ => !sequenceLessOrEqual tsn newCumulativeTsn)
          newCumulativeTsn ≤ maxGapBlocks
  | _, _ => true

/-- The reset request has the expected number. -/
def isExpected (expected : Option UInt32) (value : Bytes) : Bool :=
  match readU32 value 0 with
  | .ok requestSequence => expected = some requestSequence
  | .error _ => false

/-- The number expected after a reset request. -/
def expectedAfter (expected : Option UInt32) (value : Bytes) : Option UInt32 :=
  if isExpected expected value then expected.map (· + 1) else expected

/-- The bytes of the answers to the parameters of a RE-CONFIG: 12 for each reset request, but an
incoming reset with the expected number is answered with its streams. -/
def resetAnswerBytes : Option UInt32 → List Parameter → ℕ
  | _, [] => 0
  | expected, parameter :: rest =>
      if parameter.kind = parameterOutgoingReset then
        12 + resetAnswerBytes (expectedAfter expected parameter.value) rest
      else if parameter.kind = parameterIncomingReset then
        (if isExpected expected parameter.value then Bytes.pad4 (12 + parameter.value.length) else 12) +
          resetAnswerBytes (expectedAfter expected parameter.value) rest
      else if parameter.kind = parameterReconfigResponse then resetAnswerBytes expected rest
      else 0

def reconfigurationFits (s : Association) (value : Bytes) : Bool :=
  match parseParameters value with
  | .ok parameters => resetAnswerBytes s.nextPeerReconfigSequence parameters ≤ maxChunkValue
  | .error _ => true

/-- The answer to a chunk fits in a packet of full size. -/
def answersFit (_ : UInt32) (chunk : ParsedChunk) (s : Association) : Bool :=
  if chunk.kind = typeData then s.dataFits chunk.flags chunk.value
  else if chunk.kind = typeForwardTsn then s.forwardTsnFits chunk.value
  else if chunk.kind = typeHeartbeat then chunk.value.length ≤ maxChunkValue
  else if chunk.kind = typeReConfig then s.reconfigurationFits chunk.value
  else true

/-! ## Gap blocks -/

/-- A run of the buffer starts at the TSN, and not behind the cumulative one. -/
def RunStart (pending : ExtTreeMap UInt32 DataChunk) (cumulative tsn : UInt32) : Prop :=
  tsn ∈ pending ∧ tsn - 1 ∉ pending ∧ tsn ≠ cumulative + 1

theorem mem_runStarts {pending : ExtTreeMap UInt32 DataChunk} {cumulative tsn : UInt32} :
    (tsn ∈ pending.filter fun tsn _ => !pending.contains (tsn - 1) && tsn != cumulative + 1) ↔
      RunStart pending cumulative tsn := by
  rw [ExtTreeMap.mem_filter]
  simp only [ExtTreeMap.getKey_eq, RunStart, Bool.and_eq_true, Bool.not_eq_true', bne_iff_ne,
    exists_prop, Bool.eq_false_iff, ne_eq, ExtTreeMap.contains_iff_mem]

/-- Taking the next TSN out of the buffer leaves the other runs. -/
theorem gapRuns_take {pending : ExtTreeMap UInt32 DataChunk} {cumulative : UInt32}
    (h : cumulative + 1 ∈ pending) :
    gapRuns (pending.erase (cumulative + 1)) (cumulative + 1) = gapRuns pending cumulative := by
  refine Maps.size_eq_of_mem_iff fun tsn => ?_
  rw [mem_runStarts, mem_runStarts, RunStart, RunStart, ExtTreeMap.mem_erase, ExtTreeMap.mem_erase,
    ne_eq, ne_eq, Std.compare_eq_iff_eq, Std.compare_eq_iff_eq]
  constructor
  · rintro ⟨⟨hne, hmem⟩, hprevious, hnext⟩
    refine ⟨hmem, fun hbefore => hprevious ⟨fun heq => hnext ?_, hbefore⟩, Ne.symm hne⟩
    rw [heq]
    grind
  · rintro ⟨hmem, hprevious, hne⟩
    refine ⟨⟨Ne.symm hne, hmem⟩, fun hbefore => hprevious hbefore.2, ?_⟩
    rintro rfl
    have hback : cumulative + 1 + 1 - 1 = cumulative + 1 := by grind
    rw [hback] at hprevious
    exact hprevious h

/-- The drain loop leaves the runs that it does not take. -/
theorem gapRuns_drain (fuel : ℕ) {cumulative : UInt32} (hcum : s.cumulativePeerTsn = some cumulative) :
    ∃ reached, (drain fuel (cumulative + 1) s).2.cumulativePeerTsn = some reached ∧
      gapRuns (drain fuel (cumulative + 1) s).2.pendingData reached =
        gapRuns s.pendingData cumulative := by
  induction fuel generalizing s cumulative with
  | zero => exact ⟨cumulative, hcum, rfl⟩
  | succ fuel ih =>
    rw [drain]
    rcases hfind : s.pendingData[cumulative + 1]? with _ | data
    · exact ⟨cumulative, hcum, rfl⟩
    obtain ⟨reached, hreached, hruns⟩ :=
      @ih (advance (cumulative + 1) (unbuffer (cumulative + 1) s)) (cumulative + 1) rfl
    exact ⟨reached, hreached, hruns.trans (gapRuns_take (Maps.mem_of_getElem? hfind))⟩

/-- The loop over the buffered chunks leaves the runs that it does not take. -/
theorem gapRuns_releasePending (now fuel : ℕ) {cumulative peer : UInt32} {output : AssociationOutput}
    (hcum : s.cumulativePeerTsn = some cumulative) (hpeer : s.peerVerificationTag = some peer)
    (hrun : (releasePending now fuel (cumulative + 1)).run s = (.ok output, t)) :
    ∃ reached, t.cumulativePeerTsn = some reached ∧
      gapRuns t.pendingData reached = gapRuns s.pendingData cumulative := by
  induction fuel generalizing s cumulative output with
  | zero =>
    obtain ⟨-, rfl⟩ := Prod.mk.inj hrun
    exact ⟨cumulative, hcum, rfl⟩
  | succ fuel ih =>
    rw [releasePending, run_get_bind] at hrun
    rcases hfind : s.pendingData[cumulative + 1]? with _ | data
    · rw [hfind] at hrun
      obtain ⟨-, rfl⟩ := Prod.mk.inj hrun
      exact ⟨cumulative, hcum, rfl⟩
    rw [hfind] at hrun
    dsimp only at hrun
    rw [run_modify_bind, run_bind_eq_ok] at hrun
    obtain ⟨first, u, hfirst, hrun⟩ := hrun
    rw [run_modify_bind, run_bind_eq_ok] at hrun
    obtain ⟨others, v, hothers, hlast⟩ := hrun
    obtain ⟨-, rfl⟩ := Prod.mk.inj hlast
    have hframe : ReceiveFrame (unbuffer (cumulative + 1) s) u := by
      have := processDataMessage_frame now data (s := unbuffer (cumulative + 1) s) hpeer
      rwa [hfirst] at this
    obtain ⟨reached, hreached, hruns⟩ := @ih (advance (cumulative + 1) u) (cumulative + 1) others rfl
      (hframe.peerVerificationTag.trans hpeer) hothers
    refine ⟨reached, hreached, hruns.trans ?_⟩
    have hpending : (advance (cumulative + 1) u).pendingData =
        s.pendingData.erase (cumulative + 1) := hframe.pendingData
    rw [hpending]
    exact gapRuns_take (Maps.mem_of_getElem? hfind)

/-- No two blocks touch, so no block ends right before another one starts. -/
theorem not_covers_of_separated {gaps : List (UInt16 × UInt16)} (h : Separated gaps)
    {gap : UInt16 × UInt16} (hgap : gap ∈ gaps) (hpos : 0 < gap.1.toNat) :
    ¬Covers gaps (gap.1.toNat - 1) := by
  rintro ⟨other, hother, hlo, hhi⟩
  obtain ⟨i, hi, rfl⟩ := List.getElem_of_mem hgap
  obtain ⟨j, hj, rfl⟩ := List.getElem_of_mem hother
  have hnonempty := h.nonempty _ hgap
  have hapart := List.pairwise_iff_getElem.mp h.apart
  rcases lt_trichotomy i j with hlt | rfl | hlt
  · have := hapart i j hi hj hlt
    omega
  · omega
  · have := hapart j i hj hi hlt
    omega

/-- The gap blocks of a SACK are the runs of the buffer. -/
theorem length_gapBlocks {cumulative : UInt32} (hbuf : Buffered cumulative s.pendingData) :
    (gapBlocks (s.pendingDeltas cumulative)).length = gapRuns s.pendingData cumulative := by
  have hsorted := pairwise_pendingDeltas s cumulative
  have hseparated := gapBlocks_separated hsorted
  have hcovers (tsn : UInt32) : tsn ∈ s.pendingData ↔
      Covers (gapBlocks (s.pendingDeltas cumulative)) (tsn - cumulative).toNat := by
    rw [covers_gapBlocks hsorted, mem_pendingDeltas hbuf]
    constructor
    · exact fun htsn => ⟨tsn, htsn, rfl⟩
    · rintro ⟨other, hother, heq⟩
      rwa [← Serial.toNat_sub_inj.mp heq]
  generalize gapBlocks (s.pendingDeltas cumulative) = gaps at hseparated hcovers
  have hbehind : ∀ tsn ∈ s.pendingData, 2 ≤ (tsn - cumulative).toNat := by
    intro tsn htsn
    obtain ⟨data, hdata⟩ := Maps.mem_iff_exists.mp htsn
    exact (hbuf tsn data hdata).2.1
  have hprevious : ∀ tsn, 2 ≤ (tsn - cumulative).toNat →
      (tsn - 1 - cumulative).toNat = (tsn - cumulative).toNat - 1 := by
    intro tsn htsn
    have hshift := Serial.toNat_sub_add_ofNat (n := 1) (by omega : 1 ≤ (tsn - cumulative).toNat)
    rw [← hshift]
    congr 1
    show tsn - 1 - cumulative = tsn - (cumulative + 1)
    grind
  have hoffset : ∀ gap ∈ gaps,
      (cumulative + UInt32.ofNat gap.1.toNat - cumulative).toNat = gap.1.toNat := by
    intro gap _
    have := gap.1.toNat_lt
    exact Serial.toNat_add_ofNat_sub cumulative (by omega)
  have hnodup : (gaps.map fun gap => cumulative + UInt32.ofNat gap.1.toNat).Nodup := by
    rw [List.Nodup, List.pairwise_map]
    refine hseparated.apart.imp_of_mem fun {gap later} hgap hlater hapart heq => ?_
    have hsame := hoffset gap hgap
    rw [heq, hoffset later hlater] at hsame
    have hnonempty := hseparated.nonempty gap hgap
    omega
  have hmem : ∀ tsn, tsn ∈ (gaps.map fun gap => cumulative + UInt32.ofNat gap.1.toNat) ↔
      RunStart s.pendingData cumulative tsn := by
    intro tsn
    rw [List.mem_map]
    constructor
    · rintro ⟨gap, hgap, rfl⟩
      have hstart := hoffset gap hgap
      have hnonempty := hseparated.nonempty gap hgap
      have hpending : cumulative + UInt32.ofNat gap.1.toNat ∈ s.pendingData := by
        rw [hcovers, hstart]
        exact ⟨gap, hgap, le_rfl, hnonempty⟩
      have htwo := hbehind _ hpending
      rw [hstart] at htwo
      refine ⟨hpending, ?_, ?_⟩
      · rw [hcovers, hprevious _ (by omega), hstart]
        exact not_covers_of_separated hseparated hgap (by omega)
      · intro heq
        rw [heq, show cumulative + 1 - cumulative = 1 by grind] at hstart
        have hone : (1 : UInt32).toNat = 1 := rfl
        omega
    · rintro ⟨hpending, hfirst, -⟩
      have htwo := hbehind tsn hpending
      obtain ⟨gap, hgap, hlo, hhi⟩ := (hcovers tsn).mp hpending
      refine ⟨gap, hgap, ?_⟩
      have hstart : gap.1.toNat = (tsn - cumulative).toNat := by
        by_contra hne
        rw [hcovers, hprevious tsn htwo] at hfirst
        exact hfirst ⟨gap, hgap, by omega, by omega⟩
      rw [hstart, Serial.add_ofNat_toNat_sub]
  have hperm : (gaps.map fun gap => cumulative + UInt32.ofNat gap.1.toNat).Perm
      (s.pendingData.filter fun tsn _ =>
        !s.pendingData.contains (tsn - 1) && tsn != cumulative + 1).keys := by
    rw [List.perm_ext_iff_of_nodup hnodup (Maps.nodup_keys _)]
    intro tsn
    rw [hmem, ExtTreeMap.mem_keys, mem_runStarts]
  rw [gapRuns, ← ExtTreeMap.length_keys, ← hperm.length_eq, List.length_map]

/-! ## AnswerFits -/

/-- The packets of a chunk: DATA that is queued, and at most one answer, which fits as said. -/
def AnswerFits (config : AssociationConfig) (fits : Bool) (packets : List Bytes) : Prop :=
  ∃ queued : List Bytes, ∃ answer : Option Bytes, packets = queued ++ answer.toList ∧
    (∀ packet ∈ queued, DataPacket config packet) ∧
    (answer = none → fits = true) ∧
    ∀ packet, answer = some packet → ∃ peer kind flags value,
      buildPacket config.localPort config.remotePort peer kind flags value = .ok packet ∧
      kind ≠ typeForwardTsn ∧ (fits = true ↔ value.length ≤ maxChunkValue)

theorem length_le_of_buildPacket {config : AssociationConfig} {peer : UInt32} {kind flags : UInt8}
    {value packet : Bytes}
    (h : buildPacket config.localPort config.remotePort peer kind flags value = .ok packet) :
    packet.length ≤ maxPacketBytes ↔ value.length ≤ maxChunkValue := by
  rw [length_of_buildPacket h]
  unfold maxChunkValue maxPacketBytes commonHeaderLen chunkHeaderLen Bytes.pad4
  omega

/-- The answer is what decides. -/
theorem AnswerFits.length_le_iff {config : AssociationConfig} {fits : Bool} {packets : List Bytes}
    (h : AnswerFits config fits packets) :
    (∀ packet ∈ packets, packet.length ≤ maxPacketBytes) ↔ fits = true := by
  obtain ⟨queued, answer, rfl, hqueued, hnone, hanswer⟩ := h
  rcases answer with _ | packet
  · simp only [Option.toList_none, List.append_nil, hnone rfl, iff_true]
    exact fun packet hpacket => (hqueued packet hpacket).length_le
  · obtain ⟨peer, kind, flags, value, hbuilt, -, hfits⟩ := hanswer packet rfl
    rw [hfits, ← length_le_of_buildPacket hbuilt]
    constructor
    · exact fun h => h packet (by simp)
    · intro hlen other hother
      rcases List.mem_append.mp hother with hother | hother
      · exact (hqueued other hother).length_le
      · obtain rfl := Option.some.inj (Option.mem_toList.mp hother)
        exact hlen

/-- An answer that is built in a state of the same configuration. -/
theorem AnswerFits.of_packet {fits : Bool} {peer : UInt32} {kind flags : UInt8} {value packet : Bytes}
    {queued : List Bytes} (hqueued : ∀ packet ∈ queued, DataPacket s.config packet)
    (hbuilt : s.packetWithChunk peer kind flags value = .ok packet) (hkind : kind ≠ typeForwardTsn)
    (hfits : fits = true ↔ value.length ≤ maxChunkValue) :
    AnswerFits s.config fits (queued ++ [packet]) := by
  refine ⟨queued, some packet, rfl, hqueued, by simp, ?_⟩
  rintro _ ⟨⟩
  exact ⟨peer, kind, flags, value, hbuilt, hkind, hfits⟩

theorem answerFits_nil (config : AssociationConfig) : AnswerFits config true [] :=
  ⟨[], none, rfl, by simp, by simp, by simp⟩

/-- A SACK fits if the reorder buffer it is built from has few enough runs. -/
theorem buildSack_fits {cumulative : UInt32} {sack : Bytes} {queued : List Bytes}
    (hqueued : ∀ packet ∈ queued, DataPacket s.config packet)
    (hcum : s.cumulativePeerTsn = some cumulative) (hbuf : Buffered cumulative s.pendingData)
    (h : s.buildSack = .ok sack) :
    AnswerFits s.config (decide (gapRuns s.pendingData cumulative ≤ maxGapBlocks))
      (queued ++ [sack]) := by
  rw [buildSack, hcum] at h
  simp only [Option.elim, Results.bind_ok] at h
  rcases hpeer : s.peerTag with error | peer
  · rw [hpeer] at h
    cases h
  rw [hpeer, Results.bind_ok] at h
  refine AnswerFits.of_packet hqueued h (by decide) ?_
  have hlength := length_gapBlocks hbuf
  simp only [List.length_append, Bytes.length_ofU32, Bytes.length_ofU16, List.length_flatMap,
    List.map_const', List.sum_replicate, smul_eq_mul, hlength, decide_eq_true_eq]
  unfold maxGapBlocks maxChunkValue maxPacketBytes sackFixedLen commonHeaderLen chunkHeaderLen
  omega

theorem drain_frame (fuel : ℕ) (next : UInt32) (s : Association) :
    (drain fuel next s).2.config = s.config ∧
      (drain fuel next s).2.peerVerificationTag = s.peerVerificationTag := by
  induction fuel generalizing next s with
  | zero => exact ⟨rfl, rfl⟩
  | succ fuel ih =>
    rw [drain]
    rcases s.pendingData[next]? with _ | data
    · exact ⟨rfl, rfl⟩
    · exact ih (next + 1) (advance next (unbuffer next s))

/-- A processed chunk returns DATA packets only. -/
theorem processDataMessage_packets {data : DataChunk} {peer : UInt32} {output : AssociationOutput}
    (hpeer : s.peerVerificationTag = some peer)
    (hrun : (processDataMessage now data).run s = (.ok output, t)) :
    t.config = s.config ∧ t.peerVerificationTag = some peer ∧
      ∀ packet ∈ output.packets, DataPacket s.config packet := by
  have hframe := processDataMessage_frame now data hpeer
  have hqueues := processDataMessage_queues now data hpeer
  rw [hrun] at hframe hqueues
  obtain ⟨hsame, hempty⟩ | ⟨queued, hok, hqueued⟩ := hqueues
  · refine ⟨hsame.config, hframe.peerVerificationTag.trans hpeer, ?_⟩
    simp [hempty output rfl]
  · obtain rfl := Except.ok.inj hok
    exact ⟨hqueued.config, hframe.peerVerificationTag.trans hpeer, hqueued.data⟩

theorem AssociationOutput.packets_append (a b : AssociationOutput) :
    (a ++ b).packets = a.packets ++ b.packets := rfl

theorem processAll_packets {batch : List DataChunk} {peer : UInt32} {output : AssociationOutput}
    (hpeer : s.peerVerificationTag = some peer)
    (hrun : (processAll now batch).run s = (.ok output, t)) :
    ∀ packet ∈ output.packets, DataPacket s.config packet := by
  induction batch generalizing s output with
  | nil =>
    obtain ⟨hout, -⟩ := Prod.mk.inj hrun
    obtain rfl := Except.ok.inj hout
    simp
  | cons data rest ih =>
    rw [processAll, run_bind_eq_ok] at hrun
    obtain ⟨first, u, hfirst, hrun⟩ := hrun
    rw [run_bind_eq_ok] at hrun
    obtain ⟨others, v, hothers, hlast⟩ := hrun
    obtain ⟨hout, -⟩ := Prod.mk.inj hlast
    obtain rfl := Except.ok.inj hout
    obtain ⟨hconfig, hpeer', hdata⟩ := processDataMessage_packets hpeer hfirst
    intro packet hpacket
    rcases List.mem_append.mp hpacket with hpacket | hpacket
    · exact hdata packet hpacket
    · obtain ⟨-, rfl⟩ := Prod.mk.inj hlast
      exact hconfig ▸ ih hpeer' hothers packet hpacket

theorem releasePending_packets {fuel : ℕ} {next peer : UInt32} {output : AssociationOutput}
    (hpeer : s.peerVerificationTag = some peer)
    (hrun : (releasePending now fuel next).run s = (.ok output, t)) :
    t.config = s.config ∧ ∀ packet ∈ output.packets, DataPacket s.config packet := by
  induction fuel generalizing s next output with
  | zero =>
    obtain ⟨hout, rfl⟩ := Prod.mk.inj hrun
    obtain rfl := Except.ok.inj hout
    exact ⟨rfl, by simp⟩
  | succ fuel ih =>
    rw [releasePending, run_get_bind] at hrun
    rcases hfind : s.pendingData[next]? with _ | data
    · rw [hfind] at hrun
      obtain ⟨hout, rfl⟩ := Prod.mk.inj hrun
      obtain rfl := Except.ok.inj hout
      exact ⟨rfl, by simp⟩
    rw [hfind] at hrun
    dsimp only at hrun
    rw [run_modify_bind, run_bind_eq_ok] at hrun
    obtain ⟨first, u, hfirst, hrun⟩ := hrun
    rw [run_modify_bind, run_bind_eq_ok] at hrun
    obtain ⟨others, v, hothers, hlast⟩ := hrun
    obtain ⟨hout, rfl⟩ := Prod.mk.inj hlast
    obtain rfl := Except.ok.inj hout
    obtain ⟨hconfig, hpeer', hdata⟩ := processDataMessage_packets
      (show (unbuffer next s).peerVerificationTag = some peer from hpeer) hfirst
    obtain ⟨hconfig', hothers'⟩ := @ih (advance next u) (next + 1) others hpeer' hothers
    refine ⟨hconfig'.trans hconfig, fun packet hpacket => ?_⟩
    rcases List.mem_append.mp hpacket with hpacket | hpacket
    · exact hdata packet hpacket
    · exact hconfig ▸ hothers' packet hpacket

/-- What `acceptData` returns and leaves: nothing new, or the drained buffer. -/
theorem acceptData_ok {data : DataChunk} {deliverable : List DataChunk} {cumulative : UInt32}
    (hcum : s.cumulativePeerTsn = some cumulative)
    (hrun : (acceptData data).run s = (.ok deliverable, t)) :
    (data.tsn - cumulative = 0 ∨ 0x80000000 ≤ data.tsn - cumulative) ∧ t = s ∨
      ¬(data.tsn - cumulative = 0 ∨ 0x80000000 ≤ data.tsn - cumulative) ∧
        t = (drain (s.pendingData.insertIfNew data.tsn data).size (cumulative + 1)
          { s with pendingData := s.pendingData.insertIfNew data.tsn data }).2 := by
  rw [acceptData, run_get_bind, run_ofOption_bind_eq_ok] at hrun
  obtain ⟨found, hfound, hrun⟩ := hrun
  rw [hcum, Option.some.injEq] at hfound
  subst hfound
  dsimp only at hrun
  split_ifs at hrun with hold
  · exact .inl ⟨hold, (run_pure_eq_ok.mp hrun).2.symm⟩
  · rw [run_ensure_bind_eq_ok, run_ensure_bind_eq_ok] at hrun
    obtain ⟨-, -, hrun⟩ := hrun
    exact .inr ⟨hold, (Prod.mk.inj hrun).2.symm⟩

theorem handleData_answerFits {flags : UInt8} {value : Bytes} {output : AssociationOutput}
    (hs : Sound s) (ht : Sound t)
    (hrun : (handleData now flags value).run s = (.ok output, t)) :
    AnswerFits s.config (s.dataFits flags value) output.packets := by
  rw [handleData, run_get_bind, run_ensure_bind_eq_ok] at hrun
  obtain ⟨hguard, hrun⟩ := hrun
  obtain ⟨peer, hpeer⟩ := hs.known (.inr hguard.1)
  obtain ⟨⟨cumulative, hcum⟩, -⟩ := hs.started peer hpeer
  rw [run_ofExcept_bind_eq_ok] at hrun
  obtain ⟨data, hdata, hrun⟩ := hrun
  rw [run_bind_eq_ok] at hrun
  obtain ⟨deliverable, u, haccept, hrun⟩ := hrun
  rw [run_bind_eq_ok] at hrun
  obtain ⟨processed, v, hprocess, hrun⟩ := hrun
  rw [run_get_bind, run_ofExcept_bind_eq_ok] at hrun
  obtain ⟨sack, hsack, hrun⟩ := hrun
  obtain ⟨rfl, rfl⟩ := run_pure_eq_ok.mp hrun
  have haccepted := acceptData_ok hcum haccept
  obtain ⟨hconfig, hpeer', reached, hreached, hruns⟩ : u.config = s.config ∧
      u.peerVerificationTag = some peer ∧ ∃ reached, u.cumulativePeerTsn = some reached ∧
        s.dataFits flags value = decide (gapRuns u.pendingData reached ≤ maxGapBlocks) := by
    simp only [dataFits, hdata, hcum]
    rcases haccepted with ⟨hold, rfl⟩ | ⟨hnew, rfl⟩
    · rw [if_pos hold]
      exact ⟨rfl, hpeer, cumulative, hcum, rfl⟩
    · rw [if_neg hnew]
      obtain ⟨reached, hreached, hruns⟩ := gapRuns_drain
        (s := { s with pendingData := s.pendingData.insertIfNew data.tsn data })
        (s.pendingData.insertIfNew data.tsn data).size hcum
      have hframe := drain_frame (s.pendingData.insertIfNew data.tsn data).size (cumulative + 1)
        { s with pendingData := s.pendingData.insertIfNew data.tsn data }
      exact ⟨hframe.1, hframe.2.trans hpeer, reached, hreached, by rw [hruns]⟩
  have hframe := processAll_frame now deliverable hpeer'
  rw [hprocess] at hframe
  have hframe : ReceiveFrame u v := hframe
  have hcum' : v.cumulativePeerTsn = some reached := hframe.cumulativePeerTsn.trans hreached
  have hpackets := processAll_packets hpeer' hprocess
  have hconfig' : v.config = s.config := by
    rw [show v.config = u.config by rw [hframe], hconfig]
  rw [hruns, ← hframe.pendingData, ← hconfig']
  rw [hconfig, ← hconfig'] at hpackets
  exact buildSack_fits hpackets hcum' (ht.buffered reached hcum') hsack

theorem handleForwardTsn_answerFits {value : Bytes} {output : AssociationOutput}
    (hs : Sound s) (ht : Sound t)
    (hrun : (handleForwardTsn now value).run s = (.ok output, t)) :
    AnswerFits s.config (s.forwardTsnFits value) output.packets := by
  rw [handleForwardTsn, run_get_bind, run_ensure_bind_eq_ok] at hrun
  obtain ⟨hguard, hrun⟩ := hrun
  obtain ⟨peer, hpeer⟩ := hs.known (.inr hguard.1)
  rw [run_ofExcept_bind_eq_ok] at hrun
  obtain ⟨newCumulativeTsn, hread, hrun⟩ := hrun
  rw [run_ofOption_bind_eq_ok] at hrun
  obtain ⟨current, hcum, hrun⟩ := hrun
  simp only [forwardTsnFits, hread, hcum]
  split_ifs at hrun ⊢ with hold
  · rw [run_ofExcept_bind_eq_ok] at hrun
    obtain ⟨sack, hsack, hrun⟩ := hrun
    obtain ⟨rfl, rfl⟩ := run_pure_eq_ok.mp hrun
    exact @buildSack_fits s current sack [] (by simp) hcum (hs.buffered current hcum) hsack
  obtain ⟨reassembly, hskip, -⟩ := forwarded_eq (s := s) newCumulativeTsn hguard.2.2.1
  rw [run_bind, hskip] at hrun
  dsimp only at hrun
  rw [run_modify_bind, run_get_bind, run_bind_eq_ok] at hrun
  obtain ⟨released, v, hrelease, hrun⟩ := hrun
  rw [run_get_bind, run_ofExcept_bind_eq_ok] at hrun
  obtain ⟨sack, hsack, hrun⟩ := hrun
  obtain ⟨rfl, rfl⟩ := run_pure_eq_ok.mp hrun
  obtain ⟨reached, hreached, hruns⟩ := gapRuns_releasePending (s := { s with
    reassembly
    pendingData := s.pendingData.filter fun tsn _ => !sequenceLessOrEqual tsn newCumulativeTsn
    cumulativePeerTsn := some newCumulativeTsn }) now _ rfl hpeer hrelease
  obtain ⟨hconfig, hpackets⟩ := releasePending_packets (s := { s with
    reassembly
    pendingData := s.pendingData.filter fun tsn _ => !sequenceLessOrEqual tsn newCumulativeTsn
    cumulativePeerTsn := some newCumulativeTsn }) hpeer hrelease
  dsimp only at hruns hconfig hpackets
  rw [← hruns, ← hconfig]
  rw [← hconfig] at hpackets
  exact buildSack_fits hpackets hreached (ht.buffered reached hreached) hsack

/-! ## Stream resets -/

theorem length_pushParameter {kind : UInt16} {value parameter : Bytes}
    (h : pushParameter kind value = .ok parameter) :
    parameter.length = Bytes.pad4 (4 + value.length) := by
  simp only [pushParameter, Results.ite_error_eq_ok, Except.ok.injEq] at h
  obtain ⟨-, rfl⟩ := h
  simp only [List.length_append, Bytes.length_ofU16, List.length_replicate]
  unfold Bytes.pad4
  omega

theorem length_reconfigResponse {requestSequence result : UInt32} {response : Bytes}
    (h : reconfigResponse requestSequence result = .ok response) : response.length = 12 := by
  rw [length_pushParameter h, List.length_append, Bytes.length_ofU32, Bytes.length_ofU32]
  rfl

theorem length_flatMap_words16 (input : Bytes) (heven : input.length % 2 = 0) :
    ((words16 input).flatMap Bytes.ofU16).length = input.length := by
  induction input using words16.induct with
  | case1 hi lo rest ih =>
    rw [words16, List.flatMap_cons, List.length_append, Bytes.length_ofU16, ih]
    · simp only [List.length_cons]
      omega
    · simp only [List.length_cons] at heven
      omega
  | case2 input hshort =>
    cases input with
    | nil => rfl
    | cons hi rest =>
      cases rest with
      | nil => simp at heven
      | cons lo rest => exact absurd rfl (hshort hi lo rest)

/-- The streams a reset lists take the bytes they came in. -/
theorem length_parseStreamNumbers {input : Bytes} {limit : UInt16} {streams : Option (List UInt16)}
    (h : parseStreamNumbers input limit = .ok streams) :
    ((streams.getD []).flatMap Bytes.ofU16).length = input.length := by
  unfold parseStreamNumbers at h
  split_ifs at h with hempty hodd hlimit
  · cases h
    rw [List.isEmpty_iff.mp hempty]
    rfl
  · cases h
    exact length_flatMap_words16 input (by omega)

theorem closeStreams_packets (streams : List UInt16) (s : Association) :
    (closeStreams streams s).1.packets = [] ∧
      (closeStreams streams s).2.nextPeerReconfigSequence = s.nextPeerReconfigSequence := by
  induction streams generalizing s with
  | nil => exact ⟨rfl, rfl⟩
  | cons streamId rest ih =>
    rw [closeStreams]
    split_ifs
    · obtain ⟨hpackets, hnext⟩ := ih { s with
        channels := s.channels.erase streamId
        reassembly := s.reassembly.erase streamId }
      exact ⟨hpackets, hnext⟩
    · exact ih s

theorem performReset_ok {expected : UInt32} {streamNumbers : Bytes}
    {streams : Option (List UInt16)} {output : AssociationOutput}
    (hrun : (performReset expected streamNumbers).run s = (.ok (streams, output), t)) :
    ((streams.getD []).flatMap Bytes.ofU16).length = streamNumbers.length ∧
      t.nextPeerReconfigSequence = some (expected + 1) ∧ output.packets = [] := by
  rw [performReset, run_modify_bind, run_get_bind, run_ofExcept_bind_eq_ok] at hrun
  obtain ⟨parsed, hparse, hrun⟩ := hrun
  simp only [run_set_bind, run_pure, Prod.mk.injEq, Except.ok.injEq] at hrun
  obtain ⟨⟨rfl, rfl⟩, rfl⟩ := hrun
  obtain ⟨hpackets, hnext⟩ := closeStreams_packets
    (({ s with nextPeerReconfigSequence := some (expected + 1) } : Association).resetStreams parsed)
    { s with nextPeerReconfigSequence := some (expected + 1) }
  exact ⟨length_parseStreamNumbers hparse, hnext, hpackets⟩

/-- A reset request that is answered: with 12 bytes, or with its streams if it comes in. -/
theorem handleOutgoingReset_ok {value response : Bytes} {output : AssociationOutput}
    (hrun : (handleOutgoingReset value).run s = (.ok (response, output), t)) :
    response.length = 12 ∧ output.packets = [] ∧
      t.nextPeerReconfigSequence = expectedAfter s.nextPeerReconfigSequence value := by
  rw [handleOutgoingReset, run_ensure_bind_eq_ok] at hrun
  obtain ⟨hguard, hrun⟩ := hrun
  rw [run_ofExcept_bind_eq_ok] at hrun
  obtain ⟨requestSequence, hread, hrun⟩ := hrun
  rw [run_get_bind, run_ofOption_bind_eq_ok] at hrun
  obtain ⟨expected, hexpected, hrun⟩ := hrun
  simp only [expectedAfter, isExpected, hread, hexpected, Option.some.injEq, decide_eq_true_eq]
  split_ifs at hrun with hsame
  · rw [if_pos hsame.symm]
    rw [run_bind_eq_ok] at hrun
    obtain ⟨⟨streams, closed⟩, u, hreset, hrun⟩ := hrun
    obtain ⟨-, hnext, hpackets⟩ := performReset_ok hreset
    rw [run_ofExcept_bind_eq_ok] at hrun
    obtain ⟨built, hresponse, hrun⟩ := hrun
    obtain ⟨hbuilt, rfl⟩ := run_pure_eq_ok.mp hrun
    obtain ⟨rfl, rfl⟩ := Prod.mk.inj hbuilt
    exact ⟨length_reconfigResponse hresponse, hpackets, hnext⟩
  · rw [if_neg fun h => hsame h.symm]
    rw [run_ofExcept_bind_eq_ok] at hrun
    obtain ⟨built, hresponse, hrun⟩ := hrun
    obtain ⟨hbuilt, rfl⟩ := run_pure_eq_ok.mp hrun
    obtain ⟨rfl, rfl⟩ := Prod.mk.inj hbuilt
    exact ⟨length_reconfigResponse hresponse, rfl, hexpected⟩

theorem handleIncomingReset_ok {value response : Bytes} {output : AssociationOutput}
    (hrun : (handleIncomingReset value).run s = (.ok (response, output), t)) :
    response.length = (if isExpected s.nextPeerReconfigSequence value then
        Bytes.pad4 (12 + value.length) else 12) ∧ output.packets = [] ∧
      t.nextPeerReconfigSequence = expectedAfter s.nextPeerReconfigSequence value := by
  rw [handleIncomingReset, run_ensure_bind_eq_ok] at hrun
  obtain ⟨hguard, hrun⟩ := hrun
  rw [run_ofExcept_bind_eq_ok] at hrun
  obtain ⟨requestSequence, hread, hrun⟩ := hrun
  rw [run_get_bind, run_ofOption_bind_eq_ok] at hrun
  obtain ⟨expected, hexpected, hrun⟩ := hrun
  simp only [expectedAfter, isExpected, hread, hexpected, Option.some.injEq, decide_eq_true_eq]
  split_ifs at hrun with hother
  · rw [if_neg fun h => hother h.symm, if_neg fun h => hother h.symm]
    rw [run_ofExcept_bind_eq_ok] at hrun
    obtain ⟨built, hresponse, hrun⟩ := hrun
    obtain ⟨hbuilt, rfl⟩ := run_pure_eq_ok.mp hrun
    obtain ⟨rfl, rfl⟩ := Prod.mk.inj hbuilt
    exact ⟨length_reconfigResponse hresponse, rfl, hexpected⟩
  · rw [not_not] at hother
    rw [if_pos hother.symm, if_pos hother.symm]
    rw [run_bind_eq_ok] at hrun
    obtain ⟨⟨streams, closed⟩, u, hreset, hrun⟩ := hrun
    obtain ⟨hstreams, hnext, hpackets⟩ := performReset_ok hreset
    rw [run_get_bind, run_modify_bind, run_ofExcept_bind_eq_ok] at hrun
    obtain ⟨built, hresponse, hrun⟩ := hrun
    obtain ⟨hbuilt, rfl⟩ := run_pure_eq_ok.mp hrun
    obtain ⟨rfl, rfl⟩ := Prod.mk.inj hbuilt
    refine ⟨?_, hpackets, hnext⟩
    rw [length_pushParameter hresponse]
    simp only [List.length_append, Bytes.length_ofU32, hstreams, List.length_drop]
    congr 1
    omega

theorem handleParameters_ok {parameters : List Parameter} {response : Bytes}
    {output : AssociationOutput}
    (hrun : (handleParameters parameters).run s = (.ok (response, output), t)) :
    response.length = resetAnswerBytes s.nextPeerReconfigSequence parameters ∧
      output.packets = [] := by
  induction parameters generalizing s response output with
  | nil =>
    simp only [handleParameters, run_pure, Prod.mk.injEq, Except.ok.injEq] at hrun
    obtain ⟨⟨rfl, rfl⟩, -⟩ := hrun
    exact ⟨rfl, rfl⟩
  | cons parameter rest ih =>
    rw [handleParameters] at hrun
    rw [resetAnswerBytes]
    by_cases hout : parameter.kind = parameterOutgoingReset
    · rw [if_pos hout] at hrun ⊢
      rw [run_bind_eq_ok] at hrun
      obtain ⟨⟨first, closed⟩, u, hfirst, hrun⟩ := hrun
      rw [run_bind_eq_ok] at hrun
      obtain ⟨⟨others, outputs⟩, v, hothers, hlast⟩ := hrun
      simp only [run_pure, Prod.mk.injEq, Except.ok.injEq] at hlast
      obtain ⟨⟨rfl, rfl⟩, rfl⟩ := hlast
      obtain ⟨hlength, hpackets, hnext⟩ := handleOutgoingReset_ok hfirst
      obtain ⟨hlength', hpackets'⟩ := ih hothers
      rw [List.length_append, hlength, hlength', hnext]
      exact ⟨rfl, by rw [AssociationOutput.packets_append, hpackets, hpackets']; rfl⟩
    rw [if_neg hout] at hrun ⊢
    by_cases hin : parameter.kind = parameterIncomingReset
    · rw [if_pos hin] at hrun ⊢
      rw [run_bind_eq_ok] at hrun
      obtain ⟨⟨first, closed⟩, u, hfirst, hrun⟩ := hrun
      rw [run_bind_eq_ok] at hrun
      obtain ⟨⟨others, outputs⟩, v, hothers, hlast⟩ := hrun
      simp only [run_pure, Prod.mk.injEq, Except.ok.injEq] at hlast
      obtain ⟨⟨rfl, rfl⟩, rfl⟩ := hlast
      obtain ⟨hlength, hpackets, hnext⟩ := handleIncomingReset_ok hfirst
      obtain ⟨hlength', hpackets'⟩ := ih hothers
      rw [List.length_append, hlength, hlength', hnext]
      exact ⟨rfl, by rw [AssociationOutput.packets_append, hpackets, hpackets']; rfl⟩
    rw [if_neg hin] at hrun ⊢
    split_ifs at hrun ⊢ with hresponse
    · rw [run_ensure_bind_eq_ok] at hrun
      exact ih hrun.2
    · simp only [run_pure, Prod.mk.injEq, Except.ok.injEq] at hrun
      obtain ⟨⟨rfl, rfl⟩, -⟩ := hrun
      exact ⟨rfl, rfl⟩

theorem handleReconfiguration_answerFits {value : Bytes} {output : AssociationOutput}
    (hrun : (handleReconfiguration value).run s = (.ok output, t)) :
    AnswerFits s.config (s.reconfigurationFits value) output.packets := by
  have hframe := handleReconfiguration_frame value s
  rw [hrun] at hframe
  obtain ⟨hframe, -⟩ := hframe
  have hconfig := congrArg Association.config hframe
  have hconfig : t.config = s.config := hconfig
  rw [handleReconfiguration, run_get_bind, run_ensure_bind_eq_ok] at hrun
  obtain ⟨-, hrun⟩ := hrun
  rw [run_ofExcept_bind_eq_ok] at hrun
  obtain ⟨parameters, hparameters, hrun⟩ := hrun
  rw [run_ensure_bind_eq_ok, run_bind_eq_ok] at hrun
  obtain ⟨-, hrun⟩ := hrun
  obtain ⟨⟨response, closed⟩, u, hresets, hrun⟩ := hrun
  obtain ⟨hlength, hpackets⟩ := handleParameters_ok hresets
  simp only [reconfigurationFits, hparameters, ← hlength]
  dsimp only at hrun
  split_ifs at hrun with hempty
  · simp only [run_pure, Prod.mk.injEq, Except.ok.injEq] at hrun
    obtain ⟨rfl, -⟩ := hrun
    rw [hpackets, List.isEmpty_iff.mp hempty]
    exact answerFits_nil s.config
  · rw [run_get_bind, run_ofExcept_bind_eq_ok] at hrun
    obtain ⟨peer, -, hrun⟩ := hrun
    rw [run_ofExcept_bind_eq_ok] at hrun
    obtain ⟨packet, hpacket, hrun⟩ := hrun
    obtain ⟨rfl, rfl⟩ := run_pure_eq_ok.mp hrun
    rw [AssociationOutput.packets_append, hpackets, ← hconfig]
    exact AnswerFits.of_packet (by simp) hpacket (by decide) (by simp)

/-! ## The other chunks -/

theorem length_initAck {config : AssociationConfig} (hvalid : config.validate = .ok ())
    {init : InitChunk} {ack : Bytes} (h : initAck config init = .ok ack) :
    ack.length ≤ maxChunkValue := by
  have hcookie : config.cookie.length ≤ 256 := by
    unfold AssociationConfig.validate at hvalid
    split_ifs at hvalid with hinvalid
    simp only [not_or, not_not] at hinvalid
    exact hinvalid.2.2.2.1.2
  rw [initAck, Results.bind_eq_ok] at h
  obtain ⟨cookie, hpushed, h⟩ := h
  obtain ⟨forward, hforward, rfl⟩ : ∃ forward : Bytes, forward.length ≤ 4 ∧
      ack = Bytes.ofU32 config.verificationTag ++ Bytes.ofU32 defaultReceiveWindow ++
        Bytes.ofU16
          (.ofNat (max (min (min config.maximumChannels 65535) init.inboundStreams.toNat) 1)) ++
        Bytes.ofU16
          (.ofNat (max (min (min config.maximumChannels 65535) init.inboundStreams.toNat) 1)) ++
        Bytes.ofU32 config.initialTsn ++ cookie ++ forward := by
    dsimp only at h
    split_ifs at h
    · rw [Results.bind_eq_ok] at h
      obtain ⟨forward, hforward, h⟩ := h
      refine ⟨forward, ?_, (Except.ok.inj h).symm⟩
      rw [length_pushParameter hforward]
      decide
    · exact ⟨[], by simp, (Except.ok.inj h).symm⟩
  have hlength := length_pushParameter hpushed
  unfold Bytes.pad4 at hlength
  simp only [List.length_append, Bytes.length_ofU32, Bytes.length_ofU16]
  unfold maxChunkValue maxPacketBytes commonHeaderLen chunkHeaderLen
  omega

theorem handleInit_answerFits {value : Bytes} {output : AssociationOutput} (hs : Sound s)
    (hrun : (handleInit tag value).run s = (.ok output, t)) :
    AnswerFits s.config true output.packets := by
  rw [handleInit, run_ofExcept_bind_eq_ok] at hrun
  obtain ⟨init, -, hrun⟩ := hrun
  rw [run_modify_bind, run_get_bind, run_ofExcept_bind_eq_ok] at hrun
  obtain ⟨ack, hack, hrun⟩ := hrun
  rw [run_ofExcept_bind_eq_ok] at hrun
  obtain ⟨packet, hpacket, hrun⟩ := hrun
  obtain ⟨rfl, -⟩ := run_pure_eq_ok.mp hrun
  have hconfig : (restart init s).config = s.config := rfl
  refine @AnswerFits.of_packet (restart init s) _ _ _ _ _ _ [] (by simp) hpacket (by decide) ?_
  exact iff_of_true rfl (length_initAck (hconfig ▸ hs.valid) hack)

theorem handleCookieEcho_answerFits {cookie : Bytes} {output : AssociationOutput}
    (hrun : (handleCookieEcho tag cookie).run s = (.ok output, t)) :
    AnswerFits s.config true output.packets := by
  rw [handleCookieEcho, run_get_bind, run_ensure_bind_eq_ok] at hrun
  obtain ⟨-, hrun⟩ := hrun
  rw [run_ofExcept_bind_eq_ok] at hrun
  obtain ⟨-, -, hrun⟩ := hrun
  rw [run_ensure_bind_eq_ok] at hrun
  obtain ⟨-, hrun⟩ := hrun
  rw [run_modify_bind, run_ofExcept_bind_eq_ok] at hrun
  obtain ⟨peer, -, hrun⟩ := hrun
  rw [run_ofExcept_bind_eq_ok] at hrun
  obtain ⟨packet, hpacket, hrun⟩ := hrun
  obtain ⟨rfl, -⟩ := run_pure_eq_ok.mp hrun
  exact @AnswerFits.of_packet s _ _ _ _ _ _ [] (by simp) hpacket (by decide) (by decide)

theorem handleHeartbeat_answerFits {value : Bytes} {output : AssociationOutput}
    (hrun : (handleHeartbeat value).run s = (.ok output, t)) :
    AnswerFits s.config (decide (value.length ≤ maxChunkValue)) output.packets := by
  rw [handleHeartbeat, run_get_bind, run_ofExcept_bind_eq_ok] at hrun
  obtain ⟨peer, -, hrun⟩ := hrun
  rw [run_ofExcept_bind_eq_ok] at hrun
  obtain ⟨packet, hpacket, hrun⟩ := hrun
  obtain ⟨rfl, -⟩ := run_pure_eq_ok.mp hrun
  exact @AnswerFits.of_packet s _ _ _ _ _ _ [] (by simp) hpacket (by decide) decide_eq_true_iff

theorem handleShutdown_answerFits {output : AssociationOutput}
    (hrun : handleShutdown.run s = (.ok output, t)) :
    AnswerFits s.config true output.packets := by
  rw [handleShutdown, run_modify_bind, run_get_bind, run_ofExcept_bind_eq_ok] at hrun
  obtain ⟨peer, -, hrun⟩ := hrun
  rw [run_ofExcept_bind_eq_ok] at hrun
  obtain ⟨packet, hpacket, hrun⟩ := hrun
  obtain ⟨rfl, -⟩ := run_pure_eq_ok.mp hrun
  exact @AnswerFits.of_packet { s with state := .closed } _ _ _ _ _ _ [] (by simp) hpacket (by decide)
    (by decide)

theorem answersFit_of_other (chunk : ParsedChunk) (s : Association)
    (h : chunk.kind ∉ [typeData, typeForwardTsn, typeHeartbeat, typeReConfig]) :
    answersFit tag chunk s = true := by
  simp only [List.mem_cons, List.not_mem_nil, or_false, not_or] at h
  rw [answersFit, if_neg h.1, if_neg h.2.1, if_neg h.2.2.1, if_neg h.2.2.2]

/-- An accepted chunk is answered in packets of full size exactly when its answer fits. -/
theorem handleChunk_answerFits {output : AssociationOutput} (hs : Sound s)
    (hrun : (handleChunk now tag chunk).run s = (.ok output, t)) :
    AnswerFits s.config (answersFit tag chunk s) output.packets := by
  have ht : Sound t := by
    have := (handleChunk_effect now tag chunk hs).sound hs
    rwa [hrun] at this
  have hguarded (action : Action AssociationOutput)
      (haction : action.run s = (.ok output, t) →
        AnswerFits s.config (answersFit tag chunk s) output.packets)
      (hrun : (guarded tag action).run s = (.ok output, t)) :
      AnswerFits s.config (answersFit tag chunk s) output.packets := by
    rw [guarded_run] at hrun
    split_ifs at hrun
    · exact haction hrun
    · cases (Prod.mk.inj hrun).1
  revert hrun
  refine handleChunk_elim (P := fun action => action.run s = (.ok output, t) →
    AnswerFits s.config (answersFit tag chunk s) output.packets) now tag chunk
    ?_ ?_ ?_ ?_ ?_ ?_ ?_ ?_ ?_ ?_
  · intro hkind hrun
    rw [answersFit_of_other chunk s (by rw [hkind]; decide)]
    exact handleInit_answerFits hs hrun
  · intro hkind hrun
    rw [answersFit_of_other chunk s (by rw [hkind]; decide)]
    exact handleCookieEcho_answerFits hrun
  · intro hkind
    refine hguarded _ fun hrun => ?_
    rw [answersFit, if_pos hkind]
    exact handleData_answerFits hs ht hrun
  · intro hkind
    refine hguarded _ fun hrun => ?_
    rw [run_bind_eq_ok] at hrun
    obtain ⟨⟨⟩, u, -, hlast⟩ := hrun
    simp only [run_pure, Prod.mk.injEq, Except.ok.injEq] at hlast
    obtain ⟨rfl, -⟩ := hlast
    rw [answersFit_of_other chunk s (by rw [hkind]; decide)]
    exact answerFits_nil s.config
  · intro hkind
    refine hguarded _ fun hrun => ?_
    rw [answersFit, hkind, if_neg (by decide), if_neg (by decide), if_pos rfl]
    exact handleHeartbeat_answerFits hrun
  · intro hkind hrun
    simp only [handleAbort, run_modify_bind, run_pure, Prod.mk.injEq, Except.ok.injEq] at hrun
    obtain ⟨rfl, -⟩ := hrun
    rw [answersFit_of_other chunk s (by rw [hkind]; decide)]
    exact answerFits_nil s.config
  · intro hkind
    refine hguarded _ fun hrun => ?_
    rw [answersFit_of_other chunk s (by rw [hkind]; decide)]
    exact handleShutdown_answerFits hrun
  · intro hkind
    refine hguarded _ fun hrun => ?_
    rw [answersFit, hkind, if_neg (by decide), if_neg (by decide), if_neg (by decide), if_pos rfl]
    exact handleReconfiguration_answerFits hrun
  · intro hkind
    refine hguarded _ fun hrun => ?_
    rw [answersFit, hkind, if_neg (by decide), if_pos rfl]
    exact handleForwardTsn_answerFits hs ht hrun
  · intro hkind hrun
    simp only [run_pure, Prod.mk.injEq, Except.ok.injEq] at hrun
    obtain ⟨rfl, -⟩ := hrun
    have hother : chunk.kind ∉ [typeData, typeForwardTsn, typeHeartbeat, typeReConfig] := by
      simp only [List.mem_cons, List.not_mem_nil, or_false, not_or] at hkind ⊢
      exact ⟨hkind.2.2.1, hkind.2.2.2.2.2.2.2.2, hkind.2.2.2.2.1, hkind.2.2.2.2.2.2.2.1⟩
    rw [answersFit_of_other chunk s hother]
    exact answerFits_nil s.config

/-! ## Packets and runs -/

/-- The answers to a packet whose chunks are all accepted. -/
theorem handleChunks_lengths {chunks : List ParsedChunk} {output : AssociationOutput} (hs : Sound s)
    (hrun : (handleChunks now tag chunks).run s = (.ok output, t)) :
    (∀ packet ∈ output.packets, packet.length ≤ maxPacketBytes) ↔
      everyChunk answersFit now tag chunks s = true := by
  induction chunks generalizing s output with
  | nil =>
    simp only [handleChunks, run_pure, Prod.mk.injEq, Except.ok.injEq] at hrun
    obtain ⟨rfl, -⟩ := hrun
    simp [everyChunk]
  | cons chunk rest ih =>
    rw [handleChunks, run_bind_eq_ok] at hrun
    obtain ⟨first, u, hfirst, hrun⟩ := hrun
    rw [run_bind_eq_ok] at hrun
    obtain ⟨others, v, hothers, hlast⟩ := hrun
    simp only [run_pure, Prod.mk.injEq, Except.ok.injEq] at hlast
    obtain ⟨rfl, rfl⟩ := hlast
    have hu : Sound u := by
      have := (handleChunk_effect now tag chunk hs).sound hs
      rwa [hfirst] at this
    rw [everyChunk, hfirst, Bool.and_eq_true, ← (handleChunk_answerFits hs hfirst).length_le_iff,
      ← ih hu hothers, AssociationOutput.packets_append, List.forall_mem_append]

theorem handlePacket_lengths {bytes : Bytes} {output : AssociationOutput} (hs : Sound s)
    (hrun : (handlePacket now bytes).run s = (.ok output, t)) :
    (∀ packet ∈ output.packets, packet.length ≤ maxPacketBytes) ↔
      Input.meets (everyChunk answersFit) (.packet now bytes) s = true := by
  rw [handlePacket, run_ofExcept_bind_eq_ok] at hrun
  obtain ⟨parsed, hparse, hrun⟩ := hrun
  rw [run_get_bind, run_ensure_bind_eq_ok] at hrun
  obtain ⟨hports, hrun⟩ := hrun
  rw [handleChunks_lengths hs hrun]
  simp only [Input.meets, hparse]
  simp [hports]

/-- The FORWARD TSN lists at most one stream for each abandoned chunk. -/
theorem Forwards.length_le {packet : Bytes} {n : ℕ} {skipped : ExtTreeMap UInt16 UInt16}
    (h : Forwards s packet n skipped) (hkept : KeptRecent s) : packet.length ≤ maxPacketBytes := by
  obtain ⟨peer, -, hbuilt⟩ := h.built
  have hsub : skipped.keys ⊆ s.abandoned.toList.map fun entry => entry.2.streamId := by
    intro streamId hstream
    rw [ExtTreeMap.mem_keys, Maps.mem_iff_exists] at hstream
    obtain ⟨streamSequence, hfind⟩ := hstream
    obtain ⟨i, -, hunder, -⟩ := (h.scanned.skipped streamId streamSequence).mp hfind
    exact List.mem_map.mpr ⟨(s.outboundCumulativeTsn + 1 + UInt32.ofNat i,
      Abandoned.mk streamId streamSequence true),
      ExtTreeMap.mem_toList_iff_getElem?_eq_some.mpr hunder, rfl⟩
  have hsize := ((Maps.nodup_keys skipped).subperm hsub).length_le
  rw [ExtTreeMap.length_keys, List.length_map, ExtTreeMap.length_toList] at hsize
  have habandoned := hkept.size_abandoned_le
  rw [length_le_of_buildPacket hbuilt, forwardTsnValue]
  simp only [List.length_append, Bytes.length_ofU32, Bytes.length_ofU16, List.length_flatMap,
    List.map_const', List.sum_replicate, smul_eq_mul, ExtTreeMap.length_toList]
  unfold maxOutstanding at habandoned
  unfold maxChunkValue maxPacketBytes commonHeaderLen chunkHeaderLen
  omega

theorem mem_resentEntries {entries : List (UInt32 × Outstanding)} {packet : Bytes}
    (h : packet ∈ (resentEntries now entries).map fun entry => entry.2.packet) :
    ∃ entry ∈ entries, entry.2.packet = packet := by
  obtain ⟨entry, hentry, rfl⟩ := List.mem_map.mp h
  exact ⟨entry, (List.mem_filter.mp hentry).1, rfl⟩

theorem tick_lengths (now : ℕ) (hkept : KeptRecent s) :
    ∀ packet ∈ (tick now s).1.packets, packet.length ≤ maxPacketBytes := by
  have hstored : ∀ entry ∈ s.outstanding.toList, entry.2.packet.length ≤ maxPacketBytes := by
    intro entry hentry
    exact (hkept.packets entry.1 entry.2
      (ExtTreeMap.mem_toList_iff_getElem?_eq_some.mp hentry)).length_le
  have hafter := keptRecent_tick now hkept
  have heffect := tick_effect now s
  generalize (tick now s).1 = output, (tick now s).2 = t at heffect hafter
  intro packet hpacket
  cases heffect with
  | idle => cases hpacket
  | failed _ hentries =>
    obtain ⟨entry, hentry, rfl⟩ := mem_resentEntries hpacket
    refine hstored entry ?_
    rw [hentries]
    exact List.mem_append_left _ hentry
  | kept _ _ _ _ _ _ _ hforward =>
    rcases List.mem_append.mp hpacket with hpacket | hpacket
    · obtain ⟨entry, hentry, rfl⟩ := mem_resentEntries hpacket
      exact hstored entry hentry
    · obtain ⟨n, skipped, hforwards⟩ := hforward packet (Option.mem_toList.mp hpacket)
      exact hforwards.length_le ⟨hafter.outstanding, hafter.abandoned, hafter.packets⟩

theorem Input.packets_length (input : Input) (hs : Sound s) (hkept : KeptRecent s)
    (hfits : input.meets (everyChunk answersFit) s = true) :
    ∀ packet ∈ input.packets s, packet.length ≤ maxPacketBytes := by
  cases input with
  | packet now bytes =>
    rw [Input.packets]
    rcases hrun : (handlePacket now bytes).run s with ⟨error | output, t⟩
    · simp
    · exact (handlePacket_lengths hs hrun).mpr hfits
  | send now streamId kind payload =>
    rw [Input.packets]
    have hqueues := sendMessage_queues now streamId kind payload hs
    rcases hrun : (sendMessage now streamId kind payload).run s with ⟨error | packets, t⟩
    · simp
    rw [hrun] at hqueues
    obtain ⟨-, hrefused⟩ | ⟨message, queued, hok, hqueued⟩ := hqueues
    · exact absurd rfl (hrefused packets)
    · obtain rfl := Except.ok.inj hok
      exact fun packet hpacket => (hqueued.data packet hpacket).length_le
  | tick now => exact tick_lengths now hkept

theorem keptRecent_step (input : Input) (hs : Sound s) (hkept : KeptRecent s) :
    KeptRecent (s.step input) :=
  (chain_input input hs).keptRecent hkept

theorem sentPackets_length {inputs : List Input} (hs : Sound s) (hkept : KeptRecent s)
    (hfits : allMeet (everyChunk answersFit) inputs s = true) :
    ∀ packet ∈ sentPackets inputs s, packet.length ≤ maxPacketBytes := by
  induction inputs generalizing s with
  | nil => simp [sentPackets]
  | cons input rest ih =>
    rw [allMeet, Bool.and_eq_true] at hfits
    rw [sentPackets, List.forall_mem_append]
    refine ⟨input.packets_length hs hkept hfits.1, ?_⟩
    exact ih (sound_step hs input) (keptRecent_step input hs hkept) hfits.2

/-- In a run in which every chunk is answered by few enough gaps, streams and echoed bytes, no packet
is longer than the limit; and a packet that is accepted after any run is answered by packets within the
limit exactly when the condition holds of its chunks. -/
theorem packets_within_limit {config : AssociationConfig} {start : Association}
    (hnew : new config = .ok start) (inputs : List Input) :
    (allMeet (everyChunk answersFit) inputs start = true →
      ∀ packet ∈ sentPackets inputs start, packet.length ≤ maxPacketBytes) ∧
    ∀ now bytes output t, (handlePacket now bytes).run (runInputs inputs start) = (.ok output, t) →
      ((∀ packet ∈ output.packets, packet.length ≤ maxPacketBytes) ↔
        Input.meets (everyChunk answersFit) (.packet now bytes) (runInputs inputs start) = true) :=
  ⟨sentPackets_length (sound_new hnew) (keptRecent_new hnew),
    fun _ _ _ _ hrun => handlePacket_lengths (within_runInputs hnew inputs).sound hrun⟩

theorem packets_within_limit_sample :
    ∃ start, new Sample.config = .ok start ∧
      allMeet (everyChunk answersFit) Sample.gapped start = true ∧
      ∀ packet ∈ sentPackets Sample.gapped start, packet.length ≤ maxPacketBytes := by
  have hfits : ∀ start, new Sample.config = .ok start →
      allMeet (everyChunk answersFit) Sample.gapped start = true := by
    rintro _ ⟨⟩
    decide +kernel
  exact ⟨_, rfl, hfits _ rfl, (@packets_within_limit Sample.config _ rfl Sample.gapped).1 (hfits _ rfl)⟩

/-- The peer's RE-CONFIG of 1194 bytes with an incoming reset that lists stream 0 585 times. -/
def Sample.longReset : Bytes :=
  Sample.peerPacket 0x11223344 typeReConfig 0
    (Bytes.ofU16 parameterIncomingReset ++ Bytes.ofU16 1178 ++ Bytes.ofU32 500 ++
      (List.replicate 585 0).flatMap Bytes.ofU16)

/-- The answer has 1204 bytes. -/
theorem long_reset_not_within_limit :
    ∃ start, new Sample.config = .ok start ∧
      ¬∀ packet ∈ sentPackets (Sample.establish false ++ [.packet 2000000 Sample.longReset]) start,
        packet.length ≤ maxPacketBytes := by
  refine ⟨_, rfl, ?_⟩
  decide +kernel

end Association

end Fluvora.DataChannel
