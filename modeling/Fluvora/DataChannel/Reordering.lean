import Fluvora.Lib.Reorder
import Fluvora.DataChannel.Reachable

/-!
# Receiving DATA in any order

The receive side of an association refines the reordering of `Lib.Reorder`: after the arrival of a
set of TSN positions it has released, and processed in order, everything below the first missing
position, and it buffers the rest.  What a chunk does when it is released does not depend on the
time or on what is buffered (`Similar`), so two deliveries of the same chunks end with the same
events and the same receive state.
-/

open Std (ExtTreeMap)

namespace Fluvora.DataChannel

open Fallible Reorder

namespace Association

/-! ## Processing does not see the buffer or the clock -/

/-- Two states that differ at most in the reorder buffer, the cumulative TSN and the times of the
outstanding chunks. -/
def Similar (s t : Association) : Prop :=
  t = { s with
    cumulativePeerTsn := t.cumulativePeerTsn
    pendingData := t.pendingData
    outstanding := t.outstanding } ∧
  ∀ tsn, tsn ∈ t.outstanding ↔ tsn ∈ s.outstanding

theorem Similar.refl (s : Association) : Similar s s := ⟨rfl, fun _ => Iff.rfl⟩

theorem Similar.trans {s t u : Association} (hst : Similar s t) (htu : Similar t u) :
    Similar s u := by
  refine ⟨?_, fun tsn => (htu.2 tsn).trans (hst.2 tsn)⟩
  rw [htu.1, hst.1]

theorem Similar.symm {s t : Association} (h : Similar s t) : Similar t s := by
  refine ⟨?_, fun tsn => (h.2 tsn).symm⟩
  rw [h.1]

theorem Similar.assembled {s t : Association} (h : Similar s t) (data : DataChunk) :
    t.assembled data = s.assembled data := by
  rw [h.1]
  rfl

theorem Similar.reassemblyAfter {s t : Association} (h : Similar s t) (data : DataChunk)
    (payload : Bytes) : t.reassemblyAfter data payload = s.reassemblyAfter data payload := by
  rw [h.1]
  rfl

theorem Similar.parse {s t : Association} (h : Similar s t) (streamId : UInt16) (payload : Bytes) :
    ChannelOpen.parse t streamId payload = ChannelOpen.parse s streamId payload := by
  rw [h.1]
  rfl

theorem Similar.admits {s t : Association} (h : Similar s t) (data : DataChunk) :
    t.admits data = s.admits data := by
  have hsize : t.outstanding.size = s.outstanding.size := Maps.size_eq_of_mem_iff h.2
  have hroom : t.hasRoom 1 = s.hasRoom 1 := by
    rw [hasRoom, hasRoom, hsize, flightSpan, flightSpan, h.1]
  have huser : ∀ payload, t.handleUserMessage data.streamId data.ppid payload =
      s.handleUserMessage data.streamId data.ppid payload := by
    intro payload
    rw [h.1]
    rfl
  have hstreams : t.peerOutboundStreams = s.peerOutboundStreams := by rw [h.1]
  unfold Association.admits
  simp only [h.assembled, h.parse, hroom, huser, hstreams]

theorem Similar.with_reassembly {s t : Association} (h : Similar s t)
    (reassembly : ExtTreeMap UInt16 Reassembly) :
    Similar { s with reassembly } { t with reassembly } := by
  refine ⟨?_, h.2⟩
  rw [h.1]

/-- Similar states process a chunk alike. -/
theorem Processed.similar {s s' t t' : Association} {data : DataChunk}
    {output output' : AssociationOutput} (hsim : Similar s s') (h : Processed s data output t)
    (h' : Processed s' data output' t') : output'.events = output.events ∧ Similar t t' := by
  cases h with
  | fragment hpayload hend =>
    cases h' with
    | fragment hpayload' hend' =>
      rw [hsim.assembled, hpayload] at hpayload'
      cases hpayload'
      rw [hsim.reassemblyAfter]
      exact ⟨rfl, hsim.with_reassembly _⟩
    | message _ hend' => simp [hend] at hend'
    | opened _ hend' => simp [hend] at hend'
  | message hpayload hend hppid hopen =>
    cases h' with
    | fragment _ hend' => simp [hend] at hend'
    | message hpayload' =>
      rw [hsim.assembled, hpayload] at hpayload'
      cases hpayload'
      rw [hsim.reassemblyAfter]
      exact ⟨rfl, hsim.with_reassembly _⟩
    | opened _ _ hdcep =>
      rw [hdcep] at hppid
      exact absurd hppid (by decide)
  | opened hpayload hend hdcep hroom hparse hout =>
    cases h' with
    | fragment _ hend' => simp [hend] at hend'
    | message _ _ hppid =>
      rw [hdcep] at hppid
      exact absurd hppid (by decide)
    | opened hpayload' _ _ _ hparse' hout' =>
      rw [hsim.assembled, hpayload] at hpayload'
      cases hpayload'
      rw [hsim.parse, hparse] at hparse'
      cases hparse'
      have hnext : s'.nextTsn = s.nextTsn := by rw [hsim.1]
      refine ⟨rfl, ?_, ?_⟩
      · rw [hsim.reassemblyAfter, hsim.1]
      · intro tsn
        rw [hout', hout, hsim.2, hnext]

/-! ## Processing a stream of chunks -/

/-- Processing a list of admitted chunks in order, with the events it emits. -/
inductive ProcessedAll : Association → List DataChunk → List AssociationEvent → Association → Prop
  | nil (s : Association) : ProcessedAll s [] [] s
  | cons {s t u : Association} {data : DataChunk} {rest : List DataChunk}
      {output : AssociationOutput} {events : List AssociationEvent}
      (hadmits : s.admits data = true) (h : Processed s data output t)
      (hrest : ProcessedAll t rest events u) :
      ProcessedAll s (data :: rest) (output.events ++ events) u

theorem ProcessedAll.append {s t u : Association} {first rest : List DataChunk}
    {events events' : List AssociationEvent} (h : ProcessedAll s first events t)
    (h' : ProcessedAll t rest events' u) :
    ProcessedAll s (first ++ rest) (events ++ events') u := by
  induction h with
  | nil => exact h'
  | cons hadmits h _ ih =>
    rw [List.cons_append, List.append_assoc]
    exact .cons hadmits h (ih h')

theorem ProcessedAll.split {s u : Association} {first rest : List DataChunk}
    {events : List AssociationEvent} (h : ProcessedAll s (first ++ rest) events u) :
    ∃ t events₁ events₂, ProcessedAll s first events₁ t ∧ ProcessedAll t rest events₂ u ∧
      events = events₁ ++ events₂ := by
  induction first generalizing s events with
  | nil => exact ⟨s, [], events, .nil s, h, rfl⟩
  | cons data first ih =>
    cases h with
    | cons hadmits hfirst hrest =>
      obtain ⟨t, events₁, events₂, h₁, h₂, rfl⟩ := ih hrest
      exact ⟨t, _, events₂, .cons hadmits hfirst h₁, h₂, (List.append_assoc ..).symm⟩

/-- Similar states process a list of chunks alike. -/
theorem ProcessedAll.similar {s s' t t' : Association} {batch : List DataChunk}
    {events events' : List AssociationEvent} (hsim : Similar s s')
    (h : ProcessedAll s batch events t) (h' : ProcessedAll s' batch events' t') :
    events' = events ∧ Similar t t' := by
  induction h generalizing s' events' with
  | nil =>
    cases h'
    exact ⟨rfl, hsim⟩
  | cons hadmits h _ ih =>
    cases h' with
    | cons hadmits' hfirst hrest =>
      obtain ⟨hevents, hsim'⟩ := h.similar hsim hfirst
      obtain ⟨hrest', hsim''⟩ := ih hsim' hrest
      exact ⟨by rw [hevents, hrest'], hsim''⟩

theorem processedAll_of_admitsAll (now : ℕ) {batch : List DataChunk} {s : Association}
    {tag : UInt32} (htag : s.peerVerificationTag = some tag)
    (h : admitsAll now batch s = true) :
    ∃ output t, (processAll now batch).run s = (.ok output, t) ∧
      ProcessedAll s batch output.events t := by
  induction batch generalizing s with
  | nil => exact ⟨{}, s, rfl, .nil s⟩
  | cons data rest ih =>
    rw [admitsAll, Bool.and_eq_true] at h
    obtain ⟨first, t, hrun, hprocessed⟩ := processDataMessage_run_of_admits now htag h.1
    rw [hrun] at h
    obtain ⟨others, u, hrest, hall⟩ := ih (hprocessed.frame.peerVerificationTag.trans htag) h.2
    refine ⟨first ++ others, u, ?_, .cons h.1 hprocessed hall⟩
    rw [processAll, run_bind, hrun]
    dsimp only
    rw [run_bind, hrest]
    rfl

/-- What one state processes, a similar one admits. -/
theorem ProcessedAll.admitsAll {s s' t : Association} {batch : List DataChunk}
    {events : List AssociationEvent} (now : ℕ) {tag : UInt32} (hsim : Similar s s')
    (htag : s'.peerVerificationTag = some tag) (h : ProcessedAll s batch events t) :
    admitsAll now batch s' = true := by
  induction h generalizing s' with
  | nil => rfl
  | cons hadmits h _ ih =>
    have hadmits' := (hsim.admits _).trans hadmits
    obtain ⟨output, u, hrun, hprocessed⟩ := processDataMessage_run_of_admits now htag hadmits'
    rw [Association.admitsAll, hadmits', Bool.true_and, hrun]
    exact ih (h.similar hsim hprocessed).2 (hprocessed.frame.peerVerificationTag.trans htag)

/-- What one state processes, a similar one processes alike. -/
theorem ProcessedAll.transfer {s s' t : Association} {batch : List DataChunk}
    {events : List AssociationEvent} {tag : UInt32} (h : ProcessedAll s batch events t)
    (hsim : Similar s s') (htag : s'.peerVerificationTag = some tag) :
    ∃ t', ProcessedAll s' batch events t' ∧ Similar t t' := by
  obtain ⟨output, t', -, h'⟩ := processedAll_of_admitsAll 0 htag (h.admitsAll 0 hsim htag)
  obtain ⟨hevents, hsim'⟩ := h.similar hsim h'
  rw [hevents] at h'
  exact ⟨t', h', hsim'⟩

/-! ## The buffer after a set of arrivals -/

/-- The state after the chunks of `stream` at the positions `arrived` have come in, in whatever
order: everything below the first missing one is released, and the rest waits.  Position 0 is the TSN after
`first`. -/
structure Holds (first : UInt32) (stream : ℕ → DataChunk) (arrived : Set ℕ) (s : Association) :
    Prop where
  within : ∀ n ∈ arrived, n < maxPendingTsn
  numbered : ∀ n ∈ arrived, (stream n).tsn = first + 1 + .ofNat n
  cumulative : s.cumulativePeerTsn = some (first + .ofNat (firstMissing arrived))
  pending : ∀ tsn data, s.pendingData[tsn]? = some data ↔
    firstMissing arrived ≤ (tsn - (first + 1)).toNat ∧ (tsn - (first + 1)).toNat ∈ arrived ∧
      stream (tsn - (first + 1)).toNat = data

/-- The distance from a moved cumulative TSN, in terms of the position. -/
theorem toNat_sub_released (first tsn : UInt32) {n : ℕ} (h : n < 2 ^ 32) :
    (tsn - (first + .ofNat n)).toNat =
      ((tsn - (first + 1)).toNat + 1 + (2 ^ 32 - n)) % 2 ^ 32 := by
  rw [UInt32.toNat_sub, UInt32.toNat_sub, UInt32.toNat_add, UInt32.toNat_add, UInt32.toNat_ofNat']
  have := first.toNat_lt
  have := tsn.toNat_lt
  have : (1 : UInt32).toNat = 1 := rfl
  omega

section Holds

variable {first : UInt32} {stream : ℕ → DataChunk} {arrived : Set ℕ} {s : Association}

theorem Holds.not_mem (h : Holds first stream arrived s) : maxPendingTsn ∉ arrived :=
  fun hmem => absurd (h.within _ hmem) (lt_irrefl _)

theorem Holds.firstMissing_le (h : Holds first stream arrived s) :
    firstMissing arrived ≤ maxPendingTsn :=
  Reorder.firstMissing_le h.not_mem

theorem Holds.buffered (h : Holds first stream arrived s) :
    Buffered (first + .ofNat (firstMissing arrived)) s.pendingData := by
  intro tsn data hdata
  obtain ⟨hahead, hmem, rfl⟩ := (h.pending tsn data).mp hdata
  have hne : (tsn - (first + 1)).toNat ≠ firstMissing arrived := by
    intro heq
    rw [heq] at hmem
    exact firstMissing_notMem h.not_mem hmem
  have hle := h.firstMissing_le
  have hlt := h.within _ hmem
  rw [h.numbered _ hmem, Serial.add_ofNat_toNat_sub]
  unfold maxPendingTsn at *
  rw [toNat_sub_released first tsn (by omega)]
  exact ⟨rfl, by omega, by omega⟩

/-- A position that has arrived is a duplicate. -/
theorem Holds.duplicate_of_mem (h : Holds first stream arrived s) {n : ℕ} (hmem : n ∈ arrived) :
    s.duplicate (first + .ofNat (firstMissing arrived)) (first + 1 + .ofNat n) = true := by
  have hle := h.firstMissing_le
  have hlt := h.within _ hmem
  have hposition := Serial.toNat_add_ofNat_sub (first + 1) (n := n)
    (by unfold maxPendingTsn at *; omega)
  by_cases hahead : firstMissing arrived ≤ n
  · have hfind : s.pendingData[first + 1 + UInt32.ofNat n]? = some (stream n) := by
      rw [h.pending, hposition]
      exact ⟨hahead, hmem, rfl⟩
    simp [duplicate, ExtTreeMap.contains_iff_mem.mpr (Maps.mem_of_getElem? hfind)]
  · have hdistance := toNat_sub_released first (first + 1 + .ofNat n) (n := firstMissing arrived)
      (by unfold maxPendingTsn at *; omega)
    rw [hposition] at hdistance
    unfold maxPendingTsn at *
    have hold : first + 1 + UInt32.ofNat n - (first + UInt32.ofNat (firstMissing arrived)) = 0 ∨
        0x80000000 ≤ first + 1 + UInt32.ofNat n - (first + UInt32.ofNat (firstMissing arrived)) := by
      rw [← UInt32.toNat_inj, UInt32.le_iff_toNat_le, hdistance]
      have : (0x80000000 : UInt32).toNat = 2 ^ 31 := rfl
      have : (0 : UInt32).toNat = 0 := rfl
      omega
    rcases hold with hold | hold <;> simp [duplicate, hold]

/-- A position that has not arrived is new, and inside the window. -/
theorem Holds.new_of_not_mem (h : Holds first stream arrived s) {n : ℕ} (hlt : n < maxPendingTsn)
    (hmissing : n ∉ arrived) :
    s.duplicate (first + .ofNat (firstMissing arrived)) (first + 1 + .ofNat n) = false ∧
      (first + 1 + .ofNat n - (first + .ofNat (firstMissing arrived))).toNat ≤ maxPendingTsn := by
  have hle := Reorder.firstMissing_le hmissing
  have hposition := Serial.toNat_add_ofNat_sub (first + 1) (n := n)
    (by unfold maxPendingTsn at *; omega)
  have hdistance := toNat_sub_released first (first + 1 + .ofNat n) (n := firstMissing arrived)
    (by unfold maxPendingTsn at *; omega)
  rw [hposition] at hdistance
  have hfree : s.pendingData.contains (first + 1 + UInt32.ofNat n) = false := by
    rw [Bool.eq_false_iff]
    intro hcontains
    obtain ⟨data, hdata⟩ := Maps.mem_iff_exists.mp (ExtTreeMap.contains_iff_mem.mp hcontains)
    rw [h.pending, hposition] at hdata
    exact hmissing hdata.2.1
  unfold maxPendingTsn at *
  refine ⟨?_, by omega⟩
  rw [duplicate, hfree, Bool.or_false, Bool.or_eq_false_iff, decide_eq_false_iff_not,
    decide_eq_false_iff_not, ← UInt32.toNat_inj, UInt32.le_iff_toNat_le, hdistance]
  have : (0x80000000 : UInt32).toNat = 2 ^ 31 := rfl
  have : (0 : UInt32).toNat = 0 := rfl
  omega

/-- With the chunk of one more position, the buffer holds that position too. -/
theorem Holds.find_buffer (h : Holds first stream arrived s) {n : ℕ} (hlt : n < maxPendingTsn)
    (hmissing : n ∉ arrived) {data : DataChunk} (htsn : data.tsn = first + 1 + .ofNat n)
    (hdata : stream n = data) (tsn : UInt32) (found : DataChunk) :
    (s.buffer data).pendingData[tsn]? = some found ↔
      firstMissing arrived ≤ (tsn - (first + 1)).toNat ∧
        (tsn - (first + 1)).toNat ∈ insert n arrived ∧
          stream (tsn - (first + 1)).toNat = found := by
  have hle := Reorder.firstMissing_le hmissing
  have hposition := Serial.toNat_add_ofNat_sub (first + 1) (n := n)
    (by unfold maxPendingTsn at *; omega)
  rw [buffer, ExtTreeMap.getElem?_insert]
  simp only [Std.compare_eq_iff_eq]
  by_cases heq : data.tsn = tsn
  · have hn : (tsn - (first + 1)).toNat = n := by rw [← heq, htsn, hposition]
    rw [if_pos heq, hn, hdata]
    simp [hle]
  · have hn : (tsn - (first + 1)).toNat ≠ n := by
      rintro rfl
      rw [htsn, Serial.add_ofNat_toNat_sub] at heq
      exact heq rfl
    rw [if_neg heq, h.pending]
    simp [hn]

theorem Holds.within_insert (h : Holds first stream arrived s) {n : ℕ} (hlt : n < maxPendingTsn) :
    ∀ m ∈ insert n arrived, m < maxPendingTsn := by
  rintro m (rfl | hm)
  · exact hlt
  · exact h.within m hm

/-- The chunks that further arrivals release. -/
noncomputable def releasedBy (stream : ℕ → DataChunk) (arrived later : Set ℕ) : List DataChunk :=
  (List.range' (firstMissing arrived) (firstMissing later - firstMissing arrived)).map stream

/-- A batch taken from the buffer, up to a gap, ends at the first position still missing. -/
theorem Holds.released (h : Holds first stream arrived s) {n : ℕ} (hlt : n < maxPendingTsn)
    (hmissing : n ∉ arrived) {data : DataChunk} (htsn : data.tsn = first + 1 + .ofNat n)
    (hdata : stream n = data) {batch : List DataChunk} (hlen : batch.length ≤ maxPendingTsn)
    (hbatch : ∀ i (hi : i < batch.length), (s.buffer data).pendingData[first +
      .ofNat (firstMissing arrived) + .ofNat (i + 1)]? = some batch[i])
    (hgap : (s.buffer data).pendingData[first + .ofNat (firstMissing arrived) +
      .ofNat (batch.length + 1)]? = none) :
    firstMissing (insert n arrived) = firstMissing arrived + batch.length ∧
      batch = releasedBy stream arrived (insert n arrived) := by
  have hfind := h.find_buffer hlt hmissing htsn hdata
  have hle := Reorder.firstMissing_le hmissing
  have hshift : ∀ i, first + UInt32.ofNat (firstMissing arrived) + UInt32.ofNat (i + 1) =
      first + 1 + UInt32.ofNat (firstMissing arrived + i) := by
    intro i
    rw [UInt32.ofNat_add, UInt32.ofNat_add]
    grind
  have htaken : ∀ i (hi : i < batch.length), firstMissing arrived + i ∈ insert n arrived ∧
      stream (firstMissing arrived + i) = batch[i] := by
    intro i hi
    have hfound := hbatch i hi
    rw [hshift, hfind, Serial.toNat_add_ofNat_sub _ (by unfold maxPendingTsn at *; omega)] at hfound
    exact hfound.2
  have hnext : firstMissing (insert n arrived) = firstMissing arrived + batch.length := by
    refine Reorder.firstMissing_eq ?_ ?_
    · intro i hi
      by_cases hbelow : i < firstMissing arrived
      · exact Set.mem_insert_of_mem _ (mem_of_lt_firstMissing hbelow)
      · have := (htaken (i - firstMissing arrived) (by omega)).1
        rwa [Nat.add_sub_cancel' (by omega)] at this
    · intro hmem
      have hfound : (s.buffer data).pendingData[first + 1 +
          UInt32.ofNat (firstMissing arrived + batch.length)]? =
            some (stream (firstMissing arrived + batch.length)) := by
        rw [hfind, Serial.toNat_add_ofNat_sub _ (by unfold maxPendingTsn at *; omega)]
        exact ⟨by omega, hmem, rfl⟩
      rw [← hshift, hgap] at hfound
      cases hfound
  refine ⟨hnext, List.ext_getElem ?_ ?_⟩
  · simp [releasedBy, hnext]
  · intro i hi _
    simp [releasedBy, ← (htaken i hi).2]

/-- Buffering a new chunk and draining moves the state to one more arrival. -/
theorem Holds.drain (h : Holds first stream arrived s) {n : ℕ} (hlt : n < maxPendingTsn)
    (hmissing : n ∉ arrived) {data : DataChunk} (htsn : data.tsn = first + 1 + .ofNat n)
    (hdata : stream n = data) :
    ∃ start, Association.drain (s.buffer data).pendingData.size
        (first + .ofNat (firstMissing arrived) + 1) (s.buffer data) =
          (releasedBy stream arrived (insert n arrived), start) ∧
      Similar s start ∧ Holds first stream (insert n arrived) start := by
  obtain ⟨hnew, hwindow⟩ := h.new_of_not_mem hlt hmissing
  rw [← htsn] at hnew hwindow
  obtain ⟨batch, pending, hdrain, hlen, hbatch, hpending, hbuf⟩ := drain_buffered
    (s := s.buffer data) h.cumulative (buffered_buffer h.buffered hnew hwindow)
  have hgap : (s.buffer data).pendingData[first + UInt32.ofNat (firstMissing arrived) +
      UInt32.ofNat (batch.length + 1)]? = none := by
    have hnone := hbuf.next_eq_none
    rw [hpending, UInt32.add_assoc, show UInt32.ofNat batch.length + 1 =
      UInt32.ofNat (batch.length + 1) by rw [UInt32.ofNat_add]; rfl,
      Serial.toNat_add_ofNat_sub _ (by unfold maxPendingTsn at *; omega),
      if_neg (by omega)] at hnone
    exact hnone
  have hle := Reorder.firstMissing_le hmissing
  have hfind := h.find_buffer hlt hmissing htsn hdata
  obtain ⟨hnext, hreleased⟩ := h.released hlt hmissing htsn hdata hlen hbatch hgap
  have hwithin := h.within_insert hlt
  refine ⟨_, hdrain.trans (Prod.ext hreleased rfl), ⟨rfl, fun _ => Iff.rfl⟩, hwithin, ?_, ?_, ?_⟩
  · rintro m (rfl | hm)
    · rw [hdata, htsn]
    · exact h.numbered m hm
  · rw [hnext, UInt32.ofNat_add, ← UInt32.add_assoc]
  · intro tsn found
    have hdistance := toNat_sub_released first tsn (n := firstMissing arrived)
      (by unfold maxPendingTsn at *; omega)
    show pending[tsn]? = some found ↔ _
    rw [hpending, hnext]
    constructor
    · intro hfound
      split_ifs at hfound with hcovered
      obtain ⟨hahead, hmem, hstream⟩ := (hfind tsn found).mp hfound
      have := hwithin _ hmem
      unfold maxPendingTsn at *
      exact ⟨by omega, hmem, hstream⟩
    · rintro ⟨hahead, hmem, hstream⟩
      have := hwithin _ hmem
      unfold maxPendingTsn at *
      rw [if_neg (by omega), hfind]
      exact ⟨by omega, hmem, hstream⟩

end Holds

/-! ## Packets with one DATA chunk -/

/-- The DATA chunk of a packet that carries nothing else. -/
def carriedData (packet : Bytes) : Option DataChunk :=
  match ParsedPacket.parse packet with
  | .error _ => none
  | .ok parsed =>
      match parsed.chunks with
      | [chunk] =>
          if chunk.kind = typeData then (DataChunk.parse chunk.flags chunk.value).toOption else none
      | _ => none

/-- The ports and the verification tag of a packet are those of the association. -/
def addressed (s : Association) (packet : Bytes) : Bool :=
  match ParsedPacket.parse packet with
  | .error _ => false
  | .ok parsed => parsed.sourcePort = s.config.remotePort &&
      parsed.destinationPort = s.config.localPort &&
      parsed.verificationTag = s.config.verificationTag

theorem length_of_parse {flags : UInt8} {value : Bytes} {data : DataChunk}
    (h : DataChunk.parse flags value = .ok data) : dataFixedLen - 4 ≤ value.length := by
  by_contra hshort
  have hnone : value.u32At 8 = none := by
    unfold Bytes.u32At
    split
    next a b c d rest hdrop =>
      have hlen := congrArg List.length hdrop
      simp only [List.length_drop, List.length_cons] at hlen
      unfold dataFixedLen at hshort
      omega
    next => rfl
  simp only [DataChunk.parse, readU32, hnone, bind, Except.bind] at h
  split at h
  · cases h
  split at h
  · cases h
  split at h
  · cases h
  cases h

theorem handlePacket_run_carried {packet : Bytes} {data : DataChunk}
    (h : carriedData packet = some data) :
    ∃ flags value, DataChunk.parse flags value = .ok data ∧ ∀ now s,
      (s.addressed packet = false ∧ ∃ error, (handlePacket now packet).run s = (.error error, s)) ∨
      (s.addressed packet = true ∧ (handlePacket now packet).run s =
        (do let output ← handleData now flags value; return output ++ ({} : AssociationOutput)).run s) := by
  unfold carriedData at h
  rcases hparse : ParsedPacket.parse packet with error | parsed
  · rw [hparse] at h
    cases h
  rw [hparse] at h
  dsimp only at h
  split at h
  swap
  · cases h
  next chunk hchunks =>
    split_ifs at h with hkind
    rcases hdata : DataChunk.parse chunk.flags chunk.value with error | found
    · rw [hdata] at h
      cases h
    rw [hdata] at h
    cases h
    refine ⟨chunk.flags, chunk.value, hdata, fun now s => ?_⟩
    have haddressed : s.addressed packet = true ↔ (parsed.sourcePort = s.config.remotePort ∧
        parsed.destinationPort = s.config.localPort) ∧
          parsed.verificationTag = s.config.verificationTag := by
      simp [addressed, hparse]
    have hchunk : handleChunk now parsed.verificationTag chunk =
        guarded parsed.verificationTag (handleData now chunk.flags chunk.value) := by
      unfold handleChunk
      rw [hkind]
      rfl
    rw [handlePacket, hparse, run_ofExcept_bind]
    dsimp only
    rw [run_get_bind, run_ensure_bind]
    by_cases hports : parsed.sourcePort = s.config.remotePort ∧
        parsed.destinationPort = s.config.localPort
    swap
    · rw [if_neg hports]
      exact .inl ⟨Bool.eq_false_iff.mpr fun h => hports (haddressed.mp h).1, _, rfl⟩
    rw [if_pos hports, hchunks, handleChunks, run_bind, hchunk, guarded_run]
    by_cases htag : parsed.verificationTag = s.config.verificationTag
    swap
    · rw [if_neg htag]
      exact .inl ⟨Bool.eq_false_iff.mpr fun h => htag (haddressed.mp h).2, _, rfl⟩
    rw [if_pos htag]
    refine .inr ⟨haddressed.mpr ⟨hports, htag⟩, ?_⟩
    rw [run_bind]
    rfl

/-! ## Deliveries -/

theorem releasedBy_append (stream : ℕ → DataChunk) {arrived mid later : Set ℕ}
    (hmid : firstMissing arrived ≤ firstMissing mid)
    (hlater : firstMissing mid ≤ firstMissing later) :
    releasedBy stream arrived later =
      releasedBy stream arrived mid ++ releasedBy stream mid later := by
  rw [releasedBy, releasedBy, releasedBy, ← List.map_append]
  congr 1
  have hsplit := @List.range'_append_1 (firstMissing arrived)
    (firstMissing mid - firstMissing arrived) (firstMissing later - firstMissing mid)
  rw [Nat.add_sub_cancel' hmid] at hsplit
  rw [hsplit]
  congr 1
  omega

section Deliveries

variable {first peer : UInt32} {stream : ℕ → DataChunk} {arrived : Set ℕ} {s : Association}

theorem Holds.frame {t : Association} (h : Holds first stream arrived s)
    (hframe : ReceiveFrame s t) : Holds first stream arrived t := by
  refine ⟨h.within, h.numbered, hframe.cumulativePeerTsn.trans h.cumulative, ?_⟩
  rw [hframe.pendingData]
  exact h.pending

/-- A packet at position `n`: unless it is not addressed to the association, it moves the state to
one more arrival and processes what this releases. -/
theorem Holds.handlePacket (h : Holds first stream arrived s) (hstate : s.state = .established)
    (hpeer : s.peerVerificationTag = some peer) {packet : Bytes} {data : DataChunk} {n : ℕ}
    (hdata : carriedData packet = some data) (htsn : data.tsn = first + 1 + .ofNat n)
    (hlt : n < maxPendingTsn) (hstream : n ∉ arrived → stream n = data) (now : ℕ) :
    (s.addressed packet = false ∧
      ∃ error, (Association.handlePacket now packet).run s = (.error error, s)) ∨
    (s.addressed packet = true ∧ ∃ start, Similar s start ∧
      Holds first stream (insert n arrived) start ∧
      let processed := (processAll now (releasedBy stream arrived (insert n arrived))).run start
      ((∃ error, processed.1 = .error error ∧
        (Association.handlePacket now packet).run s = (.error error, processed.2)) ∨
      (∃ output output', processed.1 = .ok output ∧
        (Association.handlePacket now packet).run s = (.ok output', processed.2) ∧
          output'.events = output.events))) := by
  obtain ⟨flags, value, hparse, hpacket⟩ := handlePacket_run_carried hdata
  obtain ⟨haddressed, hrefused⟩ | ⟨haddressed, hhandled⟩ := hpacket now s
  · exact .inl ⟨haddressed, hrefused⟩
  right
  refine ⟨haddressed, ?_⟩
  rw [hhandled, run_bind]
  obtain ⟨hguard, -⟩ | ⟨data', -, hparse', hcases⟩ :=
    handleData_run now flags value hpeer h.cumulative h.buffered
  · exact absurd ⟨hstate, length_of_parse hparse⟩ hguard
  rw [hparse] at hparse'
  cases hparse'
  by_cases hmem : n ∈ arrived
  · -- a duplicate: nothing is released
    rw [htsn, h.duplicate_of_mem hmem] at hcases
    obtain ⟨-, sack, hrun⟩ | ⟨hnew, -⟩ | ⟨hnew, -⟩ := hcases
    · rw [Set.insert_eq_of_mem hmem, hrun]
      have hnothing : releasedBy stream arrived arrived = [] := by simp [releasedBy]
      rw [hnothing]
      exact ⟨s, .refl s, h, .inr ⟨{}, _, rfl, rfl, rfl⟩⟩
    · cases hnew
    · cases hnew
  · obtain ⟨hnew, hwindow⟩ := h.new_of_not_mem hlt hmem
    obtain ⟨start, hdrain, hsim, hholds⟩ := h.drain hlt hmem htsn (hstream hmem)
    rw [htsn, hnew] at hcases
    obtain ⟨hdup, -⟩ | ⟨-, hbeyond, -⟩ | ⟨-, -, hrun⟩ := hcases
    · cases hdup
    · omega
    · rw [hdrain] at hrun
      refine ⟨start, hsim, hholds, ?_⟩
      rcases hrun with ⟨error, herror, hrun⟩ | ⟨output, sack, hok, hrun⟩
      · exact .inl ⟨error, herror, by rw [hrun]⟩
      · refine .inr ⟨output, _, hok, by rw [hrun]; rfl, ?_⟩
        simp

/-- A successful packet has processed what its arrival releases. -/
theorem Holds.processed_of_ok (h : Holds first stream arrived s) (hstate : s.state = .established)
    (hpeer : s.peerVerificationTag = some peer) {packet : Bytes} {data : DataChunk} {n : ℕ}
    (hdata : carriedData packet = some data) (htsn : data.tsn = first + 1 + .ofNat n)
    (hlt : n < maxPendingTsn) (hstream : n ∉ arrived → stream n = data) {now : ℕ}
    {output : AssociationOutput} {t : Association}
    (hok : (Association.handlePacket now packet).run s = (.ok output, t)) :
    Holds first stream (insert n arrived) t ∧ t.state = .established ∧
      t.peerVerificationTag = some peer ∧ t.config = s.config ∧ ∃ u, Similar u t ∧
        ProcessedAll s (releasedBy stream arrived (insert n arrived)) output.events u := by
  obtain ⟨-, error, hrun⟩ | ⟨-, start, hsim, hholds, hrun⟩ :=
    h.handlePacket hstate hpeer hdata htsn hlt hstream now
  · rw [hok] at hrun
    cases hrun
  have hpeer' : start.peerVerificationTag = some peer := by rw [hsim.1, hpeer]
  have hframe := processAll_frame now (releasedBy stream arrived (insert n arrived)) hpeer'
  obtain ⟨error, -, hrun⟩ | ⟨inner, output', hinner, hrun, hevents⟩ := hrun
  · rw [hok] at hrun
    cases hrun
  rw [hok] at hrun
  cases hrun
  have hadmits : admitsAll now (releasedBy stream arrived (insert n arrived)) start = true := by
    rw [← processAll_isOk now _ hpeer', hinner]
    rfl
  obtain ⟨inner', t', hall, hprocessed⟩ := processedAll_of_admitsAll now hpeer' hadmits
  rw [hall] at hinner hframe ⊢
  cases hinner
  obtain ⟨u, hu, hsim'⟩ := hprocessed.transfer hsim.symm hpeer
  rw [hevents]
  have hframe : ReceiveFrame start t' := hframe
  refine ⟨hholds.frame hframe, ?_, hframe.peerVerificationTag.trans hpeer', ?_, u, hsim'.symm, hu⟩
  · rw [hframe, hsim.1, hstate]
  · rw [hframe, hsim.1]

/-- If a similar state processes what an arrival releases, the packet succeeds. -/
theorem Holds.ok_of_processed (h : Holds first stream arrived s) (hstate : s.state = .established)
    (hpeer : s.peerVerificationTag = some peer) {packet : Bytes} {data : DataChunk} {n : ℕ}
    (hdata : carriedData packet = some data) (htsn : data.tsn = first + 1 + .ofNat n)
    (hlt : n < maxPendingTsn) (hstream : n ∉ arrived → stream n = data)
    (haddressed : s.addressed packet = true) {u v : Association} {events : List AssociationEvent}
    (hsim : Similar u s)
    (hall : ProcessedAll u (releasedBy stream arrived (insert n arrived)) events v) (now : ℕ) :
    ∃ output t, (Association.handlePacket now packet).run s = (.ok output, t) ∧
      output.events = events ∧ Similar v t := by
  obtain ⟨hwrong, -⟩ | ⟨-, start, hstart, -, hrun⟩ :=
    h.handlePacket hstate hpeer hdata htsn hlt hstream now
  · rw [haddressed] at hwrong
    cases hwrong
  have hpeer' : start.peerVerificationTag = some peer := by rw [hstart.1, hpeer]
  have hsim' := hsim.trans hstart
  obtain ⟨inner, t, hrun', hprocessed⟩ :=
    processedAll_of_admitsAll now hpeer' (hall.admitsAll now hsim' hpeer')
  obtain ⟨hevents, hsim''⟩ := hall.similar hsim' hprocessed
  rw [hrun'] at hrun
  obtain ⟨error, hwrong, -⟩ | ⟨inner', output, hinner, hrun, hsame⟩ := hrun
  · cases hwrong
  cases hinner
  exact ⟨output, t, hrun, hsame.trans hevents, hsim''⟩

/-- The events of a sequence of packets; the first error ends it. -/
def deliverAll : List (ℕ × Bytes) → Action (List AssociationEvent)
  | [] => pure []
  | (now, packet) :: rest => do
      let output ← handlePacket now packet
      let events ← deliverAll rest
      return output.events ++ events

/-- The positions of the packets of a sequence. -/
def positions (first : UInt32) (deliveries : List (ℕ × Bytes)) : Set ℕ :=
  {n | ∃ delivery ∈ deliveries, ∃ data, carriedData delivery.2 = some data ∧
    (data.tsn - (first + 1)).toNat = n}

/-- Every packet carries the chunk of the stream at its position, unless that has arrived. -/
def InStream (first : UInt32) (stream : ℕ → DataChunk) (arrived : Set ℕ)
    (deliveries : List (ℕ × Bytes)) : Prop :=
  ∀ delivery ∈ deliveries, ∃ n data, carriedData delivery.2 = some data ∧
    data.tsn = first + 1 + .ofNat n ∧ n < maxPendingTsn ∧ (n ∉ arrived → stream n = data)

theorem positions_cons {delivery : ℕ × Bytes} (rest : List (ℕ × Bytes)) {data : DataChunk} {n : ℕ}
    (hdata : carriedData delivery.2 = some data) (htsn : data.tsn = first + 1 + .ofNat n)
    (hlt : n < maxPendingTsn) :
    positions first (delivery :: rest) = insert n (positions first rest) := by
  have hposition := Serial.toNat_add_ofNat_sub (first + 1) (n := n)
    (by unfold maxPendingTsn at *; omega)
  ext m
  simp only [positions, List.mem_cons, exists_eq_or_imp, Set.mem_ofPred_eq, Set.mem_insert_iff,
    hdata, Option.some.injEq, exists_eq_left', htsn, hposition, eq_comm (a := n)]

theorem InStream.tail {delivery : ℕ × Bytes} {rest : List (ℕ × Bytes)} (n : ℕ)
    (h : InStream first stream arrived (delivery :: rest)) :
    InStream first stream (insert n arrived) rest := by
  intro delivery' hmem
  obtain ⟨m, data, hdata, htsn, hlt, hstream⟩ := h delivery' (List.mem_cons_of_mem _ hmem)
  exact ⟨m, data, hdata, htsn, hlt, fun hmissing =>
    hstream fun harrived => hmissing (Set.mem_insert_of_mem _ harrived)⟩

theorem Holds.firstMissing_insert_le (h : Holds first stream arrived s) {n : ℕ}
    (hlt : n < maxPendingTsn) : firstMissing arrived ≤ firstMissing (insert n arrived) :=
  Reorder.firstMissing_mono (Set.subset_insert _ _)
    fun hmem => absurd (h.within_insert hlt _ hmem) (lt_irrefl _)

theorem InStream.not_mem {deliveries : List (ℕ × Bytes)} (h : Holds first stream arrived s)
    (hin : InStream first stream arrived deliveries) :
    maxPendingTsn ∉ arrived ∪ positions first deliveries := by
  rintro (hmem | ⟨delivery, hmem, data, hdata, hposition⟩)
  · exact h.not_mem hmem
  · obtain ⟨n, data', hdata', htsn, hlt, -⟩ := hin delivery hmem
    rw [hdata] at hdata'
    cases hdata'
    rw [htsn, Serial.toNat_add_ofNat_sub _ (by unfold maxPendingTsn at *; omega)] at hposition
    omega

/-- A sequence of successful packets has processed what the arrivals release. -/
theorem processed_of_deliverAll {deliveries : List (ℕ × Bytes)} {events : List AssociationEvent}
    {t : Association} (h : Holds first stream arrived s) (hstate : s.state = .established)
    (hpeer : s.peerVerificationTag = some peer) (hin : InStream first stream arrived deliveries)
    (hok : (deliverAll deliveries).run s = (.ok events, t)) :
    Holds first stream (arrived ∪ positions first deliveries) t ∧ ∃ u, Similar u t ∧
      ProcessedAll s (releasedBy stream arrived (arrived ∪ positions first deliveries))
        events u := by
  induction deliveries generalizing s arrived events with
  | nil =>
    cases hok
    have hnone : arrived ∪ positions first [] = arrived := by simp [positions]
    rw [hnone]
    refine ⟨h, t, .refl t, ?_⟩
    simp only [releasedBy, Nat.sub_self, List.range'_zero, List.map_nil]
    exact .nil t
  | cons delivery rest ih =>
    obtain ⟨now, packet⟩ := delivery
    obtain ⟨n, data, hdata, htsn, hlt, hstream⟩ := hin _ List.mem_cons_self
    rw [deliverAll, run_bind_eq_ok] at hok
    obtain ⟨output, mid, hfirst, hok⟩ := hok
    rw [run_bind_eq_ok] at hok
    obtain ⟨events', t', hrest, hok⟩ := hok
    cases hok
    obtain ⟨hmid, hstate', hpeer', -, u, hsim, hu⟩ :=
      h.processed_of_ok hstate hpeer hdata htsn hlt hstream hfirst
    obtain ⟨hend, v, hsim', hv⟩ := ih hmid hstate' hpeer' (hin.tail n) hrest
    have hlater := (hin.tail n).not_mem hmid
    have hunion : arrived ∪ positions first ((now, packet) :: rest) =
        insert n arrived ∪ positions first rest := by
      rw [positions_cons rest hdata htsn hlt, Set.union_insert, Set.insert_union]
    rw [hunion, releasedBy_append stream (h.firstMissing_insert_le hlt)
      (Reorder.firstMissing_mono Set.subset_union_left hlater)]
    have hpeer'' : u.peerVerificationTag = some peer := by rw [← hpeer', hsim.1]
    obtain ⟨v', hv', hsim''⟩ := hv.transfer hsim.symm hpeer''
    exact ⟨hend, v', hsim''.symm.trans hsim', hu.append hv'⟩

/-- If a similar state processes what the arrivals release, the packets succeed. -/
theorem deliverAll_of_processed {deliveries : List (ℕ × Bytes)} {u v : Association}
    {events : List AssociationEvent} (h : Holds first stream arrived s)
    (hstate : s.state = .established) (hpeer : s.peerVerificationTag = some peer)
    (hin : InStream first stream arrived deliveries)
    (haddressed : ∀ delivery ∈ deliveries, s.addressed delivery.2 = true) (hsim : Similar u s)
    (hall : ProcessedAll u (releasedBy stream arrived (arrived ∪ positions first deliveries))
      events v) :
    ∃ t, (deliverAll deliveries).run s = (.ok events, t) ∧ Similar v t ∧
      Holds first stream (arrived ∪ positions first deliveries) t := by
  induction deliveries generalizing s u arrived events with
  | nil =>
    have hnone : arrived ∪ positions first [] = arrived := by simp [positions]
    rw [hnone] at hall ⊢
    simp only [releasedBy, Nat.sub_self, List.range'_zero, List.map_nil] at hall
    cases hall
    exact ⟨s, rfl, hsim, h⟩
  | cons delivery rest ih =>
    obtain ⟨now, packet⟩ := delivery
    obtain ⟨n, data, hdata, htsn, hlt, hstream⟩ := hin _ List.mem_cons_self
    have hunion : arrived ∪ positions first ((now, packet) :: rest) =
        insert n arrived ∪ positions first rest := by
      rw [positions_cons rest hdata htsn hlt, Set.union_insert, Set.insert_union]
    have hlater := hin.not_mem h
    rw [hunion] at hall hlater ⊢
    rw [releasedBy_append stream (h.firstMissing_insert_le hlt)
      (Reorder.firstMissing_mono Set.subset_union_left hlater)] at hall
    obtain ⟨w, events₁, events₂, hfirst, hrest, rfl⟩ := hall.split
    obtain ⟨output, mid, hrun, rfl, hsim'⟩ := h.ok_of_processed hstate hpeer hdata htsn hlt hstream
      (haddressed _ List.mem_cons_self) hsim hfirst now
    obtain ⟨hmid, hstate', hpeer', hconfig, -⟩ :=
      h.processed_of_ok hstate hpeer hdata htsn hlt hstream hrun
    obtain ⟨t, hrun', hsim'', hend⟩ := ih hmid hstate' hpeer' (hin.tail n)
      (by
        intro delivery hmem
        have hs := haddressed delivery (List.mem_cons_of_mem _ hmem)
        unfold addressed at hs ⊢
        rwa [hconfig])
      hsim' hrest
    refine ⟨t, ?_, hsim'', hend⟩
    rw [deliverAll, run_bind, hrun]
    dsimp only
    rw [run_bind, hrun']
    rfl

end Deliveries

/-! ## Order independence -/

/-- The chunk that a state holds at a position, or else the one of a list. -/
def streamOf (s : Association) (first : UInt32) (chunks : List DataChunk) (n : ℕ) : DataChunk :=
  (s.pendingData[first + 1 + UInt32.ofNat n]?.or chunks[n]?).getD ⟨0, 0, 0, 0, 0, []⟩

/-- A sound state holds the positions that it buffers. -/
theorem Sound.holds {s : Association} (hs : Sound s) {first : UInt32} (chunks : List DataChunk)
    (hcum : s.cumulativePeerTsn = some first) :
    Holds first (s.streamOf first chunks) {n | n < maxPendingTsn ∧
      first + 1 + UInt32.ofNat n ∈ s.pendingData} s := by
  have hbuf := hs.buffered first hcum
  have hstream : ∀ tsn data, s.pendingData[tsn]? = some data →
      s.streamOf first chunks (tsn - (first + 1)).toNat = data := by
    intro tsn data hdata
    simp [streamOf, hdata]
  have hzero : firstMissing {n | n < maxPendingTsn ∧
      first + 1 + UInt32.ofNat n ∈ s.pendingData} = 0 := by
    refine Reorder.firstMissing_eq (by simp) ?_
    rintro ⟨-, hmem⟩
    rw [show first + 1 + UInt32.ofNat 0 = first + 1 by simp] at hmem
    exact Maps.not_mem_iff.mpr hbuf.next_eq_none hmem
  refine ⟨fun n hn => hn.1, ?_, by rw [hzero, hcum]; simp, ?_⟩
  · rintro n ⟨hlt, hmem⟩
    obtain ⟨data, hdata⟩ := Maps.mem_iff_exists.mp hmem
    have hn := hstream _ _ hdata
    rw [Serial.toNat_add_ofNat_sub _ (by unfold maxPendingTsn at *; omega)] at hn
    rw [hn, (hbuf _ _ hdata).1]
  · intro tsn data
    rw [hzero]
    constructor
    · intro hdata
      have hwindow := (hbuf _ _ hdata).2
      have hdistance := toNat_sub_released first tsn (n := 0) (by omega)
      rw [show first + UInt32.ofNat 0 = first by simp] at hdistance
      refine ⟨Nat.zero_le _, ⟨?_, ?_⟩, hstream tsn data hdata⟩
      · have := (tsn - (first + 1)).toNat_lt
        unfold maxPendingTsn at *
        omega
      · rw [Serial.add_ofNat_toNat_sub]
        exact Maps.mem_of_getElem? hdata
    · rintro ⟨-, ⟨-, hmem⟩, rfl⟩
      rw [Serial.add_ofNat_toNat_sub] at hmem
      obtain ⟨data, hdata⟩ := Maps.mem_iff_exists.mp hmem
      rw [hdata, hstream tsn data hdata]

/-- Packets for the association, with one of the chunks each, and each chunk at least once. -/
structure CarryExactly (s : Association) (deliveries : List (ℕ × Bytes)) (chunks : List DataChunk) :
    Prop where
  addressed : ∀ delivery ∈ deliveries, s.addressed delivery.2 = true
  chunk : ∀ delivery ∈ deliveries, ∃ data ∈ chunks, carriedData delivery.2 = some data
  all : ∀ data ∈ chunks, ∃ delivery ∈ deliveries, carriedData delivery.2 = some data

/-- Packets with one chunk each of a contiguous list, none left out, arrive at its positions. -/
theorem positions_eq {first : UInt32} {chunks : List DataChunk} (hcount : chunks.length ≤ 1024)
    (hcontiguous : ∀ i (hi : i < chunks.length), chunks[i].tsn = first + 1 + .ofNat i)
    {deliveries : List (ℕ × Bytes)}
    (hchunk : ∀ delivery ∈ deliveries, ∃ data ∈ chunks, carriedData delivery.2 = some data)
    (hall : ∀ data ∈ chunks, ∃ delivery ∈ deliveries, carriedData delivery.2 = some data) :
    positions first deliveries = {n | n < chunks.length} := by
  have hposition : ∀ i (hi : i < chunks.length), (chunks[i].tsn - (first + 1)).toNat = i := by
    intro i hi
    rw [hcontiguous i hi, Serial.toNat_add_ofNat_sub _ (by omega)]
  ext n
  constructor
  · rintro ⟨delivery, hmem, data, hdata, rfl⟩
    obtain ⟨data', hmem', hdata'⟩ := hchunk delivery hmem
    rw [hdata] at hdata'
    cases hdata'
    obtain ⟨i, hi, rfl⟩ := List.mem_iff_getElem.mp hmem'
    rw [hposition i hi]
    exact hi
  · intro hn
    obtain ⟨delivery, hmem, hdata⟩ := hall chunks[n] (List.getElem_mem hn)
    exact ⟨delivery, hmem, _, hdata, hposition n hn⟩

theorem inStream_streamOf {s : Association} {first : UInt32} {chunks : List DataChunk}
    (hcount : chunks.length ≤ 1024)
    (hcontiguous : ∀ i (hi : i < chunks.length), chunks[i].tsn = first + 1 + .ofNat i)
    {deliveries : List (ℕ × Bytes)}
    (hchunk : ∀ delivery ∈ deliveries, ∃ data ∈ chunks, carriedData delivery.2 = some data) :
    InStream first (s.streamOf first chunks) {n | n < maxPendingTsn ∧
      first + 1 + UInt32.ofNat n ∈ s.pendingData} deliveries := by
  intro delivery hmem
  obtain ⟨data, hmem', hdata⟩ := hchunk delivery hmem
  obtain ⟨i, hi, rfl⟩ := List.mem_iff_getElem.mp hmem'
  have hlt : i < maxPendingTsn := by
    unfold maxPendingTsn
    omega
  refine ⟨i, _, hdata, hcontiguous i hi, hlt, fun hmissing => ?_⟩
  have hfree : s.pendingData[first + 1 + UInt32.ofNat i]? = none :=
    Maps.not_mem_iff.mp fun hbuffered => hmissing ⟨hlt, hbuffered⟩
  simp [streamOf, hfree, hi]

/-- Chunks with contiguous TSNs that are processed without an error in TSN order give the same
events and leave the same receive state in every order, with any repetitions. -/
theorem deliverAll_order_independent {s : Association} (hreachable : Reachable s)
    (hstate : s.state = .established) {cumulative : UInt32}
    (hcum : s.cumulativePeerTsn = some cumulative) {chunks : List DataChunk}
    (hcount : chunks.length ≤ 1024)
    (hcontiguous : ∀ i (hi : i < chunks.length), chunks[i].tsn = cumulative + 1 + .ofNat i)
    {inOrder deliveries : List (ℕ × Bytes)}
    (hinOrder : inOrder.map (fun delivery => carriedData delivery.2) = chunks.map some)
    (hdeliveries : CarryExactly s deliveries chunks) {events : List AssociationEvent}
    {t : Association} (hok : (deliverAll inOrder).run s = (.ok events, t)) :
    ∃ t', (deliverAll deliveries).run s = (.ok events, t') ∧
      t'.cumulativePeerTsn = t.cumulativePeerTsn ∧ t'.pendingData = t.pendingData ∧
      t'.reassembly = t.reassembly ∧ t'.channels = t.channels := by
  have hs := hreachable.sound
  obtain ⟨peer, hpeer⟩ := hs.known (.inr hstate)
  have hholds := hs.holds chunks hcum
  have hchunk : ∀ delivery ∈ inOrder, ∃ data ∈ chunks, carriedData delivery.2 = some data := by
    intro delivery hmem
    have hcarried : carriedData delivery.2 ∈ chunks.map some :=
      hinOrder ▸ List.mem_map_of_mem hmem
    obtain ⟨data, hdata, heq⟩ := List.mem_map.mp hcarried
    exact ⟨data, hdata, heq.symm⟩
  have hall : ∀ data ∈ chunks, ∃ delivery ∈ inOrder, carriedData delivery.2 = some data := by
    intro data hmem
    have hcarried : some data ∈ inOrder.map fun delivery => carriedData delivery.2 :=
      hinOrder ▸ List.mem_map_of_mem hmem
    obtain ⟨delivery, hdelivery, heq⟩ := List.mem_map.mp hcarried
    exact ⟨delivery, hdelivery, heq⟩
  have hpositions : positions cumulative deliveries = positions cumulative inOrder := by
    rw [positions_eq hcount hcontiguous hchunk hall,
      positions_eq hcount hcontiguous hdeliveries.chunk hdeliveries.all]
  -- the packets in order process the stream, and every other order processes it too
  obtain ⟨hend, u, hsim, hu⟩ := processed_of_deliverAll hholds hstate hpeer
    (inStream_streamOf hcount hcontiguous hchunk) hok
  rw [← hpositions] at hend hu
  obtain ⟨t', hrun, hsim', hend'⟩ := deliverAll_of_processed hholds hstate hpeer
    (inStream_streamOf hcount hcontiguous hdeliveries.chunk) hdeliveries.addressed (.refl s) hu
  have hsame := hsim.symm.trans hsim'
  refine ⟨t', hrun, hend'.cumulative.trans hend.cumulative.symm, ?_, ?_, ?_⟩
  · refine ExtTreeMap.ext_getElem? fun tsn => Option.ext fun data => ?_
    rw [hend'.pending, hend.pending]
  · rw [hsame.1]
  · rw [hsame.1]

/-- A channel and a message in two fragments. -/
def Sample.inOrder : List (ℕ × Bytes) :=
  [(2000000, Sample.data 3 500 0 0 ppidDcep Sample.dcepOpenPayload),
    (3000000, Sample.data 2 501 0 0 ppidBinary [1, 2]),
    (4000000, Sample.data 1 502 0 0 ppidBinary [3])]

/-- The same chunks with the last fragment first and two duplicates. -/
def Sample.shuffled : List (ℕ × Bytes) :=
  [(2000000, Sample.data 1 502 0 0 ppidBinary [3]),
    (3000000, Sample.data 3 500 0 0 ppidDcep Sample.dcepOpenPayload),
    (4000000, Sample.data 1 502 0 0 ppidBinary [3]),
    (5000000, Sample.data 2 501 0 0 ppidBinary [1, 2]),
    (6000000, Sample.data 3 500 0 0 ppidDcep Sample.dcepOpenPayload)]

theorem deliverAll_order_independent_sample :
    ∃ start t', new Sample.config = .ok start ∧
      (deliverAll Sample.shuffled).run (runInputs (Sample.establish false) start) =
        (.ok [.channelOpened 0 "x" "" true .reliable, .message 0 .binary [1, 2, 3]], t') ∧
      t'.cumulativePeerTsn = some 502 := by
  obtain ⟨start, hnew⟩ : ∃ start, new Sample.config = .ok start := ⟨_, rfl⟩
  have hinOrder : ((deliverAll Sample.inOrder).run (runInputs (Sample.establish false) start)).1 =
      .ok [.channelOpened 0 "x" "" true .reliable, .message 0 .binary [1, 2, 3]] := by
    cases hnew
    decide +kernel
  have hend : ((deliverAll Sample.inOrder).run
      (runInputs (Sample.establish false) start)).2.cumulativePeerTsn = some 502 := by
    cases hnew
    decide +kernel
  rcases hok : (deliverAll Sample.inOrder).run (runInputs (Sample.establish false) start)
    with ⟨result, t⟩
  rw [hok] at hinOrder hend
  cases hinOrder
  obtain ⟨t', hrun, hcum, -⟩ := @deliverAll_order_independent
    (runInputs (Sample.establish false) start) ⟨Sample.config, start, _, hnew, rfl⟩
    (by cases hnew; decide +kernel) 499 (by cases hnew; decide +kernel)
    [⟨3, 500, 0, 0, ppidDcep, Sample.dcepOpenPayload⟩, ⟨2, 501, 0, 0, ppidBinary, [1, 2]⟩,
      ⟨1, 502, 0, 0, ppidBinary, [3]⟩] (by decide) (by decide) Sample.inOrder Sample.shuffled
    (by decide +kernel)
    ⟨by cases hnew; decide +kernel, by decide +kernel, by decide +kernel⟩ _ _ hok
  exact ⟨start, t', hnew, hrun, hcum.trans hend⟩

end Association

end Fluvora.DataChannel
