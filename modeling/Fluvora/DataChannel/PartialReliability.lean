import Fluvora.DataChannel.Ledger

/-!
# Partial reliability

A message that has run out of retransmissions or of time is abandoned as a whole: it is reported once,
and nothing of it is transmitted any more.  What carries this is that the outstanding fragments of one
message agree on when they were sent and how often, so that a tick decides alike for all of them.  A
tick that gives the association up stops in the middle of the outstanding chunks, and of a message
across the wrap of the TSNs some fragments may be sent again and others not; the agreement is claimed
until then.  `LedgerKept` is the invariant of the ledger and the state, kept by each write.
-/

open Std (ExtTreeMap)

namespace Fluvora.DataChannel

namespace Association

variable {s t : Association} {now : ℕ} {ledger : Ledger}

/-! ## The fragments of one message -/

/-- What a fragment has from its message. -/
def Outstanding.origin (chunk : Outstanding) : UInt16 × UInt16 × ChannelReliability × ℕ :=
  (chunk.streamId, chunk.streamSequence, chunk.reliability, chunk.firstSentAt)

/-- When a fragment was last sent, and how often again. -/
def Outstanding.attempts (chunk : Outstanding) : ℕ × ℕ := (chunk.sentAt, chunk.retransmissions)

@[simp] theorem Outstanding.origin_refreshed (now : ℕ) (chunk : Outstanding) :
    Outstanding.origin (Outstanding.refreshed now chunk) = Outstanding.origin chunk := by
  unfold Outstanding.refreshed
  split_ifs <;> rfl

theorem Outstanding.shouldAbandon_congr (now : ℕ) {chunk other : Outstanding}
    (horigin : Outstanding.origin chunk = Outstanding.origin other)
    (hattempts : Outstanding.attempts chunk = Outstanding.attempts other) :
    Outstanding.shouldAbandon chunk now = Outstanding.shouldAbandon other now := by
  simp only [Outstanding.origin, Outstanding.attempts, Prod.mk.injEq] at horigin hattempts
  simp only [Outstanding.shouldAbandon, Outstanding.overdue, horigin, hattempts]

theorem Outstanding.resent_congr {chunk other : Outstanding}
    (horigin : Outstanding.origin chunk = Outstanding.origin other)
    (hattempts : Outstanding.attempts chunk = Outstanding.attempts other) :
    Outstanding.resent chunk now = Outstanding.resent other now := by
  rw [Outstanding.resent, Outstanding.resent, Outstanding.shouldAbandon_congr now horigin hattempts]
  simp only [Outstanding.origin, Outstanding.attempts, Prod.mk.injEq] at horigin hattempts
  simp only [Outstanding.overdue, horigin, hattempts]

theorem Outstanding.attempts_refreshed_congr {chunk other : Outstanding}
    (horigin : Outstanding.origin chunk = Outstanding.origin other)
    (hattempts : Outstanding.attempts chunk = Outstanding.attempts other) :
    Outstanding.attempts (Outstanding.refreshed now chunk) =
      Outstanding.attempts (Outstanding.refreshed now other) := by
  unfold Outstanding.refreshed
  rw [Outstanding.resent_congr horigin hattempts]
  simp only [Outstanding.attempts, Prod.mk.injEq] at hattempts
  split_ifs
  · simp [Outstanding.attempts, Outstanding.retransmit, hattempts]
  · simp [Outstanding.attempts, hattempts]

theorem not_shouldAbandon_of_resent {chunk : Outstanding}
    (h : Outstanding.resent chunk now = true) : Outstanding.shouldAbandon chunk now = false := by
  simp only [Outstanding.resent, Bool.and_eq_true, Bool.not_eq_true'] at h
  exact h.1.1

/-- A fragment with a limit is only sent again while it is under the limit. -/
theorem lt_of_resent {chunk : Outstanding} {maximum : UInt32}
    (hlimit : chunk.reliability = .maxRetransmissions maximum)
    (h : Outstanding.resent chunk now = true) : chunk.retransmissions < maximum.toNat := by
  simp only [Outstanding.resent, Outstanding.shouldAbandon, hlimit, Bool.and_eq_true,
    Bool.not_eq_true', Bool.and_eq_false_iff, decide_eq_false_iff_not, not_le] at h
  obtain ⟨⟨hunder | hunder, hoverdue⟩, -⟩ := h
  · simp [hunder] at hoverdue
  · exact hunder

theorem reliability_ne_of_shouldAbandon {chunk : Outstanding}
    (h : Outstanding.shouldAbandon chunk now = true) : chunk.reliability ≠ .reliable := by
  intro hreliable
  simp [Outstanding.shouldAbandon, hreliable] at h

/-! ## The invariant -/

/-- An earlier report is not followed by the message. -/
def Silences (earlier later : Record) : Prop :=
  ∀ message, earlier.report = some message →
    later.report ≠ some message ∧ later.sent ≠ some message

/-- The ids of the fragments in flight are among the last that were given out. -/
def Numbered (queued : ℕ) (s : Association) : Prop :=
  ∀ (tsn : UInt32) (chunk : Outstanding), s.outstanding[tsn]? = some chunk →
    0 < (s.nextMessageId - chunk.messageId).toNat ∧
      (s.nextMessageId - chunk.messageId).toNat ≤ (s.nextTsn - tsn).toNat ∧
      (s.nextMessageId - chunk.messageId).toNat ≤ queued

/-- The fragments of a message in flight have one origin. -/
def SameOrigin (s : Association) : Prop :=
  ∀ (tsn tsn' : UInt32) (chunk chunk' : Outstanding), s.outstanding[tsn]? = some chunk →
    s.outstanding[tsn']? = some chunk' → chunk.messageId = chunk'.messageId →
      Outstanding.origin chunk = Outstanding.origin chunk'

/-- The fragments of a message in flight have been sent together. -/
def SameAttempts (s : Association) : Prop :=
  ∀ (tsn tsn' : UInt32) (chunk chunk' : Outstanding), s.outstanding[tsn]? = some chunk →
    s.outstanding[tsn']? = some chunk' → chunk.messageId = chunk'.messageId →
      Outstanding.attempts chunk = Outstanding.attempts chunk'

/-- What a message in flight has behind it. -/
structure Going (records : List Record) (message : ℕ) (tsn : UInt32) (chunk : Outstanding) : Prop where
  known : ∃ other, .transmitted message tsn other ∈ records
  sent : ∀ tsn' chunk', .transmitted message tsn' chunk' ∈ records →
    Outstanding.origin chunk' = Outstanding.origin chunk
  unreported : ∀ record ∈ records, record.report ≠ some message
  limited : ∀ maximum, chunk.reliability = .maxRetransmissions maximum →
    records.countP (Record.sends message tsn) ≤ chunk.retransmissions + 1 ∧
      chunk.retransmissions ≤ maximum.toNat

/-- What the records of a run keep to. -/
structure Orderly (queued : ℕ) (records : List Record) : Prop where
  below : ∀ record ∈ records, ∀ message,
    record.sent = some message ∨ record.report = some message → message < queued
  silent : records.Pairwise Silences
  limited : ∀ message tsn chunk maximum, .transmitted message tsn chunk ∈ records →
    chunk.reliability = .maxRetransmissions maximum →
    records.countP (Record.sends message tsn) ≤ maximum.toNat + 1
  unreliable : ∀ message streamId streamSequence, .reported message streamId streamSequence ∈ records →
    (∃ tsn chunk, .transmitted message tsn chunk ∈ records) ∧
      ∀ tsn chunk, .transmitted message tsn chunk ∈ records → chunk.reliability ≠ .reliable ∧
        chunk.streamId = streamId ∧ chunk.streamSequence = streamSequence

/-- The ledger fits the state. -/
structure LedgerKept (ledger : Ledger) (s : Association) : Prop where
  numbered : Numbered ledger.queued s
  origin : SameOrigin s
  attempts : hasFailed ledger.records = false → SameAttempts s
  halted : hasFailed ledger.records = true → s.Halted
  going : ∀ (tsn : UInt32) (chunk : Outstanding), s.outstanding[tsn]? = some chunk →
    Going ledger.records (s.messageNumber ledger.queued chunk.messageId) tsn chunk
  orderly : Orderly ledger.queued ledger.records

theorem messageNumber_inj {queued : ℕ} {id id' : UInt64} (h : (s.nextMessageId - id).toNat ≤ queued)
    (h' : (s.nextMessageId - id').toNat ≤ queued)
    (heq : s.messageNumber queued id = s.messageNumber queued id') : id = id' := by
  unfold messageNumber at heq
  have hdistance : (s.nextMessageId - id).toNat = (s.nextMessageId - id').toNat := by omega
  rw [UInt64.toNat_inj] at hdistance
  grind

/-- Two fragments in flight are of one message when the ledger has one number for them. -/
theorem Numbered.inj {queued : ℕ} (hs : Numbered queued s) {tsn tsn' : UInt32}
    {chunk chunk' : Outstanding} (hchunk : s.outstanding[tsn]? = some chunk)
    (hchunk' : s.outstanding[tsn']? = some chunk')
    (heq : s.messageNumber queued chunk.messageId = s.messageNumber queued chunk'.messageId) :
    chunk.messageId = chunk'.messageId :=
  messageNumber_inj (hs tsn chunk hchunk).2.2 (hs tsn' chunk' hchunk').2.2 heq

theorem Numbered.number_lt {queued : ℕ} (hs : Numbered queued s) {tsn : UInt32} {chunk : Outstanding}
    (hchunk : s.outstanding[tsn]? = some chunk) :
    s.messageNumber queued chunk.messageId < queued := by
  obtain ⟨hpos, -, hle⟩ := hs tsn chunk hchunk
  unfold messageNumber
  omega

/-! ## More records -/

theorem Going.append {records new : List Record} {message : ℕ} {tsn : UInt32}
    {chunk chunk' : Outstanding} (h : Going records message tsn chunk)
    (horigin : Outstanding.origin chunk' = Outstanding.origin chunk)
    (hsent : ∀ tsn' other, .transmitted message tsn' other ∈ new →
      Outstanding.origin other = Outstanding.origin chunk)
    (hunreported : ∀ record ∈ new, record.report ≠ some message)
    (hlimited : ∀ maximum, chunk.reliability = .maxRetransmissions maximum →
      chunk.retransmissions ≤ maximum.toNat →
        chunk.retransmissions + new.countP (Record.sends message tsn) ≤ chunk'.retransmissions ∧
          chunk'.retransmissions ≤ maximum.toNat) :
    Going (records ++ new) message tsn chunk' := by
  refine ⟨?_, ?_, ?_, ?_⟩
  · obtain ⟨other, hother⟩ := h.known
    exact ⟨other, List.mem_append_left _ hother⟩
  · intro tsn' other hother
    rw [horigin]
    exact (List.mem_append.mp hother).elim (h.sent tsn' other) (hsent tsn' other)
  · exact List.forall_mem_append.mpr ⟨h.unreported, hunreported⟩
  · intro maximum hmaximum
    have hreliability : chunk.reliability = .maxRetransmissions maximum := by
      simp only [Outstanding.origin, Prod.mk.injEq] at horigin
      rw [← horigin.2.2.1, hmaximum]
    obtain ⟨hcount, hle⟩ := h.limited maximum hreliability
    obtain ⟨hmore, hle'⟩ := hlimited maximum hreliability hle
    rw [List.countP_append]
    exact ⟨by omega, hle'⟩

theorem Record.sends_iff {message : ℕ} {tsn : UInt32} {record : Record} :
    Record.sends message tsn record = true ↔ ∃ chunk, record = .transmitted message tsn chunk := by
  cases record <;> simp [Record.sends]

theorem countP_sends_eq_zero {records : List Record} {message : ℕ} {tsn : UInt32}
    (h : ∀ chunk, .transmitted message tsn chunk ∉ records) :
    records.countP (Record.sends message tsn) = 0 := by
  rw [List.countP_eq_zero]
  intro record hrecord hsends
  obtain ⟨chunk, rfl⟩ := Record.sends_iff.mp hsends
  exact h chunk hrecord

theorem Orderly.append {queued queued' : ℕ} {records new : List Record} (h : Orderly queued records)
    (hqueued : queued ≤ queued')
    (hbelow : ∀ record ∈ new, ∀ message,
      record.sent = some message ∨ record.report = some message → message < queued')
    (hsilent : new.Pairwise Silences)
    (hafter : ∀ record ∈ records, ∀ later ∈ new, Silences record later)
    (hlimited : ∀ message tsn chunk, .transmitted message tsn chunk ∈ new →
      (∀ other, .transmitted message tsn other ∈ records →
        Outstanding.origin other = Outstanding.origin chunk) ∧
      ∀ maximum, chunk.reliability = .maxRetransmissions maximum →
        (records ++ new).countP (Record.sends message tsn) ≤ maximum.toNat + 1)
    (hunreliable : ∀ message streamId streamSequence,
      .reported message streamId streamSequence ∈ new →
        (∃ tsn chunk, .transmitted message tsn chunk ∈ records) ∧
        ∀ tsn chunk, .transmitted message tsn chunk ∈ records ++ new → chunk.reliability ≠ .reliable ∧
          chunk.streamId = streamId ∧ chunk.streamSequence = streamSequence) :
    Orderly queued' (records ++ new) := by
  refine ⟨?_, ?_, ?_, ?_⟩
  · refine List.forall_mem_append.mpr ⟨fun record hrecord message hmessage => ?_, hbelow⟩
    exact (h.below record hrecord message hmessage).trans_le hqueued
  · exact List.pairwise_append.mpr ⟨h.silent, hsilent, hafter⟩
  · intro message tsn chunk maximum hchunk hmaximum
    by_cases hagain : ∃ other, .transmitted message tsn other ∈ new
    · obtain ⟨other, hother⟩ := hagain
      obtain ⟨hsame, hcount⟩ := hlimited message tsn other hother
      rcases List.mem_append.mp hchunk with hold | hnew
      · have horigin := hsame chunk hold
        simp only [Outstanding.origin, Prod.mk.injEq] at horigin
        exact hcount maximum (horigin.2.2.1 ▸ hmaximum)
      · exact (hlimited message tsn chunk hnew).2 maximum hmaximum
    · rw [not_exists] at hagain
      have hold := (List.mem_append.mp hchunk).resolve_right (hagain chunk)
      rw [List.countP_append, countP_sends_eq_zero hagain, Nat.add_zero]
      exact h.limited message tsn chunk maximum hold hmaximum
  · intro message streamId streamSequence hreported
    rcases List.mem_append.mp hreported with hold | hnew
    · obtain ⟨⟨tsn, chunk, hknown⟩, hall⟩ := h.unreliable message streamId streamSequence hold
      refine ⟨⟨tsn, chunk, List.mem_append_left _ hknown⟩, fun tsn chunk hchunk => ?_⟩
      refine hall tsn chunk ((List.mem_append.mp hchunk).resolve_right fun hlater => ?_)
      exact (hafter _ hold _ hlater message rfl).2 rfl
    · obtain ⟨⟨tsn, chunk, hknown⟩, hall⟩ := hunreliable message streamId streamSequence hnew
      exact ⟨⟨tsn, chunk, List.mem_append_left _ hknown⟩, hall⟩

/-- Records that neither transmit nor report. -/
def Record.Silent (record : Record) : Prop := record.sent = none ∧ record.report = none

theorem Orderly.append_silent {queued : ℕ} {records new : List Record} (h : Orderly queued records)
    (hnew : ∀ record ∈ new, record.Silent) : Orderly queued (records ++ new) := by
  have hsilences (record later : Record) (hlater : later.Silent) : Silences record later := by
    intro message _
    rw [hlater.1, hlater.2]
    exact ⟨by simp, by simp⟩
  refine h.append le_rfl ?_ ?_ ?_ ?_ ?_
  · intro record hrecord message hmessage
    rw [(hnew record hrecord).1, (hnew record hrecord).2] at hmessage
    simp at hmessage
  · exact List.pairwise_of_forall_mem_list fun record _ later hlater =>
      hsilences record later (hnew later hlater)
  · exact fun record _ later hlater => hsilences record later (hnew later hlater)
  · intro message tsn chunk hchunk
    exact absurd (hnew _ hchunk).1 (by simp [Record.sent])
  · intro message streamId streamSequence hreported
    exact absurd (hnew _ hreported).2 (by simp [Record.report])

theorem Going.append_silent {records new : List Record} {message : ℕ} {tsn : UInt32}
    {chunk : Outstanding} (h : Going records message tsn chunk) (hnew : ∀ record ∈ new, record.Silent) :
    Going (records ++ new) message tsn chunk := by
  refine h.append rfl ?_ ?_ ?_
  · exact fun tsn' other hother => absurd (hnew _ hother).1 (by simp [Record.sent])
  · exact fun record hrecord => by simp [(hnew record hrecord).2]
  · intro maximum _ hle
    rw [countP_sends_eq_zero fun other hother => absurd (hnew _ hother).1 (by simp [Record.sent])]
    exact ⟨by omega, hle⟩

/-- Fewer fragments in flight, and nothing transmitted or reported. -/
theorem LedgerKept.shrink (h : LedgerKept ledger s) (new : List Record) (hnext : t.nextTsn = s.nextTsn)
    (hid : t.nextMessageId = s.nextMessageId) (hhalted : s.Halted → t.Halted)
    (hout : ∀ (tsn : UInt32) (chunk : Outstanding), t.outstanding[tsn]? = some chunk →
      s.outstanding[tsn]? = some chunk)
    (hnew : ∀ record ∈ new, record.Silent ∧ (∀ tsn, record ≠ .failed tsn) ∧ record ≠ .restarted) :
    LedgerKept { ledger with records := ledger.records ++ new } t := by
  have hfailed : hasFailed (ledger.records ++ new) = hasFailed ledger.records :=
    hasFailed_append new fun record hrecord => (hnew record hrecord).2
  have hsilent : ∀ record ∈ new, record.Silent := fun record hrecord => (hnew record hrecord).1
  refine ⟨?_, ?_, ?_, ?_, ?_, h.orderly.append_silent hsilent⟩
  · intro tsn chunk hchunk
    rw [hid, hnext]
    exact h.numbered tsn chunk (hout tsn chunk hchunk)
  · exact fun tsn tsn' chunk chunk' hchunk hchunk' =>
      h.origin tsn tsn' chunk chunk' (hout tsn chunk hchunk) (hout tsn' chunk' hchunk')
  · intro hopen tsn tsn' chunk chunk' hchunk hchunk'
    exact h.attempts (hfailed ▸ hopen) tsn tsn' chunk chunk' (hout tsn chunk hchunk)
      (hout tsn' chunk' hchunk')
  · exact fun hclosed => hhalted (h.halted (hfailed ▸ hclosed))
  · intro tsn chunk hchunk
    have hgoing := (h.going tsn chunk (hout tsn chunk hchunk)).append_silent hsilent
    rw [messageNumber, hid]
    exact hgoing

/-! ## Queueing -/

/-- The TSN of a transmission. -/
def Record.sentTsn : Record → Option UInt32
  | .transmitted _ tsn _ => some tsn
  | _ => none

/-- Under each TSN at most one transmission. -/
theorem countP_sends_le_one {records : List Record} (h : (records.filterMap Record.sentTsn).Nodup)
    (message : ℕ) (tsn : UInt32) : records.countP (Record.sends message tsn) ≤ 1 := by
  refine le_trans ?_ (List.nodup_iff_count_le_one.mp h tsn)
  rw [List.count_filterMap]
  refine List.countP_mono_left fun record _ hsends => ?_
  obtain ⟨chunk, rfl⟩ := Record.sends_iff.mp hsends
  simp [Record.sentTsn]

theorem mem_queuedRecords (queued : ℕ) {message : OutboundMessage} {packets : List Bytes}
    (h : Queued now message packets s t) {record : Record} :
    record ∈ queuedRecords queued s t ↔ ∃ (i : ℕ) (packet : Bytes), packets[i]? = some packet ∧
      record = .transmitted queued (s.nextTsn + UInt32.ofNat i)
        (freshChunk now message s.nextMessageId packet) := by
  rw [queuedRecords_queued queued h, List.mem_mapIdx]
  constructor
  · rintro ⟨i, hi, rfl⟩
    exact ⟨i, packets[i], List.getElem?_eq_getElem hi, rfl⟩
  · rintro ⟨i, packet, hpacket, rfl⟩
    obtain ⟨hi, rfl⟩ := List.getElem?_eq_some_iff.mp hpacket
    exact ⟨i, hi, rfl⟩

theorem nodup_sentTsn_queuedRecords (queued : ℕ) {message : OutboundMessage} {packets : List Bytes}
    (h : Queued now message packets s t) :
    ((queuedRecords queued s t).filterMap Record.sentTsn).Nodup := by
  have hroom := hasRoom_flight h.room
  unfold maxOutstanding at hroom
  have htsns : (queuedRecords queued s t).filterMap Record.sentTsn =
      (List.range packets.length).map fun i => s.nextTsn + UInt32.ofNat i := by
    rw [queuedRecords_queued queued h, List.mapIdx_eq_zipIdx_map, List.filterMap_map]
    have hsome : (Record.sentTsn ∘ fun entry : Bytes × ℕ => Record.transmitted queued
        (s.nextTsn + UInt32.ofNat entry.2) (freshChunk now message s.nextMessageId entry.1)) =
        some ∘ (fun i => s.nextTsn + UInt32.ofNat i) ∘ Prod.snd := rfl
    rw [hsome, List.filterMap_eq_map, ← List.map_map, List.zipIdx_map_snd, List.range_eq_range']
  rw [htsns]
  refine List.nodup_range.map_on fun i hi j hj heq => ?_
  rw [List.mem_range] at hi hj
  have hdistance := Serial.toNat_add_ofNat_sub s.nextTsn (n := i) (by omega)
  rw [heq, Serial.toNat_add_ofNat_sub _ (by omega)] at hdistance
  exact hdistance.symm

/-- The number of a fragment that was in flight stays, and one id and at least one TSN more are given
out. -/
theorem Queued.toNat_sub {message : OutboundMessage} {packets : List Bytes}
    (h : Queued now message packets s t) (hkept : KeptRecent s) {queued : ℕ}
    (hnumbered : Numbered queued s) {tsn : UInt32} {chunk : Outstanding}
    (hchunk : s.outstanding[tsn]? = some chunk) :
    (t.nextMessageId - chunk.messageId).toNat = (s.nextMessageId - chunk.messageId).toNat + 1 ∧
      (t.nextTsn - tsn).toNat = (s.nextTsn - tsn).toNat + packets.length := by
  obtain ⟨hpos, hle, -⟩ := hnumbered tsn chunk hchunk
  have hrecent := (hkept.outstanding tsn (Maps.mem_of_getElem? hchunk)).le
  have hroom := hasRoom_flight h.room
  unfold maxOutstanding at hroom hrecent
  constructor
  · rw [h.nextMessageId]
    have hshift : s.nextMessageId + 1 - chunk.messageId = s.nextMessageId - chunk.messageId + 1 := by
      grind
    rw [hshift, UInt64.toNat_add]
    simp only [UInt64.toNat_ofNat]
    omega
  · have hbase : t.nextTsn = tsn + UInt32.ofNat ((s.nextTsn - tsn).toNat + packets.length) := by
      rw [h.nextTsn, UInt32.ofNat_add, ← UInt32.add_assoc, Serial.add_ofNat_toNat_sub]
    rw [hbase, Serial.toNat_add_ofNat_sub _ (by omega)]

/-- Under a TSN there is after queueing a fragment that was in flight, or one of the new message. -/
theorem Queued.getElem?_cases {message : OutboundMessage} {packets : List Bytes}
    (h : Queued now message packets s t) {tsn : UInt32} {chunk : Outstanding}
    (hchunk : t.outstanding[tsn]? = some chunk) :
    s.outstanding[tsn]? = some chunk ∨ ∃ (i : ℕ) (packet : Bytes), packets[i]? = some packet ∧
      tsn = s.nextTsn + UInt32.ofNat i ∧ chunk = freshChunk now message s.nextMessageId packet := by
  rw [h.getElem?] at hchunk
  split_ifs at hchunk
  · obtain ⟨packet, hpacket, rfl⟩ := Option.map_eq_some_iff.mp hchunk
    exact .inr ⟨_, packet, hpacket, (Serial.add_ofNat_toNat_sub s.nextTsn tsn).symm, rfl⟩
  · exact .inl hchunk

theorem LedgerKept.queued {message : OutboundMessage} {packets : List Bytes} (h : LedgerKept ledger s)
    (hkept : KeptRecent s) (hqueued : Queued now message packets s t) :
    LedgerKept ⟨ledger.queued + 1, ledger.records ++ queuedRecords ledger.queued s t⟩ t := by
  have hroom := hasRoom_flight hqueued.room
  unfold maxOutstanding at hroom
  have hnew {record : Record} (hrecord : record ∈ queuedRecords ledger.queued s t) :
      ∃ i packet, packets[i]? = some packet ∧
        record = .transmitted ledger.queued (s.nextTsn + UInt32.ofNat i)
          (freshChunk now message s.nextMessageId packet) := (mem_queuedRecords _ hqueued).mp hrecord
  have hfailed : hasFailed (ledger.records ++ queuedRecords ledger.queued s t) =
      hasFailed ledger.records := by
    refine hasFailed_append _ fun record hrecord => ?_
    obtain ⟨i, packet, -, rfl⟩ := hnew hrecord
    exact ⟨by simp, by simp⟩
  have hfreshId : (t.nextMessageId - s.nextMessageId).toNat = 1 := by
    rw [hqueued.nextMessageId, show s.nextMessageId + 1 - s.nextMessageId = 1 by grind]
    rfl
  have hold {tsn : UInt32} {chunk : Outstanding} (hchunk : s.outstanding[tsn]? = some chunk) :
      chunk.messageId ≠ s.nextMessageId := by
    intro heq
    have hpos := (h.numbered tsn chunk hchunk).1
    rw [heq, UInt64.sub_self] at hpos
    simp at hpos
  have hunsent : ∀ record ∈ ledger.records, record.sent ≠ some ledger.queued ∧
      record.report ≠ some ledger.queued := by
    intro record hrecord
    have hbelow := h.orderly.below record hrecord ledger.queued
    exact ⟨fun hsent => lt_irrefl _ (hbelow (.inl hsent)),
      fun hreport => lt_irrefl _ (hbelow (.inr hreport))⟩
  have hcount (tsn : UInt32) : (ledger.records ++ queuedRecords ledger.queued s t).countP
      (Record.sends ledger.queued tsn) ≤ 1 := by
    rw [List.countP_append,
      countP_sends_eq_zero fun chunk hchunk => (hunsent _ hchunk).1 rfl, Nat.zero_add]
    exact countP_sends_le_one (nodup_sentTsn_queuedRecords ledger.queued hqueued) _ _
  refine ⟨?_, ?_, ?_, ?_, ?_, ?_⟩
  · intro tsn chunk hchunk
    obtain hchunk | ⟨i, packet, hpacket, rfl, rfl⟩ := hqueued.getElem?_cases hchunk
    · obtain ⟨hid, htsn⟩ := hqueued.toNat_sub hkept h.numbered hchunk
      obtain ⟨hpos, hle, hqueue⟩ := h.numbered tsn chunk hchunk
      have hone := List.length_pos_iff.mpr hqueued.nonempty
      dsimp only
      omega
    · obtain ⟨hi, -⟩ := List.getElem?_eq_some_iff.mp hpacket
      have hnext : t.nextTsn = s.nextTsn + UInt32.ofNat i + UInt32.ofNat (packets.length - i) := by
        rw [hqueued.nextTsn, UInt32.add_assoc, ← UInt32.ofNat_add]
        congr 2
        omega
      rw [freshChunk, hfreshId, hnext, Serial.toNat_add_ofNat_sub _ (by omega)]
      dsimp only
      omega
  · intro tsn tsn' chunk chunk' hchunk hchunk' hid
    obtain hchunk | ⟨i, packet, -, -, rfl⟩ := hqueued.getElem?_cases hchunk <;>
      obtain hchunk' | ⟨i', packet', -, -, rfl⟩ := hqueued.getElem?_cases hchunk'
    · exact h.origin tsn tsn' chunk chunk' hchunk hchunk' hid
    · exact absurd hid (hold hchunk)
    · exact absurd hid.symm (hold hchunk')
    · rfl
  · intro hopen tsn tsn' chunk chunk' hchunk hchunk' hid
    obtain hchunk | ⟨i, packet, -, -, rfl⟩ := hqueued.getElem?_cases hchunk <;>
      obtain hchunk' | ⟨i', packet', -, -, rfl⟩ := hqueued.getElem?_cases hchunk'
    · exact h.attempts (hfailed ▸ hopen) tsn tsn' chunk chunk' hchunk hchunk' hid
    · exact absurd hid (hold hchunk)
    · exact absurd hid.symm (hold hchunk')
    · rfl
  · exact fun hclosed => hqueued.halted (h.halted (hfailed ▸ hclosed))
  · intro tsn chunk hchunk
    obtain hchunk | ⟨i, packet, hpacket, rfl, rfl⟩ := hqueued.getElem?_cases hchunk
    · -- the new records are of another message
      obtain ⟨hid, -⟩ := hqueued.toNat_sub hkept h.numbered hchunk
      have hsame : t.messageNumber (ledger.queued + 1) chunk.messageId =
          s.messageNumber ledger.queued chunk.messageId := by
        rw [messageNumber, messageNumber, hid]
        omega
      have hlt := h.numbered.number_lt hchunk
      rw [hsame]
      refine (h.going tsn chunk hchunk).append rfl ?_ ?_ ?_
      · intro tsn' other hother
        obtain ⟨i, packet, -, heq⟩ := hnew hother
        rw [Record.transmitted.injEq] at heq
        omega
      · intro record hrecord
        obtain ⟨i, packet, -, rfl⟩ := hnew hrecord
        simp [Record.report]
      · intro maximum _ hle
        refine ⟨?_, hle⟩
        rw [countP_sends_eq_zero fun other hother => ?_]
        · omega
        obtain ⟨i, packet, -, heq⟩ := hnew hother
        rw [Record.transmitted.injEq] at heq
        omega
    · have hnumber : t.messageNumber (ledger.queued + 1)
          (freshChunk now message s.nextMessageId packet).messageId = ledger.queued := by
        rw [freshChunk, messageNumber, hfreshId]
        omega
      rw [hnumber]
      have hrecord := (mem_queuedRecords ledger.queued hqueued).mpr ⟨i, packet, hpacket, rfl⟩
      refine ⟨⟨_, List.mem_append_right _ hrecord⟩,
        ?_, ?_, ?_⟩
      · intro tsn' other hother
        rcases List.mem_append.mp hother with hother | hother
        · exact absurd rfl (hunsent _ hother).1
        · obtain ⟨i, packet, -, heq⟩ := hnew hother
          rw [Record.transmitted.injEq] at heq
          rw [heq.2.2]
          rfl
      · refine List.forall_mem_append.mpr ⟨fun record hrecord => (hunsent record hrecord).2, ?_⟩
        intro record hrecord
        obtain ⟨i, packet, -, rfl⟩ := hnew hrecord
        simp [Record.report]
      · exact fun maximum _ => ⟨hcount _, Nat.zero_le _⟩
  · refine h.orderly.append (Nat.le_succ _) ?_ ?_ ?_ ?_ ?_
    · intro record hrecord other hother
      obtain ⟨i, packet, -, rfl⟩ := hnew hrecord
      simp only [Record.sent, Record.report, Option.some.injEq, reduceCtorEq, or_false] at hother
      exact hother ▸ Nat.lt_succ_self _
    · refine List.pairwise_of_forall_mem_list fun record hrecord later _ other hother => ?_
      obtain ⟨i, packet, -, rfl⟩ := hnew hrecord
      simp [Record.report] at hother
    · intro record hrecord later hlater other hother
      obtain ⟨i, packet, -, rfl⟩ := hnew hlater
      have hlt := h.orderly.below record hrecord other (.inr hother)
      refine ⟨by simp [Record.report], ?_⟩
      simp only [Record.sent, ne_eq, Option.some.injEq]
      omega
    · intro other tsn chunk hchunk
      obtain ⟨i, packet, -, heq⟩ := hnew hchunk
      rw [Record.transmitted.injEq] at heq
      obtain ⟨rfl, -, -⟩ := heq
      exact ⟨fun chunk' hchunk' => absurd rfl (hunsent _ hchunk').1,
        fun maximum _ => (hcount tsn).trans (by omega)⟩
    · intro other streamId streamSequence hreported
      obtain ⟨i, packet, -, heq⟩ := hnew hreported
      cases heq

theorem ledgerKept_restart (init : InitChunk) (h : LedgerKept ledger s) :
    LedgerKept { ledger with records := ledger.records ++ [.restarted] } (restart init s) := by
  have hnone (tsn : UInt32) (chunk : Outstanding) :
      (restart init s).outstanding[tsn]? ≠ some chunk := by
    simp [restart]
  refine ⟨?_, ?_, ?_, ?_, ?_, h.orderly.append_silent ?_⟩
  · exact fun tsn chunk hchunk => absurd hchunk (hnone tsn chunk)
  · exact fun tsn tsn' chunk chunk' hchunk => absurd hchunk (hnone tsn chunk)
  · exact fun _ tsn tsn' chunk chunk' hchunk => absurd hchunk (hnone tsn chunk)
  · intro hclosed
    rw [hasFailed, List.foldl_append] at hclosed
    cases hclosed
  · exact fun tsn chunk hchunk => absurd hchunk (hnone tsn chunk)
  · intro record hrecord
    rw [List.mem_singleton.mp hrecord]
    exact ⟨rfl, rfl⟩

/-! ## One tick -/

/-- The record of a fragment that is sent again. -/
def sentAgain (queued : ℕ) (s : Association) (entry : UInt32 × Outstanding) : Record :=
  .transmitted (s.messageNumber queued entry.2.messageId) entry.1 entry.2

/-- The report of a message of which a fragment has expired. -/
def Reports (now queued : ℕ) (s : Association) (ids : List UInt64) (record : Record) : Prop :=
  ∃ (tsn : UInt32) (chunk : Outstanding), s.outstanding[tsn]? = some chunk ∧
    Outstanding.shouldAbandon chunk now = true ∧ chunk.messageId ∈ ids ∧
    record = .reported (s.messageNumber queued chunk.messageId) chunk.streamId chunk.streamSequence

section Tick

variable {entries : List (UInt32 × Outstanding)} {ids : List UInt64} {expired : List Record}

theorem mem_sentAgain {queued : ℕ} (hticked : Ticked now s entries ids t) {record : Record}
    (h : record ∈ (resentEntries now entries).map (sentAgain queued s)) :
    ∃ (tsn : UInt32) (chunk : Outstanding), s.outstanding[tsn]? = some chunk ∧
      tsn ∈ entries.map Prod.fst ∧ Outstanding.resent chunk now = true ∧
      record = .transmitted (s.messageNumber queued chunk.messageId) tsn chunk := by
  obtain ⟨⟨tsn, chunk⟩, hentry, rfl⟩ := List.mem_map.mp h
  obtain ⟨hentry, hresent⟩ := List.mem_filter.mp hentry
  exact ⟨tsn, chunk, ExtTreeMap.mem_toList_iff_getElem?_eq_some.mp (hticked.sublist.subset hentry),
    List.mem_map_of_mem hentry, hresent, rfl⟩

theorem nodup_sentTsn_sentAgain (queued : ℕ) (hticked : Ticked now s entries ids t) :
    (((resentEntries now entries).map (sentAgain queued s)).filterMap Record.sentTsn).Nodup := by
  have htsns : ((resentEntries now entries).map (sentAgain queued s)).filterMap Record.sentTsn =
      (resentEntries now entries).map Prod.fst := by
    rw [List.filterMap_map]
    exact congrFun List.filterMap_eq_map _
  rw [htsns]
  exact ((List.filter_sublist.trans hticked.sublist).map _).nodup (nodup_fst_toList s)

/-- At most one transmission of a fragment, and it was under the limit. -/
theorem countP_sends_ticked {queued : ℕ} (hticked : Ticked now s entries ids t)
    (hexpired : ∀ record ∈ expired, record.Silent ∨ Reports now queued s ids record)
    (message : ℕ) (tsn : UInt32) :
    (expired ++ (resentEntries now entries).map (sentAgain queued s)).countP
      (Record.sends message tsn) ≤ 1 := by
  have hnone : expired.countP (Record.sends message tsn) = 0 := by
    refine countP_sends_eq_zero fun chunk hchunk => ?_
    obtain hsilent | ⟨_, _, -, -, -, heq⟩ := hexpired _ hchunk
    · exact absurd hsilent.1 (by simp [Record.sent])
    · cases heq
  rw [List.countP_append, hnone, Nat.zero_add]
  exact countP_sends_le_one (nodup_sentTsn_sentAgain queued hticked) message tsn

/-- A transmission of a tick is of a fragment in flight that is sent again. -/
theorem transmitted_ticked {queued : ℕ} (hticked : Ticked now s entries ids t)
    (hexpired : ∀ record ∈ expired, record.Silent ∨ Reports now queued s ids record)
    {record : Record}
    (hrecord : record ∈ expired ++ (resentEntries now entries).map (sentAgain queued s))
    {message : ℕ} (hsent : record.sent = some message) :
    ∃ (tsn : UInt32) (chunk : Outstanding), s.outstanding[tsn]? = some chunk ∧
      tsn ∈ entries.map Prod.fst ∧ Outstanding.resent chunk now = true ∧
      message = s.messageNumber queued chunk.messageId ∧
      record = .transmitted (s.messageNumber queued chunk.messageId) tsn chunk := by
  rcases List.mem_append.mp hrecord with hrecord | hrecord
  · obtain hsilent | ⟨_, _, -, -, -, rfl⟩ := hexpired record hrecord
    · rw [hsilent.1] at hsent
      cases hsent
    · cases hsent
  · obtain ⟨tsn, chunk, hchunk, hmem, hresent, rfl⟩ := mem_sentAgain hticked hrecord
    obtain rfl := Option.some.inj hsent
    exact ⟨tsn, chunk, hchunk, hmem, hresent, rfl, rfl⟩

/-- A report of a tick is of a message of which a fragment has expired. -/
theorem reported_ticked {queued : ℕ} (hticked : Ticked now s entries ids t)
    (hexpired : ∀ record ∈ expired, record.Silent ∨ Reports now queued s ids record)
    {record : Record}
    (hrecord : record ∈ expired ++ (resentEntries now entries).map (sentAgain queued s))
    {message : ℕ} (hreport : record.report = some message) :
    Reports now queued s ids record := by
  rcases List.mem_append.mp hrecord with hrecord | hrecord
  · obtain hsilent | hreports := hexpired record hrecord
    · rw [hsilent.2] at hreport
      cases hreport
    · exact hreports
  · obtain ⟨_, _, -, -, -, rfl⟩ := mem_sentAgain hticked hrecord
    cases hreport

theorem numbered_ticked {queued : ℕ} (h : Numbered queued s) (hticked : Ticked now s entries ids t) :
    Numbered queued t := by
  intro tsn chunk hchunk
  obtain ⟨old, hold, -, rfl⟩ := (hticked.outstanding tsn chunk).mp hchunk
  have hnumbered := h tsn old hold
  rw [hticked.nextMessageId, hticked.nextTsn]
  split_ifs
  · rwa [Outstanding.messageId_refreshed]
  · exact hnumbered

theorem sameOrigin_ticked (h : SameOrigin s) (hticked : Ticked now s entries ids t) : SameOrigin t := by
  have hback {tsn : UInt32} {chunk : Outstanding} (hchunk : t.outstanding[tsn]? = some chunk) :
      ∃ old, s.outstanding[tsn]? = some old ∧ chunk.messageId = old.messageId ∧
        Outstanding.origin chunk = Outstanding.origin old := by
    obtain ⟨old, hold, -, rfl⟩ := (hticked.outstanding tsn chunk).mp hchunk
    refine ⟨old, hold, ?_, ?_⟩ <;> split_ifs <;> simp
  intro tsn tsn' chunk chunk' hchunk hchunk' hid
  obtain ⟨old, hold, hid₁, horigin₁⟩ := hback hchunk
  obtain ⟨old', hold', hid₂, horigin₂⟩ := hback hchunk'
  rw [horigin₁, horigin₂]
  exact h tsn tsn' old old' hold hold' (by rw [← hid₁, hid, hid₂])

theorem going_ticked (h : LedgerKept ledger s) (hticked : Ticked now s entries ids t)
    (hexpired : ∀ record ∈ expired, record.Silent ∨ Reports now ledger.queued s ids record)
    {tsn : UInt32} {chunk : Outstanding} (hchunk : t.outstanding[tsn]? = some chunk) :
    Going (ledger.records ++ (expired ++ (resentEntries now entries).map (sentAgain ledger.queued s)))
      (t.messageNumber ledger.queued chunk.messageId) tsn chunk := by
  obtain ⟨old, hold, hkept, rfl⟩ := (hticked.outstanding tsn chunk).mp hchunk
  have hid : (if tsn ∈ entries.map Prod.fst then Outstanding.refreshed now old else old).messageId =
      old.messageId := by
    split_ifs <;> simp
  have hnumber : t.messageNumber ledger.queued old.messageId =
      s.messageNumber ledger.queued old.messageId := by
    rw [messageNumber, hticked.nextMessageId, messageNumber]
  rw [hid, hnumber]
  refine (h.going tsn old hold).append ?_ ?_ ?_ ?_
  · split_ifs <;> simp
  · intro tsn' other hother
    obtain ⟨tsn₁, chunk₁, hchunk₁, -, -, hnumber, heq⟩ :=
      transmitted_ticked hticked hexpired hother rfl
    rw [Record.transmitted.injEq] at heq
    obtain ⟨-, -, rfl⟩ := heq
    exact h.origin tsn₁ tsn other old hchunk₁ hold (h.numbered.inj hchunk₁ hold hnumber.symm)
  · intro record hrecord hreport
    obtain ⟨tsn₁, chunk₁, hchunk₁, -, hmem, rfl⟩ := reported_ticked hticked hexpired hrecord hreport
    have hsame := h.numbered.inj hchunk₁ hold (Option.some.inj hreport)
    exact hkept (hsame ▸ hmem)
  · intro maximum hmaximum hle
    have hcount := countP_sends_ticked hticked hexpired
      (s.messageNumber ledger.queued old.messageId) tsn
    by_cases hagain : tsn ∈ entries.map Prod.fst ∧ Outstanding.resent old now = true
    · have hlt := lt_of_resent hmaximum hagain.2
      have hbound := maximum.toNat_lt
      rw [if_pos hagain.1, Outstanding.refreshed, if_pos hagain.2, Outstanding.retransmit]
      dsimp only
      rw [min_eq_left (by omega)]
      omega
    · -- not sent again: the fragment is as it was
      have hsame :
          (if tsn ∈ entries.map Prod.fst then Outstanding.refreshed now old else old) = old := by
        split_ifs with hmem
        · rw [Outstanding.refreshed, if_neg fun hresent => hagain ⟨hmem, hresent⟩]
        · rfl
      rw [hsame, countP_sends_eq_zero fun other hother => ?_]
      · exact ⟨le_rfl, hle⟩
      obtain ⟨tsn₁, chunk₁, hchunk₁, hmem₁, hresent₁, -, heq⟩ :=
        transmitted_ticked hticked hexpired hother rfl
      rw [Record.transmitted.injEq] at heq
      obtain ⟨-, rfl, -⟩ := heq
      rw [hold] at hchunk₁
      obtain rfl := Option.some.inj hchunk₁
      exact hagain ⟨hmem₁, hresent₁⟩

theorem orderly_ticked (h : LedgerKept ledger s) (hattempts : SameAttempts s)
    (hticked : Ticked now s entries ids t)
    (hexpired : ∀ record ∈ expired, record.Silent ∨ Reports now ledger.queued s ids record)
    (hpairwise : expired.Pairwise Silences) :
    Orderly ledger.queued
      (ledger.records ++ (expired ++ (resentEntries now entries).map (sentAgain ledger.queued s))) := by
  refine h.orderly.append le_rfl ?_ ?_ ?_ ?_ ?_
  · rintro record hrecord message (hsent | hreport)
    · obtain ⟨tsn, chunk, hchunk, -, -, rfl, -⟩ := transmitted_ticked hticked hexpired hrecord hsent
      exact h.numbered.number_lt hchunk
    · obtain ⟨tsn, chunk, hchunk, -, -, rfl⟩ := reported_ticked hticked hexpired hrecord hreport
      obtain rfl := Option.some.inj hreport
      exact h.numbered.number_lt hchunk
  · refine List.pairwise_append.mpr ⟨hpairwise, ?_, ?_⟩
    · refine List.pairwise_of_forall_mem_list fun record hrecord later _ message hmessage => ?_
      obtain ⟨_, _, -, -, -, rfl⟩ := mem_sentAgain hticked hrecord
      cases hmessage
    · intro record hrecord later hlater message hmessage
      obtain ⟨tsn, chunk, hchunk, habandon, -, rfl⟩ :=
        reported_ticked hticked hexpired (List.mem_append_left _ hrecord) hmessage
      obtain ⟨tsn', chunk', hchunk', -, hresent, rfl⟩ := mem_sentAgain hticked hlater
      refine ⟨by simp [Record.report], fun hsent => ?_⟩
      -- an expired message is not sent again, its fragments being sent together
      have hid := h.numbered.inj hchunk' hchunk ((Option.some.inj hsent).trans
        (Option.some.inj hmessage).symm)
      have hsame := Outstanding.shouldAbandon_congr now
        (h.origin tsn' tsn chunk' chunk hchunk' hchunk hid)
        (hattempts tsn' tsn chunk' chunk hchunk' hchunk hid)
      rw [habandon, not_shouldAbandon_of_resent hresent] at hsame
      cases hsame
  · intro record hrecord later hlater message hmessage
    refine ⟨fun hreport => ?_, fun hsent => ?_⟩
    · obtain ⟨tsn, chunk, hchunk, -, -, rfl⟩ := reported_ticked hticked hexpired hlater hreport
      obtain rfl := Option.some.inj hreport
      exact (h.going tsn chunk hchunk).unreported record hrecord hmessage
    · obtain ⟨tsn, chunk, hchunk, -, -, rfl, -⟩ := transmitted_ticked hticked hexpired hlater hsent
      exact (h.going tsn chunk hchunk).unreported record hrecord hmessage
  · intro message tsn chunk hchunk
    obtain ⟨tsn₁, chunk₁, hchunk₁, -, hresent, -, heq⟩ :=
      transmitted_ticked hticked hexpired hchunk rfl
    rw [Record.transmitted.injEq] at heq
    obtain ⟨rfl, rfl, rfl⟩ := heq
    have hgoing := h.going tsn chunk hchunk₁
    refine ⟨hgoing.sent tsn, fun maximum hmaximum => ?_⟩
    have hcount := (hgoing.limited maximum hmaximum).1
    have hmore := countP_sends_ticked hticked hexpired
      (s.messageNumber ledger.queued chunk.messageId) tsn
    have hlt := lt_of_resent hmaximum hresent
    rw [List.countP_append]
    omega
  · intro message streamId streamSequence hreported
    obtain ⟨tsn, chunk, hchunk, habandon, -, heq⟩ := reported_ticked hticked hexpired hreported rfl
    rw [Record.reported.injEq] at heq
    obtain ⟨rfl, rfl, rfl⟩ := heq
    have hgoing := h.going tsn chunk hchunk
    obtain ⟨other, hother⟩ := hgoing.known
    refine ⟨⟨tsn, other, hother⟩, fun tsn' chunk' hchunk' => ?_⟩
    have horigin : Outstanding.origin chunk' = Outstanding.origin chunk := by
      rcases List.mem_append.mp hchunk' with hold | hnew
      · exact hgoing.sent tsn' chunk' hold
      · obtain ⟨tsn₁, chunk₁, hchunk₁, -, -, hnumber, heq⟩ :=
          transmitted_ticked hticked hexpired hnew rfl
        rw [Record.transmitted.injEq] at heq
        obtain ⟨-, -, rfl⟩ := heq
        exact h.origin tsn₁ tsn chunk' chunk hchunk₁ hchunk (h.numbered.inj hchunk₁ hchunk hnumber.symm)
    simp only [Outstanding.origin, Prod.mk.injEq] at horigin
    rw [horigin.1, horigin.2.1, horigin.2.2.1]
    exact ⟨reliability_ne_of_shouldAbandon habandon, rfl, rfl⟩

end Tick

theorem expired_ticked (now queued : ℕ) (s : Association)
    (hnumbers : ∀ message ∈ s.expiredMessages now, ∃ (tsn : UInt32) (chunk : Outstanding),
      s.outstanding[tsn]? = some chunk ∧ Outstanding.shouldAbandon chunk now = true ∧
        message = (chunk.messageId, chunk.streamId, chunk.streamSequence)) :
    ∀ record ∈ s.expiredRecords now queued,
      record.Silent ∨ Reports now queued s ((s.expiredMessages now).map Prod.fst) record := by
  intro record hrecord
  rcases List.mem_append.mp hrecord with hrecord | hrecord
  · obtain ⟨entry, -, rfl⟩ := List.mem_map.mp hrecord
    exact .inl ⟨rfl, rfl⟩
  · obtain ⟨message, hmessage, rfl⟩ := List.mem_map.mp hrecord
    obtain ⟨tsn, chunk, hchunk, habandon, rfl⟩ := hnumbers message hmessage
    exact .inr ⟨tsn, chunk, hchunk, habandon, List.mem_map_of_mem hmessage, rfl⟩

theorem pairwise_expired {queued : ℕ} (hs : Numbered queued s)
    (hnodup : ((s.expiredMessages now).map Prod.fst).Nodup)
    (hmessages : ∀ id, id ∈ (s.expiredMessages now).map Prod.fst ↔ Abandons now s id) :
    (s.expiredRecords now queued).Pairwise Silences := by
  have hlive {id : UInt64} (hid : id ∈ (s.expiredMessages now).map Prod.fst) :
      (s.nextMessageId - id).toNat ≤ queued := by
    obtain ⟨tsn, chunk, hchunk, -, rfl⟩ := (hmessages id).mp hid
    exact (hs tsn chunk hchunk).2.2
  refine List.pairwise_append.mpr ⟨?_, ?_, ?_⟩
  · refine List.pairwise_of_forall_mem_list fun record hrecord later _ message hmessage => ?_
    obtain ⟨entry, -, rfl⟩ := List.mem_map.mp hrecord
    cases hmessage
  · rw [List.pairwise_map]
    refine (List.pairwise_map.mp hnodup).imp_of_mem ?_
    intro message later hmem hlater hne number hnumber
    refine ⟨fun hsame => hne ?_, by simp [Record.sent]⟩
    have heq := (Option.some.inj hnumber).trans (Option.some.inj hsame).symm
    exact messageNumber_inj (hlive (List.mem_map_of_mem hmem)) (hlive (List.mem_map_of_mem hlater)) heq
  · intro record hrecord later _ message hmessage
    obtain ⟨entry, -, rfl⟩ := List.mem_map.mp hrecord
    cases hmessage

theorem hasFailed_sentAgain (records : List Record) (queued : ℕ) (s : Association)
    (entries : List (UInt32 × Outstanding)) :
    hasFailed (records ++ entries.map (sentAgain queued s)) = hasFailed records := by
  refine hasFailed_append _ fun record hrecord => ?_
  obtain ⟨entry, -, rfl⟩ := List.mem_map.mp hrecord
  exact ⟨by simp [sentAgain], by simp [sentAgain]⟩

theorem hasFailed_expired (records : List Record) (now queued : ℕ) (s : Association) :
    hasFailed (records ++ s.expiredRecords now queued) = hasFailed records := by
  refine hasFailed_append _ fun record hrecord => ?_
  rcases List.mem_append.mp hrecord with hrecord | hrecord
  · obtain ⟨entry, -, rfl⟩ := List.mem_map.mp hrecord
    exact ⟨by simp, by simp⟩
  · obtain ⟨message, -, rfl⟩ := List.mem_map.mp hrecord
    exact ⟨by simp, by simp⟩

theorem ledgerKept_tick (now : ℕ) (h : LedgerKept ledger s) :
    LedgerKept { ledger with records := ledger.records ++ s.tickRecords now ledger.queued }
      (tick now s).2 := by
  have hopen (hstate : s.state = .established) : hasFailed ledger.records = false := by
    by_contra hfailed
    rw [Bool.not_eq_false] at hfailed
    rcases h.halted hfailed with hhalted | hhalted <;> rw [hstate] at hhalted <;> cases hhalted
  obtain ⟨hrecords, htick⟩ | ⟨tsn, hstate, hrecords, hfailed, hticked⟩ |
    ⟨hstate, hrecords, hstate', hpassed, hnodup, hmessages, hnumbers, hticked⟩ :=
      tick_cases now ledger.queued s
  · rw [hrecords, htick, List.append_nil]
    exact h
  · have hsilent : ∀ record ∈ ([] : List Record),
        record.Silent ∨ Reports now ledger.queued s [] record := by simp
    have horderly := orderly_ticked h (h.attempts (hopen hstate)) hticked hsilent .nil
    have hlast : ∀ record ∈ [Record.failed tsn], record.Silent := by
      intro record hrecord
      rw [List.mem_singleton.mp hrecord]
      exact ⟨rfl, rfl⟩
    rw [hrecords, ← List.append_assoc]
    refine ⟨numbered_ticked h.numbered hticked, sameOrigin_ticked h.origin hticked, ?_,
      fun _ => .inl hfailed, ?_, horderly.append_silent hlast⟩
    · intro hopen'
      rw [hasFailed, List.foldl_append] at hopen'
      cases hopen'
    · intro tsn' chunk hchunk
      exact (going_ticked h hticked hsilent hchunk).append_silent hlast
  · have hexpired := expired_ticked now ledger.queued s hnumbers
    have hagain : s.againRecords now ledger.queued =
        (resentEntries now s.outstanding.toList).map (sentAgain ledger.queued s) := by
      rw [againRecords, hpassed]
      rfl
    have hstill : hasFailed (ledger.records ++ (s.expiredRecords now ledger.queued ++
        (resentEntries now s.outstanding.toList).map (sentAgain ledger.queued s))) = false := by
      rw [← List.append_assoc, hasFailed_sentAgain, hasFailed_expired, hopen hstate]
    rw [hrecords, hagain]
    refine ⟨numbered_ticked h.numbered hticked, sameOrigin_ticked h.origin hticked, ?_, ?_,
      fun tsn chunk hchunk => going_ticked h hticked hexpired hchunk,
      orderly_ticked h (h.attempts (hopen hstate)) hticked hexpired
        (pairwise_expired h.numbered hnodup hmessages)⟩
    · intro _ tsn tsn' chunk chunk' hchunk hchunk' hid
      have hrefreshed {tsn : UInt32} {chunk : Outstanding} (hchunk : (tick now s).2.outstanding[tsn]? =
          some chunk) : ∃ old, s.outstanding[tsn]? = some old ∧
            chunk = Outstanding.refreshed now old := by
        obtain ⟨old, hold, -, rfl⟩ := (hticked.outstanding tsn chunk).mp hchunk
        refine ⟨old, hold, if_pos ?_⟩
        rw [ExtTreeMap.map_fst_toList_eq_keys, ExtTreeMap.mem_keys]
        exact Maps.mem_of_getElem? hold
      obtain ⟨old, hold, rfl⟩ := hrefreshed hchunk
      obtain ⟨old', hold', rfl⟩ := hrefreshed hchunk'
      rw [Outstanding.messageId_refreshed, Outstanding.messageId_refreshed] at hid
      exact Outstanding.attempts_refreshed_congr (h.origin tsn tsn' old old' hold hold' hid)
        (h.attempts (hopen hstate) tsn tsn' old old' hold hold' hid)
    · intro hclosed
      rw [hstill] at hclosed
      cases hclosed

/-! ## Runs -/

theorem WriteEffect.kept {cause : Cause} (h : WriteEffect s cause t) (hrecent : KeptRecent s)
    (hs : LedgerKept ledger s) : LedgerKept (ledger.next ⟨s, t, cause⟩) t := by
  cases h with
  | same h =>
    have hsame := hs.shrink [] h.nextTsn h.nextMessageId h.halted
      (fun tsn chunk hchunk => h.outstanding ▸ hchunk) (by simp)
    rw [Ledger.next]
    dsimp only
    rw [queuedRecords_same _ h, h.nextMessageId, UInt64.sub_self]
    exact hsame
  | queued h =>
    have hone : (t.nextMessageId - s.nextMessageId).toNat = 1 := by
      rw [h.nextMessageId, show s.nextMessageId + 1 - s.nextMessageId = 1 by grind]
      rfl
    rw [Ledger.next]
    dsimp only
    rw [hone]
    exact hs.queued hrecent h
  | restart init => exact ledgerKept_restart init hs
  | @refused value hheader =>
    have hnone : (s.acknowledgedTsns value).map Record.acknowledged = [] := by
      simp [acknowledgedTsns, sackNames, sackPasses, hheader]
    rw [Ledger.next]
    dsimp only
    rw [hnone, List.append_nil]
    exact hs
  | sack hheader =>
    refine hs.shrink _ rfl rfl id
      (fun tsn chunk hchunk => ((getElem?_sacked_iff hheader).mp hchunk).1) ?_
    intro record hrecord
    obtain ⟨tsn, -, rfl⟩ := List.mem_map.mp hrecord
    exact ⟨⟨rfl, rfl⟩, by simp, by simp⟩
  | tick now => exact ledgerKept_tick now hs

theorem ledgerKept_new {config : AssociationConfig} (h : new config = .ok s) : LedgerKept {} s := by
  have hnone (tsn : UInt32) (chunk : Outstanding) : s.outstanding[tsn]? ≠ some chunk := by
    unfold new at h
    rcases hvalid : config.validate with error | ⟨⟩
    · rw [hvalid] at h
      cases h
    rw [hvalid] at h
    cases h
    simp
  refine ⟨?_, ?_, ?_, ?_, ?_, ⟨by simp, .nil, by simp, by simp⟩⟩
  · exact fun tsn chunk hchunk => absurd hchunk (hnone tsn chunk)
  · exact fun tsn tsn' chunk chunk' hchunk => absurd hchunk (hnone tsn chunk)
  · exact fun _ tsn tsn' chunk chunk' hchunk => absurd hchunk (hnone tsn chunk)
  · exact fun hclosed => by cases hclosed
  · exact fun tsn chunk hchunk => absurd hchunk (hnone tsn chunk)

theorem kept_ledgerOf {config : AssociationConfig} {start : Association}
    (hnew : new config = .ok start) (inputs : List Input) :
    LedgerKept (ledgerOf inputs start) (runInputs inputs start) := by
  have hboth := @Chain.foldl_invariant start (runInputs inputs start) (writes inputs start) Ledger
    (fun ledger s => KeptRecent s ∧ LedgerKept ledger s) Ledger.next
    (chain_writes inputs (sound_new hnew))
    (fun ledger write _ heffect hs => ⟨heffect.keptRecent hs.1, heffect.kept hs.1 hs.2⟩) {}
    ⟨keptRecent_new hnew, ledgerKept_new hnew⟩
  exact hboth.2

/-- What the ledger of a run and the state it leads to say about messages. -/
structure MessagesKept (ledger : Ledger) (s : Association) : Prop where
  /-- A message is reported at most once. -/
  once : (ledger.records.filterMap Record.report).Nodup
  /-- A reported message was transmitted, and is not reliable. -/
  unreliable : ∀ message streamId streamSequence,
    .reported message streamId streamSequence ∈ ledger.records →
    (∃ tsn chunk, .transmitted message tsn chunk ∈ ledger.records) ∧
      ∀ tsn chunk, .transmitted message tsn chunk ∈ ledger.records → chunk.reliability ≠ .reliable ∧
        chunk.streamId = streamId ∧ chunk.streamSequence = streamSequence
  /-- A fragment that may be sent again `maximum` times is transmitted at most once more than that. -/
  limited : ∀ message tsn chunk maximum, .transmitted message tsn chunk ∈ ledger.records →
    chunk.reliability = .maxRetransmissions maximum →
    ledger.records.countP (Record.sends message tsn) ≤ maximum.toNat + 1
  /-- Nothing of a message is transmitted after it is reported. -/
  silent : ∀ front back message streamId streamSequence,
    ledger.records = front ++ .reported message streamId streamSequence :: back →
    ∀ record ∈ back, record.sent ≠ some message
  /-- The fragments of a message in flight have been sent together, unless a tick has given up. -/
  together : hasFailed ledger.records = false →
    ∀ (tsn tsn' : UInt32) (chunk chunk' : Outstanding), s.outstanding[tsn]? = some chunk →
      s.outstanding[tsn']? = some chunk' →
      s.messageNumber ledger.queued chunk.messageId = s.messageNumber ledger.queued chunk'.messageId →
      chunk.sentAt = chunk'.sentAt ∧ chunk.retransmissions = chunk'.retransmissions

theorem LedgerKept.messagesKept (h : LedgerKept ledger s) : MessagesKept ledger s := by
  refine ⟨?_, h.orderly.unreliable, h.orderly.limited, ?_, ?_⟩
  · rw [List.Nodup, List.pairwise_filterMap]
    refine h.orderly.silent.imp fun hsilences message hmessage message' hmessage' heq => ?_
    subst heq
    exact (hsilences _ hmessage).1 hmessage'
  · intro front back message streamId streamSequence hrecords record hrecord
    have hsilent := h.orderly.silent
    rw [hrecords] at hsilent
    have hback := (List.pairwise_cons.mp (List.pairwise_append.mp hsilent).2.1).1 record hrecord
    exact (hback message rfl).2
  · intro hopen tsn tsn' chunk chunk' hchunk hchunk' hnumber
    have hsame := h.attempts hopen tsn tsn' chunk chunk' hchunk hchunk'
      (h.numbered.inj hchunk hchunk' hnumber)
    exact Prod.mk.inj hsame

/-- In every run, whatever is received in between, messages are kept to what the ledger says of them;
and what a tick or a send adds to the ledger is what it returns. -/
theorem messages_kept {config : AssociationConfig} {start : Association}
    (hnew : new config = .ok start) (inputs : List Input) :
    MessagesKept (ledgerOf inputs start) (runInputs inputs start) ∧
    (∀ now, ∃ news forward,
      (ledgerOf (inputs ++ [.tick now]) start).records = (ledgerOf inputs start).records ++ news ∧
      (tick now (runInputs inputs start)).1.events = news.filterMap Record.event ∧
      (tick now (runInputs inputs start)).1.packets =
        news.filterMap Record.packet ++ Option.toList forward ∧
      ∀ packet, forward = some packet → ∃ tag value,
        (runInputs inputs start).packetWithChunk tag typeForwardTsn 0 value = .ok packet) ∧
    ∀ now streamId kind payload, ∃ news,
      (ledgerOf (inputs ++ [.send now streamId kind payload]) start).records =
        (ledgerOf inputs start).records ++ news ∧
      match (sendMessage now streamId kind payload).run (runInputs inputs start) with
      | (.ok packets, _) => packets = news.filterMap Record.packet
      | (.error _, _) => news = [] := by
  refine ⟨(kept_ledgerOf hnew inputs).messagesKept, ?_, ?_⟩
  · intro now
    obtain ⟨hevents, forward, hpackets, hforward⟩ :=
      tick_ledger now (ledgerOf inputs start).queued (runInputs inputs start)
    exact ⟨_, forward, by rw [ledgerOf_append]; rfl, hevents, hpackets, hforward⟩
  · intro now streamId kind payload
    have hsend := sendMessage_ledger now streamId kind payload (ledgerOf inputs start).queued
      (within_runInputs hnew inputs).sound
    refine ⟨_, by rw [ledgerOf_append]; rfl, ?_⟩
    dsimp only
    have hstep : (runInputs inputs start).step (.send now streamId kind payload) =
        ((sendMessage now streamId kind payload).run (runInputs inputs start)).2 := rfl
    rw [hstep]
    rcases hrun : (sendMessage now streamId kind payload).run (runInputs inputs start) with
      ⟨error | packets, t⟩
    · rw [hrun] at hsend
      exact hsend
    · rw [hrun] at hsend
      exact hsend

namespace Sample

/-- The configuration with TSNs that wrap around after the second one. -/
def wrapping : AssociationConfig := { config with initialTsn := 0xfffffffe }

/-- A DCEP OPEN for an ordered channel with up to `maximum` retransmissions. -/
def limitedOpenPayload (maximum : UInt32) : Bytes :=
  [dcepOpen, 1] ++ Bytes.ofU16 0 ++ Bytes.ofU32 maximum ++ Bytes.ofU16 1 ++ Bytes.ofU16 0 ++ [120]

/-- A message in two fragments under the TSNs 4294967295 and 0, then the ACK of a second channel, and
nine ticks without an answer. -/
def splitMessage : List Input :=
  establish true ++
    [.packet 2000000 (data 3 500 0 0 ppidDcep (limitedOpenPayload 1000)),
      .send 3000000 0 .binary (List.replicate 1173 0),
      .packet 4000000 (data 3 501 2 0 ppidDcep dcepOpenPayload)] ++
    (List.range 9).map fun i => .tick ((i + 1) * 1000000000)

end Sample

theorem messages_kept_sample :
    ∃ start, new Sample.wrapping = .ok start ∧
      MessagesKept (ledgerOf (Sample.splitMessage.take 10) start)
        (runInputs (Sample.splitMessage.take 10) start) :=
  ⟨_, rfl, (@messages_kept Sample.wrapping _ rfl (Sample.splitMessage.take 10)).1⟩

/-- The ninth tick sends the fragment under TSN 0 again, gives up at TSN 1 and leaves the other
fragment. -/
theorem split_message_not_together :
    ∃ start, new Sample.wrapping = .ok start ∧
      ¬∀ (tsn tsn' : UInt32) (chunk chunk' : Outstanding),
        (runInputs Sample.splitMessage start).outstanding[tsn]? = some chunk →
        (runInputs Sample.splitMessage start).outstanding[tsn']? = some chunk' →
        chunk.messageId = chunk'.messageId →
        chunk.sentAt = chunk'.sentAt ∧ chunk.retransmissions = chunk'.retransmissions := by
  obtain ⟨start, hnew⟩ : ∃ start, new Sample.wrapping = .ok start := ⟨_, rfl⟩
  refine ⟨start, hnew, fun h => ?_⟩
  have hfirst : ((runInputs Sample.splitMessage start).outstanding[(0 : UInt32)]?.map
      fun chunk => (chunk.messageId, chunk.retransmissions)) = some (1, 9) := by
    cases hnew
    decide +kernel
  have hlast : ((runInputs Sample.splitMessage start).outstanding[(0xffffffff : UInt32)]?.map
      fun chunk => (chunk.messageId, chunk.retransmissions)) = some (1, 8) := by
    cases hnew
    decide +kernel
  obtain ⟨first, hfirst, heq⟩ := Option.map_eq_some_iff.mp hfirst
  obtain ⟨last, hlast, heq'⟩ := Option.map_eq_some_iff.mp hlast
  simp only [Prod.mk.injEq] at heq heq'
  have hsame := (h 0 0xffffffff first last hfirst hlast (heq.1.trans heq'.1.symm)).2
  omega

end Association

end Fluvora.DataChannel
