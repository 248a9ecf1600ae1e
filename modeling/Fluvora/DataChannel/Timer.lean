import Fluvora.Lib.Serial
import Fluvora.DataChannel.Sending

/-!
# What one tick does

`tick_cases` says everything `tick` does to an established association.  Either a reliable chunk has
been sent often enough and the association fails, after the chunks before it in TSN order have been
sent again; or every overdue chunk is sent again, the messages that have run out of retransmissions or
time are moved to the abandoned ones, and a FORWARD TSN may follow.  `forwardScan_spec` says which TSNs
it skips and which stream numbers it lists.
-/

open Std (ExtTreeMap)

namespace Fluvora.DataChannel

open Fallible

namespace Association

variable {s : Association} {now : ℕ}

/-! ## The retransmission loop -/

/-- The loop gives the association up at this chunk. -/
def Outstanding.exhausted (chunk : Outstanding) (now : ℕ) : Bool :=
  !Outstanding.shouldAbandon chunk now && Outstanding.overdue chunk now &&
    decide (chunk.reliability = .reliable ∧ maxRetransmissions ≤ chunk.retransmissions)

/-- The loop sends this chunk again. -/
def Outstanding.resent (chunk : Outstanding) (now : ℕ) : Bool :=
  !Outstanding.shouldAbandon chunk now && Outstanding.overdue chunk now &&
    !decide (chunk.reliability = .reliable ∧ maxRetransmissions ≤ chunk.retransmissions)

/-- A chunk that is sent again. -/
def Outstanding.retransmit (now : ℕ) (chunk : Outstanding) : Outstanding :=
  { chunk with sentAt := now, retransmissions := min (chunk.retransmissions + 1) 0xffffffff }

/-- A chunk after a loop that does not give up before it. -/
def Outstanding.refreshed (now : ℕ) (chunk : Outstanding) : Outstanding :=
  if Outstanding.resent chunk now then Outstanding.retransmit now chunk else chunk

/-- The entries of a list that are sent again. -/
def resentEntries (now : ℕ) (entries : List (UInt32 × Outstanding)) : List (UInt32 × Outstanding) :=
  entries.filter fun entry => Outstanding.resent entry.2 now

/-- The loop over entries at none of which it gives up. -/
def scanned (now : ℕ) (entries : List (UInt32 × Outstanding)) (scan : Scan) : Scan :=
  { scan with
    outstanding := (resentEntries now entries).foldl
      (fun outstanding entry => outstanding.insert entry.1 (Outstanding.retransmit now entry.2))
      scan.outstanding
    abandonedMessages := (entries.filter fun entry => Outstanding.shouldAbandon entry.2 now).foldl
      (fun messages entry => messages.insertIfNew entry.2.messageId
        (entry.2.streamId, entry.2.streamSequence))
      scan.abandonedMessages
    output := scan.output ++ {
      packets := (resentEntries now entries).map fun entry => entry.2.packet
      retransmittedPackets := (resentEntries now entries).length } }

theorem AssociationOutput.append_assoc (a b c : AssociationOutput) : a ++ b ++ c = a ++ (b ++ c) := by
  show AssociationOutput.mk _ _ _ = AssociationOutput.mk _ _ _
  congr 1
  · exact List.append_assoc ..
  · exact List.append_assoc ..
  · exact Nat.add_assoc ..

theorem AssociationOutput.append_packets (a : AssociationOutput) (packets : List Bytes) :
    a ++ { packets } = { a with packets := a.packets ++ packets } := by
  show AssociationOutput.mk _ _ _ = AssociationOutput.mk _ _ _
  simp

theorem scanOutstanding_append {entries : List (UInt32 × Outstanding)}
    (hquiet : ∀ entry ∈ entries, Outstanding.exhausted entry.2 now = false)
    (rest : List (UInt32 × Outstanding)) (scan : Scan) :
    scanOutstanding now (entries ++ rest) scan = scanOutstanding now rest (scanned now entries scan) := by
  induction entries generalizing scan with
  | nil =>
    simp only [List.nil_append, scanned, resentEntries, List.filter_nil, List.foldl_nil, List.map_nil,
      List.length_nil]
    rw [AssociationOutput.append_empty]
  | cons entry entries ih =>
    obtain ⟨tsn, chunk⟩ := entry
    have hfirst : Outstanding.exhausted chunk now = false := hquiet _ List.mem_cons_self
    have hrest := ih fun entry hentry => hquiet entry (List.mem_cons_of_mem _ hentry)
    rw [List.cons_append, scanOutstanding]
    rw [Outstanding.exhausted] at hfirst
    by_cases habandon : Outstanding.shouldAbandon chunk now = true
    · rw [if_pos habandon, hrest]
      simp [scanned, resentEntries, Outstanding.resent, habandon]
    by_cases hoverdue : Outstanding.overdue chunk now = true
    swap
    · rw [if_neg habandon, if_pos (by simpa using hoverdue), hrest]
      simp [scanned, resentEntries, Outstanding.resent, habandon, hoverdue]
    have hlimit : ¬(chunk.reliability = .reliable ∧ maxRetransmissions ≤ chunk.retransmissions) := by
      simpa [habandon, hoverdue] using hfirst
    have hresent : Outstanding.resent chunk now = true := by
      rw [Outstanding.resent, decide_eq_false hlimit]
      simp [habandon, hoverdue]
    rw [if_neg habandon, if_neg (by simpa using hoverdue), if_neg hlimit, hrest]
    have habandon' : Outstanding.shouldAbandon chunk now = false := by simpa using habandon
    simp only [scanned, resentEntries, List.filter_cons, hresent, habandon', if_true, Bool.false_eq_true,
      if_false, List.foldl_cons, List.map_cons, List.length_cons, AssociationOutput.append_assoc]
    congr 2
    show AssociationOutput.mk _ _ _ = AssociationOutput.mk _ _ _
    congr 1
    show scan.output.retransmittedPackets + (1 + (resentEntries now entries).length) =
      scan.output.retransmittedPackets + ((resentEntries now entries).length + 1)
    rw [Nat.add_comm 1]

theorem scanOutstanding_exhausted {tsn : UInt32} {chunk : Outstanding}
    (h : Outstanding.exhausted chunk now = true) (rest : List (UInt32 × Outstanding)) (scan : Scan) :
    scanOutstanding now ((tsn, chunk) :: rest) scan = { scan with
      failed := true
      output := scan.output ++ { events := [.deliveryFailed tsn] } } := by
  rw [Outstanding.exhausted, Bool.and_eq_true, Bool.and_eq_true, decide_eq_true_eq,
    Bool.not_eq_true'] at h
  obtain ⟨⟨habandon, hoverdue⟩, hlimit⟩ := h
  rw [scanOutstanding, if_neg (by simp [habandon]), if_neg (by simp [hoverdue]), if_pos hlimit]

/-- The entries before the first one at which the loop gives up. -/
theorem exists_exhausted_split (now : ℕ) (entries : List (UInt32 × Outstanding)) :
    (∀ entry ∈ entries, Outstanding.exhausted entry.2 now = false) ∨
      ∃ before tsn chunk after, entries = before ++ (tsn, chunk) :: after ∧
        (∀ entry ∈ before, Outstanding.exhausted entry.2 now = false) ∧
        Outstanding.exhausted chunk now = true := by
  induction entries with
  | nil => exact .inl (by simp)
  | cons entry entries ih =>
    by_cases hfirst : Outstanding.exhausted entry.2 now = true
    · exact .inr ⟨[], entry.1, entry.2, entries, rfl, by simp, hfirst⟩
    rw [Bool.not_eq_true] at hfirst
    rcases ih with hquiet | ⟨before, tsn, chunk, after, rfl, hquiet, hexhausted⟩
    · exact .inl (List.forall_mem_cons.mpr ⟨hfirst, hquiet⟩)
    · exact .inr ⟨entry :: before, tsn, chunk, after, rfl,
        List.forall_mem_cons.mpr ⟨hfirst, hquiet⟩, hexhausted⟩

/-! ## Abandoning -/

/-- Some chunk of the message has run out of retransmissions or time. -/
def Abandons (now : ℕ) (s : Association) (messageId : UInt64) : Prop :=
  ∃ (tsn : UInt32) (chunk : Outstanding), s.outstanding[tsn]? = some chunk ∧
    Outstanding.shouldAbandon chunk now = true ∧ chunk.messageId = messageId

/-- What is kept of an abandoned chunk. -/
def Outstanding.abandon (chunk : Outstanding) : Abandoned :=
  ⟨chunk.streamId, chunk.streamSequence, chunk.ordered⟩

/-- What is abandoned under a TSN once the messages `ids` are. -/
def abandonedUnder (ids : List UInt64) (chunk : Option Outstanding) (old : Option Abandoned) :
    Option Abandoned :=
  match chunk with
  | some chunk => if chunk.messageId ∈ ids then some (Outstanding.abandon chunk) else old
  | none => old

theorem abandonMessage_getElem? (messageId : UInt64) (s : Association) (tsn : UInt32) :
    (abandonMessage messageId s).abandoned[tsn]? =
      abandonedUnder [messageId] s.outstanding[tsn]? s.abandoned[tsn]? := by
  have hfold : (abandonMessage messageId s).abandoned =
      (s.outstanding.toList.filter fun entry => entry.2.messageId = messageId).foldl
        (fun abandoned entry => abandoned.insert entry.1 (Outstanding.abandon entry.2))
        s.abandoned := by
    rw [List.foldl_filter]
    simp only [decide_eq_true_eq]
    rfl
  have hnodup : ((s.outstanding.toList.filter fun entry => entry.2.messageId = messageId).map
      Prod.fst).Nodup := by
    refine (List.filter_sublist.map _).nodup ?_
    rw [ExtTreeMap.map_fst_toList_eq_keys]
    exact Maps.nodup_keys _
  ext entry
  rw [hfold, Maps.getElem?_foldl_insert (fun entry => Outstanding.abandon entry.2) hnodup]
  simp only [List.mem_filter, Prod.exists, ExtTreeMap.mem_toList_iff_getElem?_eq_some,
    decide_eq_true_eq, Prod.forall]
  unfold abandonedUnder
  rcases hchunk : s.outstanding[tsn]? with _ | chunk
  · constructor
    · rintro (⟨key, chunk, ⟨hkey, -⟩, rfl, -⟩ | ⟨hold, -⟩)
      · simp [hchunk] at hkey
      · exact hold
    · intro hold
      refine .inr ⟨hold, ?_⟩
      rintro key chunk ⟨hkey, -⟩ rfl
      simp [hchunk] at hkey
  · by_cases hmessage : chunk.messageId = messageId
    · simp only [List.mem_singleton, if_pos hmessage, Option.some.injEq]
      constructor
      · rintro (⟨key, other, ⟨hkey, -⟩, rfl, rfl⟩ | ⟨-, hnone⟩)
        · rw [hchunk] at hkey
          cases hkey
          rfl
        · exact absurd rfl (hnone tsn chunk ⟨hchunk, hmessage⟩)
      · rintro rfl
        exact .inl ⟨tsn, chunk, ⟨hchunk, hmessage⟩, rfl, rfl⟩
    · simp only [List.mem_singleton, if_neg hmessage]
      constructor
      · rintro (⟨key, other, ⟨hkey, hother⟩, rfl, -⟩ | ⟨hold, -⟩)
        · rw [hchunk] at hkey
          cases hkey
          exact absurd hother hmessage
        · exact hold
      · intro hold
        refine .inr ⟨hold, ?_⟩
        rintro key other ⟨hkey, hother⟩ rfl
        rw [hchunk] at hkey
        cases hkey
        exact hmessage hother

/-- What abandoning a list of messages leaves. -/
theorem abandonAll_getElem? (messages : List (UInt64 × UInt16 × UInt16)) (s : Association) :
    ∃ outstanding abandoned,
      messages.foldl (fun s entry => abandonMessage entry.1 s) s =
        { s with outstanding, abandoned } ∧
      (∀ tsn : UInt32, outstanding[tsn]? = s.outstanding[tsn]?.filter fun chunk =>
        chunk.messageId ∉ messages.map Prod.fst) ∧
      ∀ tsn : UInt32, abandoned[tsn]? =
        abandonedUnder (messages.map Prod.fst) s.outstanding[tsn]? s.abandoned[tsn]? := by
  induction messages generalizing s with
  | nil =>
    refine ⟨s.outstanding, s.abandoned, rfl, ?_, ?_⟩
    · intro tsn
      rcases s.outstanding[tsn]? with _ | chunk <;> simp [Option.filter]
    · intro tsn
      rcases s.outstanding[tsn]? with _ | chunk <;> simp [abandonedUnder]
  | cons message rest ih =>
    obtain ⟨outstanding, abandoned, hrun, hout, haband⟩ := ih (abandonMessage message.1 s)
    have hfirst (tsn : UInt32) : (abandonMessage message.1 s).outstanding[tsn]? =
        s.outstanding[tsn]?.filter fun chunk => chunk.messageId != message.1 := by
      simp only [abandonMessage, ExtTreeMap.getElem?_filter']
    refine ⟨outstanding, abandoned, hrun, ?_, ?_⟩
    · intro tsn
      rw [hout, hfirst]
      rcases s.outstanding[tsn]? with _ | chunk
      · rfl
      · by_cases hmessage : chunk.messageId = message.1 <;> simp [Option.filter, hmessage]
    · intro tsn
      rw [haband, hfirst, abandonMessage_getElem?]
      rcases s.outstanding[tsn]? with _ | chunk
      · rfl
      · by_cases hmessage : chunk.messageId = message.1 <;>
          simp [Option.filter, abandonedUnder, hmessage]

/-! ## The FORWARD TSN -/

/-- The value of a FORWARD TSN. -/
def forwardTsnValue (newCumulativeTsn : UInt32) (skippedStreams : List (UInt16 × UInt16)) : Bytes :=
  Bytes.ofU32 newCumulativeTsn ++
    skippedStreams.flatMap fun entry => Bytes.ofU16 entry.1 ++ Bytes.ofU16 entry.2

/-- Under the TSN an ordered message of the stream, of this number, has been abandoned. -/
def SkippedUnder (s : Association) (streamId streamSequence : UInt16) (tsn : UInt32) : Prop :=
  s.abandoned[tsn]? = some ⟨streamId, streamSequence, true⟩

/-- Some TSN at an offset from `first` up to `n` is the last one under which an ordered message of the
stream has been abandoned, and the message has this number. -/
def LastSkipped (s : Association) (first : UInt32) (n : ℕ) (streamId streamSequence : UInt16) : Prop :=
  ∃ i < n, s.SkippedUnder streamId streamSequence (first + .ofNat i) ∧
    ∀ j, i < j → j < n → ∀ other, ¬s.SkippedUnder streamId other (first + .ofNat j)

/-- What the scan has gone through: `n` TSNs from `first` on, none of them outstanding. -/
structure Scanned (s : Association) (first : UInt32) (n : ℕ) (saw : Bool)
    (skipped : ExtTreeMap UInt16 UInt16) : Prop where
  quiet : ∀ i < n, first + .ofNat i ∉ s.outstanding
  saw : saw = true ↔ ∃ i < n, first + .ofNat i ∈ s.abandoned
  skipped : ∀ streamId streamSequence : UInt16, skipped[streamId]? = some streamSequence ↔
    s.LastSkipped first n streamId streamSequence

theorem LastSkipped.succ_iff {first : UInt32} {n : ℕ} {streamId streamSequence : UInt16} :
    s.LastSkipped first (n + 1) streamId streamSequence ↔
      s.SkippedUnder streamId streamSequence (first + .ofNat n) ∨
      ((∀ other, ¬s.SkippedUnder streamId other (first + .ofNat n)) ∧
        s.LastSkipped first n streamId streamSequence) := by
  constructor
  · rintro ⟨i, hi, hunder, hlast⟩
    rcases Nat.lt_succ_iff_lt_or_eq.mp hi with hlt | rfl
    · exact .inr ⟨hlast n hlt (Nat.lt_succ_self n), i, hlt, hunder,
        fun j hij hj => hlast j hij (Nat.lt_succ_of_lt hj)⟩
    · exact .inl hunder
  · rintro (hunder | ⟨hnone, i, hi, hunder, hlast⟩)
    · exact ⟨n, Nat.lt_succ_self n, hunder, fun j hnj hj => absurd hj (by omega)⟩
    · refine ⟨i, Nat.lt_succ_of_lt hi, hunder, fun j hij hj => ?_⟩
      rcases Nat.lt_succ_iff_lt_or_eq.mp hj with hlt | rfl
      · exact hlast j hij hlt
      · exact hnone

/-- One more TSN that is not outstanding. -/
theorem Scanned.next {first : UInt32} {n : ℕ} {saw : Bool} {skipped : ExtTreeMap UInt16 UInt16}
    (h : Scanned s first n saw skipped) (hquiet : first + .ofNat n ∉ s.outstanding) :
    match s.abandoned[first + UInt32.ofNat n]? with
    | some abandoned => Scanned s first (n + 1) true
        (if abandoned.ordered then skipped.insert abandoned.streamId abandoned.streamSequence
        else skipped)
    | none => Scanned s first (n + 1) saw skipped := by
  have hquiet' : ∀ i < n + 1, first + UInt32.ofNat i ∉ s.outstanding := by
    intro i hi
    rcases Nat.lt_succ_iff_lt_or_eq.mp hi with hlt | rfl
    · exact h.quiet i hlt
    · exact hquiet
  rcases habandoned : s.abandoned[first + UInt32.ofNat n]? with _ | ⟨stream, sequence, ordered⟩
  · refine ⟨hquiet', ?_, ?_⟩
    · rw [h.saw]
      refine exists_congr fun i => ?_
      constructor
      · exact fun ⟨hi, hmem⟩ => ⟨Nat.lt_succ_of_lt hi, hmem⟩
      · rintro ⟨hi, hmem⟩
        rcases Nat.lt_succ_iff_lt_or_eq.mp hi with hlt | rfl
        · exact ⟨hlt, hmem⟩
        · exact absurd hmem (Maps.not_mem_iff.mpr habandoned)
    · intro streamId streamSequence
      rw [LastSkipped.succ_iff, h.skipped]
      simp [SkippedUnder, habandoned]
  · refine ⟨hquiet', ?_, ?_⟩
    · simp only [true_iff]
      exact ⟨n, Nat.lt_succ_self n, Maps.mem_of_getElem? habandoned⟩
    · intro streamId streamSequence
      rw [LastSkipped.succ_iff]
      simp only [SkippedUnder, habandoned, Option.some.injEq, Abandoned.mk.injEq]
      cases ordered
      · simp [h.skipped]
      · simp only [if_true, and_true]
        rw [ExtTreeMap.getElem?_insert]
        by_cases hstream : stream = streamId
        · subst hstream
          simp
        · simp [hstream, h.skipped]

/-- The scan stops at the next TSN or at the first outstanding one. -/
theorem forwardScan_spec {first : UInt32} {total : ℕ} (htotal : total = (s.nextTsn - first).toNat)
    (fuel n : ℕ) (hfuel : n + fuel = total) {saw : Bool} {skipped : ExtTreeMap UInt16 UInt16}
    (h : Scanned s first n saw skipped) :
    ∃ m ≤ total, ∃ saw' skipped',
      s.forwardScan fuel (first + .ofNat n) saw skipped = (first + .ofNat m, saw', skipped') ∧
        Scanned s first m saw' skipped' ∧ (m = total ∨ first + .ofNat m ∈ s.outstanding) := by
  have htotal_lt : total < 2 ^ 32 := htotal ▸ (s.nextTsn - first).toNat_lt
  induction fuel generalizing n saw skipped with
  | zero => exact ⟨n, by omega, saw, skipped, rfl, h, .inl (by omega)⟩
  | succ fuel ih =>
    have hne : first + UInt32.ofNat n ≠ s.nextTsn := by
      intro heq
      have hdistance := Serial.toNat_add_ofNat_sub first (n := n) (by omega)
      rw [heq] at hdistance
      omega
    rw [forwardScan, if_neg hne]
    by_cases hout : first + UInt32.ofNat n ∈ s.outstanding
    · rw [if_pos (ExtTreeMap.contains_iff_mem.mpr hout)]
      exact ⟨n, by omega, saw, skipped, rfl, h, .inr hout⟩
    rw [if_neg (by rwa [ExtTreeMap.contains_iff_mem])]
    have hnext := h.next hout
    have hshift : first + UInt32.ofNat n + 1 = first + UInt32.ofNat (n + 1) := by
      rw [UInt32.ofNat_add]
      grind
    rw [hshift]
    rcases hcase : s.abandoned[first + UInt32.ofNat n]? with _ | abandoned
    · rw [hcase] at hnext
      exact ih (n + 1) (by omega) hnext
    · rw [hcase] at hnext
      exact ih (n + 1) (by omega) hnext

theorem scanned_zero (s : Association) (first : UInt32) : Scanned s first 0 false ∅ := by
  refine ⟨by simp, by simp, ?_⟩
  intro streamId streamSequence
  simp [LastSkipped]

/-- A FORWARD TSN that is built names the TSN at which the scan stopped and the streams it skipped. -/
structure Forwards (s : Association) (packet : Bytes) (n : ℕ) (skipped : ExtTreeMap UInt16 UInt16) :
    Prop where
  scanned : Scanned s (s.outboundCumulativeTsn + 1) n true skipped
  le : n ≤ (s.nextTsn - (s.outboundCumulativeTsn + 1)).toNat
  stops : n = (s.nextTsn - (s.outboundCumulativeTsn + 1)).toNat ∨
    s.outboundCumulativeTsn + 1 + .ofNat n ∈ s.outstanding
  built : ∃ tag, s.peerVerificationTag = some tag ∧
    s.packetWithChunk tag typeForwardTsn 0
      (forwardTsnValue (s.outboundCumulativeTsn + .ofNat n) skipped.toList) = .ok packet

theorem buildForwardTsn_forwards {packet : Bytes} {t : Association}
    (h : (buildForwardTsn now).run s = (.ok (some packet), t)) :
    ∃ n skipped, Forwards s packet n skipped := by
  obtain ⟨n, hn, saw, skipped, hscan, hscanned, hstop⟩ := @forwardScan_spec s
    (s.outboundCumulativeTsn + 1) _ rfl _ 0 (Nat.zero_add _) _ _ (scanned_zero s _)
  have hstart : s.outboundCumulativeTsn + 1 + UInt32.ofNat 0 = s.outboundCumulativeTsn + 1 := by
    simp
  rw [hstart] at hscan
  simp only [buildForwardTsn, run_get_bind, hscan] at h
  refine ⟨n, skipped, ?_⟩
  rcases Bool.eq_false_or_eq_true saw with rfl | rfl
  swap
  · simp at h
  split_ifs at h
  · simp at h
  · cases h
  · simp only [run_ofExcept_bind, peerTag] at h
    rcases htag : s.peerVerificationTag with _ | tag
    · simp [htag] at h
    simp only [htag, Option.elim] at h
    have hlast : s.outboundCumulativeTsn + 1 + UInt32.ofNat n - 1 =
        s.outboundCumulativeTsn + UInt32.ofNat n := by
      grind
    rw [hlast] at h
    split at h
    next built hbuilt =>
      simp only [run_modify_bind, run_pure, Prod.mk.injEq, Except.ok.injEq, Option.some.injEq] at h
      obtain ⟨rfl, -⟩ := h
      exact ⟨hscanned, hn, hstop, tag, htag, hbuilt⟩
    next => simp at h

/-! ## The whole tick -/

/-- What is outstanding after the loop has gone through `entries`. -/
def refreshedUnder (now : ℕ) (s : Association) (entries : List (UInt32 × Outstanding)) (tsn : UInt32) :
    Option Outstanding :=
  if tsn ∈ entries.map Prod.fst then s.outstanding[tsn]?.map (Outstanding.refreshed now)
  else s.outstanding[tsn]?

/-- The messages that the loop of a tick abandons, in the order of their ids. -/
def expiredMessages (now : ℕ) (s : Association) : List (UInt64 × UInt16 × UInt16) :=
  (scanOutstanding now s.outstanding.toList
    { outstanding := s.outstanding }).abandonedMessages.toList

/-- Everything `tick` can do, and what it returns. -/
inductive TickEffect (now : ℕ) (s : Association) : AssociationOutput → Association → Prop
  | idle (hstate : s.state ≠ .established) : TickEffect now s {} s
  | failed {before after : List (UInt32 × Outstanding)} {tsn : UInt32} {chunk : Outstanding}
      {outstanding : ExtTreeMap UInt32 Outstanding} (hstate : s.state = .established)
      (hentries : s.outstanding.toList = before ++ (tsn, chunk) :: after)
      (hexhausted : Outstanding.exhausted chunk now = true)
      (hout : ∀ t : UInt32, outstanding[t]? = s.refreshedUnder now before t)
      (hquiet : ∀ entry ∈ before, Outstanding.exhausted entry.2 now = false) :
      TickEffect now s {
        packets := (resentEntries now before).map fun entry => entry.2.packet
        events := [.deliveryFailed tsn]
        retransmittedPackets := (resentEntries now before).length }
        { s with outstanding, state := .failed }
  | kept {messages : List (UInt64 × UInt16 × UInt16)} {outstanding : ExtTreeMap UInt32 Outstanding}
      {abandoned : ExtTreeMap UInt32 Abandoned} {pendingForwardTsn : Option PendingForwardTsn}
      {forward : Option Bytes} (hstate : s.state = .established)
      (hquiet : ∀ (tsn : UInt32) (chunk : Outstanding), s.outstanding[tsn]? = some chunk →
        Outstanding.exhausted chunk now = false)
      (hnodup : (messages.map Prod.fst).Nodup)
      (hmessages : ∀ id, id ∈ messages.map Prod.fst ↔ Abandons now s id)
      (hnumbers : ∀ message ∈ messages, ∃ (tsn : UInt32) (chunk : Outstanding),
        s.outstanding[tsn]? = some chunk ∧ Outstanding.shouldAbandon chunk now = true ∧
          message = (chunk.messageId, chunk.streamId, chunk.streamSequence))
      (hout : ∀ tsn : UInt32, outstanding[tsn]? =
        (s.outstanding[tsn]?.filter fun chunk => chunk.messageId ∉ messages.map Prod.fst).map
          (Outstanding.refreshed now))
      (haband : ∀ tsn : UInt32, abandoned[tsn]? =
        abandonedUnder (messages.map Prod.fst) s.outstanding[tsn]? s.abandoned[tsn]?)
      (hforward : ∀ packet, forward = some packet →
        ∃ n skipped, Forwards { s with outstanding, abandoned } packet n skipped)
      (hexpired : messages = s.expiredMessages now) :
      TickEffect now s {
        packets := (resentEntries now s.outstanding.toList).map (fun entry => entry.2.packet) ++
          forward.toList
        events := messages.map fun message => .messageAbandoned message.2.1 message.2.2
        retransmittedPackets := (resentEntries now s.outstanding.toList).length }
        { s with outstanding, abandoned, pendingForwardTsn }

theorem nodup_fst_toList (s : Association) : (s.outstanding.toList.map Prod.fst).Nodup := by
  rw [ExtTreeMap.map_fst_toList_eq_keys]
  exact Maps.nodup_keys _

/-- The outstanding chunks after the loop over a part of the entries. -/
theorem scanned_getElem? {entries : List (UInt32 × Outstanding)}
    (hsub : entries.Sublist s.outstanding.toList) (tsn : UInt32) :
    (scanned now entries { outstanding := s.outstanding }).outstanding[tsn]? =
      s.refreshedUnder now entries tsn := by
  have hlookup : ∀ entry ∈ entries, s.outstanding[entry.1]? = some entry.2 := by
    intro entry hentry
    exact ExtTreeMap.mem_toList_iff_getElem?_eq_some.mp (hsub.subset hentry)
  have hnodup : ((resentEntries now entries).map Prod.fst).Nodup :=
    ((List.filter_sublist.trans hsub).map _).nodup (nodup_fst_toList s)
  ext chunk
  simp only [scanned]
  rw [Maps.getElem?_foldl_insert (fun entry => Outstanding.retransmit now entry.2) hnodup,
    refreshedUnder]
  simp only [resentEntries, List.mem_filter]
  by_cases hmem : tsn ∈ entries.map Prod.fst
  · rw [if_pos hmem]
    obtain ⟨⟨key, old⟩, hentry, rfl⟩ := List.mem_map.mp hmem
    have hold : s.outstanding[key]? = some old := hlookup _ hentry
    have hunique : ∀ entry ∈ entries, entry.1 = key → entry.2 = old := by
      intro entry hother hkey
      have hother := hlookup entry hother
      rw [hkey, hold] at hother
      exact (Option.some.inj hother).symm
    simp only [hold, Option.map_some, Option.some.injEq, Outstanding.refreshed]
    by_cases hresent : Outstanding.resent old now = true
    · rw [if_pos hresent]
      constructor
      · rintro (⟨entry, ⟨hother, -⟩, hkey, rfl⟩ | ⟨-, hnone⟩)
        · rw [hunique entry hother hkey]
        · exact absurd rfl (hnone _ ⟨hentry, hresent⟩)
      · rintro rfl
        exact .inl ⟨_, ⟨hentry, hresent⟩, rfl, rfl⟩
    · rw [if_neg hresent]
      constructor
      · rintro (⟨entry, ⟨hother, hagain⟩, hkey, -⟩ | ⟨hsame, -⟩)
        · rw [hunique entry hother hkey] at hagain
          exact absurd hagain hresent
        · exact hsame
      · intro hsame
        refine .inr ⟨hsame, fun entry ⟨hother, hagain⟩ hkey => ?_⟩
        rw [hunique entry hother hkey] at hagain
        exact hresent hagain
  · rw [if_neg hmem]
    constructor
    · rintro (⟨entry, ⟨hentry, -⟩, rfl, -⟩ | ⟨hsame, -⟩)
      · exact absurd (List.mem_map_of_mem hentry) hmem
      · exact hsame
    · intro hsame
      refine .inr ⟨hsame, fun entry ⟨hentry, _⟩ hkey => hmem ?_⟩
      exact hkey ▸ List.mem_map_of_mem hentry

/-- The messages the loop over all entries abandons. -/
theorem scanned_messages (now : ℕ) (s : Association) :
    let messages := (scanned now s.outstanding.toList
      { outstanding := s.outstanding }).abandonedMessages.toList
    (messages.map Prod.fst).Nodup ∧ (∀ id, id ∈ messages.map Prod.fst ↔ Abandons now s id) ∧
      ∀ message ∈ messages, ∃ (tsn : UInt32) (chunk : Outstanding),
        s.outstanding[tsn]? = some chunk ∧ Outstanding.shouldAbandon chunk now = true ∧
          message = (chunk.messageId, chunk.streamId, chunk.streamSequence) := by
  have hfold : ∀ (entries : List (UInt32 × Outstanding)) (m : ExtTreeMap UInt64 (UInt16 × UInt16)),
      let result := entries.foldl (fun messages entry =>
        messages.insertIfNew entry.2.messageId (entry.2.streamId, entry.2.streamSequence)) m
      (∀ id, id ∈ result ↔ id ∈ m ∨ ∃ entry ∈ entries, entry.2.messageId = id) ∧
        ∀ (id : UInt64) (number : UInt16 × UInt16), result[id]? = some number →
          m[id]? = some number ∨ ∃ entry ∈ entries, entry.2.messageId = id ∧
            (entry.2.streamId, entry.2.streamSequence) = number := by
    intro entries
    induction entries with
    | nil => exact fun m => ⟨by simp, by simp⟩
    | cons entry entries ih =>
      intro m
      obtain ⟨hmem, hnumber⟩ := ih (m.insertIfNew entry.2.messageId
        (entry.2.streamId, entry.2.streamSequence))
      refine ⟨?_, ?_⟩
      · intro id
        rw [List.foldl_cons, hmem, ExtTreeMap.mem_insertIfNew, Std.compare_eq_iff_eq,
          List.exists_mem_cons_iff]
        tauto
      · intro id number hfind
        rcases hnumber id number hfind with hm | ⟨other, hother, hid, heq⟩
        · rw [ExtTreeMap.getElem?_insertIfNew] at hm
          split_ifs at hm with hnew
          · refine .inr ⟨entry, List.mem_cons_self, ?_, Option.some.inj hm⟩
            exact Std.compare_eq_iff_eq.mp hnew.1
          · exact .inl hm
        · exact .inr ⟨other, List.mem_cons_of_mem _ hother, hid, heq⟩
  intro messages
  obtain ⟨hmem, hnumber⟩ := hfold
    (s.outstanding.toList.filter fun entry => Outstanding.shouldAbandon entry.2 now) ∅
  refine ⟨?_, ?_, ?_⟩
  · rw [ExtTreeMap.map_fst_toList_eq_keys]
    exact Maps.nodup_keys _
  · intro id
    rw [ExtTreeMap.map_fst_toList_eq_keys, ExtTreeMap.mem_keys]
    refine (hmem id).trans ?_
    simp only [ExtTreeMap.not_mem_empty, false_or, List.mem_filter, Prod.exists, Abandons,
      ExtTreeMap.mem_toList_iff_getElem?_eq_some, and_assoc]
  · rintro ⟨id, number⟩ hmessage
    rw [ExtTreeMap.mem_toList_iff_getElem?_eq_some] at hmessage
    rcases hnumber id number hmessage with hempty | ⟨entry, hentry, rfl, rfl⟩
    · simp at hempty
    · obtain ⟨hentry, habandon⟩ := List.mem_filter.mp hentry
      exact ⟨entry.1, entry.2, ExtTreeMap.mem_toList_iff_getElem?_eq_some.mp hentry, habandon, rfl⟩

@[simp] theorem Outstanding.messageId_refreshed (now : ℕ) (chunk : Outstanding) :
    (Outstanding.refreshed now chunk).messageId = chunk.messageId := by
  unfold Outstanding.refreshed
  split_ifs <;> rfl

@[simp] theorem Outstanding.abandon_refreshed (now : ℕ) (chunk : Outstanding) :
    Outstanding.abandon (Outstanding.refreshed now chunk) = Outstanding.abandon chunk := by
  unfold Outstanding.refreshed
  split_ifs <;> rfl

/-- What the loop returns: the packets of the chunks sent again, and what follows. -/
theorem scanned_output (entries : List (UInt32 × Outstanding))
    (outstanding : ExtTreeMap UInt32 Outstanding) (packets : List Bytes)
    (events : List AssociationEvent) :
    (scanned now entries { outstanding }).output ++ { packets, events } = {
      packets := (resentEntries now entries).map (fun entry => entry.2.packet) ++ packets
      events
      retransmittedPackets := (resentEntries now entries).length } := by
  show AssociationOutput.mk _ _ _ = AssociationOutput.mk _ _ _
  congr 1
  exact Nat.zero_add _

theorem tick_effect (now : ℕ) (s : Association) : TickEffect now s (tick now s).1 (tick now s).2 := by
  unfold tick
  by_cases hstate : s.state ≠ .established
  · rw [if_pos hstate]
    exact .idle hstate
  rw [if_neg hstate]
  rw [not_not] at hstate
  rcases exists_exhausted_split now s.outstanding.toList with
    hquiet | ⟨before, tsn, chunk, after, hentries, hquiet, hexhausted⟩
  swap
  · have hscan := scanOutstanding_append hquiet ((tsn, chunk) :: after)
      { outstanding := s.outstanding }
    rw [← hentries, scanOutstanding_exhausted hexhausted] at hscan
    simp only [hscan, if_true, scanned_output, List.append_nil]
    refine .failed hstate hentries hexhausted (fun t => scanned_getElem? ?_ t) hquiet
    rw [hentries]
    exact List.sublist_append_left _ _
  have hscan := scanOutstanding_append hquiet [] { outstanding := s.outstanding }
  rw [List.append_nil, scanOutstanding] at hscan
  obtain ⟨hnodup, hmessages, hnumbers⟩ := scanned_messages now s
  have hfailed : (scanned now s.outstanding.toList { outstanding := s.outstanding }).failed = false :=
    rfl
  have hrefreshed (tsn : UInt32) :
      (scanned now s.outstanding.toList { outstanding := s.outstanding }).outstanding[tsn]? =
        s.outstanding[tsn]?.map (Outstanding.refreshed now) := by
    rw [scanned_getElem? (List.Sublist.refl _), refreshedUnder]
    split_ifs with hmem
    · rfl
    · rw [ExtTreeMap.map_fst_toList_eq_keys, ExtTreeMap.mem_keys] at hmem
      rw [Maps.not_mem_iff.mp hmem]
      rfl
  have hexpired : (scanned now s.outstanding.toList
      { outstanding := s.outstanding }).abandonedMessages.toList = s.expiredMessages now := by
    rw [expiredMessages, hscan]
  rw [hscan]
  generalize hmessages_eq : (scanned now s.outstanding.toList
    { outstanding := s.outstanding }).abandonedMessages.toList = messages at *
  obtain ⟨outstanding, abandoned, hrun, hout, haband⟩ := abandonAll_getElem? messages
    { s with outstanding := (scanned now s.outstanding.toList
      { outstanding := s.outstanding }).outstanding }
  have hout' (tsn : UInt32) : outstanding[tsn]? =
      (s.outstanding[tsn]?.filter fun chunk => chunk.messageId ∉ messages.map Prod.fst).map
        (Outstanding.refreshed now) := by
    rw [hout, hrefreshed]
    rcases s.outstanding[tsn]? with _ | chunk
    · rfl
    · simp only [Option.map_some, Option.filter_some, Outstanding.messageId_refreshed]
      split_ifs <;> rfl
  have haband' (tsn : UInt32) : abandoned[tsn]? =
      abandonedUnder (messages.map Prod.fst) s.outstanding[tsn]? s.abandoned[tsn]? := by
    rw [haband, hrefreshed]
    rcases s.outstanding[tsn]? with _ | chunk
    · rfl
    · simp [abandonedUnder]
  have hquiet' : ∀ (tsn : UInt32) (chunk : Outstanding), s.outstanding[tsn]? = some chunk →
      Outstanding.exhausted chunk now = false := by
    intro tsn chunk hchunk
    exact hquiet (tsn, chunk) (ExtTreeMap.mem_toList_iff_getElem?_eq_some.mpr hchunk)
  have hkept (forward : Option Bytes) (pendingForwardTsn : Option PendingForwardTsn)
      (hforward : ∀ packet, forward = some packet →
        ∃ n skipped, Forwards { s with outstanding, abandoned } packet n skipped) :
      TickEffect now s {
        packets := (resentEntries now s.outstanding.toList).map (fun entry => entry.2.packet) ++
          forward.toList
        events := messages.map fun message => .messageAbandoned message.2.1 message.2.2
        retransmittedPackets := (resentEntries now s.outstanding.toList).length }
        { s with outstanding, abandoned, pendingForwardTsn } :=
    .kept hstate hquiet' hnodup hmessages hnumbers hout' haband' hforward hexpired
  have hnone := hkept none s.pendingForwardTsn (by simp)
  rw [Option.toList_none, List.append_nil] at hnone
  simp only [hfailed, Bool.false_eq_true, if_false, hmessages_eq, hrun, scanned_output, List.append_nil]
  by_cases hsupported : s.peerForwardTsnSupported = true
  swap
  · rw [if_neg hsupported]
    exact hnone
  rw [if_pos hsupported]
  obtain ⟨result, pendingForwardTsn, hbuild⟩ := buildForwardTsn_run now { s with outstanding, abandoned }
  rw [hbuild]
  rcases result with error | _ | packet
  · have hsame := hkept none pendingForwardTsn (by simp)
    rw [Option.toList_none, List.append_nil] at hsame
    exact hsame
  · have hsame := hkept none pendingForwardTsn (by simp)
    rw [Option.toList_none, List.append_nil] at hsame
    exact hsame
  · dsimp only
    rw [AssociationOutput.append_packets]
    refine hkept (some packet) pendingForwardTsn ?_
    rintro _ ⟨⟩
    exact buildForwardTsn_forwards hbuild

end Association

end Fluvora.DataChannel
