import Fluvora.DataChannel.Acknowledgement
import Fluvora.DataChannel.RecentTsns

/-!
# What has happened to messages and TSNs

A `Ledger` is kept beside a run.  It numbers the messages in the order in which they are queued and
lists, oldest first, what was transmitted, acknowledged, abandoned and reported, for every write of
the run.  Of one tick it lists what is abandoned and reported before what is transmitted, so that a
transmission in the tick that abandons a message would come after the report.  `tick_ledger` and
`sendMessage_ledger` say that the entries are what the calls return.
-/

open Std (ExtTreeMap)

namespace Fluvora.DataChannel

open Fallible

namespace Association

variable {s t : Association} {now : ℕ}

/-! ## The ledger -/

/-- What happens on the send side; messages have the numbers under which the ledger knows them. -/
inductive Record
  | transmitted (message : ℕ) (tsn : UInt32) (chunk : Outstanding)
  | acknowledged (tsn : UInt32)
  | abandoned (tsn : UInt32) (chunk : Outstanding)
  | reported (message : ℕ) (streamId streamSequence : UInt16)
  | failed (tsn : UInt32)
  | restarted
deriving DecidableEq

/-- The messages queued so far, and everything that has happened. -/
structure Ledger where
  queued : ℕ := 0
  records : List Record := []

/-- The number of a message that is in flight: the ids count the messages since the last INIT. -/
def messageNumber (queued : ℕ) (s : Association) (id : UInt64) : ℕ :=
  queued - (s.nextMessageId - id).toNat

/-- The fragments that have been put under new TSNs. -/
def queuedRecords (queued : ℕ) (before after : Association) : List Record :=
  (List.range (after.nextTsn - before.nextTsn).toNat).filterMap fun i =>
    after.outstanding[before.nextTsn + UInt32.ofNat i]?.map
      (Record.transmitted queued (before.nextTsn + UInt32.ofNat i))

/-- The cumulative TSN of the SACK covers the TSN. -/
def sackPasses (value : Bytes) (tsn : UInt32) : Bool :=
  (sackHeader value).any fun header => sequenceLessOrEqual tsn header.1

/-- The SACK names the TSN, by its cumulative TSN or by a gap block. -/
def sackNames (value : Bytes) (tsn : UInt32) : Bool :=
  (sackHeader value).any fun header =>
    sequenceLessOrEqual tsn header.1 || gapCovers header.1 (appliedGaps value 0 header.2) tsn

/-- The TSNs that are acknowledged: the named ones in flight, and the abandoned ones that are passed. -/
def acknowledgedTsns (value : Bytes) (s : Association) : List UInt32 :=
  s.outstanding.keys.filter (sackNames value) ++ s.abandoned.keys.filter (sackPasses value)

/-- The entries through which the loop of a tick goes before it gives up. -/
def passedEntries (now : ℕ) (s : Association) : List (UInt32 × Outstanding) :=
  s.outstanding.toList.takeWhile fun entry => !Outstanding.exhausted entry.2 now

/-- The fragments that a tick sends again. -/
def againRecords (now queued : ℕ) (s : Association) : List Record :=
  (resentEntries now (s.passedEntries now)).map fun entry =>
    .transmitted (s.messageNumber queued entry.2.messageId) entry.1 entry.2

/-- The fragments and messages that a tick abandons. -/
def expiredRecords (now queued : ℕ) (s : Association) : List Record :=
  ((s.outstanding.toList.filter fun entry =>
    entry.2.messageId ∈ (s.expiredMessages now).map Prod.fst).map fun entry =>
      .abandoned entry.1 entry.2) ++
  (s.expiredMessages now).map fun message =>
    .reported (s.messageNumber queued message.1) message.2.1 message.2.2

/-- What a tick does, the abandoning first. -/
def tickRecords (now queued : ℕ) (s : Association) : List Record :=
  if s.state ≠ .established then []
  else
    match s.outstanding.toList.find? fun entry => Outstanding.exhausted entry.2 now with
    | some entry => s.againRecords now queued ++ [.failed entry.1]
    | none => s.expiredRecords now queued ++ s.againRecords now queued

/-- The ledger after one more write. -/
def Ledger.next (ledger : Ledger) (write : Write) : Ledger :=
  match write.cause with
  | .queue _ => {
      queued := ledger.queued + (write.after.nextMessageId - write.before.nextMessageId).toNat
      records := ledger.records ++ queuedRecords ledger.queued write.before write.after }
  | .restart => { ledger with records := ledger.records ++ [.restarted] }
  | .sack value => { ledger with
      records := ledger.records ++ (write.before.acknowledgedTsns value).map .acknowledged }
  | .tick now => { ledger with
      records := ledger.records ++ write.before.tickRecords now ledger.queued }

/-- The ledger of a run. -/
def ledgerOf (inputs : List Input) (s : Association) : Ledger := (writes inputs s).foldl Ledger.next {}

/-! ## Reading records -/

/-- The message of a transmission. -/
def Record.sent : Record → Option ℕ
  | .transmitted message _ _ => some message
  | _ => none

/-- The message that is reported as abandoned. -/
def Record.report : Record → Option ℕ
  | .reported message _ _ => some message
  | _ => none

/-- A transmission of the fragment of a message under a TSN. -/
def Record.sends (message : ℕ) (tsn : UInt32) : Record → Bool
  | .transmitted other otherTsn _ => other = message && otherTsn = tsn
  | _ => false

/-- The packet that goes out. -/
def Record.packet : Record → Option Bytes
  | .transmitted _ _ chunk => some chunk.packet
  | _ => none

/-- The event that is returned. -/
def Record.event : Record → Option AssociationEvent
  | .reported _ streamId streamSequence => some (.messageAbandoned streamId streamSequence)
  | .failed tsn => some (.deliveryFailed tsn)
  | _ => none

/-- The association has failed since the last INIT. -/
def hasFailed (records : List Record) : Bool :=
  records.foldl (fun failed record =>
    match record with
    | .failed _ => true
    | .restarted => false
    | _ => failed) false

/-! ## What each write adds -/

theorem queuedRecords_same (queued : ℕ) (h : SameSend s t) : queuedRecords queued s t = [] := by
  rw [queuedRecords, h.nextTsn, UInt32.sub_self]
  rfl

theorem Queued.toNat_nextTsn_sub {message : OutboundMessage} {packets : List Bytes}
    (h : Queued now message packets s t) : (t.nextTsn - s.nextTsn).toNat = packets.length := by
  have hroom := hasRoom_flight h.room
  unfold maxOutstanding at hroom
  rw [h.nextTsn, Serial.toNat_add_ofNat_sub _ (by omega)]

theorem filterMap_range_getElem? {α β : Type} (xs : List α) (f : ℕ → α → β) :
    (List.range xs.length).filterMap (fun i => xs[i]?.map (f i)) = xs.mapIdx f := by
  induction xs generalizing f with
  | nil => rfl
  | cons x xs ih =>
    rw [List.length_cons, List.range_succ_eq_map, List.filterMap_cons, List.mapIdx_cons]
    simp only [List.getElem?_cons_zero, Option.map_some, List.filterMap_map]
    congr 1
    exact ih fun i => f (i + 1)

/-- A message is transmitted in its packets, under consecutive TSNs. -/
theorem queuedRecords_queued (queued : ℕ) {message : OutboundMessage} {packets : List Bytes}
    (h : Queued now message packets s t) :
    queuedRecords queued s t = packets.mapIdx fun i packet =>
      .transmitted queued (s.nextTsn + UInt32.ofNat i)
        (freshChunk now message s.nextMessageId packet) := by
  have hroom := hasRoom_flight h.room
  unfold maxOutstanding at hroom
  rw [queuedRecords, h.toNat_nextTsn_sub, ← filterMap_range_getElem?]
  refine List.filterMap_congr fun i hi => ?_
  rw [List.mem_range] at hi
  rw [h.getElem?, Serial.toNat_add_ofNat_sub _ (by omega), if_pos hi, Option.map_map]
  rfl

/-- What a SACK names is no longer outstanding, and nothing else is dropped. -/
theorem getElem?_sacked_iff {value : Bytes} {cumulative tsn : UInt32} {gapCount : ℕ}
    {chunk : Outstanding} (hheader : sackHeader value = some (cumulative, gapCount)) :
    (sacked value cumulative gapCount s).outstanding[tsn]? = some chunk ↔
      s.outstanding[tsn]? = some chunk ∧ sackNames value tsn = false := by
  have hcovers (blocks : List (UInt16 × UInt16)) : gapCovers cumulative blocks tsn = false ↔
      ¬Covers blocks (tsn - cumulative).toNat := by
    simp [gapCovers, Covers]
  rw [sackNames, hheader, Option.any_some, Bool.or_eq_false_iff, hcovers]
  refine getElem?_ackBlocks.trans ?_
  rw [ackCumulative, Maps.getElem?_filter_eq_some, Bool.not_eq_true', and_assoc]

theorem hasFailed_append {records : List Record} (new : List Record)
    (h : ∀ record ∈ new, (∀ tsn, record ≠ .failed tsn) ∧ record ≠ .restarted) :
    hasFailed (records ++ new) = hasFailed records := by
  rw [hasFailed, List.foldl_append, ← hasFailed]
  generalize hasFailed records = failed
  induction new with
  | nil => rfl
  | cons record rest ih =>
    obtain ⟨⟨hfailed, hrestarted⟩, hrest⟩ := List.forall_mem_cons.mp h
    rw [List.foldl_cons]
    cases record with
    | failed tsn => exact absurd rfl (hfailed tsn)
    | restarted => exact absurd rfl hrestarted
    | transmitted => exact ih hrest
    | acknowledged => exact ih hrest
    | abandoned => exact ih hrest
    | reported => exact ih hrest

/-! ## One tick -/

/-- The entries of `entries` have been gone through, and the messages `ids` abandoned. -/
structure Ticked (now : ℕ) (s : Association) (entries : List (UInt32 × Outstanding))
    (ids : List UInt64) (t : Association) : Prop where
  sublist : entries.Sublist s.outstanding.toList
  nextTsn : t.nextTsn = s.nextTsn
  outboundCumulativeTsn : t.outboundCumulativeTsn = s.outboundCumulativeTsn
  nextMessageId : t.nextMessageId = s.nextMessageId
  outstanding : ∀ (tsn : UInt32) (chunk : Outstanding), t.outstanding[tsn]? = some chunk ↔
    ∃ old, s.outstanding[tsn]? = some old ∧ old.messageId ∉ ids ∧
      chunk = if tsn ∈ entries.map Prod.fst then Outstanding.refreshed now old else old
  abandoned : ∀ tsn : UInt32,
    t.abandoned[tsn]? = abandonedUnder ids s.outstanding[tsn]? s.abandoned[tsn]?

theorem passedEntries_of_split {before after : List (UInt32 × Outstanding)} {tsn : UInt32}
    {chunk : Outstanding} (hentries : s.outstanding.toList = before ++ (tsn, chunk) :: after)
    (hquiet : ∀ entry ∈ before, Outstanding.exhausted entry.2 now = false)
    (hexhausted : Outstanding.exhausted chunk now = true) :
    s.passedEntries now = before ∧
      (s.outstanding.toList.find? fun entry => Outstanding.exhausted entry.2 now) =
        some (tsn, chunk) := by
  rw [passedEntries, hentries]
  constructor
  · rw [List.takeWhile_append_of_pos fun entry hentry => by simp [hquiet entry hentry],
      List.takeWhile_cons_of_neg (by simp [hexhausted]), List.append_nil]
  · have hnone : (before.find? fun entry => Outstanding.exhausted entry.2 now) = none :=
      List.find?_eq_none.mpr fun entry hentry => by simp [hquiet entry hentry]
    rw [List.find?_append, hnone, Option.none_or]
    exact List.find?_cons_of_pos hexhausted

theorem passedEntries_of_quiet (hquiet : ∀ (tsn : UInt32) (chunk : Outstanding),
    s.outstanding[tsn]? = some chunk → Outstanding.exhausted chunk now = false) :
    s.passedEntries now = s.outstanding.toList ∧
      (s.outstanding.toList.find? fun entry => Outstanding.exhausted entry.2 now) = none := by
  have hentries : ∀ entry ∈ s.outstanding.toList, Outstanding.exhausted entry.2 now = false :=
    fun entry hentry => hquiet _ _ (ExtTreeMap.mem_toList_iff_getElem?_eq_some.mp hentry)
  constructor
  · rw [passedEntries, List.takeWhile_eq_self_iff]
    exact fun entry hentry => by simp [hentries entry hentry]
  · exact List.find?_eq_none.mpr fun entry hentry => by simp [hentries entry hentry]

/-- The three things a tick can do, with what it adds to the ledger. -/
theorem tick_cases (now queued : ℕ) (s : Association) :
    (s.tickRecords now queued = [] ∧ tick now s = ({}, s)) ∨
    (∃ tsn, s.state = .established ∧
      s.tickRecords now queued = s.againRecords now queued ++ [.failed tsn] ∧
      (tick now s).2.state = .failed ∧ Ticked now s (s.passedEntries now) [] (tick now s).2) ∨
    (s.state = .established ∧
      s.tickRecords now queued = s.expiredRecords now queued ++ s.againRecords now queued ∧
      (tick now s).2.state = .established ∧
      s.passedEntries now = s.outstanding.toList ∧
      ((s.expiredMessages now).map Prod.fst).Nodup ∧
      (∀ id, id ∈ (s.expiredMessages now).map Prod.fst ↔ Abandons now s id) ∧
      (∀ message ∈ s.expiredMessages now, ∃ (tsn : UInt32) (chunk : Outstanding),
        s.outstanding[tsn]? = some chunk ∧ Outstanding.shouldAbandon chunk now = true ∧
          message = (chunk.messageId, chunk.streamId, chunk.streamSequence)) ∧
      Ticked now s s.outstanding.toList ((s.expiredMessages now).map Prod.fst) (tick now s).2) := by
  have heffect := tick_effect now s
  rcases htick : tick now s with ⟨output, t⟩
  rw [htick] at heffect
  cases heffect with
  | idle hstate => exact .inl ⟨by rw [tickRecords, if_pos hstate], rfl⟩
  | @failed before after tsn chunk outstanding hstate hentries hexhausted hout hquiet =>
    obtain ⟨hpassed, hfind⟩ := passedEntries_of_split hentries hquiet hexhausted
    refine .inr (.inl ⟨tsn, hstate, ?_, rfl, ?_, rfl, rfl, rfl, ?_, ?_⟩)
    · rw [tickRecords, if_neg (not_not.mpr hstate), hfind]
    · rw [hpassed, hentries]
      exact List.sublist_append_left _ _
    · intro other chunk
      rw [hpassed, hout, refreshedUnder]
      split_ifs <;> simp [eq_comm]
    · intro other
      rcases s.outstanding[other]? with _ | chunk <;> simp [abandonedUnder]
  | @kept messages outstanding abandoned pendingForwardTsn forward hstate hquiet hnodup hmessages
      hnumbers hout haband _ hexpired =>
    obtain ⟨hpassed, hfind⟩ := passedEntries_of_quiet hquiet
    subst hexpired
    refine .inr (.inr ⟨hstate, ?_, hstate, hpassed, hnodup, hmessages, hnumbers,
      List.Sublist.refl _, rfl, rfl, rfl, ?_, haband⟩)
    · rw [tickRecords, if_neg (not_not.mpr hstate), hfind]
    · intro tsn chunk
      rw [hout]
      have hkey {old : Outstanding} (hold : s.outstanding[tsn]? = some old) :
          tsn ∈ s.outstanding.toList.map Prod.fst := by
        rw [ExtTreeMap.map_fst_toList_eq_keys, ExtTreeMap.mem_keys]
        exact Maps.mem_of_getElem? hold
      constructor
      · intro h
        obtain ⟨old, hold, rfl⟩ := Option.map_eq_some_iff.mp h
        obtain ⟨hold, hid⟩ := Option.filter_eq_some_iff.mp hold
        exact ⟨old, hold, by simpa using hid, by rw [if_pos (hkey hold)]⟩
      · rintro ⟨old, hold, hid, rfl⟩
        rw [if_pos (hkey hold), hold]
        simp [Option.filter, hid]

theorem filterMap_packet_again (now queued : ℕ) (s : Association) :
    (s.againRecords now queued).filterMap Record.packet =
      (resentEntries now (s.passedEntries now)).map fun entry => entry.2.packet := by
  rw [againRecords, List.filterMap_map]
  exact congrFun List.filterMap_eq_map _

theorem filterMap_event_again (now queued : ℕ) (s : Association) :
    (s.againRecords now queued).filterMap Record.event = [] := by
  rw [againRecords, List.filterMap_map]
  exact List.filterMap_eq_nil_iff.mpr fun _ _ => rfl

theorem filterMap_packet_expired (now queued : ℕ) (s : Association) :
    (s.expiredRecords now queued).filterMap Record.packet = [] := by
  rw [expiredRecords, List.filterMap_append, List.filterMap_map, List.filterMap_map,
    List.append_eq_nil_iff]
  exact ⟨List.filterMap_eq_nil_iff.mpr fun _ _ => rfl, List.filterMap_eq_nil_iff.mpr fun _ _ => rfl⟩

theorem filterMap_event_expired (now queued : ℕ) (s : Association) :
    (s.expiredRecords now queued).filterMap Record.event =
      (s.expiredMessages now).map fun message => .messageAbandoned message.2.1 message.2.2 := by
  rw [expiredRecords, List.filterMap_append, List.filterMap_map, List.filterMap_map]
  have hnone : (s.outstanding.toList.filter fun entry =>
      entry.2.messageId ∈ (s.expiredMessages now).map Prod.fst).filterMap
        (Record.event ∘ fun entry => .abandoned entry.1 entry.2) = [] :=
    List.filterMap_eq_nil_iff.mpr fun _ _ => rfl
  rw [hnone, List.nil_append]
  exact congrFun List.filterMap_eq_map _

/-- A tick returns what the ledger lists of it, and perhaps a FORWARD TSN. -/
theorem tick_ledger (now queued : ℕ) (s : Association) :
    (tick now s).1.events = (s.tickRecords now queued).filterMap Record.event ∧
      ∃ forward : Option Bytes,
        (tick now s).1.packets = (s.tickRecords now queued).filterMap Record.packet ++ forward.toList ∧
        ∀ packet, forward = some packet → ∃ tag value,
          s.packetWithChunk tag typeForwardTsn 0 value = .ok packet := by
  have heffect := tick_effect now s
  rcases htick : tick now s with ⟨output, t⟩
  rw [htick] at heffect
  cases heffect with
  | idle hstate =>
    rw [tickRecords, if_pos hstate]
    exact ⟨rfl, none, rfl, fun packet h => by cases h⟩
  | failed hstate hentries hexhausted _ hquiet =>
    obtain ⟨hpassed, hfind⟩ := passedEntries_of_split hentries hquiet hexhausted
    rw [tickRecords, if_neg (not_not.mpr hstate), hfind]
    refine ⟨?_, none, ?_, fun packet h => by cases h⟩
    · rw [List.filterMap_append, filterMap_event_again]
      rfl
    · rw [List.filterMap_append, filterMap_packet_again, hpassed]
      simp [Record.packet]
  | @kept _ _ _ _ forward hstate hquiet _ _ _ _ _ hforward hexpired =>
    obtain ⟨hpassed, hfind⟩ := passedEntries_of_quiet hquiet
    rw [tickRecords, if_neg (not_not.mpr hstate), hfind]
    refine ⟨?_, forward, ?_, ?_⟩
    · rw [List.filterMap_append, filterMap_event_again, filterMap_event_expired, List.append_nil,
        hexpired]
    · rw [List.filterMap_append, filterMap_packet_again, filterMap_packet_expired, List.nil_append,
        hpassed]
    · intro packet hpacket
      obtain ⟨_, _, hforwards⟩ := hforward packet hpacket
      obtain ⟨tag, -, hbuilt⟩ := hforwards.built
      exact ⟨tag, _, hbuilt⟩

/-- A send returns the packets that the ledger lists as transmitted, and is not listed when it fails. -/
theorem sendMessage_ledger (now : ℕ) (streamId : UInt16) (kind : MessageKind) (payload : Bytes)
    (queued : ℕ) (hs : Sound s) :
    match (sendMessage now streamId kind payload).run s with
    | (.ok packets, t) => packets = (queuedRecords queued s t).filterMap Record.packet
    | (.error _, t) => queuedRecords queued s t = [] := by
  have hqueues := sendMessage_queues now streamId kind payload hs
  rcases hrun : (sendMessage now streamId kind payload).run s with ⟨error | packets, t⟩
  · rw [hrun] at hqueues
    obtain ⟨hsame, -⟩ | ⟨message, packets, hok, -⟩ := hqueues
    · exact queuedRecords_same queued hsame
    · cases hok
  · rw [hrun] at hqueues
    obtain ⟨-, hrefused⟩ | ⟨message, queuedPackets, hok, hqueued⟩ := hqueues
    · exact absurd rfl (hrefused packets)
    · obtain rfl := Except.ok.inj hok
      show packets = _
      rw [queuedRecords_queued queued hqueued, List.mapIdx_eq_zipIdx_map, List.filterMap_map]
      have hpackets : (Record.packet ∘ fun entry : Bytes × ℕ => Record.transmitted queued
          (s.nextTsn + UInt32.ofNat entry.2) (freshChunk now message s.nextMessageId entry.1)) =
          some ∘ Prod.fst := rfl
      rw [hpackets, List.filterMap_eq_map, List.zipIdx_map_fst]

/-! ## Runs -/

theorem writes_append (first rest : List Input) (s : Association) :
    writes (first ++ rest) s = writes first s ++ writes rest (runInputs first s) := by
  induction first generalizing s with
  | nil => rfl
  | cons input first ih =>
    rw [List.cons_append, writes, writes, ih, List.append_assoc]
    rfl

theorem ledgerOf_append (first rest : List Input) (s : Association) :
    ledgerOf (first ++ rest) s = (writes rest (runInputs first s)).foldl Ledger.next (ledgerOf first s) := by
  rw [ledgerOf, writes_append, List.foldl_append]
  rfl

end Association

end Fluvora.DataChannel
