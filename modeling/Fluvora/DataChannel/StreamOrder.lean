import Fluvora.DataChannel.ReceiveLog
import Fluvora.DataChannel.SendNumbering

/-!
# Stream sequence numbers over a run

`moments` takes a run apart into single writes: each processed DATA chunk, each other chunk, each
send and each tick.  `Period` is what such a sequence has done on one stream since its channel was
opened: the numbers of the ordered messages it has queued, read off the outstanding chunks, whether
the DCEP ACK was queued, and how many sends took a number that the full window refused.

The DCEP ACK has number 0 and the channel's own counter starts at 0 too, so the numbers are
consecutive exactly when, before each ordered user message, as many numbers have been lost as ACKs
have been queued: `numbered_iff`.
-/

open Std (ExtTreeMap)

namespace Fluvora.DataChannel

open Fallible

namespace Association

/-! ## A run, write by write -/

/-- One write of a run, with the arguments of `sendMessage` if it is a send. -/
structure Moment where
  before : Association
  after : Association
  send : Option (UInt16 × MessageKind × Bytes) := none

/-- The writes of `processAll`. -/
def processMoments (now : ℕ) : List DataChunk → Association → List Moment
  | [], _ => []
  | data :: rest, s =>
      { before := s, after := ((processDataMessage now data).run s).2 } ::
        match (processDataMessage now data).run s with
        | (.ok _, t) => processMoments now rest t
        | (.error _, _) => []

/-- The writes of `releasePending`. -/
def releaseMoments (now : ℕ) : ℕ → UInt32 → Association → List Moment
  | 0, _, _ => []
  | fuel + 1, next, s =>
      match s.pendingData[next]? with
      | none => []
      | some data =>
          match (processDataMessage now data).run (unbuffer next s) with
          | (.ok _, t) =>
              { before := s, after := advance next t } ::
                releaseMoments now fuel (next + 1) (advance next t)
          | (.error _, t) => [{ before := s, after := t }]

/-- The writes of `handleData`. -/
def dataMoments (s : Association) (now : ℕ) (flags : UInt8) (value : Bytes) : List Moment :=
  match DataChunk.parse flags value, s.cumulativePeerTsn with
  | .ok data, some cumulative =>
      if s.dataVerdict flags value = .writes then
        { before := s, after := (s.released cumulative data).2 } ::
          processMoments now (s.released cumulative data).1 (s.released cumulative data).2
      else []
  | _, _ => []

/-- The writes of `handleForwardTsn`. -/
def forwardTsnMoments (s : Association) (now : ℕ) (value : Bytes) : List Moment :=
  match readU32 value 0 with
  | .ok newCumulativeTsn =>
      if s.forwardTsnVerdict value = .writes then
        { before := s, after := s.forwarded value newCumulativeTsn } ::
          releaseMoments now (s.forwarded value newCumulativeTsn).pendingData.size
            (newCumulativeTsn + 1) (s.forwarded value newCumulativeTsn)
      else []
  | .error _ => []

/-- The writes of one chunk; a chunk that processes no DATA counts as one. -/
def chunkMoments (s : Association) (now : ℕ) (tag : UInt32) (chunk : ParsedChunk) : List Moment :=
  if chunk.kind = typeData ∧ tag = s.config.verificationTag then
    s.dataMoments now chunk.flags chunk.value
  else if chunk.kind = typeForwardTsn ∧ tag = s.config.verificationTag then
    s.forwardTsnMoments now chunk.value
  else [{ before := s, after := ((handleChunk now tag chunk).run s).2 }]

/-- The writes of the chunks of a packet, up to the first refused one. -/
def chunksMoments (now : ℕ) (tag : UInt32) : List ParsedChunk → Association → List Moment
  | [], _ => []
  | chunk :: rest, s =>
      s.chunkMoments now tag chunk ++
        match (handleChunk now tag chunk).run s with
        | (.ok _, t) => chunksMoments now tag rest t
        | (.error _, _) => []

/-- The writes of a call. -/
def Input.moments (input : Input) (s : Association) : List Moment :=
  match input with
  | .packet now bytes =>
      match ParsedPacket.parse bytes with
      | .ok parsed =>
          if parsed.sourcePort = s.config.remotePort ∧ parsed.destinationPort = s.config.localPort then
            chunksMoments now parsed.verificationTag parsed.chunks s
          else []
      | .error _ => []
  | .send _ streamId kind payload =>
      [{ before := s, after := s.step input, send := some (streamId, kind, payload) }]
  | .tick _ => [{ before := s, after := s.step input }]

/-- The writes of a run. -/
def moments : List Input → Association → List Moment
  | [], _ => []
  | input :: rest, s => input.moments s ++ moments rest (s.step input)

/-! ## What a run has done on one stream -/

/-- One stream since its channel was opened. -/
structure Period where
  /-- The numbers of the ordered messages queued. -/
  emitted : List UInt16 := []
  /-- The DCEP ACK was queued. -/
  acked : Bool := false
  /-- Sends that took a number and found the window full. -/
  refused : ℕ := 0
deriving DecidableEq

/-- The first chunk of the message that a write queues. -/
def Moment.queued (moment : Moment) : Option Outstanding :=
  if moment.after.nextTsn = moment.before.nextTsn then none
  else moment.after.outstanding[moment.before.nextTsn]?

/-- The number of the ordered message that a write queues on a stream. -/
def Moment.emits (moment : Moment) (streamId : UInt16) : List UInt16 :=
  match moment.queued with
  | some message =>
      if message.streamId = streamId ∧ message.ordered = true then [message.streamSequence] else []
  | none => []

/-- The write opens the channel of a stream. -/
def Moment.opens (moment : Moment) (streamId : UInt16) : Bool :=
  !moment.before.channels.contains streamId && moment.after.channels.contains streamId

/-- The write is a send on the stream that has taken a number and finds the window full. -/
def Moment.refuses (moment : Moment) (streamId : UInt16) : Bool :=
  match moment.send with
  | some (target, kind, payload) =>
      target == streamId && moment.before.numbers target kind payload &&
        !moment.before.hasRoom (fragmentCount kind payload)
  | none => false

/-- A stream after one more write. -/
def Period.next (streamId : UInt16) (period : Period) (moment : Moment) : Period :=
  let start : Period :=
    if moment.opens streamId then { acked := moment.before.hasRoom 1 } else period
  { start with
    emitted := start.emitted ++ moment.emits streamId
    refused := start.refused + if moment.refuses streamId then 1 else 0 }

/-- A stream after a sequence of writes. -/
def period (streamId : UInt16) (moments : List Moment) : Period :=
  moments.foldl (Period.next streamId) {}

/-- The numbers are 0, 1, 2, ... modulo 2^16. -/
def Period.Numbered (period : Period) : Prop :=
  period.emitted = (List.range period.emitted.length).map UInt16.ofNat

instance (period : Period) : Decidable period.Numbered :=
  inferInstanceAs (Decidable (_ = _))

/-- The write is a send that queues an ordered message on the stream. -/
def Moment.sends (moment : Moment) (streamId : UInt16) : Bool :=
  match moment.send with
  | some (target, kind, payload) =>
      target == streamId && moment.before.numbers target kind payload &&
        moment.before.hasRoom (fragmentCount kind payload) &&
        moment.before.channels[streamId]?.any fun channel => channel.ordered
  | none => false

/-- As many numbers are lost, modulo 2^16, as ACKs are queued. -/
def Period.balanced (period : Period) : Bool :=
  UInt16.ofNat period.refused == if period.acked then 1 else 0

/-- Every ordered user message of the sequence finds its stream balanced. -/
def balancedSends (streamId : UInt16) : List Moment → Period → Bool
  | [], _ => true
  | moment :: rest, period =>
      (!moment.sends streamId || period.balanced) &&
        balancedSends streamId rest (period.next streamId moment)

/-! ## What one write can do -/

/-- Everything a write can do to channels and to the messages queued. -/
inductive StreamStep (moment : Moment) : Prop
  | quiet (hsend : moment.send = none) (hkept : ChannelsKept moment.before moment.after)
      (hqueued : moment.queued = none)
  | opened {target : UInt16} {channel : Channel} (hsend : moment.send = none)
      (hnew : target ∉ moment.before.channels)
      (hopen : moment.after.channels = moment.before.channels.insert target channel)
      (hzero : channel.nextOutgoingSequence = 0)
      (hqueued : if moment.before.hasRoom 1 then ∃ entry, moment.queued = some entry ∧
        Outstanding.carries entry (dcepAckMessage target) else moment.queued = none)
  | unsent {target : UInt16} {kind : MessageKind} {payload : Bytes}
      (hsend : moment.send = some (target, kind, payload))
      (hnumbers : moment.before.numbers target kind payload = false)
      (hsame : moment.after = moment.before)
  | refused {target : UInt16} {kind : MessageKind} {payload : Bytes} {channel : Channel}
      (hsend : moment.send = some (target, kind, payload))
      (hnumbers : moment.before.numbers target kind payload = true)
      (hroom : moment.before.hasRoom (fragmentCount kind payload) = false)
      (hchannel : moment.before.channels[target]? = some channel)
      (hafter : moment.after = moment.before.countMessage target channel)
  | sent {target : UInt16} {kind : MessageKind} {payload : Bytes} {channel : Channel}
      {entry : Outstanding} (hsend : moment.send = some (target, kind, payload))
      (hnumbers : moment.before.numbers target kind payload = true)
      (hroom : moment.before.hasRoom (fragmentCount kind payload) = true)
      (hchannel : moment.before.channels[target]? = some channel)
      (hafter : moment.after.channels = (moment.before.countMessage target channel).channels)
      (hqueued : moment.queued = some entry)
      (hcarries : Outstanding.carries entry (userMessage target kind payload channel))

theorem opens_eq_false {moment : Moment} {streamId : UInt16}
    (h : streamId ∈ moment.after.channels → streamId ∈ moment.before.channels) :
    moment.opens streamId = false := by
  rw [Moment.opens, Bool.eq_false_iff, Ne, Bool.and_eq_true, Bool.not_eq_true']
  rintro ⟨hbefore, hafter⟩
  rw [ExtTreeMap.contains_iff_mem.mpr (h (ExtTreeMap.contains_iff_mem.mp hafter))] at hbefore
  cases hbefore

theorem mem_channels_countMessage {s : Association} {target streamId : UInt16} {channel : Channel}
    (h : s.channels[target]? = some channel) :
    streamId ∈ (s.countMessage target channel).channels → streamId ∈ s.channels := by
  rw [countMessage, ExtTreeMap.mem_insert, Std.compare_eq_iff_eq]
  rintro (rfl | hmem)
  · exact Maps.mem_of_getElem? h
  · exact hmem

theorem queued_of_nextTsn {moment : Moment} (h : moment.after.nextTsn = moment.before.nextTsn) :
    moment.queued = none := by
  simp [Moment.queued, h]

theorem emits_of_queued_eq_none {moment : Moment} (h : moment.queued = none) (streamId : UInt16) :
    moment.emits streamId = [] := by
  simp [Moment.emits, h]

theorem emits_of_carries {moment : Moment} {entry : Outstanding} {message : OutboundMessage}
    (h : moment.queued = some entry) (hcarries : Outstanding.carries entry message)
    (streamId : UInt16) :
    moment.emits streamId = if message.streamId = streamId ∧ message.ordered = true then
      [message.streamSequence] else [] := by
  obtain ⟨hstream, hsequence, hordered⟩ := hcarries
  simp [Moment.emits, h, hstream, hsequence, hordered]

/-- A write that opens, queues and refuses nothing on a stream leaves its period. -/
theorem Period.next_eq_self {streamId : UInt16} {moment : Moment} (period : Period)
    (hopens : moment.opens streamId = false) (hemits : moment.emits streamId = [])
    (hrefuses : moment.refuses streamId = false) : period.next streamId moment = period := by
  simp [Period.next, hopens, hemits, hrefuses]

/-- The channel's counter is ahead by the numbers lost and behind by the ACK. -/
def Period.Agrees (period : Period) (streamId : UInt16) (s : Association) : Prop :=
  ∀ channel, s.channels[streamId]? = some channel → channel.ordered = true →
    channel.nextOutgoingSequence + (if period.acked then 1 else 0) =
      UInt16.ofNat (period.refused + period.emitted.length)

theorem Period.numbered_append {period : Period} {number : UInt16} (h : period.Numbered) :
    { period with emitted := period.emitted ++ [number] }.Numbered ↔
      number = UInt16.ofNat period.emitted.length := by
  unfold Period.Numbered at h ⊢
  rw [List.length_append, List.length_singleton, List.range_succ, List.map_append, ← h]
  simp

/-- The counter gives the next number exactly when the period is balanced. -/
theorem Period.Agrees.number_iff {period : Period} {streamId : UInt16} {s : Association}
    {channel : Channel} (h : period.Agrees streamId s)
    (hchannel : s.channels[streamId]? = some channel) (hordered : channel.ordered = true) :
    channel.nextOutgoingSequence = UInt16.ofNat period.emitted.length ↔
      period.balanced = true := by
  have hagrees := h channel hchannel hordered
  rw [UInt16.ofNat_add] at hagrees
  rw [Period.balanced, beq_iff_eq]
  constructor
  · intro hnext
    rw [hnext] at hagrees
    grind
  · intro hbalanced
    rw [hbalanced] at hagrees
    grind

/-- A write that only drops channels leaves the period. -/
theorem Period.next_of_kept {moment : Moment} (period : Period) (streamId : UInt16)
    (hsend : moment.send = none) (hkept : ChannelsKept moment.before moment.after)
    (hqueued : moment.queued = none) : period.next streamId moment = period := by
  apply Period.next_eq_self
  · apply opens_eq_false
    intro hmem
    obtain ⟨channel, hchannel⟩ := Maps.mem_iff_exists.mp hmem
    exact Maps.mem_of_getElem? (hkept streamId channel hchannel)
  · exact emits_of_queued_eq_none hqueued streamId
  · simp [Moment.refuses, hsend]

/-- A send that is refused before it takes a number leaves the period. -/
theorem Period.next_of_unsent {moment : Moment} {target : UInt16} {kind : MessageKind}
    {payload : Bytes} (period : Period) (streamId : UInt16)
    (hsend : moment.send = some (target, kind, payload))
    (hnumbers : moment.before.numbers target kind payload = false)
    (hsame : moment.after = moment.before) : period.next streamId moment = period := by
  apply Period.next_eq_self
  · apply opens_eq_false
    rw [hsame]
    exact id
  · exact emits_of_queued_eq_none (queued_of_nextTsn (by rw [hsame])) streamId
  · simp [Moment.refuses, hsend, hnumbers]

/-- The period of a stream whose channel a write opens. -/
theorem Period.next_of_opened {target : UInt16} {channel : Channel} {moment : Moment}
    (period : Period) (hsend : moment.send = none) (hnew : target ∉ moment.before.channels)
    (hopen : moment.after.channels = moment.before.channels.insert target channel)
    (hqueued : if moment.before.hasRoom 1 then ∃ entry, moment.queued = some entry ∧
      Outstanding.carries entry (dcepAckMessage target) else moment.queued = none) :
    period.next target moment =
      { emitted := if moment.before.hasRoom 1 then [0] else [], acked := moment.before.hasRoom 1 } := by
  have hopens : moment.opens target = true := by
    have hbefore : moment.before.channels.contains target = false := by
      rwa [Bool.eq_false_iff, Ne, ExtTreeMap.contains_iff_mem]
    simp [Moment.opens, hbefore, hopen]
  have hrefuses : moment.refuses target = false := by simp [Moment.refuses, hsend]
  by_cases hroom : moment.before.hasRoom 1 = true
  · rw [if_pos hroom] at hqueued
    obtain ⟨entry, hentry, hcarries⟩ := hqueued
    have hemits := emits_of_carries hentry hcarries target
    simp [Period.next, hopens, hrefuses, hemits, hroom, dcepAckMessage]
  · rw [if_neg hroom] at hqueued
    simp [Period.next, hopens, hrefuses, emits_of_queued_eq_none hqueued, hroom]

/-- On the other streams an open writes nothing. -/
theorem Period.next_of_opened_other {target streamId : UInt16} {channel : Channel} {moment : Moment}
    (period : Period) (hne : target ≠ streamId) (hsend : moment.send = none)
    (hopen : moment.after.channels = moment.before.channels.insert target channel)
    (hqueued : if moment.before.hasRoom 1 then ∃ entry, moment.queued = some entry ∧
      Outstanding.carries entry (dcepAckMessage target) else moment.queued = none) :
    period.next streamId moment = period := by
  apply Period.next_eq_self
  · apply opens_eq_false
    rw [hopen, ExtTreeMap.mem_insert, Std.compare_eq_iff_eq]
    exact fun h => h.resolve_left hne
  · split_ifs at hqueued
    · obtain ⟨entry, hentry, hcarries⟩ := hqueued
      rw [emits_of_carries hentry hcarries, if_neg fun h => hne h.1]
    · exact emits_of_queued_eq_none hqueued streamId
  · simp [Moment.refuses, hsend]

/-- A send opens no channel. -/
theorem opens_of_countMessage {moment : Moment} {target : UInt16} {channel : Channel}
    (hchannel : moment.before.channels[target]? = some channel)
    (hafter : moment.after.channels = (moment.before.countMessage target channel).channels)
    (streamId : UInt16) : moment.opens streamId = false := by
  apply opens_eq_false
  rw [hafter]
  exact mem_channels_countMessage hchannel

theorem Period.next_of_refused {target : UInt16} {kind : MessageKind} {payload : Bytes}
    {channel : Channel} {moment : Moment} (period : Period) (streamId : UInt16)
    (hsend : moment.send = some (target, kind, payload))
    (hnumbers : moment.before.numbers target kind payload = true)
    (hroom : moment.before.hasRoom (fragmentCount kind payload) = false)
    (hchannel : moment.before.channels[target]? = some channel)
    (hafter : moment.after = moment.before.countMessage target channel) :
    period.next streamId moment =
      { period with refused := period.refused + if target = streamId then 1 else 0 } := by
  have hopens := opens_of_countMessage hchannel (congrArg Association.channels hafter) streamId
  have hqueued : moment.queued = none := queued_of_nextTsn (by rw [hafter]; rfl)
  have hemits := emits_of_queued_eq_none hqueued streamId
  by_cases htarget : target = streamId
  · subst htarget
    simp [Period.next, hopens, hemits, Moment.refuses, hsend, hnumbers, hroom]
  · simp [Period.next, hopens, hemits, Moment.refuses, hsend, htarget]

theorem Period.next_of_sent {target : UInt16} {kind : MessageKind} {payload : Bytes}
    {channel : Channel} {entry : Outstanding} {moment : Moment} (period : Period)
    (streamId : UInt16) (hsend : moment.send = some (target, kind, payload))
    (hroom : moment.before.hasRoom (fragmentCount kind payload) = true)
    (hchannel : moment.before.channels[target]? = some channel)
    (hafter : moment.after.channels = (moment.before.countMessage target channel).channels)
    (hqueued : moment.queued = some entry)
    (hcarries : Outstanding.carries entry (userMessage target kind payload channel)) :
    period.next streamId moment = { period with
      emitted := period.emitted ++ if target = streamId ∧ channel.ordered = true then
        [channel.nextOutgoingSequence] else [] } := by
  have hopens := opens_of_countMessage hchannel hafter streamId
  have hemits : moment.emits streamId = if target = streamId ∧ channel.ordered = true then
      [channel.nextOutgoingSequence] else [] := emits_of_carries hqueued hcarries streamId
  have hrefuses : moment.refuses streamId = false := by simp [Moment.refuses, hsend, hroom]
  simp [Period.next, hopens, hemits, hrefuses]

theorem Period.agrees_of_kept {period : Period} {streamId : UInt16} {s t : Association}
    (h : period.Agrees streamId s) (hkept : ChannelsKept s t) : period.Agrees streamId t :=
  fun channel hchannel => h channel (hkept streamId channel hchannel)

/-- One write keeps the counter in step. -/
theorem StreamStep.agrees {moment : Moment} (h : StreamStep moment) {period : Period}
    {streamId : UInt16} (hagrees : period.Agrees streamId moment.before) :
    (period.next streamId moment).Agrees streamId moment.after := by
  cases h with
  | quiet hsend hkept hqueued =>
    rw [Period.next_of_kept period streamId hsend hkept hqueued]
    exact Period.agrees_of_kept hagrees hkept
  | @opened target channel hsend hnew hopen hzero hqueued =>
    by_cases htarget : target = streamId
    · subst htarget
      rw [Period.next_of_opened period hsend hnew hopen hqueued]
      intro found hfound _
      rw [hopen, ExtTreeMap.getElem?_insert_self, Option.some.injEq] at hfound
      subst hfound
      rw [hzero]
      by_cases hroom : moment.before.hasRoom 1 = true
      · simp [hroom]
      · simp [hroom]
    · rw [Period.next_of_opened_other period htarget hsend hopen hqueued]
      intro found hfound
      rw [hopen, Maps.getElem?_insert_of_ne htarget] at hfound
      exact hagrees found hfound
  | @unsent target kind payload hsend hnumbers hsame =>
    rw [Period.next_of_unsent period streamId hsend hnumbers hsame, hsame]
    exact hagrees
  | @refused target kind payload channel hsend hnumbers hroom hchannel hafter =>
    rw [Period.next_of_refused period streamId hsend hnumbers hroom hchannel hafter, hafter]
    intro found hfound hordered
    by_cases htarget : target = streamId
    · subst htarget
      rw [countMessage, ExtTreeMap.getElem?_insert_self, Option.some.injEq] at hfound
      subst hfound
      have hnext := hagrees channel hchannel hordered
      simp only [UInt16.ofNat_add] at hnext ⊢
      simp only [if_true]
      grind
    · rw [countMessage, Maps.getElem?_insert_of_ne htarget] at hfound
      simpa [htarget] using hagrees found hfound hordered
  | @sent target kind payload channel entry hsend hnumbers hroom hchannel hafter hqueued hcarries =>
    rw [Period.next_of_sent period streamId hsend hroom hchannel hafter hqueued hcarries]
    intro found hfound hordered
    rw [hafter] at hfound
    by_cases htarget : target = streamId
    · subst htarget
      rw [countMessage, ExtTreeMap.getElem?_insert_self, Option.some.injEq] at hfound
      subst hfound
      have hordered' : channel.ordered = true := hordered
      have hnext := hagrees channel hchannel hordered
      simp only [hordered', and_self, if_true, List.length_append, List.length_singleton,
        UInt16.ofNat_add] at hnext ⊢
      grind
    · rw [countMessage, Maps.getElem?_insert_of_ne htarget] at hfound
      simpa [htarget] using hagrees found hfound hordered

/-- Only an ordered user message can break the numbering, and it does so unless the period is
balanced. -/
theorem StreamStep.numbered_next_iff {moment : Moment} (h : StreamStep moment) {period : Period}
    {streamId : UInt16} (hagrees : period.Agrees streamId moment.before)
    (hnumbered : period.Numbered) :
    (period.next streamId moment).Numbered ↔
      (!moment.sends streamId || period.balanced) = true := by
  cases h with
  | quiet hsend hkept hqueued =>
    rw [Period.next_of_kept period streamId hsend hkept hqueued]
    simp [hnumbered, Moment.sends, hsend]
  | @opened target channel hsend hnew hopen hzero hqueued =>
    have hafter : (period.next streamId moment).Numbered := by
      by_cases htarget : target = streamId
      · subst htarget
        rw [Period.next_of_opened period hsend hnew hopen hqueued]
        cases moment.before.hasRoom 1 <;> decide
      · rw [Period.next_of_opened_other period htarget hsend hopen hqueued]
        exact hnumbered
    simp [hafter, Moment.sends, hsend]
  | @unsent target kind payload hsend hnumbers hsame =>
    rw [Period.next_of_unsent period streamId hsend hnumbers hsame]
    simp [hnumbered, Moment.sends, hsend, hnumbers]
  | @refused target kind payload channel hsend hnumbers hroom hchannel hafter =>
    rw [Period.next_of_refused period streamId hsend hnumbers hroom hchannel hafter]
    simp only [Moment.sends, hsend, hroom, Bool.and_false, Bool.false_and, Bool.not_false,
      Bool.true_or, iff_true]
    exact hnumbered
  | @sent target kind payload channel entry hsend hnumbers hroom hchannel hafter hqueued hcarries =>
    rw [Period.next_of_sent period streamId hsend hroom hchannel hafter hqueued hcarries]
    by_cases hmine : target = streamId ∧ channel.ordered = true
    · obtain ⟨rfl, hordered⟩ := hmine
      have hsends : moment.sends target = true := by
        simp [Moment.sends, hsend, hnumbers, hroom, hchannel, hordered]
      simp only [hordered, and_self, if_true, hsends, Bool.not_true, Bool.false_or]
      rw [Period.numbered_append hnumbered]
      exact hagrees.number_iff hchannel hordered
    · have hsends : moment.sends streamId = false := by
        by_cases htarget : target = streamId
        · subst htarget
          have hunordered : channel.ordered = false := by simpa using hmine
          simp [Moment.sends, hsend, hchannel, hunordered]
        · simp [Moment.sends, hsend, htarget]
      simp only [if_neg hmine, List.append_nil, hsends, Bool.not_false, Bool.true_or, iff_true]
      exact hnumbered

/-! ## Whole runs -/

/-- A sequence of writes leads from one state to another. -/
inductive Leads : Association → List Moment → Association → Prop
  | nil (s : Association) : Leads s [] s
  | cons {s t : Association} {moment : Moment} {rest : List Moment} (hbefore : moment.before = s)
      (hstep : StreamStep moment) (hrest : Leads moment.after rest t) : Leads s (moment :: rest) t

theorem Leads.append {s t u : Association} {first rest : List Moment} (h : Leads s first t)
    (h' : Leads t rest u) : Leads s (first ++ rest) u := by
  induction h with
  | nil => exact h'
  | cons hbefore hstep _ ih => exact .cons hbefore hstep (ih h')

/-- The numbers stay consecutive along a sequence exactly when its ordered sends are balanced. -/
theorem Leads.numbered_prefix_iff {s t : Association} {moments : List Moment} (h : Leads s moments t)
    {streamId : UInt16} {period : Period} (hagrees : period.Agrees streamId s)
    (hnumbered : period.Numbered) :
    (∀ prior, prior <+: moments → (prior.foldl (Period.next streamId) period).Numbered) ↔
      balancedSends streamId moments period = true := by
  induction h generalizing period with
  | nil s =>
    simp only [List.prefix_nil, forall_eq, List.foldl_nil, balancedSends, iff_true]
    exact hnumbered
  | @cons s t moment rest hbefore hstep hrest ih =>
    subst hbefore
    have hone := hstep.numbered_next_iff hagrees hnumbered
    rw [balancedSends, Bool.and_eq_true, ← hone]
    constructor
    · intro hall
      have hfirst : (period.next streamId moment).Numbered :=
        hall [moment] (List.prefix_append [moment] rest)
      refine ⟨hfirst, (ih (hstep.agrees hagrees) hfirst).mp ?_⟩
      intro prior hprior
      exact hall (moment :: prior) (List.cons_prefix_cons.mpr ⟨rfl, hprior⟩)
    · rintro ⟨hfirst, hbalanced⟩ prior hprior
      rcases List.prefix_cons_iff.mp hprior with rfl | ⟨tail, rfl, htail⟩
      · exact hnumbered
      · exact (ih (hstep.agrees hagrees) hfirst).mpr hbalanced tail htail

/-! ## The writes of a run lead to its state -/

/-- A write that leaves channels and TSNs alone. -/
theorem streamStep_of_frame {s t : Association} (hchannels : t.channels = s.channels)
    (htsn : t.nextTsn = s.nextTsn) : StreamStep { before := s, after := t } := by
  refine .quiet rfl ?_ (queued_of_nextTsn htsn)
  intro streamId channel hchannel
  rwa [← hchannels]

theorem nextTsn_add_ofNat_ne (tsn : UInt32) {count : ℕ} (hpos : 0 < count)
    (hle : count ≤ maxOutstanding) : tsn + UInt32.ofNat count ≠ tsn := by
  intro h
  have hzero : UInt32.ofNat count = 0 := by grind
  have hcount : count % 2 ^ 32 = 0 := by
    simpa using congrArg UInt32.toNat hzero
  unfold maxOutstanding at hle
  omega

theorem hasRoom_le {s : Association} {count : ℕ} (h : s.hasRoom count = true) :
    count ≤ maxOutstanding := by
  simp only [hasRoom, Bool.and_eq_true, decide_eq_true_eq] at h
  omega

/-- An accepted OPEN opens its channel and, if there is room, queues its ACK. -/
theorem streamStep_handleDcep (now : ℕ) (target : UInt16) (payload : Bytes) {s : Association}
    {tag : UInt32} (htag : s.peerVerificationTag = some tag) :
    StreamStep { before := s, after := ((handleDcep now target payload).run s).2 } := by
  have hroomy := @enqueueMessage_queued now (dcepAckMessage target) [dcepAck]
  rw [handleDcep, run_get_bind, run_ofExcept_bind]
  rcases hparse : ChannelOpen.parse s target payload with error | channel
  · exact streamStep_of_frame rfl rfl
  dsimp only
  rw [run_modify_bind, state_run_bind_pure]
  have hnew : target ∉ s.channels := by
    unfold ChannelOpen.parse at hparse
    split_ifs at hparse with hchecks
    simp only [not_or, Bool.not_eq_true] at hchecks
    rw [← ExtTreeMap.contains_iff_mem, hchecks.2.2.2.1]
    exact Bool.false_ne_true
  have htag' : ({ s with
      channels := s.channels.insert target ⟨channel.ordered, channel.reliability, 0⟩ } :
        Association).peerVerificationTag = some tag := htag
  have hcount : (Bytes.chunks maxDataPayload [dcepAck]).length = 1 := rfl
  obtain ⟨hfull, hrun⟩ | ⟨hroom, packets, outstanding, hrun, -⟩ := enqueueMessage_run now
    (dcepAckMessage target) [dcepAck] _ htag'
  · rw [hrun]
    have hfull : s.hasRoom 1 = false := hfull
    refine .opened rfl hnew rfl rfl ?_
    simp [hfull, Moment.queued]
  · have hqueued := hroomy _ htag' hroom (by decide)
    rw [hrun] at hqueued ⊢
    have hroom : s.hasRoom 1 = true := hroom
    refine .opened rfl hnew rfl rfl ?_
    rw [if_pos hroom]
    obtain ⟨entry, hentry, hcarries⟩ := hqueued
    refine ⟨entry, ?_, hcarries⟩
    rw [Moment.queued, if_neg]
    · exact hentry
    · exact nextTsn_add_ofNat_ne s.nextTsn (by rw [hcount]; omega) (hcount ▸ hasRoom_le hroom)

/-- A write seen from two states that differ in neither channels nor the send side. -/
theorem StreamStep.of_eq {s s' t t' : Association}
    (h : StreamStep { before := s', after := t' }) (hchannels : s'.channels = s.channels)
    (htsn : s'.nextTsn = s.nextTsn) (hroom : s'.hasRoom 1 = s.hasRoom 1)
    (hchannels' : t'.channels = t.channels) (htsn' : t'.nextTsn = t.nextTsn)
    (hout' : t'.outstanding = t.outstanding) : StreamStep { before := s, after := t } := by
  have hqueued : Moment.queued { before := s', after := t' } =
      Moment.queued { before := s, after := t } := by
    simp [Moment.queued, htsn, htsn', hout']
  cases h with
  | quiet hsend hkept hnone =>
    refine .quiet rfl ?_ (hqueued.symm.trans hnone)
    intro streamId channel hchannel
    rw [← hchannels]
    exact hkept streamId channel (by rwa [hchannels'])
  | @opened target channel hsend hnew hopen hzero hack =>
    refine @StreamStep.opened _ target channel rfl ?_ ?_ hzero ?_
    · rwa [← hchannels]
    · rw [← hchannels', ← hchannels]
      exact hopen
    · rw [hqueued] at hack
      rw [← hroom]
      exact hack
  | unsent hsend => cases hsend
  | refused hsend => cases hsend
  | sent hsend => cases hsend

theorem streamStep_processDataMessage (now : ℕ) (data : DataChunk) {s : Association}
    {tag : UInt32} (htag : s.peerVerificationTag = some tag) :
    StreamStep { before := s, after := ((processDataMessage now data).run s).2 } := by
  have hsame : StreamStep { before := s, after := s } := streamStep_of_frame rfl rfl
  rw [processDataMessage, run_get_bind, run_ensure_bind]
  by_cases hstream : data.streamId < s.peerOutboundStreams
  swap
  · rw [if_neg hstream]
    exact hsame
  rw [if_pos hstream]
  rcases hpayload : s.assembled data with _ | payload
  · obtain ⟨error, reassembly, hrun⟩ := assemble_run_of_none hpayload
    rw [run_bind, hrun]
    exact streamStep_of_frame rfl rfl
  rw [run_bind, assemble_run_of_some hpayload]
  dsimp only
  generalize (if DataChunk.isEnd data = true then payload else []) = bytes
  split_ifs
  · exact streamStep_of_frame rfl rfl
  · have htag' : ({ s with reassembly := s.reassemblyAfter data payload } :
        Association).peerVerificationTag = some tag := htag
    -- the OPEN is handled after its bytes have left the reassembly buffer
    exact (streamStep_handleDcep now data.streamId bytes htag').of_eq rfl rfl rfl rfl rfl rfl
  · rw [run_get_bind, run_ofExcept]
    exact streamStep_of_frame rfl rfl
  · exact streamStep_of_frame rfl rfl

theorem leads_processMoments (now : ℕ) (batch : List DataChunk) {s : Association} {tag : UInt32}
    (htag : s.peerVerificationTag = some tag) :
    Leads s (processMoments now batch s) ((processAll now batch).run s).2 := by
  induction batch generalizing s with
  | nil => exact .nil s
  | cons data rest ih =>
    have hstep := streamStep_processDataMessage now data htag
    have hframe := processDataMessage_frame now data htag
    rw [processMoments, processAll, run_bind]
    rcases hrun : (processDataMessage now data).run s with ⟨error | output, t⟩
    · rw [hrun] at hstep
      exact .cons rfl hstep (.nil _)
    · rw [hrun] at hstep hframe
      have hframe : ReceiveFrame s t := hframe
      dsimp only
      rw [state_run_bind_pure]
      exact .cons rfl hstep (ih (hframe.peerVerificationTag.trans htag))

theorem leads_releaseMoments (now fuel : ℕ) (next : UInt32) {s : Association} {tag : UInt32}
    (htag : s.peerVerificationTag = some tag) :
    Leads s (releaseMoments now fuel next s) ((releasePending now fuel next).run s).2 := by
  induction fuel generalizing next s with
  | zero => exact .nil s
  | succ fuel ih =>
    rw [releaseMoments, releasePending, run_get_bind]
    rcases s.pendingData[next]? with _ | data
    · exact .nil s
    have htag' : (unbuffer next s).peerVerificationTag = some tag := htag
    have hstep := streamStep_processDataMessage now data htag'
    have hframe := processDataMessage_frame now data htag'
    dsimp only
    rw [run_modify_bind, run_bind]
    rcases hrun : (processDataMessage now data).run (unbuffer next s) with ⟨error | output, t⟩
    · rw [hrun] at hstep
      have hstep' : StreamStep { before := s, after := t } :=
        hstep.of_eq rfl rfl rfl rfl rfl rfl
      exact .cons rfl hstep' (.nil _)
    · rw [hrun] at hstep hframe
      have hframe : ReceiveFrame (unbuffer next s) t := hframe
      have hstep' : StreamStep { before := s, after := advance next t } :=
        hstep.of_eq rfl rfl rfl rfl rfl rfl
      dsimp only
      rw [run_modify_bind, state_run_bind_pure]
      exact .cons rfl hstep' (ih (next + 1) (hframe.peerVerificationTag.trans htag))

theorem leads_dataMoments {s : Association} (hs : Sound s) (now : ℕ) (flags : UInt8)
    (value : Bytes) :
    Leads s (s.dataMoments now flags value) ((handleData now flags value).run s).2 := by
  by_cases hwrites : s.dataVerdict flags value = .writes
  · obtain ⟨data, cumulative, batch, pending, peer, hpeer, hdata, hcum, hreleased, -, hrun⟩ :=
      handleData_writes hs now hwrites
    have hmoments : s.dataMoments now flags value =
        { before := s, after := (s.released cumulative data).2 } ::
          processMoments now (s.released cumulative data).1 (s.released cumulative data).2 := by
      simp [dataMoments, hdata, hcum, hwrites]
    rw [hmoments, hreleased]
    have hafter : ((handleData now flags value).run s).2 = ((processAll now batch).run { s with
        pendingData := pending
        cumulativePeerTsn := some (cumulative + .ofNat batch.length) }).2 := by
      rcases hrun with ⟨error, -, hrun⟩ | ⟨output, sack, -, hrun⟩
      · rw [hrun]
      · rw [hrun]
    rw [hafter]
    refine .cons rfl ?_ ?_
    · exact streamStep_of_frame rfl rfl
    · exact leads_processMoments now batch hpeer
  · have hmoments : s.dataMoments now flags value = [] := by
      unfold dataMoments
      split
      · rw [if_neg hwrites]
      · rfl
    rw [hmoments, (follows_data hs now flags value).state_eq hwrites]
    exact .nil s

theorem leads_forwardTsnMoments {s : Association} (hs : Sound s) (now : ℕ) (value : Bytes) :
    Leads s (s.forwardTsnMoments now value) ((handleForwardTsn now value).run s).2 := by
  by_cases hwrites : s.forwardTsnVerdict value = .writes
  · obtain ⟨newCumulativeTsn, peer, hread, hpeer, -, -, hrun⟩ :=
      handleForwardTsn_writes hs now hwrites
    rw [forwardTsnMoments, hread]
    dsimp only
    rw [if_pos hwrites]
    have hlen : 4 ≤ value.length := by
      unfold forwardTsnVerdict at hwrites
      split_ifs at hwrites with hallowed
      simp only [forwardTsnAllowed, Bool.and_eq_true, decide_eq_true_eq] at hallowed
      exact hallowed.1.2
    obtain ⟨reassembly, -, hstart⟩ := forwarded_eq (s := s) newCumulativeTsn hlen
    have hfirst : StreamStep { before := s, after := s.forwarded value newCumulativeTsn } :=
      streamStep_of_frame (by rw [hstart]) (by rw [hstart])
    have hloop := leads_releaseMoments now (s.forwarded value newCumulativeTsn).pendingData.size
      (newCumulativeTsn + 1) hpeer
    rcases hrun with ⟨error, -, hrun⟩ | ⟨output, sack, -, hrun⟩
    · rw [hrun]
      exact .cons rfl hfirst hloop
    · rw [hrun]
      exact .cons rfl hfirst hloop
  · have hmoments : s.forwardTsnMoments now value = [] := by
      unfold forwardTsnMoments
      split
      · rw [if_neg hwrites]
      · rfl
    rw [hmoments, (follows_forwardTsn hs now value).state_eq hwrites]
    exact .nil s

/-- A chunk that processes no DATA queues nothing, and at most closes channels. -/
theorem streamStep_control {s : Association} (hs : Sound s) (now : ℕ) (tag : UInt32)
    {chunk : ParsedChunk} (hdata : ¬(chunk.kind = typeData ∧ tag = s.config.verificationTag))
    (hforward : ¬(chunk.kind = typeForwardTsn ∧ tag = s.config.verificationTag)) :
    StreamStep { before := s, after := ((handleChunk now tag chunk).run s).2 } := by
  have hsame : StreamStep { before := s, after := s } := streamStep_of_frame rfl rfl
  have hguarded : ∀ action : Action AssociationOutput,
      (tag = s.config.verificationTag → StreamStep { before := s, after := (action.run s).2 }) →
        StreamStep { before := s, after := ((guarded tag action).run s).2 } := by
    intro action haction
    rw [guarded_run]
    split_ifs with htag
    · exact haction htag
    · exact hsame
  refine handleChunk_elim
    (P := fun action => StreamStep { before := s, after := (action.run s).2 }) now tag chunk
    ?_ ?_ ?_ ?_ ?_ ?_ ?_ ?_ ?_ ?_
  · intro _
    have hinit := handleInit_run hs tag chunk.value
    split at hinit
    · rw [hinit]
      exact hsame
    · obtain ⟨output, hrun, -⟩ := hinit
      rw [hrun]
      refine .quiet rfl ?_ ?_
      · intro streamId channel hchannel
        simp [restart] at hchannel
      · simp [Moment.queued, restart]
  · intro _
    obtain hrefused | ⟨-, hrun⟩ := handleCookieEcho_state tag chunk.value s
    · rw [hrefused]
      exact hsame
    · rw [hrun]
      exact streamStep_of_frame rfl rfl
  · exact fun hkind => hguarded _ fun htag => absurd ⟨hkind, htag⟩ hdata
  · refine fun _ => hguarded _ fun _ => ?_
    rw [state_run_bind_pure]
    have hsack := handleSack_run chunk.value s
    split at hsack
    · obtain ⟨error, hrun⟩ := hsack
      rw [hrun]
      exact hsame
    · obtain ⟨result, hrun, -⟩ := hsack
      rw [hrun]
      exact streamStep_of_frame rfl rfl
  · refine fun _ => hguarded _ fun _ => ?_
    rw [handleHeartbeat_state]
    exact hsame
  · exact fun _ => streamStep_of_frame rfl rfl
  · refine fun _ => hguarded _ fun _ => ?_
    rw [handleShutdown_state]
    exact streamStep_of_frame rfl rfl
  · refine fun _ => hguarded _ fun _ => ?_
    obtain ⟨hframe, -, -, hchannels⟩ := handleReconfiguration_frame chunk.value s
    exact .quiet rfl hchannels (queued_of_nextTsn (by rw [hframe]))
  · exact fun hkind => hguarded _ fun htag => absurd ⟨hkind, htag⟩ hforward
  · exact fun _ => hsame

theorem leads_chunkMoments {s : Association} (hs : Sound s) (now : ℕ) (tag : UInt32)
    (chunk : ParsedChunk) :
    Leads s (s.chunkMoments now tag chunk) ((handleChunk now tag chunk).run s).2 := by
  unfold chunkMoments
  split_ifs with hdata hforward
  · have hrun : (handleChunk now tag chunk).run s = (handleData now chunk.flags chunk.value).run s := by
      simp only [handleChunk, hdata.1]
      exact (guarded_run tag _ s).trans (if_pos hdata.2)
    rw [hrun]
    exact leads_dataMoments hs now chunk.flags chunk.value
  · have hrun : (handleChunk now tag chunk).run s = (handleForwardTsn now chunk.value).run s := by
      simp only [handleChunk, hforward.1]
      exact (guarded_run tag _ s).trans (if_pos hforward.2)
    rw [hrun]
    exact leads_forwardTsnMoments hs now chunk.value
  · refine .cons rfl ?_ ?_
    · exact streamStep_control hs now tag hdata hforward
    · exact .nil _

theorem leads_chunksMoments (now : ℕ) (tag : UInt32) (chunks : List ParsedChunk)
    {s : Association} (hs : Sound s) :
    Leads s (chunksMoments now tag chunks s) ((handleChunks now tag chunks).run s).2 := by
  induction chunks generalizing s with
  | nil => exact .nil s
  | cons chunk rest ih =>
    have hfirst := leads_chunkMoments hs now tag chunk
    have hsound := (handleChunk_effect now tag chunk hs).sound hs
    rw [chunksMoments, handleChunks, run_bind]
    rcases hrun : (handleChunk now tag chunk).run s with ⟨error | output, t⟩
    · rw [hrun] at hfirst
      exact hfirst.append (.nil _)
    · rw [hrun] at hfirst hsound
      dsimp only
      rw [state_run_bind_pure]
      exact hfirst.append (ih hsound)

theorem streamStep_send (now : ℕ) (streamId : UInt16) (kind : MessageKind) (payload : Bytes)
    {s : Association} (hs : Sound s) :
    StreamStep {
      before := s
      after := ((sendMessage now streamId kind payload).run s).2
      send := some (streamId, kind, payload) } := by
  obtain ⟨hnumbers, error, hrun⟩ | ⟨hnumbers, hstate, channel, hchannel, hrun⟩ :=
    sendMessage_eq now streamId kind payload s
  · rw [hrun]
    exact .unsent rfl hnumbers rfl
  obtain ⟨peer, hpeer⟩ := hs.known (.inr hstate)
  have hpeer' : (s.countMessage streamId channel).peerVerificationTag = some peer := hpeer
  have hpos : 0 < fragmentCount kind payload := by
    have hwire : (wirePayload kind payload).2 ≠ [] := by
      cases kind <;> cases payload <;> simp [wirePayload]
    have hlen := List.length_pos_iff.mpr hwire
    rw [fragmentCount, Bytes.length_chunks]
    exact Nat.div_pos (by omega) (by decide)
  obtain ⟨hfull, hqueue⟩ | ⟨hroom, packets, outstanding, hqueue, -⟩ := enqueueMessage_run now
    (userMessage streamId kind payload channel) (wirePayload kind payload).2
    (s.countMessage streamId channel) hpeer'
  · rw [hrun, hqueue]
    exact .refused rfl hnumbers hfull hchannel rfl
  · obtain ⟨entry, hentry, hcarries⟩ := enqueueMessage_queued now
      (userMessage streamId kind payload channel) (s.countMessage streamId channel) hpeer' hroom
      (List.length_pos_iff.mp hpos)
    rw [hqueue] at hentry
    rw [hrun, hqueue]
    refine .sent rfl hnumbers hroom hchannel rfl ?_ hcarries
    rw [Moment.queued, if_neg]
    · exact hentry
    · exact nextTsn_add_ofNat_ne s.nextTsn hpos (hasRoom_le hroom)

theorem leads_input (input : Input) {s : Association} (hs : Sound s) :
    Leads s (input.moments s) (s.step input) := by
  cases input with
  | send now streamId kind payload =>
    refine .cons rfl ?_ (.nil _)
    exact streamStep_send now streamId kind payload hs
  | tick now =>
    obtain ⟨state, outstanding, abandoned, pendingForwardTsn, hrun, -⟩ := tick_run now s
    refine .cons rfl ?_ (.nil _)
    exact streamStep_of_frame (by rw [step, hrun]) (by rw [step, hrun])
  | packet now bytes =>
    rw [Input.moments, step, handlePacket, run_ofExcept_bind]
    rcases ParsedPacket.parse bytes with error | parsed
    · exact .nil s
    dsimp only
    rw [run_get_bind, run_ensure_bind]
    split_ifs
    · exact leads_chunksMoments now parsed.verificationTag parsed.chunks hs
    · exact .nil s

/-- The writes of a run lead from its first state to its last. -/
theorem leads_moments (inputs : List Input) {s : Association} (hs : Sound s) :
    Leads s (moments inputs s) (runInputs inputs s) := by
  induction inputs generalizing s with
  | nil => exact .nil s
  | cons input rest ih => exact (leads_input input hs).append (ih (sound_step hs input))

theorem agrees_new {config : AssociationConfig} {start : Association}
    (hnew : new config = .ok start) (streamId : UInt16) : Period.Agrees {} streamId start := by
  intro channel hchannel
  unfold new at hnew
  rcases hvalid : config.validate with error | ⟨⟩
  · rw [hvalid] at hnew
    cases hnew
  rw [hvalid] at hnew
  cases hnew
  simp at hchannel

/-- In every run the ordered messages of a stream are numbered 0, 1, 2, ... from the opening of its
channel on, at every moment of the run, exactly when each ordered user message finds as many numbers
lost to a full window as DCEP ACKs queued. -/
theorem numbered_iff {config : AssociationConfig} {start : Association}
    (hnew : new config = .ok start) (inputs : List Input) (streamId : UInt16) :
    (∀ prior, prior <+: moments inputs start → (period streamId prior).Numbered) ↔
      balancedSends streamId (moments inputs start) {} = true :=
  (leads_moments inputs (sound_new hnew)).numbered_prefix_iff (agrees_new hnew streamId) rfl

/-- A channel on stream 0 that is not ordered, and two messages on it. -/
def Sample.unorderedRun : List Input :=
  Sample.establish false ++
    [.packet 2000000 (Sample.data 3 500 0 0 ppidDcep
        ([dcepOpen, 0x80] ++ Bytes.ofU16 0 ++ Bytes.ofU32 0 ++ Bytes.ofU16 1 ++ Bytes.ofU16 0 ++
          [120])),
      .send 3000000 0 .binary [1], .send 4000000 0 .binary [2]]

/-- Without ordered user messages the ACK is the only numbered message. -/
theorem numbered_iff_sample :
    ∃ start, new Sample.config = .ok start ∧
      (runInputs Sample.unorderedRun start).outstanding.size = 3 ∧
      (period 0 (moments Sample.unorderedRun start)).emitted = [0] ∧
      ∀ prior, prior <+: moments Sample.unorderedRun start → (period 0 prior).Numbered := by
  obtain ⟨start, hnew⟩ : ∃ start, new Sample.config = .ok start := ⟨_, rfl⟩
  have hrun : (runInputs Sample.unorderedRun start).outstanding.size = 3 ∧
      (period 0 (moments Sample.unorderedRun start)).emitted = [0] ∧
      balancedSends 0 (moments Sample.unorderedRun start) {} = true := by
    cases hnew
    decide +kernel
  exact ⟨start, hnew, hrun.1, hrun.2.1,
    (numbered_iff hnew Sample.unorderedRun 0).mpr hrun.2.2⟩

/-- The first user message on an ordered channel has the number of the DCEP ACK. -/
theorem first_message_not_numbered :
    ∃ start, new Sample.config = .ok start ∧
      (period 0 (moments (Sample.openChannel ++ [.send 3000000 0 .binary [1]]) start)).emitted =
        [0, 0] ∧
      ¬∀ prior, prior <+: moments (Sample.openChannel ++ [.send 3000000 0 .binary [1]]) start →
        (period 0 prior).Numbered := by
  obtain ⟨start, hnew⟩ : ∃ start, new Sample.config = .ok start := ⟨_, rfl⟩
  have hemitted : (period 0
      (moments (Sample.openChannel ++ [.send 3000000 0 .binary [1]]) start)).emitted = [0, 0] := by
    cases hnew
    decide +kernel
  refine ⟨start, hnew, hemitted, fun h => ?_⟩
  have hall := h _ (List.prefix_refl _)
  rw [Period.Numbered, hemitted] at hall
  revert hall
  decide

end Association

end Fluvora.DataChannel
