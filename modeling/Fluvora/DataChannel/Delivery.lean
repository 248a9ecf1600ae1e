import Fluvora.DataChannel.ReceiveLog

/-!
# Delivery of acknowledged messages

`acceptData` moves the cumulative TSN over a whole batch before the chunks of the batch are looked
at, and an error in one of them, or in a later chunk of the packet, drops the events of all.  In the
runs in which no packet is rejected once it has released data, every message in the log of
`ReceiveLog` is reported exactly once; one packet that is rejected later than that can lose one.
-/

open Std (ExtTreeMap)

namespace Fluvora.DataChannel

open Fallible

namespace Association

/-! ## Messages in the log -/

/-- The entry completes a user message. -/
def Released.completes : Released → Bool
  | .data chunk _ => DataChunk.isEnd chunk && userPpid chunk.ppid
  | _ => false

/-- The bytes of a run of DATA entries. -/
def payloadOf (entries : List Released) : Bytes :=
  entries.flatMap fun
    | .data chunk _ => chunk.payload
    | _ => []

/-- The stream, the stream sequence number and the PPID of a chunk. -/
def DataChunk.belongs (chunk : DataChunk) (streamId sequence : UInt16) (ppid : UInt32) : Prop :=
  chunk.streamId = streamId ∧ chunk.streamSequence = sequence ∧ chunk.ppid = ppid

/-- The fragments of a message whose last fragment is still to come. -/
inductive Fragments (streamId sequence : UInt16) (ppid : UInt32) : List Released → Prop
  | first {chunk : DataChunk} {isOpen : Bool}
      (hbelongs : DataChunk.belongs chunk streamId sequence ppid)
      (hbegin : DataChunk.isBegin chunk = true) (hend : DataChunk.isEnd chunk = false) :
      Fragments streamId sequence ppid [.data chunk isOpen]
  | next {entries : List Released} {chunk : DataChunk} {isOpen : Bool}
      (h : Fragments streamId sequence ppid entries)
      (hbelongs : DataChunk.belongs chunk streamId sequence ppid)
      (hbegin : DataChunk.isBegin chunk = false) (hend : DataChunk.isEnd chunk = false) :
      Fragments streamId sequence ppid (entries ++ [.data chunk isOpen])

/-- A complete message, whose channel is open when its last fragment is released. -/
inductive IsMessage (streamId sequence : UInt16) (ppid : UInt32) : List Released → Prop
  | whole {chunk : DataChunk} (hbelongs : DataChunk.belongs chunk streamId sequence ppid)
      (hbegin : DataChunk.isBegin chunk = true) (hend : DataChunk.isEnd chunk = true) :
      IsMessage streamId sequence ppid [.data chunk true]
  | fragmented {entries : List Released} {chunk : DataChunk}
      (h : Fragments streamId sequence ppid entries)
      (hbelongs : DataChunk.belongs chunk streamId sequence ppid)
      (hbegin : DataChunk.isBegin chunk = false) (hend : DataChunk.isEnd chunk = true) :
      IsMessage streamId sequence ppid (entries ++ [.data chunk true])

def AssociationEvent.isMessage : AssociationEvent → Bool
  | .message .. => true
  | _ => false

/-- The messages among the events. -/
def messages (events : List AssociationEvent) : List AssociationEvent :=
  events.filter AssociationEvent.isMessage

/-- Every user message in the log is reported once: there are as many `message` events as log
entries that complete a message, and a message in the log is the event with the number of messages
completed before it. -/
structure DeliveredOnce (log : List Released) (events : List AssociationEvent) : Prop where
  oneEach : (messages events).length = log.countP Released.completes
  content : ∀ (before entries after : List Released) (streamId sequence : UInt16) (ppid : UInt32),
    log = before ++ entries ++ after → IsMessage streamId sequence ppid entries →
    userPpid ppid = true →
    (messages events)[before.countP Released.completes]? =
      some (.message streamId (messageKind ppid) (messagePayload ppid (payloadOf entries)))

/-- The events of a call that reach the application: those of a rejected packet do not. -/
def Input.delivered (input : Input) (s : Association) : List AssociationEvent :=
  match input with
  | .packet now bytes =>
      match (handlePacket now bytes).run s with
      | (.ok output, _) => output.events
      | (.error _, _) => []
  | _ => []

def runDelivered : List Input → Association → List AssociationEvent
  | [], _ => []
  | input :: rest, s => input.delivered s ++ runDelivered rest (s.step input)

/-! ## The condition on the packets -/

/-- The chunk moves the cumulative TSN over DATA: it is the next TSN, or it is a FORWARD TSN right
before a buffered one. -/
def releases (s : Association) (tag : UInt32) (chunk : ParsedChunk) : Bool :=
  tag = s.config.verificationTag &&
    match s.cumulativePeerTsn with
    | none => false
    | some cumulative =>
        chunk.kind = typeData && s.dataVerdict chunk.flags chunk.value = .writes &&
            chunk.value.u32At 0 = some (cumulative + 1) ||
          chunk.kind = typeForwardTsn && s.forwardTsnVerdict chunk.value = .writes &&
            (chunk.value.u32At 0).any fun tsn => s.pendingData.contains (tsn + 1)

/-- Every chunk is accepted in its turn. -/
def acceptsAll (now : ℕ) (tag : UInt32) : List ParsedChunk → Association → Bool
  | [], _ => true
  | chunk :: rest, s =>
      s.accepts now tag chunk && acceptsAll now tag rest ((handleChunk now tag chunk).run s).2

/-- From the first chunk that releases data on, every chunk of the packet is accepted. -/
def careful (now : ℕ) (tag : UInt32) : List ParsedChunk → Association → Bool
  | [], _ => true
  | chunk :: rest, s =>
      if s.releases tag chunk then acceptsAll now tag (chunk :: rest) s
      else !s.accepts now tag chunk || careful now tag rest ((handleChunk now tag chunk).run s).2

/-! ## What one entry does -/

theorem Fragments.ne_nil {streamId sequence : UInt16} {ppid : UInt32} {entries : List Released}
    (h : Fragments streamId sequence ppid entries) : entries ≠ [] := by
  cases h with
  | first => exact List.cons_ne_nil _ _
  | next => simp

/-- An unfinished message completes nothing. -/
theorem Fragments.countP {streamId sequence : UInt16} {ppid : UInt32} {entries : List Released}
    (h : Fragments streamId sequence ppid entries) : entries.countP Released.completes = 0 := by
  induction h with
  | first _ _ hend => simp [Released.completes, hend]
  | next _ _ _ hend ih =>
    rw [List.countP_append, ih]
    simp [Released.completes, hend]

/-- The last entry of an unfinished message is a DATA chunk that does not end it. -/
theorem Fragments.eq_append {streamId sequence : UInt16} {ppid : UInt32} {entries : List Released}
    {last : Released} (h : Fragments streamId sequence ppid (entries ++ [last])) :
    ∃ chunk isOpen, last = .data chunk isOpen ∧
      DataChunk.belongs chunk streamId sequence ppid ∧ DataChunk.isEnd chunk = false ∧
      ((entries = [] ∧ DataChunk.isBegin chunk = true) ∨
        (Fragments streamId sequence ppid entries ∧ DataChunk.isBegin chunk = false)) := by
  generalize hall : entries ++ [last] = all at h
  cases h with
  | @first chunk isOpen hbelongs hbegin hend =>
    obtain ⟨rfl, hlast⟩ : entries = [] ∧ last = .data chunk isOpen := by
      have hlen := congrArg List.length hall
      simp only [List.length_append, List.length_singleton] at hlen
      have hnil : entries = [] := List.eq_nil_of_length_eq_zero (by omega)
      subst hnil
      simpa using hall
    exact ⟨chunk, isOpen, hlast, hbelongs, hend, .inl ⟨rfl, hbegin⟩⟩
  | @next parts chunk isOpen h hbelongs hbegin hend =>
    obtain ⟨rfl, hlast⟩ := List.append_inj' hall rfl
    exact ⟨chunk, isOpen, by simpa using hlast, hbelongs, hend, .inr ⟨h, hbegin⟩⟩

/-- A log that ends in the middle of a message does not end with a last fragment. -/
theorem Fragments.not_end {streamId sequence : UInt16} {ppid : UInt32}
    {log before entries : List Released} {chunk : DataChunk} {isOpen : Bool}
    (h : Fragments streamId sequence ppid entries)
    (hlog : log ++ [.data chunk isOpen] = before ++ entries) : DataChunk.isEnd chunk = false := by
  rcases List.eq_nil_or_concat' entries with rfl | ⟨entries', last, rfl⟩
  · exact absurd rfl h.ne_nil
  obtain ⟨chunk', isOpen', rfl, -, hend, -⟩ := h.eq_append
  rw [← List.append_assoc] at hlog
  obtain ⟨-, hlast⟩ := List.append_inj' hlog rfl
  cases hlast
  exact hend

theorem IsMessage.eq_append {streamId sequence : UInt16} {ppid : UInt32} {entries : List Released}
    {last : Released} (h : IsMessage streamId sequence ppid (entries ++ [last])) :
    ∃ chunk, last = .data chunk true ∧
      DataChunk.belongs chunk streamId sequence ppid ∧ DataChunk.isEnd chunk = true ∧
      ((entries = [] ∧ DataChunk.isBegin chunk = true) ∨
        (Fragments streamId sequence ppid entries ∧ DataChunk.isBegin chunk = false)) := by
  generalize hall : entries ++ [last] = all at h
  cases h with
  | @whole chunk hbelongs hbegin hend =>
    obtain ⟨rfl, hlast⟩ : entries = [] ∧ last = .data chunk true := by
      have hlen := congrArg List.length hall
      simp only [List.length_append, List.length_singleton] at hlen
      have hnil : entries = [] := List.eq_nil_of_length_eq_zero (by omega)
      subst hnil
      simpa using hall
    exact ⟨chunk, hlast, hbelongs, hend, .inl ⟨rfl, hbegin⟩⟩
  | @fragmented parts chunk h hbelongs hbegin hend =>
    obtain ⟨rfl, hlast⟩ := List.append_inj' hall rfl
    exact ⟨chunk, by simpa using hlast, hbelongs, hend, .inr ⟨h, hbegin⟩⟩

theorem IsMessage.ne_nil {streamId sequence : UInt16} {ppid : UInt32} {entries : List Released}
    (h : IsMessage streamId sequence ppid entries) : entries ≠ [] := by
  cases h with
  | whole => exact List.cons_ne_nil _ _
  | fragmented => simp

/-- A part of a longer log lies in the old log, or ends with the new entry. -/
theorem split_snoc {log before entries after : List Released} {entry : Released}
    (h : log ++ [entry] = before ++ entries ++ after) (hne : entries ≠ []) :
    (∃ after', log = before ++ entries ++ after') ∨
      (∃ entries', entries = entries' ++ [entry] ∧ log = before ++ entries') := by
  rcases List.eq_nil_or_concat' after with rfl | ⟨after', last, rfl⟩
  · right
    rcases List.eq_nil_or_concat' entries with rfl | ⟨entries', last, rfl⟩
    · exact absurd rfl hne
    rw [List.append_nil, ← List.append_assoc] at h
    obtain ⟨hlog, hlast⟩ := List.append_inj' h rfl
    obtain rfl : entry = last := by simpa using hlast
    exact ⟨entries', rfl, hlog⟩
  · left
    rw [← List.append_assoc] at h
    exact ⟨after', (List.append_inj' h rfl).1⟩

theorem messages_append (events extra : List AssociationEvent) :
    messages (events ++ extra) = messages events ++ messages extra := List.filter_append ..

theorem DeliveredOnce.append_events {log : List Released} {events extra : List AssociationEvent}
    (h : DeliveredOnce log events) (hextra : messages extra = []) :
    DeliveredOnce log (events ++ extra) := by
  have hsame : messages (events ++ extra) = messages events := by
    rw [messages_append, hextra, List.append_nil]
  refine ⟨?_, ?_⟩
  · rw [hsame]
    exact h.oneEach
  · rw [hsame]
    exact h.content

/-- An entry that completes no user message asks for no event. -/
theorem DeliveredOnce.snoc {log : List Released} {events : List AssociationEvent}
    (h : DeliveredOnce log events) {entry : Released} (hentry : entry.completes = false) :
    DeliveredOnce (log ++ [entry]) events := by
  refine ⟨?_, ?_⟩
  · rw [List.countP_append, h.oneEach]
    simp [hentry]
  · intro before entries after streamId sequence ppid hlog hmessage huser
    rcases split_snoc hlog hmessage.ne_nil with ⟨after', hold⟩ | ⟨entries', rfl, hold⟩
    · exact h.content before entries after' streamId sequence ppid hold hmessage huser
    · obtain ⟨chunk, rfl, hbelongs, hend, -⟩ := hmessage.eq_append
      rw [Released.completes, hend, hbelongs.2.2, huser] at hentry
      cases hentry

/-- An entry that completes a user message, with its event. -/
theorem DeliveredOnce.snoc_message {log : List Released} {events : List AssociationEvent}
    (h : DeliveredOnce log events) {entry : Released} (hentry : entry.completes = true)
    {event : AssociationEvent} (hevent : AssociationEvent.isMessage event = true)
    (hcontent : ∀ (before entries : List Released) (streamId sequence : UInt16) (ppid : UInt32),
      log = before ++ entries → IsMessage streamId sequence ppid (entries ++ [entry]) →
      event = .message streamId (messageKind ppid)
        (messagePayload ppid (payloadOf (entries ++ [entry])))) :
    DeliveredOnce (log ++ [entry]) (events ++ [event]) := by
  have hmessages : messages (events ++ [event]) = messages events ++ [event] := by
    rw [messages_append]
    simp [messages, hevent]
  refine ⟨?_, ?_⟩
  · rw [hmessages, List.length_append, h.oneEach, List.countP_append]
    simp [hentry]
  · intro before entries after streamId sequence ppid hlog hmessage huser
    rw [hmessages]
    rcases split_snoc hlog hmessage.ne_nil with ⟨after', hold⟩ | ⟨entries', rfl, hold⟩
    · have hfind := h.content before entries after' streamId sequence ppid hold hmessage huser
      rw [List.getElem?_append_left (List.getElem?_eq_some_iff.mp hfind).1]
      exact hfind
    · -- the fragments before the last one complete nothing, so the new event is the next one
      have hparts : entries'.countP Released.completes = 0 := by
        obtain ⟨chunk, -, -, -, ⟨rfl, -⟩ | ⟨hfragments, -⟩⟩ := hmessage.eq_append
        · rfl
        · exact hfragments.countP
      have hplace : (messages events).length = before.countP Released.completes := by
        rw [h.oneEach, hold, List.countP_append, hparts, Nat.add_zero]
      rw [← hplace, List.getElem?_concat_length,
        hcontent before entries' streamId sequence ppid hold hmessage]

/-- What the release of data keeps: delivery so far, and the buffer of the message that the log
ends in the middle of. -/
structure Kept (log : List Released) (events : List AssociationEvent)
    (reassembly : ExtTreeMap UInt16 Reassembly) : Prop where
  once : DeliveredOnce log events
  assembling : ∀ (before entries : List Released) (streamId sequence : UInt16) (ppid : UInt32),
    log = before ++ entries → Fragments streamId sequence ppid entries →
    ∀ assembly, reassembly[streamId]? = some assembly →
      assembly = ⟨sequence, ppid, payloadOf entries⟩

theorem payloadOf_snoc (entries : List Released) (chunk : DataChunk) (isOpen : Bool) :
    payloadOf (entries ++ [.data chunk isOpen]) = payloadOf entries ++ chunk.payload := by
  simp [payloadOf]

/-- The payload collected with a chunk is that of the fragments in the log. -/
theorem Kept.assembled_eq {log : List Released} {events : List AssociationEvent} {s : Association}
    (h : Kept log events s.reassembly) {data : DataChunk} {payload : Bytes}
    (hpayload : s.assembled data = some payload) {before entries : List Released}
    {streamId sequence : UInt16} {ppid : UInt32} (hlog : log = before ++ entries)
    (hbelongs : DataChunk.belongs data streamId sequence ppid)
    (hentries : (entries = [] ∧ DataChunk.isBegin data = true) ∨
      (Fragments streamId sequence ppid entries ∧ DataChunk.isBegin data = false)) :
    payload = payloadOf entries ++ data.payload := by
  unfold assembled partialPayload at hpayload
  rcases hentries with ⟨rfl, hbegin⟩ | ⟨hfragments, hbegin⟩
  · rw [hbegin] at hpayload
    simp only [Bool.true_and, if_true, Option.bind_some, List.length_nil, Nat.zero_add,
      List.nil_append] at hpayload
    split_ifs at hpayload
    · simpa [payloadOf] using hpayload.symm
    · simpa [payloadOf] using hpayload.symm
  · rw [hbegin] at hpayload
    simp only [Bool.false_and, Bool.false_eq_true, if_false] at hpayload
    obtain ⟨collected, hcollected, hfits⟩ := Option.bind_eq_some_iff.mp hpayload
    obtain ⟨assembly, hfind, hsame⟩ := Option.bind_eq_some_iff.mp hcollected
    rw [hbelongs.1] at hfind
    have hassembly := h.assembling before entries streamId sequence ppid hlog hfragments assembly
      hfind
    split_ifs at hsame hfits
    rw [hassembly] at hsame
    cases hsame
    simpa using hfits.symm

theorem Kept.processed {log : List Released} {events : List AssociationEvent} {s t : Association}
    (h : Kept log events s.reassembly) {data : DataChunk} {output : AssociationOutput}
    (hprocessed : Processed s data output t) (isOpen : Bool) :
    Kept (log ++ [.data data isOpen]) (events ++ output.events) t.reassembly := by
  cases hprocessed with
  | @fragment payload hpayload hend =>
    refine ⟨?_, ?_⟩
    · rw [List.append_nil]
      exact h.once.snoc (by rw [Released.completes, hend]; rfl)
    · intro before entries streamId sequence ppid hlog hfragments assembly hassembly
      have hlog : log ++ [.data data isOpen] = before ++ entries ++ [] := by simpa using hlog
      rcases split_snoc hlog hfragments.ne_nil with ⟨after, hold⟩ | ⟨entries', rfl, hold⟩
      · have hlen := congrArg List.length hlog
        have hlen' := congrArg List.length hold
        simp only [List.length_append, List.length_singleton, List.length_nil] at hlen hlen'
        omega
      obtain ⟨chunk, isOpen', hlast, hbelongs, -, hentries⟩ := hfragments.eq_append
      cases hlast
      have hsame := h.assembled_eq hpayload hold hbelongs hentries
      simp only [reassemblyAfter, hend, Bool.and_false, Bool.false_eq_true, if_false] at hassembly
      rw [hbelongs.1, ExtTreeMap.getElem?_insert_self] at hassembly
      cases hassembly
      rw [hbelongs.2.1, hbelongs.2.2, payloadOf_snoc, hsame]
  | @message payload hpayload hend hppid hopen =>
    refine ⟨h.once.snoc_message (by rw [Released.completes, hend, hppid]; rfl) rfl ?_, ?_⟩
    · intro before entries streamId sequence ppid hlog hmessage
      obtain ⟨chunk, hlast, hbelongs, -, hentries⟩ := hmessage.eq_append
      cases hlast
      rw [payloadOf_snoc, ← h.assembled_eq hpayload hlog hbelongs hentries, hbelongs.1,
        hbelongs.2.2]
    · intro before entries streamId sequence ppid hlog hfragments
      exact absurd hend (by simpa using hfragments.not_end hlog)
  | @opened payload channel packets outstanding hpayload hend hppid =>
    have hother : Released.completes (.data data isOpen) = false := by
      rw [Released.completes, hppid]
      simp [userPpid, ppidDcep, ppidString, ppidBinary, ppidStringEmpty, ppidBinaryEmpty]
    refine ⟨(h.once.snoc hother).append_events rfl, ?_⟩
    intro before entries streamId sequence ppid hlog hfragments
    exact absurd hend (by simpa using hfragments.not_end hlog)

/-! ## Batches -/

section Kept

variable {log : List Released} {events : List AssociationEvent}
  {reassembly : ExtTreeMap UInt16 Reassembly}

theorem Kept.congr {events' : List AssociationEvent} (h : Kept log events reassembly)
    (hevents : messages events' = messages events) : Kept log events' reassembly := by
  refine ⟨⟨?_, ?_⟩, h.assembling⟩
  · rw [hevents]
    exact h.once.oneEach
  · rw [hevents]
    exact h.once.content

/-- Dropping buffers keeps what is said about the others. -/
theorem Kept.reassemblyKept {s t : Association} (h : Kept log events s.reassembly)
    (hkept : ReassemblyKept s t) : Kept log events t.reassembly := by
  refine ⟨h.once, ?_⟩
  intro before entries streamId sequence ppid hlog hfragments assembly hassembly
  exact h.assembling before entries streamId sequence ppid hlog hfragments assembly
    (hkept streamId assembly hassembly)

/-- After an entry that is no DATA chunk, no message is in the middle. -/
theorem Kept.interrupted (h : Kept log events reassembly) {entry : Released}
    (hentry : ∀ chunk isOpen, entry ≠ .data chunk isOpen)
    (reassembly' : ExtTreeMap UInt16 Reassembly) :
    Kept (log ++ [entry]) events reassembly' := by
  have hother : entry.completes = false := by
    cases entry with
    | data chunk isOpen => exact absurd rfl (hentry chunk isOpen)
    | skip => rfl
    | restart => rfl
  refine ⟨h.once.snoc hother, ?_⟩
  intro before entries streamId sequence ppid hlog hfragments
  rcases List.eq_nil_or_concat' entries with rfl | ⟨entries', last, rfl⟩
  · exact absurd rfl hfragments.ne_nil
  obtain ⟨chunk, isOpen, rfl, -⟩ := hfragments.eq_append
  rw [← List.append_assoc] at hlog
  obtain ⟨-, hlast⟩ := List.append_inj' hlog rfl
  exact absurd (by simpa using hlast) (hentry chunk isOpen)

theorem Kept.batch (now : ℕ) {batch : List DataChunk} {s t : Association} {tag : UInt32}
    {output : AssociationOutput} (h : Kept log events s.reassembly)
    (htag : s.peerVerificationTag = some tag)
    (hrun : (processAll now batch).run s = (.ok output, t)) :
    Kept (log ++ batchLog now batch s) (events ++ output.events) t.reassembly := by
  induction batch generalizing s log events output with
  | nil =>
    cases hrun
    rw [batchLog, List.append_nil, List.append_nil]
    exact h
  | cons data rest ih =>
    rw [processAll, run_bind_eq_ok] at hrun
    obtain ⟨first, mid, hfirst, hrun⟩ := hrun
    rw [run_bind_eq_ok] at hrun
    obtain ⟨others, t', hothers, hrun⟩ := hrun
    cases hrun
    by_cases hadmits : s.admits data = true
    swap
    · obtain ⟨error, reassembly, channels, herror⟩ :=
        processDataMessage_run_of_not_admits now htag (by simpa using hadmits)
      rw [hfirst] at herror
      cases herror
    obtain ⟨output, mid', hrun', hprocessed⟩ := processDataMessage_run_of_admits now htag hadmits
    rw [hfirst] at hrun'
    cases hrun'
    have hstep := h.processed hprocessed (s.channels.contains data.streamId)
    have hrest := ih hstep (hprocessed.frame.peerVerificationTag.trans htag) hothers
    rw [batchLog, hfirst, AssociationOutput.events_append, List.append_cons, ← List.append_assoc]
    exact hrest

theorem Kept.pending (now fuel : ℕ) {next : UInt32} {s t : Association} {tag : UInt32}
    {output : AssociationOutput} (h : Kept log events s.reassembly)
    (htag : s.peerVerificationTag = some tag)
    (hrun : (releasePending now fuel next).run s = (.ok output, t)) :
    Kept (log ++ pendingLog now fuel next s) (events ++ output.events) t.reassembly := by
  induction fuel generalizing next s log events output with
  | zero =>
    cases hrun
    rw [pendingLog, List.append_nil, List.append_nil]
    exact h
  | succ fuel ih =>
    rw [releasePending, run_get_bind] at hrun
    rw [pendingLog]
    rcases hfind : s.pendingData[next]? with _ | data
    · rw [hfind] at hrun
      cases hrun
      rw [List.append_nil, List.append_nil]
      exact h
    rw [hfind] at hrun
    dsimp only at hrun ⊢
    have htag' : (unbuffer next s).peerVerificationTag = some tag := htag
    rw [run_modify_bind, run_bind_eq_ok] at hrun
    obtain ⟨first, mid, hfirst, hrun⟩ := hrun
    rw [run_modify_bind, run_bind_eq_ok] at hrun
    obtain ⟨others, t', hothers, hrun⟩ := hrun
    cases hrun
    by_cases hadmits : (unbuffer next s).admits data = true
    swap
    · obtain ⟨error, reassembly, channels, herror⟩ :=
        processDataMessage_run_of_not_admits now htag' (by simpa using hadmits)
      rw [hfirst] at herror
      cases herror
    obtain ⟨output, mid', hrun', hprocessed⟩ := processDataMessage_run_of_admits now htag' hadmits
    rw [hfirst] at hrun'
    cases hrun'
    have hstep := Kept.processed (s := unbuffer next s) h hprocessed
      (s.channels.contains data.streamId)
    have hrest := ih (s := advance next mid) hstep
      (hprocessed.frame.peerVerificationTag.trans htag) hothers
    rw [if_pos hadmits, hfirst, AssociationOutput.events_append, List.append_cons,
      ← List.append_assoc]
    exact hrest

end Kept

/-! ## Chunks that release nothing -/

theorem messages_closeStreams (streams : List UInt16) (s : Association) :
    messages (closeStreams streams s).1.events = [] := by
  induction streams generalizing s with
  | nil => rfl
  | cons streamId rest ih =>
    unfold closeStreams
    split_ifs
    · dsimp only
      rw [AssociationOutput.events_append, messages_append, ih]
      rfl
    · exact ih s

theorem messages_performReset {expected : UInt32} {streamNumbers : Bytes} {s t : Association}
    {streams : Option (List UInt16)} {output : AssociationOutput}
    (h : (performReset expected streamNumbers).run s = (.ok (streams, output), t)) :
    messages output.events = [] := by
  rw [performReset, run_modify_bind, run_get_bind, run_ofExcept_bind] at h
  split at h
  · cases h
    exact messages_closeStreams _ _
  · cases h

/-- A handler of a reset request reports no message. -/
def Silent (action : Action (Bytes × AssociationOutput)) : Prop :=
  ∀ s response output t, action.run s = (.ok (response, output), t) → messages output.events = []

theorem silent_handleOutgoingReset (value : Bytes) : Silent (handleOutgoingReset value) := by
  intro s response output t h
  rw [handleOutgoingReset, run_ensure_bind] at h
  split_ifs at h
  swap
  · cases h
  rw [run_ofExcept_bind] at h
  split at h
  swap
  · cases h
  rw [run_get_bind, run_ofOption_bind] at h
  split at h
  swap
  · cases h
  split_ifs at h
  · rw [run_bind_eq_ok] at h
    obtain ⟨⟨streams, closed⟩, mid, hreset, h⟩ := h
    rw [run_ofExcept_bind] at h
    split at h
    · cases h
      exact messages_performReset hreset
    · cases h
  · rw [run_ofExcept_bind] at h
    split at h
    · cases h
      rfl
    · cases h

theorem silent_handleIncomingReset (value : Bytes) : Silent (handleIncomingReset value) := by
  intro s response output t h
  rw [handleIncomingReset, run_ensure_bind] at h
  split_ifs at h
  swap
  · cases h
  rw [run_ofExcept_bind] at h
  split at h
  swap
  · cases h
  rw [run_get_bind, run_ofOption_bind] at h
  split at h
  swap
  · cases h
  split_ifs at h
  · rw [run_ofExcept_bind] at h
    split at h
    · cases h
      rfl
    · cases h
  · rw [run_bind_eq_ok] at h
    obtain ⟨⟨streams, closed⟩, mid, hreset, h⟩ := h
    dsimp only at h
    rw [run_get_bind, run_modify_bind, run_ofExcept_bind] at h
    split at h
    · cases h
      exact messages_performReset hreset
    · cases h

theorem silent_handleParameters (parameters : List Parameter) :
    Silent (handleParameters parameters) := by
  induction parameters with
  | nil =>
    intro s response output t h
    cases h
    rfl
  | cons parameter rest ih =>
    have hreset : ∀ action, Silent action → Silent (followedBy action rest) := by
      intro action hsilent s response output t h
      rw [followedBy, run_bind_eq_ok] at h
      obtain ⟨⟨first, closed⟩, mid, hfirst, h⟩ := h
      dsimp only at h
      rw [run_bind_eq_ok] at h
      obtain ⟨⟨others, outputs⟩, t', hothers, h⟩ := h
      cases h
      rw [AssociationOutput.events_append, messages_append, hsilent _ _ _ _ hfirst,
        ih _ _ _ _ hothers]
      rfl
    unfold handleParameters
    split_ifs
    · exact hreset _ (silent_handleOutgoingReset parameter.value)
    · exact hreset _ (silent_handleIncomingReset parameter.value)
    · intro s response output t h
      rw [run_ensure_bind] at h
      split_ifs at h
      · exact ih _ _ _ _ h
      · cases h
    · intro s response output t h
      cases h
      rfl

theorem messages_handleReconfiguration {value : Bytes} {s t : Association}
    {output : AssociationOutput} (h : (handleReconfiguration value).run s = (.ok output, t)) :
    messages output.events = [] := by
  rw [handleReconfiguration, run_get_bind, run_ensure_bind] at h
  split_ifs at h
  swap
  · cases h
  rw [run_ofExcept_bind] at h
  split at h
  swap
  · cases h
  rw [run_ensure_bind] at h
  split_ifs at h
  swap
  · cases h
  rw [run_bind_eq_ok] at h
  obtain ⟨⟨response, closed⟩, mid, hparameters, h⟩ := h
  have hsilent := silent_handleParameters _ _ _ _ _ hparameters
  dsimp only at h
  split_ifs at h
  · cases h
    exact hsilent
  rw [run_get_bind, run_ofExcept_bind] at h
  split at h
  swap
  · cases h
  rw [run_ofExcept_bind] at h
  split at h
  swap
  · cases h
  cases h
  rw [AssociationOutput.events_append, messages_append, hsilent]
  rfl

theorem messages_handleCookieEcho {tag : UInt32} {cookie : Bytes} {s t : Association}
    {output : AssociationOutput} (h : (handleCookieEcho tag cookie).run s = (.ok output, t)) :
    messages output.events = [] := by
  rw [handleCookieEcho, run_get_bind, run_ensure_bind] at h
  split_ifs at h
  swap
  · cases h
  rw [run_ofExcept_bind] at h
  split at h
  swap
  · cases h
  rw [run_ensure_bind] at h
  split_ifs at h
  swap
  · cases h
  rw [run_modify_bind, run_ofExcept_bind] at h
  split at h
  swap
  · cases h
  rw [run_ofExcept_bind] at h
  split at h
  swap
  · cases h
  cases h
  rfl

theorem messages_guarded {tag : UInt32} {action : Action AssociationOutput} {s t : Association}
    {output : AssociationOutput}
    (haction : ∀ output t, action.run s = (.ok output, t) → messages output.events = [])
    (h : (guarded tag action).run s = (.ok output, t)) : messages output.events = [] := by
  rw [guarded_run] at h
  split_ifs at h
  · exact haction output t h
  · cases h

theorem messages_control {now : ℕ} {tag : UInt32} {chunk : ParsedChunk} {s t : Association}
    {output : AssociationOutput} (hcontrol : isLogged chunk = false)
    (h : (handleChunk now tag chunk).run s = (.ok output, t)) : messages output.events = [] := by
  simp only [isLogged, Bool.or_eq_false_iff, decide_eq_false_iff_not] at hcontrol
  revert output t
  refine handleChunk_elim (P := fun action => ∀ {t : Association} {output : AssociationOutput},
    action.run s = (.ok output, t) → messages output.events = []) now tag chunk
    ?_ ?_ ?_ ?_ ?_ ?_ ?_ ?_ ?_ ?_
  · exact fun hkind => absurd hkind hcontrol.1.1
  · exact fun _ _ _ h => messages_handleCookieEcho h
  · exact fun hkind => absurd hkind hcontrol.1.2
  · refine fun _ _ _ h => messages_guarded ?_ h
    intro output t h
    obtain ⟨_, _, _, h⟩ := run_bind_eq_ok.mp h
    cases h
    rfl
  · refine fun _ _ _ h => messages_guarded ?_ h
    intro output t h
    rw [handleHeartbeat, run_get_bind, run_ofExcept_bind] at h
    split at h
    swap
    · cases h
    rw [run_ofExcept_bind] at h
    split at h
    · cases h
      rfl
    · cases h
  · intro _ t output h
    cases h
    rfl
  · refine fun _ _ _ h => messages_guarded ?_ h
    intro output t h
    rw [handleShutdown, run_modify_bind, run_get_bind, run_ofExcept_bind] at h
    split at h
    swap
    · cases h
    rw [run_ofExcept_bind] at h
    split at h
    · cases h
      rfl
    · cases h
  · exact fun _ _ _ h => messages_guarded (fun _ _ h => messages_handleReconfiguration h) h
  · exact fun hkind => absurd hkind hcontrol.2
  · intro _ t output h
    cases h
    rfl

/-! ## One chunk -/

/-- A DATA chunk that is not the next TSN releases nothing. -/
theorem released_eq_nil {s : Association} {cumulative : UInt32} {data : DataChunk}
    (hbuf : Buffered cumulative s.pendingData) (hne : data.tsn ≠ cumulative + 1) :
    s.released cumulative data = ([], s.buffer data) := by
  refine drain_of_none _ ?_
  rw [buffer, ExtTreeMap.getElem?_insert, if_neg]
  · exact hbuf.next_eq_none
  · rw [Std.compare_eq_iff_eq]
    exact hne

theorem u32At_of_parse {flags : UInt8} {value : Bytes} {data : DataChunk}
    (h : DataChunk.parse flags value = .ok data) : value.u32At 0 = some data.tsn := by
  simp only [DataChunk.parse, readU32, bind, Except.bind] at h
  rcases htsn : value.u32At 0 with _ | tsn
  · rw [htsn] at h
    cases h
  rw [htsn] at h
  dsimp only [Option.elim] at h
  split at h
  · cases h
  split at h
  · cases h
  split at h
  · cases h
  cases h
  rfl

/-- A handler that completes no message, and that is not refused after a write to the receive
side. -/
def Uneventful (s : Association) (log : List Released) (action : Action AssociationOutput) : Prop :=
  log.countP Released.completes = 0 ∧
    ∀ error t, action.run s = (.error error, t) → log = [] ∧ ReassemblyKept s t

theorem uneventful_of_follows {s : Association} {action : Action AssociationOutput}
    {verdict : Verdict} (h : Follows s action verdict) (hverdict : verdict ≠ .writes) :
    Uneventful s [] action := by
  refine ⟨rfl, fun error t hrun => ⟨rfl, ?_⟩⟩
  have hstate := h.state_eq hverdict
  rw [hrun] at hstate
  cases hstate
  exact fun _ _ h => h

theorem Uneventful.guarded {s : Association} {log : List Released}
    {action : Action AssociationOutput} {tag : UInt32}
    (h : tag = s.config.verificationTag → Uneventful s log action) :
    Uneventful s (if tag = s.config.verificationTag then log else [])
      (Association.guarded tag action) := by
  by_cases htag : tag = s.config.verificationTag
  · obtain ⟨hcount, herror⟩ := h htag
    rw [if_pos htag]
    refine ⟨hcount, fun error t hrun => herror error t ?_⟩
    rwa [guarded_run, if_pos htag] at hrun
  · rw [if_neg htag]
    refine ⟨rfl, fun error t hrun => ⟨rfl, ?_⟩⟩
    rw [guarded_run, if_neg htag] at hrun
    cases hrun
    exact fun _ _ h => h

theorem uneventful_init {s : Association} (hs : Sound s) (tag : UInt32) (value : Bytes) :
    Uneventful s (initLog tag value) (handleInit tag value) := by
  have hinit := handleInit_run hs tag value
  unfold initLog
  split at hinit
  next hparse =>
    have hfollows : Follows s (handleInit tag value) .refused := ⟨_, hinit⟩
    rw [hparse]
    exact uneventful_of_follows hfollows (by decide)
  next init hparse =>
    obtain ⟨output, hok, -⟩ := hinit
    rw [hparse]
    refine ⟨rfl, fun error t hrun => ?_⟩
    rw [hok] at hrun
    cases hrun

theorem uneventful_data {s : Association} (hs : Sound s) (now : ℕ) {flags : UInt8} {value : Bytes}
    (hlate : ∀ cumulative, s.cumulativePeerTsn = some cumulative →
      s.dataVerdict flags value = .writes → value.u32At 0 ≠ some (cumulative + 1)) :
    Uneventful s (s.dataLog now flags value) (handleData now flags value) := by
  by_cases hwrites : s.dataVerdict flags value = .writes
  swap
  · have hlog : s.dataLog now flags value = [] := by
      unfold dataLog
      split
      · rw [if_neg hwrites]
      · rfl
    rw [hlog]
    exact uneventful_of_follows (follows_data hs now flags value) hwrites
  obtain ⟨data, cumulative, batch, pending, peer, hpeer, hdata, hcum, hreleased, -, hrun⟩ :=
    handleData_writes hs now hwrites
  have hne : data.tsn ≠ cumulative + 1 := by
    intro hnext
    exact hlate cumulative hcum hwrites (by rw [u32At_of_parse hdata, hnext])
  have hnothing : s.released cumulative data = ([], s.buffer data) :=
    released_eq_nil (hs.buffered cumulative hcum) hne
  rw [dataLog, hdata, hcum]
  dsimp only
  rw [if_pos hwrites, hnothing]
  refine ⟨rfl, fun error t herror => ?_⟩
  rw [hnothing] at hreleased
  obtain ⟨rfl, -⟩ := Prod.ext_iff.mp hreleased
  rcases hrun with ⟨error', hwrong, -⟩ | ⟨output, sack, -, hok⟩
  · cases hwrong
  · rw [hok] at herror
    cases herror

theorem uneventful_forwardTsn {s : Association} (hs : Sound s) (now : ℕ) {value : Bytes}
    (hgap : ∀ tsn, s.forwardTsnVerdict value = .writes → value.u32At 0 = some tsn →
      tsn + 1 ∉ s.pendingData) :
    Uneventful s (s.forwardTsnLog now value) (handleForwardTsn now value) := by
  by_cases hwrites : s.forwardTsnVerdict value = .writes
  swap
  · have hlog : s.forwardTsnLog now value = [] := by
      unfold forwardTsnLog
      split
      · rw [if_neg hwrites]
      · rfl
    rw [hlog]
    exact uneventful_of_follows (follows_forwardTsn hs now value) hwrites
  obtain ⟨newCumulativeTsn, peer, hread, -, -, -, hrun⟩ := handleForwardTsn_writes hs now hwrites
  have hword : value.u32At 0 = some newCumulativeTsn := by
    rw [readU32] at hread
    rcases hword : value.u32At 0 with _ | tsn
    · rw [hword] at hread
      cases hread
    · rw [hword] at hread
      cases hread
      rfl
  have hfree : (s.forwarded value newCumulativeTsn).pendingData[newCumulativeTsn + 1]? = none := by
    rw [forwarded, ExtTreeMap.getElem?_filter',
      Maps.not_mem_iff.mp (hgap newCumulativeTsn hwrites hword)]
    rfl
  have hloop : ∀ fuel, pendingLog now fuel (newCumulativeTsn + 1)
      (s.forwarded value newCumulativeTsn) = [] ∧
        (releasePending now fuel (newCumulativeTsn + 1)).run (s.forwarded value newCumulativeTsn) =
          (.ok {}, s.forwarded value newCumulativeTsn) := by
    intro fuel
    cases fuel with
    | zero => exact ⟨rfl, rfl⟩
    | succ fuel =>
      rw [pendingLog, releasePending, run_get_bind, hfree]
      exact ⟨rfl, rfl⟩
  rw [forwardTsnLog, hread]
  dsimp only
  rw [if_pos hwrites, (hloop _).1]
  refine ⟨rfl, fun error t herror => ?_⟩
  rw [(hloop _).2] at hrun
  rcases hrun with ⟨error', hwrong, -⟩ | ⟨output, sack, -, hok⟩
  · cases hwrong
  · rw [hok] at herror
    cases herror

/-- A chunk that does not release data completes no message, and is not refused after a write to
the receive side. -/
theorem uneventful_of_not_releases {s : Association} (hs : Sound s) (now : ℕ) {tag : UInt32}
    {chunk : ParsedChunk} (h : s.releases tag chunk = false) :
    Uneventful s (s.chunkLog now tag chunk) (handleChunk now tag chunk) := by
  by_cases hlogged : isLogged chunk = true
  swap
  · rw [Bool.not_eq_true] at hlogged
    rw [chunkLog_of_not_logged hlogged]
    refine ⟨rfl, fun error t hrun => ⟨rfl, ?_⟩⟩
    have hframe := controlFrame_handleChunk now tag s hlogged
    rw [hrun] at hframe
    exact hframe.reassembly
  rcases isLogged_cases hlogged with hkind | hkind | hkind
  · rw [chunkLog, if_pos hkind, handleChunk_init hkind]
    exact uneventful_init hs tag chunk.value
  · rw [chunkLog_data hkind, handleChunk_data hkind]
    refine Uneventful.guarded fun htag => uneventful_data hs now ?_
    intro cumulative hcum hwrites hnext
    rw [releases, hcum] at h
    simp [htag, hkind, hwrites, hnext] at h
  · rw [chunkLog_forwardTsn hkind, handleChunk_forwardTsn hkind]
    refine Uneventful.guarded fun htag => uneventful_forwardTsn hs now ?_
    intro tsn hwrites hword hmem
    obtain ⟨current, hcum⟩ : ∃ current, s.cumulativePeerTsn = some current := by
      rw [forwardTsnVerdict] at hwrites
      split_ifs at hwrites
      split at hwrites
      · exact ⟨_, ‹_›⟩
      · cases hwrites
    have hcontains := ExtTreeMap.contains_iff_mem.mpr hmem
    rw [releases, hcum] at h
    simp [htag, hkind, hwrites, hword, hcontains] at h

/-- A DATA chunk that does not write is a duplicate, and reports nothing. -/
theorem handleData_events {s t : Association} (hs : Sound s) {now : ℕ} {flags : UInt8}
    {value : Bytes} {output : AssociationOutput} (h : s.dataVerdict flags value ≠ .writes)
    (hrun : (handleData now flags value).run s = (.ok output, t)) : output.events = [] := by
  by_cases hguard : s.state = .established ∧ dataFixedLen - 4 ≤ value.length
  swap
  · rw [handleData, run_get_bind, run_ensure_bind, if_neg hguard] at hrun
    cases hrun
  obtain ⟨peer, hpeer⟩ := hs.known (.inr hguard.1)
  obtain ⟨⟨cumulative, hcum⟩, -⟩ := hs.started peer hpeer
  obtain ⟨hwrong, -⟩ | ⟨data, -, hdata, hcases⟩ := handleData_run now flags value hpeer hcum
    (hs.buffered cumulative hcum)
  · exact absurd hguard hwrong
  obtain ⟨-, sack, hok⟩ | ⟨-, -, hrefused⟩ | ⟨hnew, hwindow, -⟩ := hcases
  · rw [hrun] at hok
    cases hok
    rfl
  · rw [hrun] at hrefused
    cases hrefused
  · rw [dataVerdict, if_pos hguard, hdata, hcum] at h
    dsimp only at h
    rw [hnew, if_neg Bool.false_ne_true, if_neg (by omega)] at h
    exact absurd rfl h

/-- A FORWARD TSN that does not write is behind, and reports nothing. -/
theorem handleForwardTsn_events {s t : Association} (hs : Sound s) {now : ℕ} {value : Bytes}
    {output : AssociationOutput} (h : s.forwardTsnVerdict value ≠ .writes)
    (hrun : (handleForwardTsn now value).run s = (.ok output, t)) : output.events = [] := by
  by_cases hallowed : s.forwardTsnAllowed value = true
  swap
  · rw [handleForwardTsn, run_get_bind, run_ensure_bind, if_neg] at hrun
    · cases hrun
    · simpa [forwardTsnAllowed, and_assoc] using hallowed
  have hstate : s.state = .established := by
    simp only [forwardTsnAllowed, Bool.and_eq_true, decide_eq_true_eq] at hallowed
    exact hallowed.1.1.1
  obtain ⟨peer, hpeer⟩ := hs.known (.inr hstate)
  obtain ⟨⟨current, hcum⟩, -⟩ := hs.started peer hpeer
  obtain ⟨hwrong, -⟩ | ⟨newCumulativeTsn, -, hread, hcases⟩ :=
    handleForwardTsn_run now value hpeer hcum (hs.buffered current hcum)
  · rw [hallowed] at hwrong
    cases hwrong
  obtain ⟨-, sack, hok⟩ | ⟨hnew, -⟩ := hcases
  · rw [hrun] at hok
    cases hok
    rfl
  · rw [forwardTsnVerdict, if_pos hallowed, hread, hcum] at h
    dsimp only at h
    rw [hnew, if_neg Bool.false_ne_true] at h
    exact absurd rfl h

theorem Kept.data {log : List Released} {events : List AssociationEvent} {s t : Association}
    (h : Kept log events s.reassembly) (hs : Sound s) {now : ℕ} {flags : UInt8} {value : Bytes}
    {output : AssociationOutput} (hrun : (handleData now flags value).run s = (.ok output, t)) :
    Kept (log ++ s.dataLog now flags value) (events ++ output.events) t.reassembly := by
  by_cases hwrites : s.dataVerdict flags value = .writes
  · obtain ⟨data, cumulative, batch, pending, peer, hpeer, hdata, hcum, hreleased, -, hcases⟩ :=
      handleData_writes hs now hwrites
    rw [dataLog, hdata, hcum]
    dsimp only
    rw [if_pos hwrites, hreleased]
    rcases hcases with ⟨error, -, hwrong⟩ | ⟨inner, sack, hinner, hok⟩
    · rw [hrun] at hwrong
      cases hwrong
    rcases hall : (processAll now batch).run { s with
        pendingData := pending
        cumulativePeerTsn := some (cumulative + .ofNat batch.length) } with ⟨result, t'⟩
    rw [hall] at hinner hok
    cases hinner
    rw [hrun] at hok
    cases hok
    rw [AssociationOutput.events_append, List.append_nil]
    exact Kept.batch now (s := { s with
      pendingData := pending
      cumulativePeerTsn := some (cumulative + .ofNat batch.length) }) h hpeer hall
  · have hlog : s.dataLog now flags value = [] := by
      unfold dataLog
      split
      · rw [if_neg hwrites]
      · rfl
    have hstate := (follows_data hs now flags value).state_eq hwrites
    rw [hrun] at hstate
    cases hstate
    rw [hlog, handleData_events hs hwrites hrun, List.append_nil, List.append_nil]
    exact h

theorem Kept.forwardTsn {log : List Released} {events : List AssociationEvent}
    {s t : Association} (h : Kept log events s.reassembly) (hs : Sound s) {now : ℕ} {value : Bytes}
    {output : AssociationOutput} (hrun : (handleForwardTsn now value).run s = (.ok output, t)) :
    Kept (log ++ s.forwardTsnLog now value) (events ++ output.events) t.reassembly := by
  by_cases hwrites : s.forwardTsnVerdict value = .writes
  · obtain ⟨newCumulativeTsn, peer, hread, hpeer, -, -, hcases⟩ :=
      handleForwardTsn_writes hs now hwrites
    rw [forwardTsnLog, hread]
    dsimp only
    rw [if_pos hwrites]
    rcases hcases with ⟨error, -, hwrong⟩ | ⟨inner, sack, hinner, hok⟩
    · rw [hrun] at hwrong
      cases hwrong
    rcases hall : (releasePending now (s.forwarded value newCumulativeTsn).pendingData.size
      (newCumulativeTsn + 1)).run (s.forwarded value newCumulativeTsn) with ⟨result, t'⟩
    rw [hall] at hinner hok
    cases hinner
    rw [hrun] at hok
    cases hok
    have hskip : Kept (log ++ [.skip newCumulativeTsn]) events
        (s.forwarded value newCumulativeTsn).reassembly := h.interrupted (by simp) _
    rw [AssociationOutput.events_append, List.append_nil, List.append_cons]
    exact hskip.pending now _ hpeer hall
  · have hlog : s.forwardTsnLog now value = [] := by
      unfold forwardTsnLog
      split
      · rw [if_neg hwrites]
      · rfl
    have hstate := (follows_forwardTsn hs now value).state_eq hwrites
    rw [hrun] at hstate
    cases hstate
    rw [hlog, handleForwardTsn_events hs hwrites hrun, List.append_nil, List.append_nil]
    exact h

theorem Kept.chunk {log : List Released} {events : List AssociationEvent} {s t : Association}
    (h : Kept log events s.reassembly) (hs : Sound s) {now : ℕ} {tag : UInt32}
    {chunk : ParsedChunk} {output : AssociationOutput}
    (hrun : (handleChunk now tag chunk).run s = (.ok output, t)) :
    Kept (log ++ s.chunkLog now tag chunk) (events ++ output.events) t.reassembly := by
  by_cases hlogged : isLogged chunk = true
  swap
  · rw [Bool.not_eq_true] at hlogged
    have hframe := controlFrame_handleChunk now tag s hlogged
    rw [hrun] at hframe
    rw [chunkLog_of_not_logged hlogged, List.append_nil]
    refine (h.reassemblyKept hframe.reassembly).congr ?_
    rw [messages_append, messages_control hlogged hrun, List.append_nil]
  rcases isLogged_cases hlogged with hkind | hkind | hkind
  · have hinit := handleInit_run hs tag chunk.value
    rw [handleChunk_init hkind] at hrun
    rw [chunkLog, if_pos hkind, initLog]
    split at hinit
    next hparse =>
      rw [hrun] at hinit
      cases hinit
    next init hparse =>
      obtain ⟨output', hrun', hevents⟩ := hinit
      rw [hrun] at hrun'
      cases hrun'
      rw [hparse, hevents, List.append_nil]
      exact h.interrupted (by simp) _
  · rw [handleChunk_data hkind, guarded_run] at hrun
    rw [chunkLog_data hkind]
    split_ifs at hrun with htag
    swap
    · cases hrun
    rw [if_pos htag]
    exact h.data hs hrun
  · rw [handleChunk_forwardTsn hkind, guarded_run] at hrun
    rw [chunkLog_forwardTsn hkind]
    split_ifs at hrun with htag
    swap
    · cases hrun
    rw [if_pos htag]
    exact h.forwardTsn hs hrun

/-! ## Packets and runs -/

theorem exists_of_accepts {s : Association} (hs : Sound s) {now : ℕ} {tag : UInt32}
    {chunk : ParsedChunk} (h : s.accepts now tag chunk = true) :
    ∃ output t, (handleChunk now tag chunk).run s = (.ok output, t) ∧ Sound t := by
  have hsound := (handleChunk_effect now tag chunk hs).sound hs
  rw [← isOk_handleChunk hs] at h
  rcases hrun : (handleChunk now tag chunk).run s with ⟨error | output, t⟩
  · rw [hrun] at h
    cases h
  · rw [hrun] at hsound
    exact ⟨output, t, rfl, hsound⟩

theorem Kept.acceptsAll {now : ℕ} {tag : UInt32} {chunks : List ParsedChunk}
    {log : List Released} {events : List AssociationEvent} {s : Association}
    (h : Kept log events s.reassembly) (hs : Sound s)
    (haccepts : Association.acceptsAll now tag chunks s = true) :
    ∃ output t, (handleChunks now tag chunks).run s = (.ok output, t) ∧
      Kept (log ++ chunksLog now tag chunks s) (events ++ output.events) t.reassembly := by
  induction chunks generalizing s log events with
  | nil =>
    refine ⟨{}, s, rfl, ?_⟩
    rw [chunksLog, List.append_nil, List.append_nil]
    exact h
  | cons chunk rest ih =>
    rw [Association.acceptsAll, Bool.and_eq_true] at haccepts
    obtain ⟨first, mid, hfirst, hsound⟩ := exists_of_accepts hs haccepts.1
    rw [hfirst] at haccepts
    obtain ⟨others, t, hothers, hkept⟩ := ih (h.chunk hs hfirst) hsound haccepts.2
    refine ⟨first ++ others, t, ?_, ?_⟩
    · rw [handleChunks, run_bind, hfirst]
      dsimp only
      rw [run_bind, hothers]
      rfl
    · rw [chunksLog, hfirst, AssociationOutput.events_append, ← List.append_assoc,
        ← List.append_assoc]
      exact hkept

/-- A chunk that releases nothing and is accepted reports no message. -/
theorem messages_of_not_releases {log : List Released} {events : List AssociationEvent}
    {s t : Association} (h : Kept log events s.reassembly) (hs : Sound s) {now : ℕ} {tag : UInt32}
    {chunk : ParsedChunk} (hreleases : s.releases tag chunk = false) {output : AssociationOutput}
    (hrun : (handleChunk now tag chunk).run s = (.ok output, t)) : messages output.events = [] := by
  have hcount := (uneventful_of_not_releases hs now hreleases).1
  have hafter := (h.chunk hs hrun).once.oneEach
  rw [messages_append, List.length_append, h.once.oneEach, List.countP_append, hcount] at hafter
  exact List.eq_nil_of_length_eq_zero (by omega)

/-- A careful packet is accepted with its messages, or rejected without having completed any. -/
theorem Kept.careful {now : ℕ} {tag : UInt32} {chunks : List ParsedChunk} {log : List Released}
    {events : List AssociationEvent} {s : Association} (h : Kept log events s.reassembly)
    (hs : Sound s) (hcareful : Association.careful now tag chunks s = true) :
    match (handleChunks now tag chunks).run s with
    | (.ok output, t) =>
        Kept (log ++ chunksLog now tag chunks s) (events ++ output.events) t.reassembly
    | (.error _, t) => Kept (log ++ chunksLog now tag chunks s) events t.reassembly := by
  induction chunks generalizing s log events with
  | nil =>
    show Kept (log ++ []) (events ++ []) s.reassembly
    rw [List.append_nil, List.append_nil]
    exact h
  | cons chunk rest ih =>
    unfold Association.careful at hcareful
    by_cases hreleases : s.releases tag chunk = true
    · rw [if_pos hreleases] at hcareful
      obtain ⟨output, t, hrun, hkept⟩ := h.acceptsAll hs hcareful
      rw [hrun]
      exact hkept
    rw [if_neg hreleases] at hcareful
    rw [Bool.not_eq_true] at hreleases
    by_cases haccepts : s.accepts now tag chunk = true
    · -- nothing is released yet: the events of this chunk hold no message
      rw [haccepts, Bool.not_true, Bool.false_or] at hcareful
      obtain ⟨first, mid, hfirst, hsound⟩ := exists_of_accepts hs haccepts
      have hnone := messages_of_not_releases h hs hreleases hfirst
      rw [hfirst] at hcareful
      have hmid : Kept (log ++ s.chunkLog now tag chunk) events mid.reassembly := by
        refine (h.chunk hs hfirst).congr ?_
        rw [messages_append, hnone, List.append_nil]
      have hrest := ih hmid hsound hcareful
      rw [handleChunks, run_bind, hfirst, chunksLog, hfirst]
      dsimp only
      rw [run_bind, ← List.append_assoc]
      rcases hothers : (handleChunks now tag rest).run mid with ⟨error | others, t⟩
      · rw [hothers] at hrest
        exact hrest
      · rw [hothers] at hrest
        refine hrest.congr ?_
        rw [AssociationOutput.events_append, messages_append, messages_append, messages_append,
          hnone]
        rfl
    · have herror := isOk_handleChunk hs now tag chunk
      rw [Bool.not_eq_true] at haccepts
      rw [haccepts] at herror
      rw [handleChunks, run_bind, chunksLog]
      rcases hrun : (handleChunk now tag chunk).run s with ⟨error | output, t⟩
      · obtain ⟨hlog, hkept⟩ := (uneventful_of_not_releases hs now hreleases).2 error t hrun
        dsimp only
        rw [hlog, List.append_nil, List.append_nil]
        exact h.reassemblyKept hkept
      · rw [hrun] at herror
        cases herror

theorem Kept.step {log : List Released} {events : List AssociationEvent} {s : Association}
    (h : Kept log events s.reassembly) (hs : Sound s) {input : Input}
    (hmeets : input.meets Association.careful s = true) :
    Kept (log ++ input.log s) (events ++ input.delivered s) (s.step input).reassembly := by
  cases input with
  | packet now bytes =>
    rw [Input.log, Input.delivered, Association.step]
    rw [Input.meets] at hmeets
    rcases hparse : ParsedPacket.parse bytes with error | parsed
    · rw [handlePacket, hparse, run_ofExcept_bind, List.append_nil]
      dsimp only
      rw [List.append_nil]
      exact h
    rw [hparse] at hmeets
    dsimp only at hmeets ⊢
    rw [handlePacket, hparse, run_ofExcept_bind]
    dsimp only
    rw [run_get_bind, run_ensure_bind]
    by_cases hports : parsed.sourcePort = s.config.remotePort ∧
        parsed.destinationPort = s.config.localPort
    swap
    · rw [if_neg hports, if_neg hports, List.append_nil]
      dsimp only
      rw [List.append_nil]
      exact h
    rw [decide_eq_true hports, Bool.not_true, Bool.false_or] at hmeets
    have hkept := h.careful hs hmeets
    rw [if_pos hports, if_pos hports]
    rcases hrun : (handleChunks now parsed.verificationTag parsed.chunks).run s with
      ⟨error | output, t⟩
    · rw [hrun] at hkept
      dsimp only
      rw [List.append_nil]
      exact hkept
    · rw [hrun] at hkept
      exact hkept
  | send now streamId kind payload =>
    have hsame : (s.step (.send now streamId kind payload)).reassembly = s.reassembly := by
      obtain ⟨error, hrun⟩ | ⟨hstate, channel, message, wire, -, hrun⟩ :=
        sendMessage_run now streamId kind payload s
      · rw [Association.step, hrun]
      · obtain ⟨peer, hpeer⟩ := hs.known (.inr hstate)
        rw [Association.step, hrun]
        obtain ⟨-, hqueue⟩ | ⟨-, packets, outstanding, hqueue, -⟩ :=
          enqueueMessage_run now message wire { s with
            channels := s.channels.insert streamId
              { channel with nextOutgoingSequence := channel.nextOutgoingSequence + 1 } } hpeer
        · rw [hqueue]
        · rw [hqueue]
    show Kept (log ++ []) (events ++ []) (s.step (.send now streamId kind payload)).reassembly
    rw [hsame, List.append_nil, List.append_nil]
    exact h
  | tick now =>
    obtain ⟨state, outstanding, abandoned, pendingForwardTsn, hrun, -⟩ := tick_run now s
    show Kept (log ++ []) (events ++ []) (s.step (.tick now)).reassembly
    rw [List.append_nil, List.append_nil, Association.step, hrun]
    exact h

theorem Kept.run {log : List Released} {events : List AssociationEvent} {s : Association}
    (h : Kept log events s.reassembly) (hs : Sound s) {inputs : List Input}
    (hcareful : allMeet Association.careful inputs s = true) :
    Kept (log ++ runLog inputs s) (events ++ runDelivered inputs s)
      (runInputs inputs s).reassembly := by
  induction inputs generalizing s log events with
  | nil =>
    rw [runLog, runDelivered, List.append_nil, List.append_nil]
    exact h
  | cons input rest ih =>
    rw [allMeet, Bool.and_eq_true] at hcareful
    rw [runLog, runDelivered, ← List.append_assoc, ← List.append_assoc]
    exact ih (h.step hs hcareful.1) (sound_step hs input) hcareful.2

theorem kept_nil (reassembly : ExtTreeMap UInt16 Reassembly) : Kept [] [] reassembly := by
  refine ⟨⟨rfl, ?_⟩, ?_⟩
  · intro before entries after streamId sequence ppid hlog hmessage
    have hnil : entries = [] := by
      have hlen := congrArg List.length hlog
      simp only [List.length_append, List.length_nil] at hlen
      exact List.eq_nil_of_length_eq_zero (by omega)
    exact absurd hnil hmessage.ne_nil
  · intro before entries streamId sequence ppid hlog hfragments
    exact absurd (List.append_eq_nil_iff.mp hlog.symm).2 hfragments.ne_nil

/-- In every run in which no packet is rejected once it has released data, the log leads to the
cumulative TSN and every user message in it is reported exactly once. -/
theorem deliveredOnce_of_careful {config : AssociationConfig} {start : Association}
    (hnew : new config = .ok start) (inputs : List Input)
    (hcareful : allMeet Association.careful inputs start = true) :
    DeliveredOnce (runLog inputs start) (runDelivered inputs start) ∧
      Continues none (runLog inputs start) (runInputs inputs start).cumulativePeerTsn := by
  have hs := sound_new hnew
  have hkept := (kept_nil start.reassembly).run hs hcareful
  have hlog := continues_runLog hs inputs
  have hstart : start.cumulativePeerTsn = none := by
    unfold new at hnew
    rcases hvalid : config.validate with error | ⟨⟩
    · rw [hvalid] at hnew
      cases hnew
    rw [hvalid] at hnew
    cases hnew
    rfl
  rw [hstart] at hlog
  exact ⟨hkept.once, hlog⟩

namespace Sample

/-- A channel, and a message in two fragments of which the last one arrives first. -/
def fragmented : List Input :=
  establish false ++
    [.packet 2000000 (data 3 500 0 0 ppidDcep dcepOpenPayload),
      .packet 3000000 (data 1 502 0 0 ppidBinary [3]),
      .packet 4000000 (data 2 501 0 0 ppidBinary [1, 2])]

/-- A channel, a whole message that waits for TSN 501, and a TSN 501 with an unknown PPID. -/
def spoiled : List Input :=
  establish false ++
    [.packet 2000000 (data 3 500 0 0 ppidDcep dcepOpenPayload),
      .packet 3000000 (data 3 502 0 0 ppidBinary [1, 2, 3]),
      .packet 4000000 (data 3 501 0 0 99 [0])]

end Sample

/-- The message in two fragments is reported, by the theorem. -/
theorem deliveredOnce_of_careful_sample :
    ∃ start, new Sample.config = .ok start ∧
      messages (runDelivered Sample.fragmented start) = [.message 0 .binary [1, 2, 3]] ∧
      DeliveredOnce (runLog Sample.fragmented start) (runDelivered Sample.fragmented start) := by
  refine ⟨_, rfl, by decide +kernel, ?_⟩
  exact (@deliveredOnce_of_careful Sample.config _ rfl Sample.fragmented (by decide +kernel)).1

/-- The whole message of TSN 502 is buffered, TSN 501 releases both, its PPID fails the packet, and
the message is acknowledged and never reported. -/
theorem spoiled_batch_not_delivered :
    ∃ start, new Sample.config = .ok start ∧
      (runInputs Sample.spoiled start).cumulativePeerTsn = some 502 ∧
      messages (runDelivered Sample.spoiled start) = [] ∧
      ¬DeliveredOnce (runLog Sample.spoiled start) (runDelivered Sample.spoiled start) := by
  refine ⟨_, rfl, by decide +kernel, by decide +kernel, fun h => ?_⟩
  have hevent := h.content _ _ [] 0 0 ppidBinary (show _ = [.restart 500,
    .data ⟨3, 500, 0, 0, ppidDcep, Sample.dcepOpenPayload⟩ false, .data ⟨3, 501, 0, 0, 99, [0]⟩ true] ++
      [.data ⟨3, 502, 0, 0, ppidBinary, [1, 2, 3]⟩ true] ++ [] by decide +kernel)
    (.whole ⟨rfl, rfl, rfl⟩ (by decide) (by decide)) (by decide)
  revert hevent
  decide +kernel

end Association

end Fluvora.DataChannel
