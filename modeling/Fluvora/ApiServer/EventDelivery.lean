import Fluvora.ApiServer.EventStream

/-!
# What an event stream delivers

However the sections of the appends and of the stream are interleaved, a stream sends events of the room
in ascending order, without repeating one (`events_ascend`).  If the page had everything that was asked
for, then up to the first notice nothing is missing (`events_complete`), and the notice says where to go
on.
-/

namespace Fluvora.ApiServer

open Broadcast Domain

variable {Payload : Type}

namespace StreamItem

def events : List (StreamItem Payload) → List (SignalRecord Payload)
  | [] => []
  | .event signal :: items => signal :: events items
  | .resync _ :: items => events items

/-- The events before the first notice. -/
def unbroken : List (StreamItem Payload) → List (SignalRecord Payload)
  | [] => []
  | .event signal :: items => signal :: unbroken items
  | .resync _ :: _ => []

/-- What the first notice says, or the cursor if there is none. -/
def reached : List (StreamItem Payload) → UInt64 → UInt64
  | [], cursor => cursor
  | .event _ :: items, cursor => reached items cursor
  | .resync after :: _, _ => after

def noticed : List (StreamItem Payload) → Bool
  | [] => false
  | .event _ :: items => noticed items
  | .resync _ :: _ => true

variable (items : List (StreamItem Payload))

theorem events_append (others : List (StreamItem Payload)) :
    events (items ++ others) = events items ++ events others := by
  induction items with
  | nil => rfl
  | cons item items ih => cases item <;> simp [events, ih]

theorem events_map (signals : List (SignalRecord Payload)) :
    events (signals.map .event) = signals := by
  induction signals with
  | nil => rfl
  | cons signal signals ih => rw [List.map_cons, events, ih]

theorem noticed_map (signals : List (SignalRecord Payload)) :
    noticed (signals.map StreamItem.event) = false := by
  induction signals with
  | nil => rfl
  | cons signal signals ih => rw [List.map_cons, noticed, ih]

variable {items}

/-- Without a notice nothing is broken. -/
theorem unbroken_of_noticed (h : noticed items = false) (cursor : UInt64) :
    unbroken items = events items ∧ reached items cursor = cursor := by
  induction items with
  | nil => exact ⟨rfl, rfl⟩
  | cons item items ih =>
    cases item with
    | event signal => exact ⟨congrArg (signal :: ·) (ih h).1, (ih h).2⟩
    | resync after => cases h

/-- Behind a notice nothing counts any more. -/
theorem unbroken_append (h : noticed items = true) (others : List (StreamItem Payload))
    (cursor last : UInt64) :
    unbroken (items ++ others) = unbroken items ∧
      reached (items ++ others) cursor = reached items last ∧ noticed (items ++ others) = true := by
  induction items with
  | nil => cases h
  | cons item items ih =>
    cases item with
    | event signal => exact ⟨congrArg (signal :: ·) (ih h).1, (ih h).2⟩
    | resync after => exact ⟨rfl, rfl, rfl⟩

theorem noticed_append_event (signal : SignalRecord Payload) :
    noticed (items ++ [.event signal]) = noticed items := by
  induction items with
  | nil => rfl
  | cons item items ih => cases item <;> simp [noticed, ih]

theorem unbroken_append_resync (h : noticed items = false) (after cursor : UInt64) :
    unbroken (items ++ [.resync after]) = events items ∧
      reached (items ++ [.resync after]) cursor = after ∧
      noticed (items ++ [.resync after]) = true := by
  induction items with
  | nil => exact ⟨rfl, rfl, rfl⟩
  | cons item items ih =>
    cases item with
    | event signal => exact ⟨congrArg (signal :: ·) (ih h).1, (ih h).2⟩
    | resync after => cases h

end StreamItem

/-! ## Streams -/

open StreamItem

/-- A stream of a room whose signals are `log`, of which `sent` came through the channel. -/
structure Serves (log sent : List (SignalRecord Payload)) (stream : EventStream Payload) : Prop where
  position_le : stream.position ≤ sent.length
  cursor_le : stream.cursor.toNat ≤ log.length
  ascending : (events stream.output).Pairwise fun a b => a.sequence.toNat < b.sequence.toNat
  below : ∀ event ∈ events stream.output, event.sequence.toNat ≤ stream.cursor.toNat
  listed : ∀ event ∈ events stream.output, event ∈ log ∧ event.visible stream.participant = true
  follows : stream.whole = true → noticed stream.output = false →
    Follows (fun signal => signal.sequence.toNat)
      (fun signal => signal.wanted stream.participant stream.after) log stream.position
      stream.cursor.toNat ((events stream.output).filter fun event => stream.after < event.sequence)
  stopped : stream.whole = true → noticed stream.output = true →
    (reached stream.output stream.cursor).toNat ≤ log.length ∧
      (unbroken stream.output).filter (fun event => stream.after < event.sequence) =
        log.filter fun signal => signal.wanted stream.participant stream.after &&
          signal.sequence.toNat ≤ (reached stream.output stream.cursor).toNat

variable {log sent : List (SignalRecord Payload)} {stream : EventStream Payload}
  {event signal : SignalRecord Payload}

/-- More may be sent. -/
theorem Serves.send (h : Serves log sent stream) (more : List (SignalRecord Payload)) :
    Serves log (sent ++ more) stream :=
  { h with position_le := h.position_le.trans (by rw [List.length_append]; omega) }

/-- The room goes on with the next number. -/
theorem Serves.append (h : Serves log sent stream) (hsent : sent.length ≤ log.length)
    (hnext : signal.sequence.toNat = log.length + 1) : Serves (log ++ [signal]) sent stream := by
  have hlength : (log ++ [signal]).length = log.length + 1 := by simp
  refine ⟨h.position_le, ?_, h.ascending, h.below, fun event hevent => ?_, fun hwhole hnoticed => ?_,
    fun hwhole hnoticed => ?_⟩
  · have hcursor := h.cursor_le
    omega
  · exact ⟨List.mem_append_left _ (h.listed event hevent).1, (h.listed event hevent).2⟩
  · have hcursor := h.cursor_le
    exact (h.follows hwhole hnoticed).append (h.position_le.trans hsent) (by omega)
  · obtain ⟨hreached, hevents⟩ := h.stopped hwhole hnoticed
    refine ⟨by omega, ?_⟩
    rw [List.filter_append, List.filter_cons_of_neg (by simp; omega), List.filter_nil,
      List.append_nil]
    exact hevents

/-- A notice names the cursor. -/
theorem Serves.resync (h : Serves log sent stream) {position : ℕ} (hposition : position ≤ sent.length) :
    Serves log sent { stream with
      position := position, output := stream.output ++ [.resync stream.cursor] } := by
  have hevents : events (stream.output ++ [.resync stream.cursor]) = events stream.output := by
    rw [events_append, events, events, List.append_nil]
  refine ⟨hposition, h.cursor_le, ?_, ?_, ?_, fun hwhole hnoticed => ?_, fun hwhole _ => ?_⟩
  · rw [hevents]
    exact h.ascending
  · rw [hevents]
    exact h.below
  · rw [hevents]
    exact h.listed
  · cases hlast : noticed stream.output with
    | false => rw [(unbroken_append_resync hlast _ stream.cursor).2.2] at hnoticed; cases hnoticed
    | true => rw [(unbroken_append hlast _ stream.cursor stream.cursor).2.2] at hnoticed; cases hnoticed
  · cases hlast : noticed stream.output with
    | false =>
      obtain ⟨hunbroken, hreached, -⟩ :=
        unbroken_append_resync hlast stream.cursor stream.cursor
      rw [hunbroken, hreached]
      exact ⟨h.cursor_le, (h.follows hwhole hlast).given_eq⟩
    | true =>
      obtain ⟨hunbroken, hreached, -⟩ :=
        unbroken_append hlast [.resync stream.cursor] stream.cursor stream.cursor
      rw [hunbroken, hreached]
      exact h.stopped hwhole hlast

/-- An event of the channel is sent, or was replayed before, or is for somebody else. -/
theorem Serves.forward (h : Serves log sent stream)
    (hascending : log.Pairwise fun a b => a.sequence.toNat < b.sequence.toNat)
    (hbound : ∀ signal ∈ log, signal.sequence.toNat ≤ log.length) (hsent : sent <+: log)
    (hget : sent[stream.position]? = some event) :
    Serves log sent { stream.forward event with position := stream.position + 1 } := by
  obtain ⟨hlt, hvalue⟩ := List.getElem?_eq_some_iff.mp hget
  have hlog : log[stream.position]? = some event := by
    obtain ⟨rest, rfl⟩ := hsent
    rwa [List.getElem?_append_left hlt]
  have hmem : event ∈ log := List.mem_of_getElem? hlog
  unfold EventStream.forward
  split_ifs with hsend
  · obtain ⟨habove, hvisible⟩ := hsend
    rw [UInt64.lt_iff_toNat_lt] at habove
    have hevents : events (stream.output ++ [.event event]) = events stream.output ++ [event] := by
      rw [events_append, events, events]
    refine ⟨hlt, hbound event hmem, ?_, fun other hother => ?_, fun other hother => ?_,
      fun hwhole hnoticed => ?_, fun hwhole hnoticed => ?_⟩
    · rw [hevents, List.pairwise_append]
      refine ⟨h.ascending, List.pairwise_singleton _ _, fun other hother last hlast => ?_⟩
      rw [List.mem_singleton.mp hlast]
      exact (h.below other hother).trans_lt habove
    · rw [hevents, List.mem_append, List.mem_singleton] at hother
      rcases hother with hother | rfl
      · exact (h.below other hother).trans habove.le
      · exact le_rfl
    · rw [hevents, List.mem_append, List.mem_singleton] at hother
      rcases hother with hother | rfl
      · exact h.listed other hother
      · exact ⟨hmem, hvisible⟩
    · rw [noticed_append_event] at hnoticed
      have hadvance := (h.follows hwhole hnoticed).advance hascending hlog habove
      rw [hevents, List.filter_append, List.filter_singleton]
      rw [Bool.cond_eq_ite]
      simp only [SignalRecord.wanted, hvisible, Bool.and_true] at hadvance ⊢
      exact hadvance
    · rw [noticed_append_event] at hnoticed
      obtain ⟨hunbroken, hreached, -⟩ :=
        unbroken_append hnoticed [.event event] event.sequence stream.cursor
      rw [hunbroken, hreached]
      exact h.stopped hwhole hnoticed
  · refine ⟨hlt, h.cursor_le, h.ascending, h.below, h.listed, fun hwhole hnoticed => ?_, h.stopped⟩
    refine (h.follows hwhole hnoticed).skip hlog fun hwanted => ?_
    rw [SignalRecord.wanted, Bool.and_eq_true] at hwanted
    rw [not_and, UInt64.lt_iff_toNat_lt] at hsend
    exact Nat.le_of_not_lt fun habove => hsend habove hwanted.2

theorem Serves.receive (h : Serves log sent stream)
    (hascending : log.Pairwise fun a b => a.sequence.toNat < b.sequence.toNat)
    (hbound : ∀ signal ∈ log, signal.sequence.toNat ≤ log.length) (hsent : sent <+: log) :
    Serves log sent (stream.receive sent) := by
  unfold EventStream.receive
  cases hreceived : Broadcast.receive eventChannelCapacity sent stream.position with
  | none => exact h
  | some result =>
    obtain ⟨received, position⟩ := result
    cases received with
    | value event =>
      obtain ⟨hget, rfl⟩ := receive_eq_value hreceived
      exact h.forward hascending hbound hsent hget
    | lagged missed => exact h.resync (receive_eq_lagged hreceived).2

/-! ## Replays -/

theorem toNat_max (a b : UInt64) : (max a b).toNat = max a.toNat b.toNat := by
  change UInt64.toNat (if a ≤ b then b else a) = _
  split_ifs with hle
  · exact (max_eq_right (UInt64.le_iff_toNat_le.mp hle)).symm
  · rw [UInt64.le_iff_toNat_le] at hle
    exact (max_eq_left (by omega)).symm

theorem foldl_max_le_iff (signals : List (SignalRecord Payload)) (first : UInt64) (bound : ℕ) :
    (signals.foldl (fun cursor event => max cursor event.sequence) first).toNat ≤ bound ↔
      first.toNat ≤ bound ∧ ∀ signal ∈ signals, signal.sequence.toNat ≤ bound := by
  induction signals generalizing first with
  | nil => simp
  | cons signal signals ih =>
    rw [List.foldl_cons, ih, toNat_max, max_le_iff, List.forall_mem_cons, and_assoc]

theorem replayCursor_le_iff (replay : List (SignalRecord Payload)) (bound : ℕ) :
    (replayCursor replay).toNat ≤ bound ↔ ∀ signal ∈ replay, signal.sequence.toNat ≤ bound := by
  unfold replayCursor
  rw [foldl_max_le_iff, and_iff_right_iff_imp]
  cases replay with
  | nil => exact fun _ => Nat.zero_le _
  | cons signal replay =>
    intro h
    have hfirst := h signal List.mem_cons_self
    simp only [List.head?_cons, Option.elim_some, UInt64.toNat_ofNat']
    have hmod := Nat.mod_le (signal.sequence.toNat - 1) (2 ^ 64)
    omega

/-! ## Rooms -/

/-- The cache has the end of the log, and the channel has all of it but what is being appended. -/
structure Numbered (room : EventRoom Payload) : Prop where
  numbers : room.log.map (fun signal => signal.sequence.toNat) = List.range' 1 room.log.length
  next : room.cache.nextSequence.toNat = room.log.length + 1
  cached : room.cache.signals <:+ room.log
  log_eq : room.log = room.sent ++ room.appending.toList
  subscribed : ∀ participant after limit position,
    room.stream = some (.subscribed participant after limit position) → position ≤ room.sent.length
  serves : ∀ stream, room.stream = some (.streaming stream) → Serves room.log room.sent stream

variable {json : JsonLengths Payload} {room : EventRoom Payload}
  {draft : SignalDraft Payload}

theorem Numbered.ascending (h : Numbered room) :
    room.log.Pairwise fun a b => a.sequence.toNat < b.sequence.toNat := by
  rw [← List.pairwise_map (f := fun signal : SignalRecord Payload => signal.sequence.toNat), h.numbers]
  exact List.pairwise_lt_range'

theorem Numbered.bound (h : Numbered room) {signal : SignalRecord Payload}
    (hsignal : signal ∈ room.log) : signal.sequence.toNat ≤ room.log.length := by
  have hnumber := List.mem_map_of_mem (f := fun signal => signal.sequence.toNat) hsignal
  rw [h.numbers, List.mem_range'_1] at hnumber
  omega

theorem numbered_start : Numbered (EventRoom.start : EventRoom Payload) :=
  ⟨rfl, rfl, List.suffix_refl _, rfl, fun _ _ _ _ h => (by cases h), fun _ h => (by cases h)⟩

theorem trimSignalCache_suffix (signals : List (SignalRecord Payload)) (cachedBytes : ℕ) :
    (trimSignalCache json signals cachedBytes).1 <:+ signals := by
  induction signals generalizing cachedBytes with
  | nil => exact List.suffix_refl _
  | cons expired signals ih =>
    unfold trimSignalCache
    split_ifs
    · exact (ih _).trans (List.suffix_cons expired signals)
    · exact List.suffix_refl _

/-- The next signal comes to the end of the cache. -/
theorem Numbered.insert_suffix (h : Numbered room) {signal : SignalRecord Payload}
    (hnext : signal.sequence.toNat = room.log.length + 1) :
    (room.cache.insert json signal).signals <:+ room.log ++ [signal] := by
  have hsorted : ((room.cache.signals ++ [signal]).insertionSort
      fun a b => a.sequence ≤ b.sequence) = room.cache.signals ++ [signal] := by
    refine List.Pairwise.insertionSort_eq ?_
    rw [List.pairwise_append]
    refine ⟨?_, List.pairwise_singleton _ _, fun a ha b hb => ?_⟩
    · refine (h.ascending.sublist h.cached.sublist).imp fun {a b} hlt => ?_
      exact UInt64.le_iff_toNat_le.mpr hlt.le
    · have hbound := h.bound (h.cached.subset ha)
      rw [List.mem_singleton.mp hb, UInt64.le_iff_toNat_le]
      omega
  unfold SignalCache.insert
  dsimp only
  rw [hsorted]
  exact (trimSignalCache_suffix _ _).trans (List.suffix_append_self_iff.mpr h.cached)

theorem Numbered.append (h : Numbered room) (hidle : room.appending = none)
    (hroom : (room.append json draft).log.length < usizeMax) :
    Numbered (room.append json draft) := by
  revert hroom
  unfold EventRoom.append
  cases validateSignalPayload json draft.payload with
  | error error => exact fun _ => h
  | ok checked =>
    unfold draftFileSignal
    cases room.cache.signals.find? fun signal => signal.commandId = some draft.commandId with
    | some existing => exact fun _ => h
    | none =>
      dsimp only
      split_ifs
      · intro hroom
        have hnext : (draft.record room.cache.nextSequence).sequence.toNat = room.log.length + 1 :=
          h.next
        have hlength : (room.log ++ [draft.record room.cache.nextSequence]).length =
          room.log.length + 1 := by simp
        have hsent := congrArg List.length h.log_eq
        rw [hidle, Option.toList_none, List.append_nil] at hsent
        dsimp only at hroom
        rw [hlength] at hroom
        refine ⟨?_, ?_, h.insert_suffix hnext, ?_, h.subscribed, fun stream hstream => ?_⟩
        · rw [hlength, List.range'_concat, List.map_append, h.numbers, List.map_singleton, hnext]
          simp [add_comm]
        · unfold SignalCache.insert
          dsimp only
          rw [toNat_max, toNat_saturatingSucc (by omega), hlength]
          have hcache := h.next
          omega
        · have hlog := h.log_eq
          rw [hidle, Option.toList_none, List.append_nil] at hlog
          dsimp only
          rw [← hlog, Option.toList_some]
        · exact (h.serves stream hstream).append hsent.ge hnext
      · exact fun _ => h

theorem events_load (room : EventRoom Payload) (participant : UserId) (after : UInt64)
    (limit position : ℕ) : events (room.load participant after limit position).output =
      (room.cache.signals.filter fun signal => signal.wanted participant after).take limit :=
  events_map _

/-- The replay is the whole answer if it is as long as that. -/
theorem Numbered.load (h : Numbered room) (participant : UserId) (after : UInt64)
    (limit position : ℕ) (hposition : position ≤ room.sent.length) :
    Serves room.log room.sent (room.load participant after limit position) := by
  have hsublist : ((room.cache.signals.filter fun signal => signal.wanted participant after).take
      limit).Sublist (room.log.filter fun signal => signal.wanted participant after) :=
    (List.take_sublist _ _).trans (h.cached.sublist.filter _)
  have hcursor := replayCursor_le_iff
    ((room.cache.signals.filter fun signal => signal.wanted participant after).take limit)
  have hmem : ∀ event ∈ (room.cache.signals.filter fun signal =>
      signal.wanted participant after).take limit,
      event ∈ room.log ∧ event.wanted participant after = true := fun event hevent =>
    List.mem_filter.mp (hsublist.subset hevent)
  refine ⟨hposition, ?_, ?_, ?_, ?_, fun hwhole _ => ?_, fun hwhole hnoticed => ?_⟩
  · exact (hcursor _).mpr fun event hevent => h.bound (hmem event hevent).1
  · rw [events_load]
    exact (h.ascending.sublist List.filter_sublist).sublist hsublist
  · rw [events_load]
    exact (hcursor _).mp le_rfl
  · rw [events_load]
    intro event hevent
    obtain ⟨hlog, hwanted⟩ := hmem event hevent
    rw [SignalRecord.wanted, Bool.and_eq_true] at hwanted
    exact ⟨hlog, hwanted.2⟩
  · rw [events_load]
    have hlength := of_decide_eq_true hwhole
    have hafter : ((room.cache.signals.filter fun signal => signal.wanted participant after).take
        limit).filter (fun event => after < event.sequence) =
        (room.cache.signals.filter fun signal => signal.wanted participant after).take limit := by
      refine List.filter_eq_self.mpr fun event hevent => ?_
      have hwanted := (hmem event hevent).2
      rw [SignalRecord.wanted, Bool.and_eq_true] at hwanted
      exact hwanted.1
    change Follows _ _ _ _ _
      (List.filter (fun event : SignalRecord Payload => after < event.sequence) _)
    rw [hafter]
    refine .start (hsublist.eq_of_length hlength) ?_
    exact (hcursor _).mp le_rfl
  · rw [show noticed (room.load participant after limit position).output = false from
      noticed_map _] at hnoticed
    cases hnoticed

theorem Numbered.step (h : Numbered room) (action : EventRoom.Action Payload)
    (hroom : (room.step json action).log.length < usizeMax) : Numbered (room.step json action) := by
  cases action with
  | append draft =>
    revert hroom
    unfold EventRoom.step
    dsimp only
    cases hidle : room.appending with
    | none => exact h.append hidle
    | some signal => exact fun _ => h
  | send =>
    refine ⟨h.numbers, h.next, h.cached, ?_, fun participant after limit position hstream => ?_,
      fun stream hstream => (h.serves stream hstream).send _⟩
    · exact h.log_eq.trans (List.append_nil _).symm
    · refine (h.subscribed participant after limit position hstream).trans ?_
      exact (List.prefix_append _ _).length_le
  | subscribe participant after limit =>
    refine ⟨h.numbers, h.next, h.cached, h.log_eq, fun _ _ _ position hstream => ?_,
      fun stream hstream => by cases hstream⟩
    cases hstream
    exact le_rfl
  | load =>
    unfold EventRoom.step
    dsimp only
    cases hstream : room.stream with
    | none => exact h
    | some point =>
      cases point with
      | subscribed participant after limit position =>
        refine ⟨h.numbers, h.next, h.cached, h.log_eq, (fun _ _ _ _ hpoint => by cases hpoint),
          fun stream hpoint => ?_⟩
        cases hpoint
        exact h.load participant after limit position
          (h.subscribed participant after limit position hstream)
      | streaming stream => exact h
  | receive =>
    unfold EventRoom.step
    dsimp only
    cases hstream : room.stream with
    | none => exact h
    | some point =>
      cases point with
      | subscribed participant after limit position => exact h
      | streaming stream =>
        refine ⟨h.numbers, h.next, h.cached, h.log_eq, (fun _ _ _ _ hpoint => by cases hpoint),
          fun next hpoint => ?_⟩
        cases hpoint
        exact (h.serves stream hstream).receive h.ascending (fun signal => h.bound)
          ⟨room.appending.toList, h.log_eq.symm⟩
  | close =>
    exact ⟨h.numbers, h.next, h.cached, h.log_eq, (fun _ _ _ _ hpoint => by cases hpoint),
      fun _ hpoint => by cases hpoint⟩

/-! ## Runs -/

/-- The log only grows. -/
theorem length_log_step (room : EventRoom Payload) (action : EventRoom.Action Payload) :
    room.log.length ≤ (room.step json action).log.length := by
  cases action with
  | append draft =>
    unfold EventRoom.step EventRoom.append
    dsimp only
    by_cases hbusy : room.appending.isSome = true
    · rw [if_pos hbusy]
    · rw [if_neg hbusy]
      cases validateSignalPayload json draft.payload with
      | error error => exact le_rfl
      | ok checked =>
        dsimp only
        split_ifs
        · simp
        · exact le_rfl
  | send => exact le_rfl
  | subscribe => exact le_rfl
  | load =>
    unfold EventRoom.step
    dsimp only
    split <;> exact le_rfl
  | receive =>
    unfold EventRoom.step
    dsimp only
    split <;> exact le_rfl
  | close => exact le_rfl

theorem numbered_run (json : JsonLengths Payload) (actions : List (EventRoom.Action Payload)) :
    Runs.Always (EventRoom.step json) (fun room => room.log.length < usizeMax → Numbered room)
      .start actions := by
  refine Runs.always_of_step (fun room action h hroom => ?_) (fun _ => numbered_start) actions
  exact (h ((length_log_step room action).trans_lt hroom)).step action hroom

/-- A stream never sends an event that is not above all that it has sent, and none that is not for its
participant. -/
theorem events_ascend (json : JsonLengths Payload) (actions : List (EventRoom.Action Payload)) :
    Runs.Always (EventRoom.step json) (fun room => room.log.length < usizeMax →
      ∀ stream, room.stream = some (.streaming stream) →
        ((events stream.output).Pairwise fun a b => a.sequence < b.sequence) ∧
        ∀ event ∈ events stream.output,
          event ∈ room.log ∧ event.visible stream.participant = true) .start actions := by
  refine (numbered_run json actions).imp fun room h hroom stream hstream => ?_
  have hserves := (h hroom).serves stream hstream
  refine ⟨hserves.ascending.imp fun {a b} hlt => UInt64.lt_iff_toNat_lt.mpr hlt, hserves.listed⟩

def sampleLengths : JsonLengths Unit := ⟨fun _ => .ok 2, fun _ => .ok 200⟩

example : ([.append ⟨7, 1, 1, none, "offer", (), 0⟩, .subscribe 2 none none, .load, .send,
    .receive].foldl (EventRoom.step sampleLengths) .start).stream =
      some (.streaming ⟨2, 0, 1, 1, [.event ⟨some 1, 1, 1, none, "offer", (), 0⟩], true⟩) := by
  decide

end Fluvora.ApiServer
