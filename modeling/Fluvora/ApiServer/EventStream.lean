import Fluvora.ApiServer.SignalLog
import Fluvora.Lib.Broadcast

/-!
# Event streams

A client follows the signals of a room on a WebSocket.  The stream subscribes to the channel of the
room, replays a page of the cached signals, and then sends what comes through the channel.  Appending
with the files backend caches a signal and sends it in two sections, so a page may have what the channel
has not sent yet, and the channel may send what the page has had.

The state is a room with one stream; other streams only read what it reads.  `log` is the history of all
signals that were cached.
-/

namespace Fluvora.ApiServer

open Broadcast Domain

def eventChannelCapacity : ℕ := 128

variable {Payload : Type}

/-- What is sent on the socket. -/
inductive StreamItem (Payload : Type)
  | event (signal : SignalRecord Payload)
  | resync (after : UInt64)
deriving DecidableEq

structure EventStream (Payload : Type) where
  participant : UserId
  after : UInt64
  position : ℕ
  cursor : UInt64
  output : List (StreamItem Payload)
  -- whether the page had everything that was asked for
  whole : Bool
deriving DecidableEq

inductive StreamPoint (Payload : Type)
  | subscribed (participant : UserId) (after : UInt64) (limit position : ℕ)
  | streaming (stream : EventStream Payload)
deriving DecidableEq

structure EventRoom (Payload : Type) where
  cache : SignalCache Payload
  -- the signal whose call holds `room_mutations` between its two sections
  appending : Option (SignalRecord Payload)
  sent : List (SignalRecord Payload)
  stream : Option (StreamPoint Payload)
  log : List (SignalRecord Payload)
deriving DecidableEq

def SignalRecord.visible (signal : SignalRecord Payload) (participant : UserId) : Bool :=
  signal.recipient.all fun recipient => recipient = participant

/-- The signals that a client asks for. -/
def SignalRecord.wanted (signal : SignalRecord Payload) (participant : UserId) (after : UInt64) :
    Bool :=
  after < signal.sequence && signal.visible participant

/-- `load_signal_page` with the files backend. -/
def loadSignalPage (cache : SignalCache Payload) (after : UInt64) (limit : ℕ)
    (participant : UserId) : List (SignalRecord Payload) × UInt64 :=
  ((cache.signals.filter fun signal => signal.wanted participant after).take limit,
    UInt64.ofNat (cache.nextSequence.toNat - 1))

def signalPageLimit (limit : Option ℕ) : ℕ :=
  max 1 (min maxSignalPageMessages (limit.getD maxSignalPageMessages))

/-- The cursor behind the replayed signals. -/
def replayCursor (replay : List (SignalRecord Payload)) : UInt64 :=
  replay.foldl (fun cursor event => max cursor event.sequence)
    (replay.head?.elim 0 fun event => UInt64.ofNat (event.sequence.toNat - 1))

namespace EventStream

/-- An event from the channel. -/
def forward (stream : EventStream Payload) (event : SignalRecord Payload) : EventStream Payload :=
  if stream.cursor < event.sequence ∧ event.visible stream.participant then
    { stream with cursor := event.sequence, output := stream.output ++ [.event event] }
  else stream

def receive (stream : EventStream Payload) (sent : List (SignalRecord Payload)) :
    EventStream Payload :=
  match Broadcast.receive eventChannelCapacity sent stream.position with
  | none => stream
  | some (.value event, position) => { stream.forward event with position := position }
  | some (.lagged _, position) =>
      { stream with position := position, output := stream.output ++ [.resync stream.cursor] }

end EventStream

namespace EventRoom

variable (json : JsonLengths Payload)

def start : EventRoom Payload := ⟨.fresh, none, [], none, []⟩

/-- The first section of `append_signal`, under `room_mutations`.  Nothing is sent of a signal that was
there already. -/
def append (room : EventRoom Payload) (draft : SignalDraft Payload) : EventRoom Payload :=
  match validateSignalPayload json draft.payload with
  | .error _ => room
  | .ok () =>
      let (signal, isNew) := draftFileSignal room.cache draft
      if isNew ∧ !room.cache.holds signal.sequence then
        { room with
          cache := room.cache.insert json signal
          appending := some signal
          log := room.log ++ [signal] }
      else room

/-- With its second section this is the append of the signal log. -/
theorem append_eq_appendSignal {json} {room : EventRoom Payload} {draft : SignalDraft Payload}
    {rooms : RoomId → Option (SignalCache Payload)} (hcache : rooms draft.roomId = some room.cache) :
    ((appendSignal json draft).run ⟨.files, rooms⟩).2.rooms draft.roomId =
      some (room.append json draft).cache := by
  unfold append
  cases hvalid : validateSignalPayload json draft.payload with
  | error error =>
    rw [appendSignal, Fallible.run_ofExcept_bind, hvalid]
    exact hcache
  | ok checked =>
    rw [run_append_files hvalid, hcache]
    dsimp only
    unfold draftFileSignal
    cases room.cache.signals.find? fun signal => signal.commandId = some draft.commandId with
    | some existing => exact hcache
    | none =>
      dsimp only
      cases hheld : room.cache.holds (draft.record room.cache.nextSequence).sequence with
      | true =>
        have hheld' : room.cache.holds room.cache.nextSequence = true := hheld
        simpa [hheld'] using hcache
      | false =>
        have hunheld : room.cache.holds room.cache.nextSequence = false := hheld
        simp [hunheld]

/-- The replay of a stream that has subscribed. -/
def load (room : EventRoom Payload) (participant : UserId) (after : UInt64) (limit position : ℕ) :
    EventStream Payload :=
  let replay := (loadSignalPage room.cache after limit participant).1
  { participant
    after
    position
    cursor := replayCursor replay
    output := replay.map .event
    whole := replay.length = (room.log.filter fun signal => signal.wanted participant after).length }

inductive Action (Payload : Type)
  | append (draft : SignalDraft Payload)
  | send
  | subscribe (participant : UserId) (after : Option UInt64) (limit : Option ℕ)
  | load
  | receive
  | close

/-- One section; a call that has to wait for `room_mutations` does nothing. -/
def step (room : EventRoom Payload) : Action Payload → EventRoom Payload
  | .append draft => if room.appending.isSome then room else room.append json draft
  | .send => { room with sent := room.sent ++ room.appending.toList, appending := none }
  | .subscribe participant after limit =>
      { room with stream := some (.subscribed participant (after.getD 0) (signalPageLimit limit)
          room.sent.length) }
  | .load =>
      match room.stream with
      | some (.subscribed participant after limit position) =>
          { room with stream := some (.streaming (room.load participant after limit position)) }
      | _ => room
  | .receive =>
      match room.stream with
      | some (.streaming stream) =>
          { room with stream := some (.streaming (stream.receive room.sent)) }
      | _ => room
  | .close => { room with stream := none }

end EventRoom

end Fluvora.ApiServer
