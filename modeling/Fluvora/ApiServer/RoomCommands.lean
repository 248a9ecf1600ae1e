import Fluvora.ApiServer.Restart
import Fluvora.ApiServer.Signals
import Fluvora.Lib.Results
import Fluvora.Lib.Runs

/-!
# Room commands beside signals

`execute_room_command` and `refresh_postgres_room` of `crates/services/api-server` with PostgreSQL,
interleaved with the calls of `append_signal` that the database has answered.  A call takes one step
for each section in which it holds the lock of the rooms; in between, others take theirs.  What the
database answers is part of the step.

A command clones the room with its cached signals, waits for the database, and writes the clone back.
A signal that is cached in between is lost (`SignalBetween.not_cachesKept_between`), and nothing else loses one
(`each_cachesKept`).
-/

namespace Fluvora.ApiServer

open Domain Fallible

variable {Payload : Type}

/-- A room in the memory of the server: what is durable, and the cached signals. -/
structure CachedRoom (Payload : Type) where
  managed : ManagedRoom
  cache : SignalCache Payload

abbrev CachedRooms (Payload : Type) := RoomId → Option (CachedRoom Payload)

inductive PersistAppendOutcome
  | applied
  | duplicate (persisted : PersistedRoom)
  | revisionConflict

/-- Where a command stands, between two sections. -/
inductive CommandPoint (Payload : Type)
  | waiting
  | loading (attempt : ℕ)
  | reading (attempt : ℕ)
  | persisting (attempt : ℕ) (candidate : CachedRoom Payload) (event : RoomEvent)

inductive RoomTask (Payload : Type)
  | execute (roomId : RoomId) (commandId : CommandId) (command : RoomCommand)
      (point : CommandPoint Payload)
  | refresh (roomId : RoomId)
  | append (roomId : RoomId) (signal : SignalRecord Payload)
  | responded (result : Except ApiError CommandResponse)
  | ended (result : Except ApiError Unit)

/-- The rooms in memory, the calls on their way, and the lock that commands hold. -/
structure RoomServer (Payload : Type) where
  rooms : CachedRooms Payload
  tasks : List (RoomTask Payload)
  locked : Bool

inductive RoomAction (Payload : Type)
  | execute (roomId : RoomId) (commandId : CommandId) (command : RoomCommand)
  | refresh (roomId : RoomId)
  | append (roomId : RoomId) (signal : SignalRecord Payload)
  | lock (task : ℕ)
  | load (task : ℕ) (stored : Except ApiError PersistedRoom)
  | read (task : ℕ) (now : UInt64)
  | persist (task : ℕ) (outcome : Except ApiError PersistAppendOutcome)
  | cache (task : ℕ)

def roomRevisionConflict : ApiError :=
  ⟨409, "room_revision_conflict",
    "room changed concurrently; retry with the same idempotency key"⟩

/-- Installs the durable room; the cached signals stay with the entry. -/
def replaceDurableRoom (rooms : CachedRooms Payload) (roomId : RoomId) (persisted : PersistedRoom) :
    Except ApiError (CachedRooms Payload) := do
  if persisted.creationEvent.isNone then
    throw (corruptSnapshot "durable room has no creation event")
  let managed ← managedFromPersisted persisted
  let cache := ((rooms roomId).map (·.cache)).getD .fresh
  return Function.update rooms roomId (some ⟨managed, cache⟩)

/-- Runs the command on a clone of the room: the clone and the event to persist, or the sequence of a
duplicate. -/
def prepareCommand (rooms : CachedRooms Payload) (roomId : RoomId) (commandId : CommandId)
    (now : UInt64) (command : RoomCommand) :
    Except ApiError (CachedRoom Payload × RoomEvent ⊕ UInt64) :=
  match rooms roomId with
  | none => .error roomNotFound
  | some candidate =>
      match (Room.execute commandId now command).run candidate.managed.room with
      | (.error error, _) => .error (domainError error)
      | (.ok .duplicate, _) => .ok (.inr candidate.managed.room.sequence)
      | (.ok (.applied event), room) =>
          match checkedSucc candidate.managed.persistenceRevision with
          | none => .error revisionExhausted
          | some revision => .ok (.inl ({ candidate with
              managed := { candidate.managed with room, persistenceRevision := revision } }, event))

namespace RoomServer

variable (json : JsonLengths Payload) (server : RoomServer Payload)

def begin (task : RoomTask Payload) : RoomServer Payload :=
  { server with tasks := server.tasks ++ [task] }

def put (task : ℕ) (next : RoomTask Payload) : RoomServer Payload :=
  { server with tasks := server.tasks.set task next }

/-- A command responds and gives the lock free. -/
def respond (task : ℕ) (result : Except ApiError CommandResponse) : RoomServer Payload :=
  { server.put task (.responded result) with locked := false }

/-- The section of `append_signal`, below the database. -/
def cacheSection (task : ℕ) (roomId : RoomId) (signal : SignalRecord Payload) : RoomServer Payload :=
  match server.rooms roomId with
  | none => server.put task (.ended (.error roomNotFound))
  | some room =>
      let cached := if room.cache.holds signal.sequence then room
        else { room with cache := room.cache.insert json signal }
      { server.put task (.ended (.ok ())) with
        rooms := Function.update server.rooms roomId (some cached) }

/-- The section after the database has answered a command. -/
def persistSection (task : ℕ) (roomId : RoomId) (commandId : CommandId) (command : RoomCommand)
    (attempt : ℕ) (candidate : CachedRoom Payload) (event : RoomEvent) :
    Except ApiError PersistAppendOutcome → RoomServer Payload
  | .error error => server.respond task (.error error)
  | .ok .applied =>
      { server.respond task (.ok ⟨event.sequence, false⟩) with
        rooms := Function.update server.rooms roomId (some candidate) }
  | .ok (.duplicate persisted) =>
      match replaceDurableRoom server.rooms roomId persisted with
      | .error error => server.respond task (.error error)
      | .ok rooms =>
          let result := match rooms roomId with
            | some room => .ok ⟨room.managed.room.sequence, true⟩
            | none => .error roomNotFound
          { server.respond task result with rooms }
  | .ok .revisionConflict =>
      if attempt < 4 then
        server.put task (.execute roomId commandId command (.loading (attempt + 1)))
      else server.respond task (.error roomRevisionConflict)

/-- The section in which a loaded room is installed, for a command and on its own. -/
def loadSection (task : ℕ) (stored : Except ApiError PersistedRoom) : RoomServer Payload :=
  match server.tasks[task]? with
  | some (.execute roomId commandId command (.loading attempt)) =>
      match stored >>= replaceDurableRoom server.rooms roomId with
      | .error error => server.respond task (.error error)
      | .ok rooms =>
          { server.put task (.execute roomId commandId command (.reading attempt)) with rooms }
  | some (.refresh roomId) =>
      match stored >>= replaceDurableRoom server.rooms roomId with
      | .error error => server.put task (.ended (.error error))
      | .ok rooms => { server.put task (.ended (.ok ())) with rooms }
  | _ => server

def step : RoomAction Payload → RoomServer Payload
  | .execute roomId commandId command => server.begin (.execute roomId commandId command .waiting)
  | .refresh roomId => server.begin (.refresh roomId)
  | .append roomId signal => server.begin (.append roomId signal)
  | .lock task =>
      match server.tasks[task]?, server.locked with
      | some (.execute roomId commandId command .waiting), false =>
          { server.put task (.execute roomId commandId command (.loading 1)) with locked := true }
      | _, _ => server
  | .load task stored => server.loadSection task stored
  | .read task now =>
      match server.tasks[task]? with
      | some (.execute roomId commandId command (.reading attempt)) =>
          match prepareCommand server.rooms roomId commandId now command with
          | .error error => server.respond task (.error error)
          | .ok (.inr sequence) => server.respond task (.ok ⟨sequence, true⟩)
          | .ok (.inl (candidate, event)) =>
              server.put task
                (.execute roomId commandId command (.persisting attempt candidate event))
      | _ => server
  | .persist task outcome =>
      match server.tasks[task]? with
      | some (.execute roomId commandId command (.persisting attempt candidate event)) =>
          server.persistSection task roomId commandId command attempt candidate event outcome
      | _ => server
  | .cache task =>
      match server.tasks[task]? with
      | some (.append roomId signal) => server.cacheSection json task roomId signal
      | _ => server

end RoomServer

/-! ## What becomes of the cached signals -/

section

variable (json : JsonLengths Payload)

/-- The next number does not go down, and a signal disappears only when another one is cached, which
trims the oldest ones. -/
structure SignalCache.Kept (before after : SignalCache Payload) : Prop where
  next : before.nextSequence ≤ after.nextSequence
  signals : ∀ signal ∈ before.signals, signal ∈ after.signals ∨
    ∃ cached, after = before.insert json cached

/-- Every room stays in memory, and its cached signals are kept. -/
def CachesKept (server : RoomServer Payload) (action : RoomAction Payload) : Prop :=
  ∀ roomId before, server.rooms roomId = some before →
    ∃ after, (server.step json action).rooms roomId = some after ∧
      before.cache.Kept json after.cache

/-- The room that a call has cloned, with the cached signals of its clone. -/
def RoomTask.clone : RoomTask Payload → Option (RoomId × SignalCache Payload)
  | .execute roomId _ _ (.persisting _ candidate _) => some (roomId, candidate.cache)
  | _ => none

/-- A command that writes its clone back has the signals that are cached now: none was cached since it
cloned the room. -/
def WritesCurrent (server : RoomServer Payload) (action : RoomAction Payload) : Prop :=
  ∀ task, action = .persist task (.ok .applied) →
    ∀ clone ∈ server.tasks[task]?.bind RoomTask.clone, ∀ room ∈ server.rooms clone.1,
      room.cache = clone.2

variable {json}

theorem SignalCache.Kept.refl (cache : SignalCache Payload) : cache.Kept json cache :=
  ⟨UInt64.le_refl _, fun _ hsignal => .inl hsignal⟩

theorem SignalCache.kept_insert (cache : SignalCache Payload) (signal : SignalRecord Payload) :
    cache.Kept json (cache.insert json signal) := by
  refine ⟨?_, fun _ _ => .inr ⟨signal, rfl⟩⟩
  change cache.nextSequence ≤ if cache.nextSequence ≤ saturatingSucc signal.sequence then
    saturatingSucc signal.sequence else cache.nextSequence
  split_ifs with hle
  · exact hle
  · exact UInt64.le_refl _

/-- Writing a room whose cache is kept keeps the caches of all rooms. -/
theorem kept_update {rooms : CachedRooms Payload} {roomId : RoomId} {written : CachedRoom Payload}
    (hwritten : ∀ room, rooms roomId = some room → room.cache.Kept json written.cache)
    {other : RoomId} {before : CachedRoom Payload} (h : rooms other = some before) :
    ∃ after, Function.update rooms roomId (some written) other = some after ∧
      before.cache.Kept json after.cache := by
  by_cases hother : other = roomId
  · subst hother
    exact ⟨written, Function.update_self .., hwritten before h⟩
  · exact ⟨before, by rw [Function.update_of_ne hother, h], .refl _⟩

theorem kept_replaceDurableRoom {rooms replaced : CachedRooms Payload} {roomId : RoomId}
    {persisted : PersistedRoom} (hreplace : replaceDurableRoom rooms roomId persisted = .ok replaced)
    {other : RoomId} {before : CachedRoom Payload} (h : rooms other = some before) :
    ∃ after, replaced other = some after ∧ before.cache.Kept json after.cache := by
  unfold replaceDurableRoom at hreplace
  split_ifs at hreplace
  · cases hreplace
  · obtain ⟨managed, -, hreplace⟩ := Results.bind_eq_ok.mp hreplace
    cases hreplace
    refine kept_update (fun room hroom => ?_) h
    rw [hroom]
    exact .refl _

variable {server : RoomServer Payload}

theorem kept_loadSection (task : ℕ) (stored : Except ApiError PersistedRoom) {roomId : RoomId}
    {before : CachedRoom Payload} (h : server.rooms roomId = some before) :
    ∃ after, (server.loadSection task stored).rooms roomId = some after ∧
      before.cache.Kept json after.cache := by
  have hsame : ∃ after, server.rooms roomId = some after ∧ before.cache.Kept json after.cache :=
    ⟨before, h, .refl _⟩
  unfold RoomServer.loadSection
  split
  · next loadedId commandId command attempt htask =>
    cases hload : stored >>= replaceDurableRoom server.rooms loadedId with
    | error error => exact hsame
    | ok rooms =>
      obtain ⟨persisted, -, hreplace⟩ := Results.bind_eq_ok.mp hload
      exact kept_replaceDurableRoom hreplace h
  · next loadedId htask =>
    cases hload : stored >>= replaceDurableRoom server.rooms loadedId with
    | error error => exact hsame
    | ok rooms =>
      obtain ⟨persisted, -, hreplace⟩ := Results.bind_eq_ok.mp hload
      exact kept_replaceDurableRoom hreplace h
  · exact hsame

theorem kept_cacheSection (task : ℕ) (cachedId : RoomId) (signal : SignalRecord Payload)
    {roomId : RoomId} {before : CachedRoom Payload} (h : server.rooms roomId = some before) :
    ∃ after, (server.cacheSection json task cachedId signal).rooms roomId = some after ∧
      before.cache.Kept json after.cache := by
  unfold RoomServer.cacheSection
  cases hroom : server.rooms cachedId with
  | none => exact ⟨before, h, .refl _⟩
  | some room =>
    refine kept_update (fun found hfound => ?_) h
    rw [hroom, Option.some.injEq] at hfound
    subst hfound
    split_ifs
    · exact .refl _
    · exact SignalCache.kept_insert _ _

/-- The section after the database has answered keeps the signals, unless it installs a clone that is
behind. -/
theorem kept_persistSection (task : ℕ) (writtenId : RoomId) (commandId : CommandId)
    (command : RoomCommand) (attempt : ℕ) (candidate : CachedRoom Payload) (event : RoomEvent)
    (outcome : Except ApiError PersistAppendOutcome)
    (hcurrent : outcome = .ok .applied → ∀ room, server.rooms writtenId = some room →
      room.cache = candidate.cache)
    {roomId : RoomId} {before : CachedRoom Payload} (h : server.rooms roomId = some before) :
    ∃ after, (server.persistSection task writtenId commandId command attempt candidate event
      outcome).rooms roomId = some after ∧ before.cache.Kept json after.cache := by
  have hsame : ∃ after, server.rooms roomId = some after ∧ before.cache.Kept json after.cache :=
    ⟨before, h, .refl _⟩
  unfold RoomServer.persistSection
  split
  · exact hsame
  · refine kept_update (fun room hroom => ?_) h
    rw [hcurrent rfl room hroom]
    exact .refl _
  · next persisted =>
    cases hreplace : replaceDurableRoom server.rooms writtenId persisted with
    | error error => exact hsame
    | ok rooms => exact kept_replaceDurableRoom hreplace h
  · split_ifs
    · exact hsame
    · exact hsame

theorem cachesKept_of_writesCurrent {action : RoomAction Payload}
    (hcurrent : WritesCurrent server action) : CachesKept json server action := by
  intro roomId before h
  have hsame : ∃ after, server.rooms roomId = some after ∧ before.cache.Kept json after.cache :=
    ⟨before, h, .refl _⟩
  unfold RoomServer.step
  cases action with
  | execute executedId commandId command => exact hsame
  | refresh refreshedId => exact hsame
  | append appendedId signal => exact hsame
  | lock task =>
    dsimp only
    split
    · exact hsame
    · exact hsame
  | load task stored => exact kept_loadSection task stored h
  | read task now =>
    dsimp only
    split
    · next readId commandId command attempt htask =>
      cases prepareCommand server.rooms readId commandId now command with
      | error error => exact hsame
      | ok prepared =>
        cases prepared with
        | inl prepared => exact hsame
        | inr sequence => exact hsame
    · exact hsame
  | persist task outcome =>
    dsimp only
    split
    · next writtenId commandId command attempt candidate event htask =>
      refine kept_persistSection task writtenId commandId command attempt candidate event outcome
        ?_ h
      rintro rfl room hroom
      exact hcurrent task rfl (writtenId, candidate.cache) (by rw [htask]; rfl) room hroom
    · exact hsame
  | cache task =>
    dsimp only
    split
    · next appendedId signal htask => exact kept_cacheSection task appendedId signal h
    · exact hsame

/-- A run loses no cached signal if every command that writes its clone back has the signals that are
cached then. -/
theorem each_cachesKept (json : JsonLengths Payload) (server : RoomServer Payload)
    (actions : List (RoomAction Payload))
    (h : Runs.Each (RoomServer.step json) WritesCurrent server actions) :
    Runs.Each (RoomServer.step json) (CachesKept json) server actions :=
  Runs.Each.imp (fun _ _ hcurrent => cachesKept_of_writesCurrent hcurrent) h

/-! A user joins a room, and a signal is cached before or while the command waits for the database. -/

namespace SignalBetween

def lengths : JsonLengths Unit := ⟨fun _ => .ok 2, fun _ => .ok 200⟩

def created : ManagedRoom :=
  let (room, event) := Room.create 1 .live 10 .default 1 100
  ⟨room, event, 1, ∅, []⟩

def start : RoomServer Unit :=
  ⟨fun roomId => if roomId = 1 then some ⟨created, .fresh⟩ else none, [], false⟩

def stored : Except ApiError PersistedRoom := .ok (persistedRoom 1 created)

def signal : SignalRecord Unit := ⟨some 9, 1, 10, none, "offer", (), 150⟩

/-- The signal is cached before the command clones the room. -/
def before : List (RoomAction Unit) :=
  [.execute 1 2 (.join 11), .lock 0, .load 0 stored, .append 1 signal, .cache 1, .read 0 200,
    .persist 0 (.ok .applied)]

theorem cachesKept_before : Runs.Each (RoomServer.step lengths) (CachesKept lengths) start before := by
  refine each_cachesKept lengths start before ⟨nofun, nofun, nofun, nofun, nofun, nofun, ?_, trivial⟩
  intro task htask
  cases htask
  decide

/-- The signal is cached while the command waits. -/
def between : List (RoomAction Unit) :=
  [.execute 1 2 (.join 11), .lock 0, .load 0 stored, .read 0 200, .append 1 signal, .cache 1]

def waiting : RoomServer Unit := between.foldl (RoomServer.step lengths) start

theorem next_waiting :
    (waiting.rooms 1).map (·.cache.nextSequence) = some 2 := by decide

theorem next_written :
    ((waiting.step lengths (.persist 0 (.ok .applied))).rooms 1).map (·.cache.nextSequence) =
      some 1 := by decide

theorem not_cachesKept_between :
    ¬ Runs.Each (RoomServer.step lengths) (CachesKept lengths) start
      (between ++ [.persist 0 (.ok .applied)]) := by
  intro h
  obtain ⟨room, hroom, hnext⟩ := Option.map_eq_some_iff.mp next_waiting
  have hlast : CachesKept lengths waiting (.persist 0 (.ok .applied)) := h.last
  obtain ⟨after, hafter, hkept⟩ := hlast 1 room hroom
  have hwritten := next_written
  rw [hafter, Option.map_some, Option.some.injEq] at hwritten
  have hle := hkept.next
  rw [hnext, hwritten] at hle
  exact absurd hle (by decide)

end SignalBetween

end

end Fluvora.ApiServer
