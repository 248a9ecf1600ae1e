import Fluvora.ApiServer.Persistence
import Fluvora.ControlStore.Validation

/-!
# Signals of a room

`append_signal`, `cache_signal` and `load_signal_page` of `crates/services/api-server`, and the
transactions of `crates/control-plane/control-store` under them.  With the files backend the signals
of a room are only in the memory of the server; with PostgreSQL they are rows of
`fluvora_room_signals`, next to a counter in the row of the room, and the memory holds a cache.

A payload is a JSON value, of which only the encoded length matters here, and so is a record in the
cache.  Users are compared as identifiers, of which the source prints the 32 digits.
-/

namespace Fluvora.ApiServer

open Domain Fallible ControlStore

def maxSignalPageMessages : ℕ := 128

def maxSignalPayloadBytes : ℕ := 64 * 1024

def maxSignalCacheBytes : ℕ := 8 * 1024 * 1024

def signalBacklog : ℕ := maxSignalPageMessages

def signalBacklogMessages : ℕ := 128

def usizeMax : ℕ := 2 ^ 64 - 1

structure SignalRecord (Payload : Type) where
  commandId : Option CommandId
  sequence : UInt64
  sender : UserId
  recipient : Option UserId
  kind : String
  payload : Payload
  timestampMillis : UInt64
deriving DecidableEq

/-- The lengths that `serde_json::to_vec` gives, or the text of its error. -/
structure JsonLengths (Payload : Type) where
  payload : Payload → Except String ℕ
  record : SignalRecord Payload → Except String ℕ

variable {Payload : Type} (json : JsonLengths Payload)

def internalError : ApiError := ⟨500, "internal_error", "internal API operation failed"⟩

def controlStoreUnavailable : ApiError :=
  ⟨503, "control_store_unavailable", "control store is unavailable"⟩

def signalTooLarge : ApiError :=
  ⟨413, "signal_too_large", "signal payload exceeds 65536 bytes"⟩

def validateSignalPayload (payload : Payload) : Except ApiError Unit :=
  match json.payload payload with
  | .ok encodedLen => if encodedLen ≤ maxSignalPayloadBytes then .ok () else .error signalTooLarge
  | .error _ => .error internalError

/-! ## The cache -/

/-- The signals of a room in the memory of the server. -/
structure SignalCache (Payload : Type) where
  signals : List (SignalRecord Payload)
  cacheBytes : ℕ
  nextSequence : UInt64
deriving DecidableEq

def SignalCache.fresh : SignalCache Payload := ⟨[], 0, 1⟩

def signalCacheBytes (signal : SignalRecord Payload) : ℕ :=
  match json.record signal with
  | .ok length => length
  | .error _ => usizeMax

/-- Drops the oldest signals while there are too many or too many bytes. -/
def trimSignalCache : List (SignalRecord Payload) → ℕ → List (SignalRecord Payload) × ℕ
  | [], cachedBytes => ([], cachedBytes)
  | expired :: signals, cachedBytes =>
      if signalBacklog < (expired :: signals).length ∨ maxSignalCacheBytes < cachedBytes then
        trimSignalCache signals (cachedBytes - signalCacheBytes json expired)
      else (expired :: signals, cachedBytes)

/-- The successor, which stays at the last number. -/
def saturatingSucc (n : UInt64) : UInt64 := (checkedSucc n).getD n

/-- What `cache_signal` does to the entry of the room, unless it has the sequence number already. -/
def SignalCache.insert (cache : SignalCache Payload) (signal : SignalRecord Payload) :
    SignalCache Payload :=
  let trimmed := trimSignalCache json
    ((cache.signals ++ [signal]).insertionSort fun a b => a.sequence ≤ b.sequence)
    (min usizeMax (cache.cacheBytes + signalCacheBytes json signal))
  { signals := trimmed.1
    cacheBytes := trimmed.2
    nextSequence := max cache.nextSequence (saturatingSucc signal.sequence) }

theorem mem_of_mem_trimSignalCache {signal : SignalRecord Payload}
    {signals : List (SignalRecord Payload)} {cachedBytes : ℕ}
    (h : signal ∈ (trimSignalCache json signals cachedBytes).1) : signal ∈ signals := by
  induction signals generalizing cachedBytes with
  | nil => exact h
  | cons expired signals ih =>
    unfold trimSignalCache at h
    split_ifs at h
    · exact List.mem_cons_of_mem _ (ih h)
    · exact h

theorem SignalCache.mem_of_mem_insert {cache : SignalCache Payload}
    {signal other : SignalRecord Payload} (h : other ∈ (cache.insert json signal).signals) :
    other ∈ cache.signals ∨ other = signal := by
  have hmem := mem_of_mem_trimSignalCache json h
  rw [List.mem_insertionSort] at hmem
  simpa using hmem

theorem toNat_saturatingSucc {n : UInt64} (h : n.toNat < usizeMax) :
    (saturatingSucc n).toNat = n.toNat + 1 := by
  unfold usizeMax at h
  unfold saturatingSucc checkedSucc
  rw [if_pos (by omega), Option.getD_some, UInt64.toNat_add]
  exact Nat.mod_eq_of_lt (by simp only [UInt64.toNat_one]; omega)

def SignalCache.holds (cache : SignalCache Payload) (sequence : UInt64) : Bool :=
  cache.signals.any fun existing => existing.sequence = sequence

/-! ## The tables -/

/-- A room in the database: the counter in its row, and its rows of `fluvora_room_signals` by their
sequence. -/
structure RoomSignals (Payload : Type) where
  signalSequence : ℕ
  rows : List (SignalRecord Payload)

/-- The signals of all rooms, and the outbox events that were written with them. -/
structure SignalTables (Payload : Type) where
  rooms : RoomId → Option (RoomSignals Payload)
  outbox : List (RoomId × SignalRecord Payload)

/-- What a caller asks to be appended. -/
structure SignalDraft (Payload : Type) where
  roomId : RoomId
  commandId : CommandId
  sender : UserId
  recipient : Option UserId
  kind : String
  payload : Payload
  timestampMillis : UInt64

def SignalDraft.record (draft : SignalDraft Payload) (sequence : UInt64) : SignalRecord Payload :=
  ⟨some draft.commandId, sequence, draft.sender, draft.recipient, draft.kind, draft.payload,
    draft.timestampMillis⟩

/-- The identifiers of a draft are printed by the server and always have the right form. -/
def validateSignal (draft : SignalDraft Payload) : Except StoreError Unit := do
  validateBoundedText draft.kind "signal kind" 64
  match json.payload draft.payload with
  | .ok payloadSize =>
      if 65536 < payloadSize then throw (.signalPayloadTooLarge payloadSize) else return ()
  | .error text => throw (.invalidJson text)

/-- One transaction, which locks the row of the room. -/
def appendRoomSignal (draft : SignalDraft Payload) (tables : SignalTables Payload) :
    Except StoreError (SignalRecord Payload × SignalTables Payload) := do
  validateSignal json draft
  match tables.rooms draft.roomId with
  | none => throw .roomNotFound
  | some room =>
      match room.rows.find? fun row => row.commandId = some draft.commandId with
      | some existing => return (existing, tables)
      | none =>
          let sequence := room.signalSequence + 1
          if bigintBound ≤ sequence then throw bigintOutOfRange
          let stored := draft.record (UInt64.ofNat sequence)
          let _ ← toI64 stored.timestampMillis "signal timestamp"
          let rows := (room.rows ++ [stored]).filter fun row =>
            sequence - signalBacklogMessages < row.sequence.toNat
          return (stored, {
            rooms := Function.update tables.rooms draft.roomId (some ⟨sequence, rows⟩)
            outbox := tables.outbox ++ [(draft.roomId, stored)] })

/-! ## Appending -/

inductive SignalPersistence (Payload : Type)
  | files
  | postgres (store : SignalTables Payload)

/-- The part of the state of the server that appending works on. -/
structure SignalState (Payload : Type) where
  persistence : SignalPersistence Payload
  rooms : RoomId → Option (SignalCache Payload)

def cacheSignal (roomId : RoomId) (signal : SignalRecord Payload) :
    Fallible (SignalState Payload) ApiError Unit := do
  let state ← get
  let room ← ofOption (state.rooms roomId) roomNotFound
  if room.holds signal.sequence then return ()
  else set { state with
    rooms := Function.update state.rooms roomId (some (room.insert json signal)) }

/-- The signal of a call with the files backend: an old one, or a new one to be cached. -/
def draftFileSignal (room : SignalCache Payload) (draft : SignalDraft Payload) :
    SignalRecord Payload × Bool :=
  match room.signals.find? fun signal => signal.commandId = some draft.commandId with
  | some existing => (existing, false)
  | none => (draft.record room.nextSequence, true)

def appendSignal (draft : SignalDraft Payload) :
    Fallible (SignalState Payload) ApiError (SignalRecord Payload) := do
  ofExcept (validateSignalPayload json draft.payload)
  let state ← get
  match state.persistence with
  | .postgres store =>
      match appendRoomSignal json draft store with
      | .ok (signal, store) =>
          set { state with persistence := .postgres store }
          cacheSignal json draft.roomId signal
          return signal
      | .error _ => fail controlStoreUnavailable
  | .files =>
      let room ← ofOption (state.rooms draft.roomId) roomNotFound
      let (signal, isNew) := draftFileSignal room draft
      if isNew then
        cacheSignal json draft.roomId signal
        return signal
      else return signal

end Fluvora.ApiServer
