import Fluvora.ApiServer.Signals
import Fluvora.Lib.Results
import Fluvora.Lib.Runs

/-!
# The signal log

Runs of `append_signal` and restarts of the server, for either backend.  A signal is to get a number
above all those before it in its room, and the same command is to give the same signal again.

What a backend knows of a room is `SignalState.log`: the signals that it still has, and the number of
the next one.  `Recorded` relates it to all signals that were ever given out, and is kept as long as
nobody asks for what was lost (`each_logged`): the files backend forgets the log at a restart, and both
backends keep no more than the last 128 signals.
-/

namespace Fluvora.ApiServer

open Domain Fallible ControlStore

variable {Payload : Type} (json : JsonLengths Payload)

/-- The signals of a room that the backend still has, and the number of the next one. -/
def SignalState.log (state : SignalState Payload) (roomId : RoomId) :
    Option (List (SignalRecord Payload) × ℕ) :=
  match state.persistence with
  | .files => (state.rooms roomId).map fun cache => (cache.signals, cache.nextSequence.toNat)
  | .postgres store =>
      (store.rooms roomId).map fun room => (room.rows, room.signalSequence + 1)

/-- The memory after a restart: the rooms are restored, their signals are not. -/
def SignalState.restart (state : SignalState Payload) : SignalState Payload :=
  { state with
    rooms := match state.persistence with
      | .files => fun roomId => (state.rooms roomId).map fun _ => .fresh
      | .postgres store => fun roomId => (store.rooms roomId).map fun _ => .fresh }

/-- The checks of a call on its own data. -/
def SignalDraft.Valid (draft : SignalDraft Payload) (state : SignalState Payload) : Prop :=
  validateSignalPayload json draft.payload = .ok () ∧
    ∀ store, state.persistence = .postgres store → validateSignal json draft = .ok ()

/-- With PostgreSQL the memory has every room of the database. -/
def SignalState.Loaded (state : SignalState Payload) : Prop :=
  ∀ store, state.persistence = .postgres store →
    ∀ roomId, (store.rooms roomId).isSome → (state.rooms roomId).isSome

/-! ## What a call does to the log -/

/-- A call fails, finds a signal of its command, or appends a new one. -/
inductive Appends (state : SignalState Payload) (draft : SignalDraft Payload) :
    Except ApiError (SignalRecord Payload) → SignalState Payload → Prop
  | failed {error : ApiError}
      (hknown : draft.Valid json state → ∀ signals next,
        state.log draft.roomId = some (signals, next) →
          ∀ signal ∈ signals, signal.commandId ≠ some draft.commandId) :
      Appends state draft (.error error) state
  | repeated {existing : SignalRecord Payload} {signals next after}
      (hlog : state.log draft.roomId = some (signals, next)) (hmem : existing ∈ signals)
      (hcommand : existing.commandId = some draft.commandId) (hsame : after.log = state.log)
      (hloaded : after.Loaded) : Appends state draft (.ok existing) after
  | appended {signals next after} (kept : List (SignalRecord Payload))
      (hlog : state.log draft.roomId = some (signals, next))
      (hfresh : ∀ signal ∈ signals, signal.commandId ≠ some draft.commandId)
      (hafter : after.log = Function.update state.log draft.roomId (some (kept, next + 1)))
      (hkept : ∀ signal ∈ kept, signal ∈ signals ∨ signal = draft.record (UInt64.ofNat next))
      (hnumber : (UInt64.ofNat next).toNat = next) (hloaded : after.Loaded) :
      Appends state draft (.ok (draft.record (UInt64.ofNat next))) after

variable {json} {state : SignalState Payload} {draft : SignalDraft Payload}

theorem forall_of_find?_eq_none {signals : List (SignalRecord Payload)} {command : CommandId}
    (h : (signals.find? fun signal => signal.commandId = some command) = none) :
    ∀ signal ∈ signals, signal.commandId ≠ some command := by
  intro signal hsignal hcommand
  have hnone := List.find?_eq_none.mp h signal hsignal
  simp [hcommand] at hnone

theorem cacheSignal_run {persistence : SignalPersistence Payload}
    {rooms : RoomId → Option (SignalCache Payload)} {roomId : RoomId} {signal : SignalRecord Payload}
    {cache : SignalCache Payload} (h : rooms roomId = some cache) :
    (cacheSignal json roomId signal).run ⟨persistence, rooms⟩ =
      (.ok (), if cache.holds signal.sequence then ⟨persistence, rooms⟩ else
        ⟨persistence, Function.update rooms roomId (some (cache.insert json signal))⟩) := by
  rw [cacheSignal, run_get_bind, run_ofOption_bind]
  dsimp only
  rw [h]
  dsimp only
  split_ifs <;> rfl

theorem log_update_files {rooms : RoomId → Option (SignalCache Payload)} {roomId : RoomId}
    {cache : SignalCache Payload} :
    (SignalState.mk .files (Function.update rooms roomId (some cache))).log =
      Function.update (SignalState.mk .files rooms).log roomId
        (some (cache.signals, cache.nextSequence.toNat)) := by
  funext other
  unfold SignalState.log
  by_cases hother : other = roomId
  · simp [hother]
  · simp [Function.update_of_ne hother]

theorem run_append_files {rooms : RoomId → Option (SignalCache Payload)}
    (hvalid : validateSignalPayload json draft.payload = .ok ()) :
    (appendSignal json draft).run ⟨.files, rooms⟩ =
      match rooms draft.roomId with
      | none => (.error roomNotFound, ⟨.files, rooms⟩)
      | some cache =>
          match cache.signals.find? fun signal => signal.commandId = some draft.commandId with
          | some existing => (.ok existing, ⟨.files, rooms⟩)
          | none =>
              (.ok (draft.record cache.nextSequence), if cache.holds cache.nextSequence
                then ⟨.files, rooms⟩
                else ⟨.files, Function.update rooms draft.roomId
                  (some (cache.insert json (draft.record cache.nextSequence)))⟩) := by
  rw [appendSignal, run_ofExcept_bind, hvalid]
  dsimp only
  rw [run_get_bind, run_ofOption_bind]
  dsimp only
  cases hcache : rooms draft.roomId with
  | none => rfl
  | some cache =>
    dsimp only
    unfold draftFileSignal
    cases cache.signals.find? fun signal => signal.commandId = some draft.commandId with
    | some existing => rfl
    | none =>
      dsimp only
      rw [if_pos rfl, run_bind, cacheSignal_run hcache]
      rfl

/-- With the files backend a new signal gets the next number, and the cache takes it. -/
theorem appends_files {rooms : RoomId → Option (SignalCache Payload)}
    (hbelow : ∀ cache, rooms draft.roomId = some cache →
      ∀ signal ∈ cache.signals, signal.sequence < cache.nextSequence)
    (hnext : ∀ cache, rooms draft.roomId = some cache → cache.nextSequence.toNat < usizeMax) :
    Appends json ⟨.files, rooms⟩ draft ((appendSignal json draft).run ⟨.files, rooms⟩).1
      ((appendSignal json draft).run ⟨.files, rooms⟩).2 := by
  cases hvalid : validateSignalPayload json draft.payload with
  | error error =>
    rw [appendSignal, run_ofExcept_bind, hvalid]
    refine .failed fun hvalid' => ?_
    rw [hvalid'.1] at hvalid
    cases hvalid
  | ok checked =>
    rw [run_append_files hvalid]
    cases hcache : rooms draft.roomId with
    | none =>
      refine .failed fun _ signals next hlog => ?_
      simp [SignalState.log, hcache] at hlog
    | some cache =>
      have hlog : (SignalState.mk .files rooms).log draft.roomId =
          some (cache.signals, cache.nextSequence.toNat) := by
        simp [SignalState.log, hcache]
      dsimp only
      cases hfind : cache.signals.find? fun signal => signal.commandId = some draft.commandId with
      | some existing =>
        have hcommand := List.find?_some hfind
        exact .repeated hlog (List.mem_of_find?_eq_some hfind) (by simpa using hcommand) rfl nofun
      | none =>
        have hbelow := hbelow cache hcache
        have hnext := hnext cache hcache
        have hunheld : cache.holds cache.nextSequence = false := by
          rw [SignalCache.holds, List.any_eq_false]
          intro signal hsignal heq
          exact absurd (of_decide_eq_true heq) (UInt64.ne_of_lt (hbelow signal hsignal))
        have hnumber : UInt64.ofNat cache.nextSequence.toNat = cache.nextSequence :=
          UInt64.ofNat_toNat
        have hsucc : max cache.nextSequence (saturatingSucc cache.nextSequence) =
            saturatingSucc cache.nextSequence := by
          refine if_pos (UInt64.le_iff_toNat_le.mpr ?_)
          rw [toNat_saturatingSucc hnext]
          exact Nat.le_succ _
        dsimp only
        rw [hunheld]
        simp only [Bool.false_eq_true, if_false]
        rw [← hnumber]
        refine .appended (cache.insert json (draft.record cache.nextSequence)).signals hlog
          (forall_of_find?_eq_none hfind) ?_ ?_ ?_ nofun
        · rw [hnumber, log_update_files, SignalCache.insert]
          dsimp only [SignalDraft.record]
          rw [hsucc, toNat_saturatingSucc hnext]
        · intro signal hsignal
          rw [hnumber]
          exact SignalCache.mem_of_mem_insert json hsignal
        · rw [hnumber]

/-- What the transaction of PostgreSQL does, if it commits. -/
inductive AppendsRow (tables : SignalTables Payload) (draft : SignalDraft Payload) :
    SignalRecord Payload → SignalTables Payload → Prop
  | repeated {existing : SignalRecord Payload} {room} (hroom : tables.rooms draft.roomId = some room)
      (hmem : existing ∈ room.rows) (hcommand : existing.commandId = some draft.commandId) :
      AppendsRow tables draft existing tables
  | appended {room after} (hroom : tables.rooms draft.roomId = some room)
      (hfresh : ∀ signal ∈ room.rows, signal.commandId ≠ some draft.commandId)
      (hbound : room.signalSequence + 1 < bigintBound)
      (hafter : after.rooms = Function.update tables.rooms draft.roomId
        (some ⟨room.signalSequence + 1,
          (room.rows ++ [draft.record (UInt64.ofNat (room.signalSequence + 1))]).filter fun row =>
            room.signalSequence + 1 - signalBacklogMessages < row.sequence.toNat⟩)) :
      AppendsRow tables draft (draft.record (UInt64.ofNat (room.signalSequence + 1))) after

theorem appendsRow_of_ok {tables after : SignalTables Payload} {signal : SignalRecord Payload}
    (h : appendRoomSignal json draft tables = .ok (signal, after)) :
    AppendsRow tables draft signal after := by
  obtain ⟨-, -, h⟩ := Results.bind_eq_ok.mp h
  cases hroom : tables.rooms draft.roomId with
  | none =>
    rw [hroom] at h
    cases h
  | some room =>
    rw [hroom] at h
    dsimp only at h
    cases hfind : room.rows.find? fun row => row.commandId = some draft.commandId with
    | some existing =>
      rw [hfind] at h
      cases h
      have hcommand := List.find?_some hfind
      exact .repeated hroom (List.mem_of_find?_eq_some hfind) (by simpa using hcommand)
    | none =>
      rw [hfind] at h
      dsimp only at h
      split_ifs at h with hbound
      · cases h
      · obtain ⟨-, -, h⟩ := Results.bind_eq_ok.mp h
        cases h
        exact .appended hroom (forall_of_find?_eq_none hfind) (Nat.not_le.mp hbound) rfl

/-- A repeated command finds its row, unless the draft is refused. -/
theorem appendRoomSignal_of_known {tables : SignalTables Payload} {room : RoomSignals Payload}
    (hvalid : validateSignal json draft = .ok ()) (hroom : tables.rooms draft.roomId = some room)
    {signal : SignalRecord Payload} (hmem : signal ∈ room.rows)
    (hcommand : signal.commandId = some draft.commandId) :
    ∃ existing, appendRoomSignal json draft tables = .ok (existing, tables) := by
  rw [appendRoomSignal, hvalid, Results.bind_ok, hroom]
  dsimp only
  cases hfind : room.rows.find? fun row => row.commandId = some draft.commandId with
  | some existing => exact ⟨existing, rfl⟩
  | none => exact absurd hcommand (forall_of_find?_eq_none hfind signal hmem)

theorem log_update_postgres {store after : SignalTables Payload}
    {rooms rooms' : RoomId → Option (SignalCache Payload)} {roomId : RoomId}
    {room : RoomSignals Payload} (h : after.rooms = Function.update store.rooms roomId (some room)) :
    (SignalState.mk (.postgres after) rooms').log =
      Function.update (SignalState.mk (.postgres store) rooms).log roomId
        (some (room.rows, room.signalSequence + 1)) := by
  funext other
  unfold SignalState.log
  dsimp only
  rw [h]
  by_cases hother : other = roomId
  · simp [hother]
  · simp [Function.update_of_ne hother]

theorem log_postgres {store : SignalTables Payload}
    {rooms : RoomId → Option (SignalCache Payload)} {roomId : RoomId} {room : RoomSignals Payload}
    (h : store.rooms roomId = some room) :
    (SignalState.mk (.postgres store) rooms).log roomId = some (room.rows, room.signalSequence + 1) :=
  Option.map_eq_some_iff.mpr ⟨room, h, rfl⟩

/-- With PostgreSQL a new signal gets the next number of the room's row. -/
theorem appends_postgres {store : SignalTables Payload}
    {rooms : RoomId → Option (SignalCache Payload)}
    (hloaded : (SignalState.mk (.postgres store) rooms).Loaded) :
    Appends json ⟨.postgres store, rooms⟩ draft
      ((appendSignal json draft).run ⟨.postgres store, rooms⟩).1
      ((appendSignal json draft).run ⟨.postgres store, rooms⟩).2 := by
  rw [appendSignal, run_ofExcept_bind]
  cases hvalid : validateSignalPayload json draft.payload with
  | error error =>
    refine .failed fun hvalid' => ?_
    rw [hvalid'.1] at hvalid
    cases hvalid
  | ok checked =>
    dsimp only
    rw [run_get_bind]
    dsimp only
    cases happend : appendRoomSignal json draft store with
    | error error =>
      refine .failed fun hvalid signals next hlog signal hsignal hcommand => ?_
      obtain ⟨room, hroom, heq⟩ := Option.map_eq_some_iff.mp hlog
      cases heq
      obtain ⟨existing, hok⟩ :=
        appendRoomSignal_of_known (hvalid.2 store rfl) hroom hsignal hcommand
      rw [hok] at happend
      cases happend
    | ok result =>
      obtain ⟨signal, after⟩ := result
      dsimp only
      have hrow := appendsRow_of_ok happend
      have hcached (hroom : ∃ room, store.rooms draft.roomId = some room) :
          ∃ rooms', ((do
            set { persistence := .postgres after, rooms := rooms }
            cacheSignal json draft.roomId signal
            return signal) : Fallible (SignalState Payload) ApiError (SignalRecord Payload)).run
              ⟨.postgres store, rooms⟩ = (.ok signal, ⟨.postgres after, rooms'⟩) ∧
            ∀ roomId, (rooms roomId).isSome → (rooms' roomId).isSome := by
        obtain ⟨room, hroom⟩ := hroom
        obtain ⟨cache, hcache⟩ := Option.isSome_iff_exists.mp
          (hloaded store rfl draft.roomId (by rw [hroom]; rfl))
        dsimp only at hcache
        rw [run_set_bind, run_bind, cacheSignal_run hcache]
        dsimp only
        split_ifs
        · exact ⟨rooms, rfl, fun _ h => h⟩
        · refine ⟨_, rfl, fun roomId h => ?_⟩
          by_cases hother : roomId = draft.roomId
          · simp [hother]
          · rwa [Function.update_of_ne hother]
      cases hrow with
      | repeated hroom hmem hcommand =>
        obtain ⟨rooms', hrun, hrooms⟩ := hcached ⟨_, hroom⟩
        rw [hrun]
        refine .repeated (log_postgres hroom) hmem hcommand rfl ?_
        intro found hfound roomId hstored
        cases hfound
        exact hrooms roomId (hloaded store rfl roomId hstored)
      | appended hroom hfresh hbound hafter =>
        obtain ⟨rooms', hrun, hrooms⟩ := hcached ⟨_, hroom⟩
        rw [hrun]
        refine .appended _ (log_postgres hroom) hfresh (log_update_postgres hafter) ?_ ?_ ?_
        · intro signal hsignal
          rcases List.mem_append.mp (List.mem_of_mem_filter hsignal) with hold | hnew
          · exact .inl hold
          · exact .inr (List.mem_singleton.mp hnew)
        · exact UInt64.toNat_ofNat_of_lt' (hbound.trans (by decide))
        · intro found hfound roomId hstored
          cases hfound
          refine hrooms roomId (hloaded store rfl roomId ?_)
          rw [hafter] at hstored
          by_cases hother : roomId = draft.roomId
          · rw [hother, hroom]
            rfl
          · rwa [Function.update_of_ne hother] at hstored

/-! ## Runs -/

/-- The state of the server, all signals that were ever given out for a room, and whether the server
has forgotten signals of the room. -/
structure SignalServer (Payload : Type) where
  state : SignalState Payload
  given : RoomId → List (SignalRecord Payload)
  forgotten : RoomId → Bool

inductive SignalCall (Payload : Type)
  | append (draft : SignalDraft Payload)
  | restart

variable (json)

/-- A restart with the files backend forgets what was given out. -/
def SignalServer.restart (server : SignalServer Payload) : SignalServer Payload :=
  { server with
    state := server.state.restart
    forgotten := match server.state.persistence with
      | .files => fun roomId => server.forgotten roomId || !(server.given roomId).isEmpty
      | .postgres _ => server.forgotten }

def SignalServer.step [DecidableEq Payload] (server : SignalServer Payload) : SignalCall Payload → SignalServer Payload
  | .append draft =>
      let result := (appendSignal json draft).run server.state
      { server with
        state := result.2
        given := match result.1 with
          | .ok signal =>
              let given := server.given draft.roomId
              if signal ∈ given then server.given
              else Function.update server.given draft.roomId (given ++ [signal])
          | .error _ => server.given }
  | .restart => server.restart

/-- A new signal has a number above all that were given out before in its room, and a command that
was used before in the room gives the same signal again, with nothing appended. -/
def Logged (server : SignalServer Payload) : SignalCall Payload → Prop
  | .append draft =>
      let result := (appendSignal json draft).run server.state
      let given := server.given draft.roomId
      (∀ signal, result.1 = .ok signal → signal ∉ given →
        ∀ earlier ∈ given, earlier.sequence < signal.sequence) ∧
      ∀ original ∈ given, original.commandId = some draft.commandId →
        result.1 = .ok original ∧ result.2.log = server.state.log
  | .restart => True

/-- Nothing is appended to a room whose signals were forgotten.  A command that was used before is
still in the log, and the call passes the checks of its data.  The files backend is not at the last
number. -/
def Retained (server : SignalServer Payload) : SignalCall Payload → Prop
  | .append draft =>
      server.forgotten draft.roomId = false ∧
      (∀ original ∈ server.given draft.roomId, original.commandId = some draft.commandId →
        draft.Valid json server.state ∧
          ∃ signals next, server.state.log draft.roomId = some (signals, next) ∧
            original ∈ signals) ∧
      (server.state.persistence = .files → ∀ cache, server.state.rooms draft.roomId = some cache →
        cache.nextSequence.toNat < usizeMax)
  | .restart => True

/-- What the log has was given out, under numbers below the next one, unless it was forgotten. -/
structure Recorded (server : SignalServer Payload) : Prop where
  loaded : server.state.Loaded
  exists_of_given : ∀ {roomId signal}, signal ∈ server.given roomId →
    ∃ signals next, server.state.log roomId = some (signals, next)
  listed : ∀ {roomId signals next}, server.forgotten roomId = false →
    server.state.log roomId = some (signals, next) → ∀ signal ∈ signals, signal ∈ server.given roomId
  below : ∀ {roomId signals next}, server.forgotten roomId = false →
    server.state.log roomId = some (signals, next) → ∀ signal ∈ server.given roomId, signal.sequence.toNat < next
  unique : ∀ {roomId first second}, first ∈ server.given roomId → second ∈ server.given roomId →
    first.commandId = second.commandId → first = second

variable {json} {server : SignalServer Payload}

theorem Recorded.appends (h : Recorded server) (draft : SignalDraft Payload)
    (hretained : Retained json server (.append draft)) :
    Appends json server.state draft ((appendSignal json draft).run server.state).1
      ((appendSignal json draft).run server.state).2 := by
  obtain ⟨⟨persistence, rooms⟩, given, forgotten⟩ := server
  cases persistence with
  | postgres store => exact appends_postgres h.loaded
  | files =>
    refine appends_files ?_ (hretained.2.2 rfl)
    intro cache hcache signal hsignal
    have hlog : (SignalState.mk .files rooms).log draft.roomId =
        some (cache.signals, cache.nextSequence.toNat) :=
      Option.map_eq_some_iff.mpr ⟨cache, hcache, rfl⟩
    exact UInt64.lt_iff_toNat_lt.mpr (h.below hretained.1 hlog signal
      (h.listed hretained.1 hlog signal hsignal))

/-- A call on a log that has what it needs does what it should. -/
theorem logged_of_retained (h : Recorded server) {call : SignalCall Payload}
    (hretained : Retained json server call) : Logged json server call := by
  cases call with
  | restart => trivial
  | append draft =>
    have happends := h.appends draft hretained
    unfold Logged
    dsimp only
    generalize (appendSignal json draft).run server.state = result at happends
    obtain ⟨outcome, after⟩ := result
    have hold (original : SignalRecord Payload) (horiginal : original ∈ server.given draft.roomId)
        (hcommand : original.commandId = some draft.commandId) {signals next}
        (hlog : server.state.log draft.roomId = some (signals, next)) : original ∈ signals := by
      obtain ⟨-, found, number, hfound, hmem⟩ := hretained.2.1 original horiginal hcommand
      rw [hlog] at hfound
      cases hfound
      exact hmem
    cases happends with
    | failed hknown =>
      refine ⟨nofun, fun original horiginal hcommand => ?_⟩
      obtain ⟨hvalid, signals, next, hlog, hmem⟩ := hretained.2.1 original horiginal hcommand
      exact absurd hcommand (hknown hvalid signals next hlog original hmem)
    | repeated hlog hmem hcommand hsame =>
      refine ⟨?_, fun original horiginal horiginalCommand => ⟨?_, hsame⟩⟩
      · rintro signal ⟨⟩ hnew
        exact absurd (h.listed hretained.1 hlog _ hmem) hnew
      · rw [h.unique (h.listed hretained.1 hlog _ hmem) horiginal (hcommand.trans horiginalCommand.symm)]
    | appended kept hlog hfresh hafter hkept hnumber =>
      refine ⟨?_, fun original horiginal hcommand => ?_⟩
      · rintro signal ⟨⟩ hnew earlier hearlier
        rw [UInt64.lt_iff_toNat_lt]
        exact (h.below hretained.1 hlog earlier hearlier).trans_eq hnumber.symm
      · exact absurd hcommand (hfresh original (hold original horiginal hcommand hlog))

theorem Recorded.restart (h : Recorded server) : Recorded server.restart := by
  obtain ⟨⟨persistence, rooms⟩, given, forgotten⟩ := server
  cases persistence with
  | postgres store =>
    refine ⟨?_, h.exists_of_given, h.listed, h.below, h.unique⟩
    intro found hfound roomId hstored
    cases hfound
    simpa [SignalServer.restart, SignalState.restart] using hstored
  | files =>
    have hnone {roomId : RoomId}
        (hkeeps : (forgotten roomId || !(given roomId).isEmpty) = false) : given roomId = [] := by
      rw [Bool.or_eq_false_iff] at hkeeps
      simpa using hkeeps.2
    refine ⟨nofun, ?_, ?_, ?_, h.unique⟩
    · intro roomId signal hsignal
      obtain ⟨signals, next, hlog⟩ := h.exists_of_given hsignal
      obtain ⟨cache, hcache, -⟩ := Option.map_eq_some_iff.mp hlog
      refine ⟨[], 1, Option.map_eq_some_iff.mpr ⟨.fresh, ?_, rfl⟩⟩
      exact Option.map_eq_some_iff.mpr ⟨cache, hcache, rfl⟩
    · intro roomId signals next hkeeps hlog
      obtain ⟨cache, hcache, heq⟩ := Option.map_eq_some_iff.mp hlog
      obtain ⟨old, -, rfl⟩ := Option.map_eq_some_iff.mp hcache
      cases heq
      exact nofun
    · intro roomId signals next hkeeps hlog signal (hsignal : signal ∈ given roomId)
      rw [hnone hkeeps] at hsignal
      cases hsignal

variable [DecidableEq Payload]

/-- A new signal is given out, and the log goes on behind it. -/
theorem Recorded.append (h : Recorded server) {draft : SignalDraft Payload}
    (hretained : Retained json server (.append draft)) :
    Recorded (server.step json (.append draft)) := by
  have happends := h.appends draft hretained
  have hlogged := logged_of_retained h hretained
  unfold Logged at hlogged
  unfold SignalServer.step
  dsimp only at hlogged ⊢
  generalize (appendSignal json draft).run server.state = result at happends hlogged
  obtain ⟨outcome, after⟩ := result
  cases happends with
  | failed hknown => exact h
  | repeated hlog hmem hcommand hsame hloaded =>
    dsimp only
    rw [if_pos (h.listed hretained.1 hlog _ hmem)]
    refine ⟨hloaded, ?_, ?_, ?_, h.unique⟩
    · rw [hsame]
      exact h.exists_of_given
    · rw [hsame]
      exact h.listed
    · rw [hsame]
      exact h.below
  | @appended signals next after kept hlog hfresh hafter hkept hnumber hloaded =>
    have hnew : draft.record (UInt64.ofNat next) ∉ server.given draft.roomId := by
      intro hgiven
      have hlt := h.below hretained.1 hlog _ hgiven
      rw [SignalDraft.record, hnumber] at hlt
      exact Nat.lt_irrefl _ hlt
    dsimp only
    rw [if_neg hnew]
    have hmem {roomId : RoomId} {signal : SignalRecord Payload}
        (hsignal : signal ∈ Function.update server.given draft.roomId
          (server.given draft.roomId ++ [draft.record (UInt64.ofNat next)]) roomId) :
        signal ∈ server.given roomId ∨
          roomId = draft.roomId ∧ signal = draft.record (UInt64.ofNat next) := by
      by_cases hroom : roomId = draft.roomId
      · subst hroom
        simpa using hsignal
      · rw [Function.update_of_ne hroom] at hsignal
        exact .inl hsignal
    have hfreshCommand {signal : SignalRecord Payload}
        (hsignal : signal ∈ server.given draft.roomId) :
        signal.commandId ≠ some draft.commandId := by
      intro hcommand
      have hok := (hlogged.2 signal hsignal hcommand).1
      rw [← Except.ok.inj hok] at hsignal
      exact hnew hsignal
    refine ⟨hloaded, ?_, ?_, ?_, ?_⟩
    · intro roomId signal hsignal
      rw [hafter]
      by_cases hroom : roomId = draft.roomId
      · exact ⟨kept, next + 1, by rw [hroom, Function.update_self]⟩
      · rw [Function.update_of_ne hroom]
        rcases hmem hsignal with hsignal | ⟨heq, -⟩
        · exact h.exists_of_given hsignal
        · exact absurd heq hroom
    · intro roomId listed number hkeeps hlisted signal hsignal
      rw [hafter] at hlisted
      by_cases hroom : roomId = draft.roomId
      · subst hroom
        simp only [Function.update_self, Option.some.injEq, Prod.mk.injEq] at hlisted
        simp only [Function.update_self, List.mem_append, List.mem_singleton]
        rw [← hlisted.1] at hsignal
        rcases hkept signal hsignal with hold | hrecord
        · exact .inl (h.listed hretained.1 hlog signal hold)
        · exact .inr hrecord
      · simp only [Function.update_of_ne hroom] at hlisted ⊢
        exact h.listed hkeeps hlisted signal hsignal
    · intro roomId listed number hkeeps hlisted signal hsignal
      rw [hafter] at hlisted
      by_cases hroom : roomId = draft.roomId
      · subst hroom
        simp only [Function.update_self, Option.some.injEq, Prod.mk.injEq] at hlisted
        rw [← hlisted.2]
        rcases hmem hsignal with hsignal | ⟨-, rfl⟩
        · exact Nat.lt_succ_of_lt (h.below hretained.1 hlog signal hsignal)
        · rw [SignalDraft.record, hnumber]
          exact Nat.lt_succ_self _
      · simp only [Function.update_of_ne hroom] at hlisted hsignal
        exact h.below hkeeps hlisted signal hsignal
    · intro roomId first second hfirst hsecond hcommand
      rcases hmem hfirst with hfirst | ⟨rfl, rfl⟩
      · rcases hmem hsecond with hsecond | ⟨rfl, rfl⟩
        · exact h.unique hfirst hsecond hcommand
        · exact absurd hcommand (hfreshCommand hfirst)
      · rcases hmem hsecond with hsecond | ⟨-, rfl⟩
        · exact absurd hcommand.symm (hfreshCommand hsecond)
        · rfl

inductive SignalBackend
  | files
  | postgres

/-- A server with these rooms, in which nothing was signalled yet. -/
def SignalServer.initial (backend : SignalBackend) (rooms : RoomId → Bool) :
    SignalServer Payload where
  state := {
    persistence := match backend with
      | .files => .files
      | .postgres => .postgres ⟨fun roomId => if rooms roomId then some ⟨0, []⟩ else none, []⟩
    rooms := fun roomId => if rooms roomId then some .fresh else none }
  given := fun _ => []
  forgotten := fun _ => false

omit [DecidableEq Payload] in
theorem recorded_initial (backend : SignalBackend) (rooms : RoomId → Bool) :
    Recorded (.initial backend rooms : SignalServer Payload) := by
  refine ⟨?_, nofun, ?_, nofun, nofun⟩
  · intro store hstore roomId hstored
    cases backend with
    | files => cases hstore
    | postgres =>
      cases hstore
      by_cases hroom : rooms roomId = true
      · simp [SignalServer.initial, hroom]
      · simp [hroom] at hstored
  · intro roomId signals next _ hlog
    cases backend with
    | files =>
      obtain ⟨cache, hcache, heq⟩ := Option.map_eq_some_iff.mp hlog
      simp only [SignalServer.initial, Option.ite_none_right_eq_some, Option.some.injEq] at hcache
      rw [← hcache.2] at heq
      cases heq
      exact nofun
    | postgres =>
      obtain ⟨room, hroom, heq⟩ := Option.map_eq_some_iff.mp hlog
      simp only [Option.ite_none_right_eq_some, Option.some.injEq] at hroom
      rw [← hroom.2] at heq
      cases heq
      exact nofun

theorem Recorded.step (h : Recorded server) {call : SignalCall Payload}
    (hretained : Retained json server call) : Recorded (server.step json call) := by
  cases call with
  | append draft => exact h.append hretained
  | restart => exact h.restart

/-- As long as the log is retained, numbers ascend and no command is logged twice. -/
theorem each_logged (json : JsonLengths Payload) (backend : SignalBackend) (rooms : RoomId → Bool)
    (calls : List (SignalCall Payload))
    (h : Runs.Each (SignalServer.step json) (Retained json) (.initial backend rooms) calls) :
    Runs.Each (SignalServer.step json) (Logged json) (.initial backend rooms) calls := by
  refine Runs.Each.of_always (fun _ _ hrecorded hretained => logged_of_retained hrecorded hretained)
    (Runs.always_of_each (fun _ _ hrecorded hretained => hrecorded.step hretained)
      (recorded_initial backend rooms) h) h

/-! A signal before and after a restart. -/

namespace SignalRestart

def lengths : JsonLengths Unit := ⟨fun _ => .ok 2, fun _ => .ok 200⟩

def offer (commandId : CommandId) : SignalDraft Unit := ⟨7, commandId, 1, none, "offer", (), 0⟩

/-- The second call repeats the first one, with a restart between the two. -/
def repeated : List (SignalCall Unit) := [.append (offer 1), .restart, .append (offer 1)]

def start (backend : SignalBackend) : SignalServer Unit := .initial backend fun _ => true

theorem logged_repeated :
    Runs.Each (SignalServer.step lengths) (Logged lengths) (start .postgres) repeated := by
  refine each_logged lengths .postgres (fun _ => true) repeated 
    ⟨⟨rfl, ?_, ?_⟩, trivial, ⟨rfl, ?_, ?_⟩, trivial⟩
  · intro original horiginal
    cases horiginal
  · intro hfiles
    cases hfiles
  · intro original horiginal _
    exact ⟨⟨rfl, fun _ _ => rfl⟩, [(offer 1).record 1], 2, rfl, horiginal⟩
  · intro hfiles
    cases hfiles

/-- The second call has a command of its own. -/
def restarted : List (SignalCall Unit) := [.append (offer 1), .restart, .append (offer 2)]

theorem not_logged_restarted :
    ¬ Runs.Each (SignalServer.step lengths) (Logged lengths) (start .files) restarted := by
  intro h
  have hlast := h.2.2.1.1 ((offer 2).record 1) rfl (by decide) ((offer 1).record 1)
    (by decide)
  exact absurd hlast (by decide)

end SignalRestart

end Fluvora.ApiServer
