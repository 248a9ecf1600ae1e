import Fluvora.Domain.Invariants

/-!
# Commands and gifts are applied once

A room refuses a command or a gift transaction that is among the last 4096 it has applied.  The
queues hold exactly the newest keys of the event stream (`Recalls`), so two events with the same
command, and two gifts with the same transaction, have more than 4096 events or gifts between their
positions.  An older command is forgotten: after 4096 others it is applied again.
-/

open Std (ExtTreeMap ExtTreeSet)

namespace Fluvora.Domain

/-- The payment that an event records. -/
def RoomEvent.giftTransaction (event : RoomEvent) : Option String :=
  match event.kind with
  | .giftRecorded _ receipt _ => some receipt.transactionId
  | _ => none

/-- The commands of an event stream, in order. -/
def commandsOf (events : List RoomEvent) : List CommandId := events.map RoomEvent.commandId

/-- The gift transactions of an event stream, in order. -/
def giftsOf (events : List RoomEvent) : List String := events.filterMap RoomEvent.giftTransaction

namespace Room

/-- The queues of a room are the newest commands and gifts of its events. -/
structure Recalls (events : List RoomEvent) (room : Room) : Prop extends Remembers room where
  commandOrder : room.commandOrder = (commandsOf events).rtake commandHistoryLimit
  giftOrder : room.giftTransactionOrder = (giftsOf events).rtake giftTransactionHistoryLimit
  commands_spaced : History.Spaced commandHistoryLimit (commandsOf events)
  gifts_spaced : History.Spaced giftTransactionHistoryLimit (giftsOf events)

theorem remembers_apply {room : Room} {request : Request} {kind : RoomEventKind}
    (h : room.Remembers) (accepts : room.Accepts request kind) :
    (room.apply (room.eventOf request kind)).Remembers := by
  have kept := remembers_applyKind h (decide_checked accepts.decided)
  exact ⟨History.tracks_remember kept.commands _, kept.gifts, kept.gifts_valid⟩

theorem processedCommands_applyKind (room : Room) (kind : RoomEventKind) :
    (room.applyKind kind).processedCommands = room.processedCommands := by
  cases kind <;> rfl

theorem commandOrder_apply (room : Room) (event : RoomEvent) :
    (room.apply event).commandOrder =
      (History.remember commandHistoryLimit room.processedCommands room.commandOrder
        event.commandId).2 := by
  rw [apply, rememberCommand]
  dsimp only
  rw [processedCommands_applyKind, commandOrder_applyKind]

/-- Only a gift changes the queue of gifts. -/
theorem giftTransactionOrder_apply (room : Room) (event : RoomEvent) :
    (room.apply event).giftTransactionOrder =
      match event.giftTransaction with
      | some transaction =>
          (History.remember giftTransactionHistoryLimit room.giftTransactions
            room.giftTransactionOrder transaction).2
      | none => room.giftTransactionOrder := by
  obtain ⟨sequence, commandId, timestampMillis, kind⟩ := event
  cases kind <;> rfl

/-- A gift that is accepted is not among the known ones. -/
theorem gift_fresh {room : Room} {request : Request} {kind : RoomEventKind}
    (accepts : room.Accepts request kind) {transaction : String}
    (hgift : (room.eventOf request kind).giftTransaction = some transaction) :
    transaction ∉ room.giftTransactions := by
  have checked := decide_checked accepts.decided
  cases kind with
  | giftRecorded sender receipt total =>
    cases hgift
    exact checked.2
  | created | memberJoined | memberLeft | roleChanged | publishingStarted | publishingStopped
  | ended | chatSent | customDataSent => cases hgift

theorem recalls_apply {events : List RoomEvent} {room : Room} {request : Request}
    {kind : RoomEventKind} (h : room.Recalls events) (accepts : room.Accepts request kind) :
    (room.apply (room.eventOf request kind)).Recalls (events ++ [room.eventOf request kind]) := by
  have hcommands : commandsOf (events ++ [room.eventOf request kind]) =
      commandsOf events ++ [request.commandId] := by
    rw [commandsOf, List.map_append]
    rfl
  have hfresh : request.commandId ∉ (commandsOf events).rtake commandHistoryLimit := by
    rw [← h.commandOrder, ← h.commands.mem_iff]
    exact accepts.fresh
  refine ⟨remembers_apply h.toRemembers accepts, ?_, ?_, ?_, ?_⟩
  · rw [hcommands, commandOrder_apply, h.commandOrder]
    exact History.order_remember accepts.fresh
  · rw [giftTransactionOrder_apply]
    match hgift : (room.eventOf request kind).giftTransaction with
    | none => simp [giftsOf, hgift, h.giftOrder]
    | some transaction =>
      dsimp only
      rw [h.giftOrder, History.order_remember (gift_fresh accepts hgift)]
      simp [giftsOf, hgift]
  · rw [hcommands]
    exact History.spaced_append h.commands_spaced hfresh
  · match hgift : (room.eventOf request kind).giftTransaction with
    | none =>
      simp only [giftsOf, List.filterMap_append, List.filterMap_cons, hgift, List.filterMap_nil,
        List.append_nil]
      exact h.gifts_spaced
    | some transaction =>
      have hgifts : giftsOf (events ++ [room.eventOf request kind]) =
          giftsOf events ++ [transaction] := by
        simp [giftsOf, hgift]
      rw [hgifts]
      apply History.spaced_append h.gifts_spaced
      rw [← h.giftOrder, ← h.gifts.mem_iff]
      exact gift_fresh accepts hgift

theorem recalls_step {events : List RoomEvent} {room : Room} (h : room.Recalls events)
    (request : Request) : (room.step request).Recalls (events ++ room.emitted request) := by
  obtain ⟨same, silent⟩ | ⟨kind, accepts, applied, emitted⟩ := step_cases room request
  · rw [same, silent, List.append_nil]
    exact h
  · rw [applied, emitted]
    exact recalls_apply h accepts

theorem recalls_run {events : List RoomEvent} {room : Room} (h : room.Recalls events)
    (requests : List Request) : (room.run requests).Recalls (events ++ room.emittedAll requests) := by
  induction requests generalizing room events with
  | nil =>
    rw [emittedAll, List.append_nil]
    exact h
  | cons request requests ih =>
    rw [emittedAll, ← List.append_assoc]
    exact ih (recalls_step h request)

theorem recalls_create (id : RoomId) (mode : RoomMode) (host : UserId) (policy : RoomPolicy)
    (commandId : CommandId) (timestampMillis : UInt64) :
    let created := create id mode host policy commandId timestampMillis
    created.1.Recalls [created.2] := by
  intro created
  have hgifts : giftsOf [created.2] = [] := rfl
  have hspaced : ∀ {α : Type} (limit : ℕ), History.Spaced limit ([] : List α) := by
    intro α limit i j key _ h
    simp at h
  refine ⟨⟨History.tracks_remember (History.tracks_empty _) _, History.tracks_empty _, ?_⟩, ?_,
    ?_, ?_, ?_⟩
  · exact fun transaction known => absurd known List.not_mem_nil
  · show (History.remember commandHistoryLimit ∅ [] commandId).2 = _
    rw [← List.rtake_nil commandHistoryLimit, History.order_remember ExtTreeSet.not_mem_empty]
    rfl
  · rw [hgifts, List.rtake_nil]
    rfl
  · exact History.spaced_append (hspaced _) (by rw [List.rtake_nil]; exact List.not_mem_nil)
  · rw [hgifts]
    exact hspaced _

/-- Over every run, a command that is applied again comes more than 4096 events after the first
time, and a gift that is recorded again more than 4096 gifts after it. -/
theorem applied_once_within_history (id : RoomId) (mode : RoomMode) (host : UserId)
    (policy : RoomPolicy) (commandId : CommandId) (timestampMillis : UInt64)
    (requests : List Request) :
    let created := create id mode host policy commandId timestampMillis
    let events := created.2 :: created.1.emittedAll requests
    History.Spaced commandHistoryLimit (commandsOf events) ∧
      History.Spaced giftTransactionHistoryLimit (giftsOf events) := by
  intro created events
  have h := recalls_run (recalls_create id mode host policy commandId timestampMillis) requests
  exact ⟨h.commands_spaced, h.gifts_spaced⟩

/-! ## A forgotten command -/

theorem emittedAll_append (room : Room) (first second : List Request) :
    room.emittedAll (first ++ second) =
      room.emittedAll first ++ (room.run first).emittedAll second := by
  induction first generalizing room with
  | nil => rfl
  | cons request first ih =>
    rw [List.cons_append, emittedAll, ih, emittedAll, List.append_assoc]
    rfl

/-- A request that passes every check is applied. -/
theorem applied_of_accepts {room : Room} {request : Request} {kind : RoomEventKind}
    (h : room.Accepts request kind) :
    room.step request = room.apply (room.eventOf request kind) ∧
      room.emitted request = [room.eventOf request kind] := by
  have hrun : (execute request.commandId request.timestampMillis request.command).run room =
      (.ok (.applied (room.eventOf request kind)), room.apply (room.eventOf request kind)) := by
    unfold execute
    rw [Fallible.run_get_bind, if_neg h.fresh, Fallible.run_ensure_bind, if_pos h.open_,
      Fallible.run_ofExcept_bind, h.decided]
    dsimp only
    rw [Fallible.run_ofOption_bind]
    unfold checkedSucc
    rw [if_pos h.room_left]
    rfl
  unfold step emitted outcome
  rw [hrun]
  exact ⟨rfl, rfl⟩

def Sample.created : Room × RoomEvent := create 1 .live 10 .default 0 0

/-- The host says something; the command has the given number. -/
def Sample.chat (n : ℕ) : Request := ⟨BitVec.ofNat 128 n, 0, .sendChat 10 0 "a"⟩

/-- Commands 1 to `n`. -/
def Sample.chats (n : ℕ) : List Request := (List.range n).map fun k => Sample.chat (k + 1)

/-- Commands 1 to 4096, and then the command 0 that created the room. -/
def Sample.late : List Request := Sample.chats 4096 ++ [Sample.chat 0]

/-- The room after the commands up to `n`. -/
structure Sample.Chatted (n : ℕ) (events : List RoomEvent) (room : Room) : Prop where
  recalls : room.Recalls events
  commands : commandsOf events = (List.range (n + 1)).map (BitVec.ofNat 128)
  open_ : room.ended = false
  host : room.members[(10 : UserId)]? = some .host
  policy : room.policy = .default
  sequence : room.sequence.toNat = n + 1

theorem accepts_chat {n k : ℕ} {events : List RoomEvent} {room : Room}
    (h : Sample.Chatted n events room) (hn : n ≤ 4096)
    (hfresh : BitVec.ofNat 128 k ∉ room.commandOrder) :
    room.Accepts (Sample.chat k) (.chatSent 10 0 "a") where
  fresh := by
    rw [h.recalls.commands.mem_iff]
    exact hfresh
  open_ := h.open_
  decided := by
    show room.decideChat 10 0 "a" = _
    unfold decideChat requireMember
    rw [h.host, h.policy]
    rfl
  room_left := by
    rw [h.sequence]
    omega

theorem chatted_chat {n : ℕ} {events : List RoomEvent} {room : Room}
    (h : Sample.Chatted n events room) (hn : n < 4096) :
    Sample.Chatted (n + 1) (events ++ room.emitted (Sample.chat (n + 1)))
      (room.step (Sample.chat (n + 1))) := by
  have hfresh : BitVec.ofNat 128 (n + 1) ∉ room.commandOrder := by
    rw [h.recalls.commandOrder, h.commands]
    intro hmem
    obtain ⟨k, hk, heq⟩ := List.mem_map.mp (List.mem_of_mem_drop hmem)
    have hk := List.mem_range.mp hk
    have hnat := congrArg BitVec.toNat heq
    rw [BitVec.toNat_ofNat, BitVec.toNat_ofNat] at hnat
    omega
  have haccepts := accepts_chat h (by omega) hfresh
  obtain ⟨applied, emitted⟩ := applied_of_accepts haccepts
  refine ⟨recalls_step h.recalls _, ?_, ?_, ?_, ?_, ?_⟩
  · rw [emitted, commandsOf, List.map_append, List.range_succ, List.map_append]
    exact congrArg (· ++ [BitVec.ofNat 128 (n + 1)]) h.commands
  · rw [applied]
    exact h.open_
  · rw [applied]
    exact h.host
  · rw [applied]
    exact h.policy
  · rw [applied]
    exact (toNat_sequence_succ haccepts).trans (by rw [h.sequence])

theorem chatted_chats {n : ℕ} (hn : n ≤ 4096) :
    Sample.Chatted n (Sample.created.2 :: Sample.created.1.emittedAll (Sample.chats n))
      (Sample.created.1.run (Sample.chats n)) := by
  induction n with
  | zero => exact ⟨recalls_create _ _ _ _ _ _, rfl, rfl, by decide, rfl, rfl⟩
  | succ n ih =>
    have hsplit : Sample.chats (n + 1) = Sample.chats n ++ [Sample.chat (n + 1)] := by
      rw [Sample.chats, List.range_succ, List.map_append]
      rfl
    have hnext := chatted_chat (ih (by omega)) (by omega)
    have hrun : Sample.created.1.run (Sample.chats (n + 1)) =
        (Sample.created.1.run (Sample.chats n)).step (Sample.chat (n + 1)) := by
      rw [hsplit, run, List.foldl_append]
      rfl
    rw [hrun, hsplit, emittedAll_append]
    simpa [emittedAll] using hnext

/-- After 4096 other commands a command is applied a second time. -/
theorem forgotten_command_applied_again :
    ¬(commandsOf (Sample.created.2 :: Sample.created.1.emittedAll Sample.late)).Nodup := by
  have h := chatted_chats le_rfl
  have hfresh : BitVec.ofNat 128 0 ∉ (Sample.created.1.run (Sample.chats 4096)).commandOrder := by
    rw [h.recalls.commandOrder, h.commands, List.rtake, List.length_map, List.length_range,
      ← List.map_drop]
    intro hmem
    obtain ⟨k, hk, heq⟩ := List.mem_map.mp hmem
    rw [List.range_eq_range', List.drop_range'] at hk
    have hk := List.mem_range'_1.mp hk
    have hnat := congrArg BitVec.toNat heq
    rw [BitVec.toNat_ofNat, BitVec.toNat_ofNat] at hnat
    have hlimit : commandHistoryLimit = 4096 := rfl
    omega
  obtain ⟨-, emitted⟩ := applied_of_accepts (accepts_chat h le_rfl hfresh)
  have hlast : (Sample.created.1.run (Sample.chats 4096)).emittedAll [Sample.chat 0] =
      [(Sample.created.1.run (Sample.chats 4096)).eventOf (Sample.chat 0) (.chatSent 10 0 "a")] := by
    rw [emittedAll, emitted]
    rfl
  rw [Sample.late, emittedAll_append, hlast, commandsOf, List.map_cons, List.map_append,
    List.nodup_cons]
  rintro ⟨hnew, -⟩
  apply hnew
  exact List.mem_append_right _ List.mem_cons_self

end Room

end Fluvora.Domain
