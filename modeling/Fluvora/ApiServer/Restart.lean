import Fluvora.ApiServer.Persistence
import Fluvora.Domain.Restore

/-!
# What a restart restores

Two writers advance a room's persistence revision: an applied command, which also advances the
aggregate's sequence, and a remembered side effect, which does not.  `Ahead k` is the invariant of
a managed room whose revision is `k` ahead of its sequence.  The restore path insists that the two
are equal, so a run's room survives a restart exactly when the run remembered no side effect
(`managedFromPersisted_run_iff`).
-/

open Std (ExtTreeMap ExtTreeSet)

namespace Fluvora.ApiServer

open Domain

/-- The revision of a managed room is `ahead` writes ahead of its aggregate's sequence. -/
structure ManagedRoom.Ahead (roomId : RoomId) (host : UserId) (ahead : ℕ) (managed : ManagedRoom) :
    Prop where
  wellFormed : managed.room.WellFormed host
  policy_valid : managed.room.policy.valid = true
  id_eq : managed.room.id = roomId
  created : managed.creationEvent.kind = .created host managed.room.mode
  first : managed.creationEvent.sequence = 1
  sideEffects : History.Tracks sideEffectHistoryLimit managed.sideEffectCommands
    managed.sideEffectOrder
  revision : managed.persistenceRevision.toNat = managed.room.sequence.toNat + ahead
  /-- Side effects are only ever recorded together with a revision of their own. -/
  none_recorded : ahead = 0 → managed.sideEffectOrder = []

namespace ManagedRoom.Ahead

variable {roomId : RoomId} {host : UserId} {ahead : ℕ} {managed : ManagedRoom}

theorem validCreation (h : managed.Ahead roomId host ahead) :
    ApiServer.validCreation managed.room managed.creationEvent = true := by
  simp only [ApiServer.validCreation, h.created, h.first, (h.wellFormed.host_iff host).2 rfl,
    beq_self_eq_true, Bool.and_self]

/-- The restore path accepts exactly the rooms whose revision is not ahead. -/
theorem managedFromPersisted_iff (h : managed.Ahead roomId host ahead) :
    managedFromPersisted (persistedRoom roomId managed) = .ok managed ↔ ahead = 0 := by
  have bounded : ¬ sideEffectHistoryLimit < managed.sideEffectOrder.length :=
    Nat.not_lt.2 h.sideEffects.bounded
  have distinct := h.sideEffects.size_ofList
  have restored := Room.restoreSnapshot_snapshot h.wellFormed h.policy_valid
  have creation : (persistedRoom roomId managed).creationEvent = some managed.creationEvent := rfl
  simp only [managedFromPersisted, creation]
  simp only [persistedRoom, bounded, distinct, restored, h.id_eq, h.validCreation,
    bne_self_eq_false, decide_false, Bool.or_false, Bool.false_eq_true, if_false, Bool.not_true,
    Bool.false_or, bne_iff_ne]
  have level : managed.room.sequence = managed.persistenceRevision ↔ ahead = 0 := by
    rw [← UInt64.toNat_inj, h.revision]
    omega
  by_cases even : ahead = 0
  · rw [if_neg (not_not.2 (level.2 even)), ← h.sideEffects.eq_ofList]
    exact iff_of_true rfl even
  · rw [if_pos (fun e => even (level.1 e))]
    exact iff_of_false (by simp) even

end ManagedRoom.Ahead

theorem CreateRoom.policy_valid (request : CreateRoom) : request.policy.valid = true := by
  simp only [RoomPolicy.valid, Bool.and_eq_true, decide_eq_true_eq]
  simp only [CreateRoom.policy, RoomPolicy.default, maxChatBytes, maxCustomDataBytes]
  refine ⟨⟨⟨?_, ?_⟩, by omega⟩, by omega⟩
  · cases request.maxMembers <;> dsimp only <;> omega
  · cases request.maxPublishers <;> dsimp only <;> omega

/-- A freshly created room is level with its revision. -/
theorem CreateRoom.ahead_managed (request : CreateRoom) :
    request.managed.Ahead request.roomId request.subject 0 where
  wellFormed := Room.wellFormed_create _ _ _ (Room.one_le_maxMembers request.policy_valid) _ _
  policy_valid := request.policy_valid
  id_eq := rfl
  created := rfl
  first := rfl
  sideEffects := History.tracks_empty _
  revision := rfl
  none_recorded _ := rfl

/-! ## One call -/

section Calls

variable (toVec : PersistedRoom → List UInt8)

/-- Persisting a room touches the directory only. -/
theorem persistManagedRoom_rooms {io : FileIo} {roomId : RoomId} {managed : ManagedRoom}
    {state next : ApiState} {result : Except ApiError Unit}
    (h : (persistManagedRoom toVec io roomId managed).run state = (result, next)) :
    next.rooms = state.rooms := by
  have same : ((persistManagedRoom toVec io roomId managed).run state).2 = next := by rw [h]
  rw [← same]
  simp only [persistManagedRoom, Fallible.run_ensure_bind]
  split_ifs
  · rw [Fallible.run_get_bind]
    rcases (state.directory.snapshots roomId)[managed.persistenceRevision]? with _ | existing
    · dsimp only
      rw [Fallible.run_ensure_bind]
      split_ifs <;> rfl
    · dsimp only
      rw [Fallible.run_ensure]
  · rfl

/-- One call of the API server that changes a room. -/
inductive RoomCall
  | execute (io : FileIo) (commandId : CommandId) (now : UInt64) (command : RoomCommand)
  | remember (io : FileIo) (commandId : CommandId)

/-- The call remembers a side effect. -/
def RoomCall.remembers : RoomCall → Bool
  | .execute .. => false
  | .remember .. => true

def RoomCall.perform (roomId : RoomId) : RoomCall → Fallible ApiState ApiError Unit
  | .execute io commandId now command => do
      let _ ← executeRoomCommand toVec io roomId commandId now command
  | .remember io commandId => rememberSideEffect toVec io roomId commandId

/-- A list of calls against one room, up to the first that fails. -/
def performAll (roomId : RoomId) : List RoomCall → Fallible ApiState ApiError Unit
  | [] => pure ()
  | call :: calls => do
      call.perform toVec roomId
      performAll roomId calls

variable {roomId : RoomId} {host : UserId}

/-- A successful command keeps the distance between revision and sequence. -/
theorem ahead_executeRoomCommand {io : FileIo} {commandId : CommandId} {now : UInt64}
    {command : RoomCommand} {state next : ApiState} {response : CommandResponse}
    {managed : ManagedRoom} {ahead : ℕ} (found : state.rooms[roomId]? = some managed)
    (h : managed.Ahead roomId host ahead)
    (ok : (executeRoomCommand toVec io roomId commandId now command).run state =
      (.ok response, next)) :
    ∃ managed', next.rooms[roomId]? = some managed' ∧ managed'.Ahead roomId host ahead := by
  rw [executeRoomCommand, Fallible.run_get_bind, Fallible.run_ofOption_bind, found] at ok
  dsimp only at ok
  have cases := Room.execute_cases managed.room ⟨commandId, now, command⟩
  simp only [Room.outcome, Room.step] at cases
  rcases result : (Room.execute commandId now command).run managed.room with ⟨outcome, room⟩
  rw [result] at ok cases
  obtain ⟨-, rfl, -⟩ | ⟨error, rfl, -⟩ | ⟨kind, accepts, rfl, rfl⟩ := cases
  · simp only [Fallible.run_pure, Prod.mk.injEq] at ok
    obtain ⟨-, rfl⟩ := ok
    exact ⟨managed, found, h⟩
  · simp [Fallible.run_fail] at ok
  · dsimp only at ok
    rw [Fallible.run_ofOption_bind] at ok
    unfold checkedSucc at ok
    split_ifs at ok with fits
    · dsimp only at ok
      obtain ⟨-, persisted, saved, ok⟩ := Fallible.run_bind_eq_ok.1 ok
      simp only [Fallible.run_modify_bind, Fallible.run_pure, Prod.mk.injEq] at ok
      obtain ⟨-, rfl⟩ := ok
      refine ⟨_, ExtTreeMap.getElem?_insert_self, ?_⟩
      have identity := Room.sameIdentity_apply managed.room
        (managed.room.eventOf ⟨commandId, now, command⟩ kind)
      refine ⟨Room.wellFormed_apply h.wellFormed accepts, ?_, identity.1.trans h.id_eq, ?_,
        h.first, h.sideEffects, ?_, h.none_recorded⟩
      · exact (congrArg RoomPolicy.valid identity.2.2).trans h.policy_valid
      · exact h.created.trans (congrArg (RoomEventKind.created host) identity.2.1.symm)
      · show (managed.persistenceRevision + 1).toNat =
          (managed.room.eventOf ⟨commandId, now, command⟩ kind).sequence.toNat + ahead
        rw [Room.toNat_sequence_succ accepts, UInt64.toNat_add]
        have := h.revision
        have one : (1 : UInt64).toNat = 1 := rfl
        rw [one, Nat.mod_eq_of_lt fits]
        omega
    · simp at ok

/-- Recording a new side effect moves the revision one further ahead of the sequence. -/
theorem ahead_recorded {managed : ManagedRoom} {ahead : ℕ} {commandId : CommandId}
    (h : managed.Ahead roomId host ahead) (fresh : commandId ∉ managed.sideEffectCommands)
    (fits : managed.persistenceRevision.toNat + 1 < 2 ^ 64) :
    (pruneSideEffects { managed with
      sideEffectCommands := managed.sideEffectCommands.insert commandId
      sideEffectOrder := managed.sideEffectOrder ++ [commandId]
      persistenceRevision := managed.persistenceRevision + 1 }).Ahead roomId host (ahead + 1) where
  wellFormed := h.wellFormed
  policy_valid := h.policy_valid
  id_eq := h.id_eq
  created := h.created
  first := h.first
  sideEffects := by
    have tracks := History.tracks_remember h.sideEffects commandId
    rw [History.remember, if_neg fresh] at tracks
    exact tracks
  revision := by
    show (managed.persistenceRevision + 1).toNat = managed.room.sequence.toNat + (ahead + 1)
    have one : (1 : UInt64).toNat = 1 := rfl
    rw [UInt64.toNat_add, one, Nat.mod_eq_of_lt fits, h.revision]
    omega
  none_recorded := fun impossible => absurd impossible (Nat.succ_ne_zero ahead)

/-- After a side effect has been remembered, the revision is ahead of the sequence. -/
theorem ahead_rememberSideEffect {io : FileIo} {commandId : CommandId} {state next : ApiState}
    {managed : ManagedRoom} {ahead : ℕ} (found : state.rooms[roomId]? = some managed)
    (h : managed.Ahead roomId host ahead)
    (ok : (rememberSideEffect toVec io roomId commandId).run state = (.ok (), next)) :
    ∃ managed' ahead', next.rooms[roomId]? = some managed' ∧
      managed'.Ahead roomId host ahead' ∧ 0 < ahead' := by
  rw [rememberSideEffect, Fallible.run_get_bind, Fallible.run_ofOption_bind, found] at ok
  dsimp only at ok
  split_ifs at ok with known
  · simp only [Fallible.run_modify, Prod.mk.injEq] at ok
    obtain ⟨-, rfl⟩ := ok
    have unpruned : pruneSideEffects managed = managed := by
      rw [pruneSideEffects, History.evict_of_le _ h.sideEffects.bounded]
    refine ⟨managed, ahead, ?_, h, Nat.pos_of_ne_zero fun level => ?_⟩
    · rw [unpruned]
      exact ExtTreeMap.getElem?_insert_self
    · rw [h.sideEffects.mem_iff, h.none_recorded level] at known
      exact absurd known List.not_mem_nil
  · rw [Fallible.run_modify_bind, Fallible.run_ofOption_bind] at ok
    unfold checkedSucc at ok
    split_ifs at ok with fits
    · dsimp only at ok
      rw [Fallible.run_modify_bind] at ok
      refine ⟨_, ahead + 1, ?_, ahead_recorded h known fits, Nat.succ_pos ahead⟩
      rw [persistManagedRoom_rooms toVec ok]
      exact ExtTreeMap.getElem?_insert_self
    · simp at ok

/-! ## Whole runs -/

/-- After a run of successful calls the revision is ahead of the sequence exactly when it was
before or some call remembered a side effect. -/
theorem ahead_performAll {calls : List RoomCall} {state final : ApiState} {managed : ManagedRoom}
    {ahead : ℕ} (found : state.rooms[roomId]? = some managed)
    (h : managed.Ahead roomId host ahead)
    (ok : (performAll toVec roomId calls).run state = (.ok (), final)) :
    ∃ managed' ahead', final.rooms[roomId]? = some managed' ∧
      managed'.Ahead roomId host ahead' ∧
      (ahead' = 0 ↔ ahead = 0 ∧ ∀ call ∈ calls, call.remembers = false) := by
  induction calls generalizing state managed ahead with
  | nil =>
    simp only [performAll, Fallible.run_pure, Prod.mk.injEq] at ok
    obtain ⟨-, rfl⟩ := ok
    exact ⟨managed, ahead, found, h, by simp⟩
  | cons call calls ih =>
    obtain ⟨⟨⟩, next, one, rest⟩ := Fallible.run_bind_eq_ok.1 ok
    cases call with
    | execute io commandId now command =>
      obtain ⟨response, done, executed, stopped⟩ := Fallible.run_bind_eq_ok.1 one
      obtain rfl : done = next := congrArg Prod.snd stopped
      obtain ⟨managed', found', h'⟩ := ahead_executeRoomCommand toVec found h executed
      obtain ⟨last, ahead', final, hlast, level⟩ := ih found' h' rest
      exact ⟨last, ahead', final, hlast, by rw [level]; simp [RoomCall.remembers]⟩
    | remember io commandId =>
      obtain ⟨managed', ahead₁, found', h', pos⟩ := ahead_rememberSideEffect toVec found h one
      obtain ⟨last, ahead', final, hlast, level⟩ := ih found' h' rest
      refine ⟨last, ahead', final, hlast, ?_⟩
      rw [level]
      simp only [List.mem_cons, forall_eq_or_imp, RoomCall.remembers, Bool.true_eq_false,
        false_and, and_false, iff_false, not_and]
      omega

/-- A room that was created and then changed by successful calls survives a restart exactly when
none of the calls remembered a side effect. -/
theorem managedFromPersisted_run_iff {io : FileIo} {request : CreateRoom} {calls : List RoomCall}
    {start created final : ApiState} {id : RoomId}
    (fresh : start.roomCreations[request.commandId]? = none)
    (creation : (createRoom toVec io request).run start = (.ok id, created))
    (performed : (performAll toVec request.roomId calls).run created = (.ok (), final)) :
    ∃ managed, final.rooms[request.roomId]? = some managed ∧
      (managedFromPersisted (persistedRoom request.roomId managed) = .ok managed ↔
        ∀ call ∈ calls, call.remembers = false) := by
  rw [createRoom, Fallible.run_get_bind, fresh] at creation
  obtain ⟨-, saved, -, installed⟩ := Fallible.run_bind_eq_ok.1 creation
  simp only [Fallible.run_modify_bind, Fallible.run_pure, Prod.mk.injEq] at installed
  obtain ⟨-, rfl⟩ := installed
  obtain ⟨managed, ahead, found, h, level⟩ := ahead_performAll toVec
    ExtTreeMap.getElem?_insert_self request.ahead_managed performed
  exact ⟨managed, found, by rw [h.managedFromPersisted_iff, level]; simp⟩

end Calls

/-! ## A run that does not survive -/

/-- `CommandId`, `UserId` and `RoomId` in JSON: 32 hexadecimal digits. -/
def hexId (id : BitVec 128) : String :=
  let digits := Nat.toDigits 16 id.toNat
  String.ofList ('"' :: List.replicate (32 - digits.length) '0' ++ digits ++ ['"'])

/-- `serde_json::to_vec` on the snapshots of a live room with one host and no gifts, of which only
the revision and the side effects vary. -/
def hostOnlyJson (host : UserId) (persisted : PersistedRoom) : List UInt8 :=
  let policy := "\x7b\"max_members\":10000,\"max_publishers\":32,\"max_chat_bytes\":4096," ++
    "\"max_custom_data_bytes\":61440\x7d"
  let command := hexId ((persisted.creation.map (·.commandId)).getD 0)
  asBytes ("\x7b\"room_id\":" ++ hexId persisted.roomId ++ ",\"mode\":\"live\",\"policy\":" ++
    policy ++ ",\"state\":\x7b\"schema_version\":1,\"id\":" ++ hexId persisted.roomId ++
    ",\"mode\":\"live\",\"policy\":" ++ policy ++ ",\"members\":[[" ++ hexId host ++
    ",\"host\"]],\"publishers\":[],\"ended\":false,\"sequence\":1,\"command_order\":[" ++
    command ++ "],\"gift_transaction_order\":[]\x7d,\"creation_event\":\x7b\"sequence\":1," ++
    "\"command_id\":" ++ command ++ ",\"timestamp_millis\":100,\"kind\":\x7b\"type\":" ++
    "\"created\",\"host\":" ++ hexId host ++ ",\"mode\":\"live\"\x7d\x7d," ++
    "\"persistence_revision\":" ++ toString persisted.persistenceRevision ++
    ",\"side_effect_order\":[" ++ ",".intercalate (persisted.sideEffectOrder.map hexId) ++
    "]\x7d")

/-- A file system on which every operation succeeds. -/
def goodIo : FileIo := ⟨true, true, true, fun _ => true⟩

/-- User 10 creates the live room 1. -/
def sampleCreation : CreateRoom where
  subject := 10
  mode := .live
  maxMembers := none
  maxPublishers := none
  commandId := 1
  roomId := 1
  now := 100

/-- The API server after the sample creation. -/
def sampleCreated : Except ApiError RoomId × ApiState :=
  (createRoom (hostOnlyJson 10) goodIo sampleCreation).run ⟨∅, ∅, ∅⟩

/-- The API server after the sample creation and one remembered side effect. -/
def sampleRemembered : Except ApiError Unit × ApiState :=
  (performAll (hostOnlyJson 10) 1 [.remember goodIo 7]).run sampleCreated.2

/-- A room is created, one side effect is remembered, both calls succeed, and the restore path
refuses what was persisted. -/
theorem remembered_side_effect_not_restored :
    sampleCreated.1 = .ok 1 ∧ sampleRemembered.1 = .ok () ∧
      (sampleRemembered.2.rooms[(1 : RoomId)]?.map fun managed =>
        managedFromPersisted (persistedRoom 1 managed)) =
      some (.error (corruptSnapshot "room state and persisted metadata disagree")) := by
  decide +kernel

/-- The sample run meets the hypotheses of the general result. -/
theorem managedFromPersisted_run_iff_sample :
    ∃ managed, sampleRemembered.2.rooms[sampleCreation.roomId]? = some managed ∧
      (managedFromPersisted (persistedRoom sampleCreation.roomId managed) = .ok managed ↔
        ∀ call ∈ [RoomCall.remember goodIo 7], call.remembers = false) := by
  have creation : sampleCreated.1 = .ok 1 := by decide +kernel
  have remembering : sampleRemembered.1 = .ok () := by decide +kernel
  have created : sampleCreated = (.ok 1, sampleCreated.2) := by
    rw [← creation]
  have remembered : sampleRemembered = (.ok (), sampleRemembered.2) := by
    rw [← remembering]
  exact managedFromPersisted_run_iff (hostOnlyJson 10) (by decide) created remembered

end Fluvora.ApiServer
