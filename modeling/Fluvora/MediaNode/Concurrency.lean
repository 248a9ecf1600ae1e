import Fluvora.Lib.Runs
import Fluvora.MediaNode.SfuRegistry

/-!
# Concurrent binding and unbinding

`bind_session` and `unbind_session` as their critical sections, in any interleaving.  A bind looks up
or creates the room in one section and inserts the session in another; an unbind looks up the room,
removes the participant, drops the sinks of its tracks, and deletes the room if it is still there
and empty.  Between its two sections a bind holds the room by reference only, so a room that looks
empty may be deleted under it.  What a bind has confirmed stays in place, in every state of a run and
whatever section comes next, exactly when no room is deleted under a bind (`kept_iff`).
-/

open Std (ExtTreeMap)

namespace Fluvora.MediaNode.ManagedRoom

open Sfu (ParticipantId TrackId)

theorem participantSessions_unbind {managed next : ManagedRoom} {participant : ParticipantId}
    {sessionId : String} {tracks : List TrackId}
    (h : managed.unbind participant sessionId = some (tracks, next)) :
    next.participantSessions = managed.participantSessions.erase participant := by
  have hsubscriptions (entries : List (Sfu.SubscriptionId × ParticipantId))
      (managed : ManagedRoom) : (entries.foldl (fun managed entry =>
        managed.dropSubscription entry.1 entry.2) managed).participantSessions =
          managed.participantSessions := by
    induction entries generalizing managed with
    | nil => rfl
    | cons entry entries ih => exact ih _
  have htracks (tracks : List TrackId) (managed : ManagedRoom) :
      (tracks.foldl dropTrack managed).participantSessions = managed.participantSessions := by
    induction tracks generalizing managed with
    | nil => rfl
    | cons trackId tracks ih => exact ih _
  unfold unbind at h
  dsimp only at h
  split_ifs at h
  obtain ⟨-, rfl⟩ := Prod.mk.inj (Option.some.inj h)
  dsimp only
  rw [htracks, hsubscriptions]

end Fluvora.MediaNode.ManagedRoom

namespace Fluvora.MediaNode.Concurrency

open Sfu (ParticipantId TrackId)

inductive Call
  | bindSession (roomId participantId sessionId : String)
  | unbindSession (roomId participantId sessionId : String)

/-- Where a call stands: the section that it enters next, with the room that it holds. -/
inductive Point
  | lookupOrCreate (roomId : String) (participant : ParticipantId) (sessionId : String)
  | insert (roomId : String) (participant : ParticipantId) (sessionId : String) (room : ℕ)
  | lookup (roomId : String) (participant : ParticipantId) (sessionId : String)
  | remove (roomId : String) (participant : ParticipantId) (sessionId : String) (room : ℕ)
  | dropSinks (roomId : String) (room : ℕ) (tracks : List TrackId) (empty : Bool)
  | delete (roomId : String) (room : ℕ)
  | returned
deriving DecidableEq

/-- The registry, the rooms that references lead to, and the calls on their way.  A reference is the
number of a room among the rooms of its identifier.  `confirmed` is history: the session of the last
bind of a participant that has returned, unless an unbind came after it. -/
structure System where
  rooms : ExtTreeMap String ℕ
  heap : String → ℕ → ManagedRoom
  created : ℕ
  recordingSinks : ExtTreeMap SinkKey RecordingSink
  calls : List Point
  confirmed : String → ParticipantId → Option String

inductive Action
  | invoke (call : Call)
  | advance (call : ℕ)

/-- The checks in front of the first section. -/
def start : Call → Point
  | .bindSession roomId participantId sessionId =>
      match validateSfuIdentifier roomId, parseParticipant participantId,
        validateSfuIdentifier sessionId with
      | .ok _, .ok participant, .ok _ => .lookupOrCreate roomId participant sessionId
      | _, _, _ => .returned
  | .unbindSession roomId participantId sessionId =>
      match parseParticipant participantId with
      | .ok participant => .lookup roomId participant sessionId
      | .error _ => .returned

namespace System

def new : System where
  rooms := ∅
  heap _ _ := .new
  created := 0
  recordingSinks := ∅
  calls := []
  confirmed _ _ := none

def goTo (s : System) (call : ℕ) (point : Point) : System :=
  { s with calls := s.calls.set call point }

def writeRoom (s : System) (roomId : String) (room : ℕ) (managed : ManagedRoom) : System :=
  { s with
    heap := fun id number => if id = roomId ∧ number = room then managed else s.heap id number }

def confirm (s : System) (roomId : String) (participant : ParticipantId)
    (sessionId : Option String) : System :=
  { s with
    confirmed := fun id other =>
      if id = roomId ∧ other = participant then sessionId else s.confirmed id other }

/-- The room is deleted if it is still registered and empty. -/
def Deletes (s : System) (roomId : String) (room : ℕ) : Prop :=
  s.rooms[roomId]? = some room ∧ (s.heap roomId room).participantSessions.isEmpty

instance (s : System) (roomId : String) (room : ℕ) : Decidable (s.Deletes roomId room) :=
  inferInstanceAs (Decidable (_ ∧ _))

/-- One section of a call. -/
def runSection (s : System) (call : ℕ) : Point → System
  | .lookupOrCreate roomId participant sessionId =>
      match s.rooms[roomId]? with
      | some room => s.goTo call (.insert roomId participant sessionId room)
      | none =>
          { (s.writeRoom roomId s.created .new).goTo call
              (.insert roomId participant sessionId s.created) with
            rooms := s.rooms.insert roomId s.created
            created := s.created + 1 }
  | .insert roomId participant sessionId room =>
      ((s.writeRoom roomId room ((s.heap roomId room).bind participant sessionId)).confirm roomId
        participant (some sessionId)).goTo call .returned
  | .lookup roomId participant sessionId =>
      match s.rooms[roomId]? with
      | some room => s.goTo call (.remove roomId participant sessionId room)
      | none => s.goTo call .returned
  | .remove roomId participant sessionId room =>
      match (s.heap roomId room).unbind participant sessionId with
      | none => (s.confirm roomId participant none).goTo call .returned
      | some (tracks, managed) =>
          ((s.writeRoom roomId room managed).confirm roomId participant none).goTo call
            (.dropSinks roomId room tracks managed.participantSessions.isEmpty)
  | .dropSinks roomId room tracks empty =>
      { s.goTo call (if empty then .delete roomId room else .returned) with
        recordingSinks := tracks.foldl
          (fun sinks track => SfuRegistry.dropSinks sinks roomId track) s.recordingSinks }
  | .delete roomId room =>
      if s.Deletes roomId room then { s.goTo call .returned with rooms := s.rooms.erase roomId }
      else s.goTo call .returned
  | .returned => s

def step (s : System) : Action → System
  | .invoke call => { s with calls := s.calls ++ [start call] }
  | .advance call =>
      match s.calls[call]? with
      | none => s
      | some point => s.runSection call point

/-- What a bind has confirmed is in the registry. -/
def Kept (s : System) : Prop :=
  ∀ (roomId : String) (participant : ParticipantId) (sessionId : String),
    s.confirmed roomId participant = some sessionId →
      ∃ room, s.rooms[roomId]? = some room ∧
        (s.heap roomId room).participantSessions[participant]? = some sessionId

/-- A bind stands between its sections and holds the room. -/
def Holds (s : System) (roomId : String) (room : ℕ) : Prop :=
  ∃ (call : ℕ) (participant : ParticipantId) (sessionId : String),
    s.calls[call]? = some (.insert roomId participant sessionId room)

/-- The section does not delete a room under a bind. -/
def Clear (s : System) : Action → Prop
  | .invoke _ => True
  | .advance call => ∀ roomId room, s.calls[call]? = some (.delete roomId room) →
      s.Deletes roomId room → ¬s.Holds roomId room

/-! ## One section -/

/-- What was confirmed is there, and a room that a bind holds is registered. -/
structure Attached (s : System) : Prop where
  kept : s.Kept
  held : ∀ roomId room, s.Holds roomId room → s.rooms[roomId]? = some room

variable {s : System}

theorem attached_new : new.Attached := by
  constructor
  · rintro roomId participant sessionId ⟨⟩
  · rintro roomId room ⟨call, participant, sessionId, hcall⟩
    simp [new] at hcall

/-- Only a call that goes on to insert comes to hold a room. -/
theorem holds_of_set {call : ℕ} {point : Point} {roomId : String} {room : ℕ} {t : System}
    (hcalls : t.calls = s.calls.set call point) (h : t.Holds roomId room) :
    s.Holds roomId room ∨
      ∃ participant sessionId, point = .insert roomId participant sessionId room := by
  obtain ⟨other, participant, sessionId, hother⟩ := h
  rw [hcalls, List.getElem?_set] at hother
  split_ifs at hother with hsame
  · exact .inr ⟨participant, sessionId, Option.some.inj hother⟩
  · exact .inl ⟨other, participant, sessionId, hother⟩

/-- A section that leaves rooms, sessions and history alone. -/
theorem Kept.of_eq (h : s.Kept) {t : System} (hrooms : t.rooms = s.rooms) (hheap : t.heap = s.heap)
    (hconfirmed : t.confirmed = s.confirmed) : t.Kept := by
  intro roomId participant sessionId hconfirm
  rw [hconfirmed] at hconfirm
  rw [hrooms, hheap]
  exact h roomId participant sessionId hconfirm

theorem Attached.insert (h : s.Attached) {roomId : String} {room : ℕ}
    (hheld : s.Holds roomId room) (call : ℕ) (participant : ParticipantId) (sessionId : String) :
    (s.runSection call (.insert roomId participant sessionId room)).Kept := by
  intro id other session hconfirm
  dsimp only [runSection, goTo, confirm, writeRoom] at hconfirm ⊢
  split_ifs at hconfirm with hsame
  · obtain ⟨rfl, rfl⟩ := hsame
    cases hconfirm
    refine ⟨room, h.held id room hheld, ?_⟩
    rw [if_pos ⟨rfl, rfl⟩]
    exact ExtTreeMap.getElem?_insert_self
  · obtain ⟨number, hnumber, hsession⟩ := h.kept id other session hconfirm
    refine ⟨number, hnumber, ?_⟩
    split_ifs with hroom
    · obtain ⟨rfl, rfl⟩ := hroom
      have hne : participant ≠ other := fun heq => hsame ⟨rfl, heq.symm⟩
      exact (Maps.getElem?_insert_of_ne hne).trans hsession
    · exact hsession

theorem Kept.remove (h : s.Kept) (call : ℕ) (roomId : String) (participant : ParticipantId)
    (sessionId : String) (room : ℕ) :
    (s.runSection call (.remove roomId participant sessionId room)).Kept := by
  intro id other session hconfirm
  unfold runSection at hconfirm ⊢
  cases hunbind : (s.heap roomId room).unbind participant sessionId with
  | none =>
    simp only [hunbind] at hconfirm ⊢
    dsimp only [goTo, confirm] at hconfirm ⊢
    split_ifs at hconfirm
    exact h id other session hconfirm
  | some result =>
    obtain ⟨tracks, managed⟩ := result
    have hsessions := ManagedRoom.participantSessions_unbind hunbind
    simp only [hunbind] at hconfirm ⊢
    dsimp only [goTo, confirm, writeRoom] at hconfirm ⊢
    split_ifs at hconfirm with hsame
    obtain ⟨number, hnumber, hsession⟩ := h id other session hconfirm
    refine ⟨number, hnumber, ?_⟩
    split_ifs with hroom
    · obtain ⟨rfl, rfl⟩ := hroom
      rw [hsessions]
      exact Maps.getElem?_erase_eq_some.mpr ⟨fun heq => hsame ⟨rfl, heq.symm⟩, hsession⟩
    · exact hsession

theorem Kept.lookupOrCreate (h : s.Kept) (call : ℕ) (roomId : String)
    (participant : ParticipantId) (sessionId : String) :
    (s.runSection call (.lookupOrCreate roomId participant sessionId)).Kept := by
  unfold runSection
  cases hrooms : s.rooms[roomId]? with
  | some room =>
    simp only [hrooms]
    exact h.of_eq rfl rfl rfl
  | none =>
    simp only [hrooms]
    intro id other session hconfirm
    obtain ⟨number, hnumber, hsession⟩ := h id other session hconfirm
    have hne : roomId ≠ id := by
      rintro rfl
      rw [hrooms] at hnumber
      cases hnumber
    refine ⟨number, (Maps.getElem?_insert_of_ne hne).trans hnumber, ?_⟩
    dsimp only [goTo, writeRoom]
    rw [if_neg fun hroom => hne hroom.1.symm]
    exact hsession

/-- A room with a confirmed session is not empty, so it is not deleted. -/
theorem Kept.delete (h : s.Kept) (call : ℕ) (roomId : String) (room : ℕ) :
    (s.runSection call (.delete roomId room)).Kept := by
  unfold runSection
  dsimp only
  split_ifs with hdeletes
  · intro id other session hconfirm
    obtain ⟨number, hnumber, hsession⟩ := h id other session hconfirm
    refine ⟨number, Maps.getElem?_erase_eq_some.mpr ⟨?_, hnumber⟩, hsession⟩
    rintro rfl
    rw [hdeletes.1] at hnumber
    cases hnumber
    rw [ExtTreeMap.isEmpty_iff.mp hdeletes.2] at hsession
    simp at hsession
  · exact h.of_eq rfl rfl rfl

theorem Attached.runSection (h : s.Attached) {call : ℕ} {point : Point}
    (hcall : s.calls[call]? = some point) : (s.runSection call point).Kept := by
  cases point with
  | lookupOrCreate roomId participant sessionId =>
    exact h.kept.lookupOrCreate call roomId participant sessionId
  | insert roomId participant sessionId room =>
    exact h.insert ⟨call, participant, sessionId, hcall⟩ call participant sessionId
  | lookup roomId participant sessionId =>
    unfold System.runSection
    dsimp only
    cases s.rooms[roomId]? with
    | none => exact h.kept.of_eq rfl rfl rfl
    | some room => exact h.kept.of_eq rfl rfl rfl
  | remove roomId participant sessionId room =>
    exact h.kept.remove call roomId participant sessionId room
  | dropSinks roomId room tracks empty => exact h.kept.of_eq rfl rfl rfl
  | delete roomId room => exact h.kept.delete call roomId room
  | returned => exact h.kept

theorem Attached.kept_step (h : s.Attached) (action : Action) : (s.step action).Kept := by
  unfold step
  cases action with
  | invoke call => exact h.kept.of_eq rfl rfl rfl
  | advance call =>
    dsimp only
    cases hcall : s.calls[call]? with
    | none => exact h.kept
    | some point => exact h.runSection hcall

/-- A section in which no room comes to be held and none is deleted. -/
theorem held_of_set (h : s.Attached) {t : System} {roomId : String} {room : ℕ}
    (hheld : t.Holds roomId room) {call : ℕ} {point : Point}
    (hcalls : t.calls = s.calls.set call point) (hrooms : t.rooms = s.rooms)
    (hpoint : ∀ roomId participant sessionId room,
      point ≠ .insert roomId participant sessionId room) : t.rooms[roomId]? = some room := by
  rw [hrooms]
  rcases holds_of_set hcalls hheld with hheld | ⟨participant, sessionId, hinsert⟩
  · exact h.held roomId room hheld
  · exact absurd hinsert (hpoint roomId participant sessionId room)

theorem held_lookupOrCreate (h : s.Attached) (call : ℕ) (id : String)
    (participant : ParticipantId) (sessionId : String) (roomId : String) (room : ℕ)
    (hheld : (s.runSection call (.lookupOrCreate id participant sessionId)).Holds roomId room) :
    (s.runSection call (.lookupOrCreate id participant sessionId)).rooms[roomId]? = some room := by
  unfold System.runSection at hheld ⊢
  cases hrooms : s.rooms[id]? with
  | some number =>
    simp only [hrooms] at hheld ⊢
    rcases holds_of_set rfl hheld with hheld | ⟨other, session, hinsert⟩
    · exact h.held roomId room hheld
    · cases hinsert
      exact hrooms
  | none =>
    simp only [hrooms] at hheld ⊢
    rcases holds_of_set rfl hheld with hheld | ⟨other, session, hinsert⟩
    · have hregistered := h.held roomId room hheld
      have hne : id ≠ roomId := by
        rintro rfl
        rw [hrooms] at hregistered
        cases hregistered
      exact (Maps.getElem?_insert_of_ne hne).trans hregistered
    · cases hinsert
      exact ExtTreeMap.getElem?_insert_self

theorem held_delete (h : s.Attached) {call : ℕ} {id : String} {number : ℕ}
    (hclear : s.Deletes id number → ¬s.Holds id number) (roomId : String) (room : ℕ)
    (hheld : (s.runSection call (.delete id number)).Holds roomId room) :
    (s.runSection call (.delete id number)).rooms[roomId]? = some room := by
  unfold System.runSection at hheld ⊢
  dsimp only at hheld ⊢
  split_ifs at hheld ⊢ with hdeletes
  · rcases holds_of_set rfl hheld with hheld | ⟨other, session, hinsert⟩
    · have hregistered := h.held roomId room hheld
      refine Maps.getElem?_erase_eq_some.mpr ⟨?_, hregistered⟩
      rintro rfl
      rw [hdeletes.1] at hregistered
      cases hregistered
      exact hclear hdeletes hheld
    · cases hinsert
  · exact held_of_set h hheld rfl rfl (by simp)

theorem Attached.step (h : s.Attached) {action : Action} (hclear : s.Clear action) :
    (s.step action).Attached := by
  refine ⟨h.kept_step action, ?_⟩
  intro roomId room hheld
  unfold System.step at hheld ⊢
  cases action with
  | invoke call =>
    obtain ⟨other, participant, sessionId, hother⟩ := hheld
    dsimp only at hother ⊢
    rw [List.getElem?_append] at hother
    split_ifs at hother
    · exact h.held roomId room ⟨other, participant, sessionId, hother⟩
    · -- a call does not start with an insert
      have hstart : start call = .insert roomId participant sessionId room := by
        have hmem := List.mem_of_getElem? hother
        exact (List.mem_singleton.mp hmem).symm
      unfold start at hstart
      cases call <;> dsimp only at hstart <;> split at hstart <;> cases hstart
  | advance call =>
    dsimp only at hheld ⊢
    cases hcall : s.calls[call]? with
    | none =>
      rw [hcall] at hheld
      exact h.held roomId room hheld
    | some point =>
      rw [hcall] at hheld
      dsimp only at hheld ⊢
      cases point with
      | lookupOrCreate id participant sessionId =>
        exact held_lookupOrCreate h call id participant sessionId roomId room hheld
      | insert id participant sessionId number =>
        exact held_of_set h hheld rfl rfl (by simp)
      | lookup id participant sessionId =>
        unfold System.runSection at hheld ⊢
        dsimp only at hheld ⊢
        cases hrooms : s.rooms[id]? with
        | none =>
          rw [hrooms] at hheld
          exact held_of_set h hheld rfl rfl (by simp)
        | some number =>
          rw [hrooms] at hheld
          exact held_of_set h hheld rfl rfl (by simp)
      | remove id participant sessionId number =>
        unfold System.runSection at hheld ⊢
        dsimp only at hheld ⊢
        cases hunbind : (s.heap id number).unbind participant sessionId with
        | none =>
          rw [hunbind] at hheld
          exact held_of_set h hheld rfl rfl (by simp)
        | some result =>
          rw [hunbind] at hheld
          exact held_of_set h hheld rfl rfl (by simp)
      | dropSinks id number tracks empty =>
        refine held_of_set h hheld rfl rfl ?_
        intro id' participant sessionId number'
        split_ifs <;> simp
      | delete id number => exact held_delete h (hclear id number hcall) roomId room hheld
      | returned => exact h.held roomId room hheld

/-- A room deleted under a bind: the bind goes on to confirm a session that is nowhere. -/
theorem not_kept_of_not_clear {action : Action} (hclear : ¬s.Clear action) :
    ∃ next, ¬((s.step action).step next).Kept := by
  cases action with
  | invoke call => exact absurd trivial hclear
  | advance call =>
    unfold Clear at hclear
    push Not at hclear
    obtain ⟨roomId, room, hcall, hdeletes, other, participant, sessionId, hother⟩ := hclear
    refine ⟨.advance other, fun hkept => ?_⟩
    have hne : call ≠ other := by
      rintro rfl
      rw [hcall] at hother
      cases hother
    have hstep : s.step (.advance call) =
        { s.goTo call .returned with rooms := s.rooms.erase roomId } := by
      unfold System.step
      simp only [hcall]
      unfold System.runSection
      simp only [if_pos hdeletes]
    have hpoint : (s.step (.advance call)).calls[other]? =
        some (.insert roomId participant sessionId room) := by
      rw [hstep]
      exact (List.getElem?_set_ne hne).trans hother
    have hnext : ((s.step (.advance call)).step (.advance other)).rooms[roomId]? = none := by
      rw [System.step]
      simp only [hpoint]
      rw [hstep]
      exact ExtTreeMap.getElem?_erase_self
    have hconfirmed : ((s.step (.advance call)).step (.advance other)).confirmed roomId
        participant = some sessionId := by
      rw [System.step]
      simp only [hpoint]
      exact if_pos ⟨rfl, rfl⟩
    obtain ⟨number, hnumber, -⟩ := hkept roomId participant sessionId hconfirmed
    rw [hnext] at hnumber
    cases hnumber

/-! ## Whole runs -/

/-- In a run of sections from the empty registry, what was confirmed is there in every state and
after whatever section comes next, if and only if no room is deleted while a bind holds it. -/
theorem kept_iff (actions : List Action) :
    Runs.Always step (fun s => s.Kept ∧ ∀ action, (s.step action).Kept) new actions ↔
      Runs.Each step Clear new actions := by
  refine Runs.always_iff_each (I := Attached) ?_ ?_ ?_ attached_new actions
  · intro s h
    exact ⟨h.kept, h.kept_step⟩
  · intro s action h hclear
    exact h.step hclear
  · intro s action h hnext
    by_contra hclear
    obtain ⟨next, hlost⟩ := not_kept_of_not_clear hclear
    exact hlost (hnext.2 next)

/-- A bind looks up the room that the last participant has left, the unbind deletes the room, and
the bind inserts its session into the deleted room. -/
def roomDeletedUnderBind : List Action :=
  [.invoke (.bindSession "room" "01" "first"), .advance 0, .advance 0,
    .invoke (.unbindSession "room" "01" "first"), .advance 1, .advance 1, .advance 1,
    .invoke (.bindSession "room" "02" "second"), .advance 2, .advance 1, .advance 2]

theorem not_kept_roomDeletedUnderBind :
    ¬Runs.Always step Kept new roomDeletedUnderBind := by
  intro h
  obtain ⟨-, -, -, -, -, -, -, -, -, -, -, hkept⟩ := h
  have hconfirmed : (roomDeletedUnderBind.foldl step new).confirmed "room" 2 =
      some "second" := by
    decide
  have hrooms : (roomDeletedUnderBind.foldl step new).rooms["room"]? = none := by
    decide
  obtain ⟨room, hroom, -⟩ := hkept "room" 2 "second" hconfirmed
  cases hrooms.symm.trans hroom

end System

end Fluvora.MediaNode.Concurrency
