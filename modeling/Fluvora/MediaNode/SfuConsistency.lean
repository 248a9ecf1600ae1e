import Fluvora.MediaNode.RoomMaps

/-!
# Consistency of the SFU registry

After every sequence of calls, successful or not, the maps of every room agree with its SFU core,
owners and subscribers have sessions, and every recording sink is one of a published track
(`inStep_runCalls`).  A room that is deleted has no session left, hence no tracks and no sinks.
-/

open Std (ExtTreeMap)

namespace Fluvora.MediaNode.SfuRegistry

open Fallible
open Sfu (ParticipantId PublishedTrack SubscriptionId TrackId)

structure InStep (registry : SfuRegistry) : Prop where
  rooms : ∀ (roomId : String) (managed : ManagedRoom), registry.rooms[roomId]? = some managed →
    managed.Mirrors ∧ managed.Bound
  sinks : ∀ key ∈ registry.recordingSinks, ∃ managed : ManagedRoom,
    registry.rooms[key.roomId]? = some managed ∧ key.trackId ∈ managed.room.tracks

variable {registry : SfuRegistry}

theorem inStep_new : new.InStep where
  rooms := by simp [new]
  sinks := by simp [new]

/-- A room is written, and its sinks that remain are those of tracks that it still has. -/
theorem InStep.write (h : registry.InStep) {roomId : String} {next : ManagedRoom}
    {sinks : ExtTreeMap SinkKey RecordingSink} (hmirrors : next.Mirrors) (hbound : next.Bound)
    (hsinks : ∀ key ∈ sinks, key ∈ registry.recordingSinks ∧
      (key.roomId = roomId → key.trackId ∈ next.room.tracks)) :
    InStep ⟨registry.rooms.insert roomId next, sinks⟩ where
  rooms other managed hmanaged := by
    rcases Maps.getElem?_insert_eq_some.mp hmanaged with ⟨-, rfl⟩ | ⟨-, hold⟩
    · exact ⟨hmirrors, hbound⟩
    · exact h.rooms other managed hold
  sinks key hkey := by
    obtain ⟨hold, hroom⟩ := hsinks key hkey
    by_cases hsame : roomId = key.roomId
    · subst hsame
      exact ⟨next, ExtTreeMap.getElem?_insert_self, hroom rfl⟩
    · obtain ⟨managed, hmanaged, htrack⟩ := h.sinks key hold
      exact ⟨managed, (Maps.getElem?_insert_of_ne hsame).trans hmanaged, htrack⟩

theorem InStep.track_of_sink (h : registry.InStep) {managed : ManagedRoom} {key : SinkKey}
    (hkey : key ∈ registry.recordingSinks)
    (hmanaged : registry.rooms[key.roomId]? = some managed) :
    key.trackId ∈ managed.room.tracks := by
  obtain ⟨found, hfound, htrack⟩ := h.sinks key hkey
  rw [hmanaged] at hfound
  cases hfound
  exact htrack

/-- A section that only adds tracks. -/
theorem InStep.withRoom (h : registry.InStep) {α : Type} (roomId : String)
    {operation : Fallible ManagedRoom SfuRuntimeError α}
    (hoperation : ∀ managed : ManagedRoom, managed.Mirrors → managed.Bound →
      ManagedRoom.Grown managed (operation.run managed).2) :
    ((withRoom roomId operation).run registry).2.InStep := by
  unfold SfuRegistry.withRoom
  rw [run_get_bind, run_ofOption_bind]
  cases hmanaged : registry.rooms[roomId]? with
  | none => exact h
  | some managed =>
    obtain ⟨hmirrors, hbound⟩ := h.rooms roomId managed hmanaged
    have hgrown := hoperation managed hmirrors hbound
    refine h.write hgrown.mirrors hgrown.bound fun key hkey => ⟨hkey, ?_⟩
    rintro rfl
    exact hgrown.tracks _ (h.track_of_sink hkey hmanaged)

theorem InStep.bindSession (h : registry.InStep) (roomId participantId sessionId : String) :
    ((bindSession roomId participantId sessionId).run registry).2.InStep := by
  unfold SfuRegistry.bindSession
  refine run_ofExcept_bind_invariant h fun _ _ => ?_
  refine run_ofExcept_bind_invariant h fun participant _ => ?_
  refine run_ofExcept_bind_invariant h fun _ _ => ?_
  have hroom : ((registry.rooms[roomId]?.getD .new).Mirrors ∧
      (registry.rooms[roomId]?.getD .new).Bound) := by
    cases hmanaged : registry.rooms[roomId]? with
    | none => exact ⟨ManagedRoom.mirrors_new, ManagedRoom.bound_new⟩
    | some managed => exact h.rooms roomId managed hmanaged
  have hmirrors : ((registry.rooms[roomId]?.getD .new).bind participant sessionId).Mirrors :=
    ⟨hroom.1.consistent, hroom.1.owners, hroom.1.inputs, hroom.1.subscriptions, hroom.1.congested⟩
  refine h.write hmirrors (hroom.2.bind participant sessionId) fun key hkey => ⟨hkey, ?_⟩
  rintro rfl
  obtain ⟨managed, hmanaged, htrack⟩ := h.sinks key hkey
  rw [hmanaged]
  exact htrack

/-! ## Sinks -/

theorem mem_dropSinks {sinks : ExtTreeMap SinkKey RecordingSink} {roomId : String}
    {trackId : TrackId} {key : SinkKey} :
    key ∈ dropSinks sinks roomId trackId ↔
      key ∈ sinks ∧ (key.roomId ≠ roomId ∨ key.trackId ≠ trackId) := by
  unfold dropSinks
  simp only [Maps.mem_iff_exists, Maps.getElem?_filter_eq_some, decide_eq_true_eq]
  constructor
  · rintro ⟨sink, hsink, hkey⟩
    exact ⟨⟨sink, hsink⟩, hkey⟩
  · rintro ⟨⟨sink, hsink⟩, hkey⟩
    exact ⟨sink, hsink, hkey⟩

theorem mem_foldl_dropSinks {roomId : String} {tracks : List TrackId} {key : SinkKey}
    {sinks : ExtTreeMap SinkKey RecordingSink} :
    key ∈ tracks.foldl (fun sinks track => dropSinks sinks roomId track) sinks ↔
      key ∈ sinks ∧ (key.roomId = roomId → key.trackId ∉ tracks) := by
  induction tracks generalizing sinks with
  | nil => simp
  | cons trackId tracks ih =>
    rw [List.foldl_cons, ih, mem_dropSinks, List.mem_cons]
    tauto

theorem InStep.of_fewer_sinks (h : registry.InStep) {sinks : ExtTreeMap SinkKey RecordingSink}
    (hsinks : ∀ key ∈ sinks, key ∈ registry.recordingSinks) :
    InStep { registry with recordingSinks := sinks } :=
  ⟨h.rooms, fun key hkey => h.sinks key (hsinks key hkey)⟩

theorem InStep.addRecordingSinkForSsrc (h : registry.InStep) (roomId : String) (trackId : TrackId)
    (destination : SocketAddr) (sourceSsrc : Option UInt32) :
    ((addRecordingSinkForSsrc roomId trackId destination sourceSsrc).run registry).2.InStep := by
  unfold SfuRegistry.addRecordingSinkForSsrc
  refine run_ensure_bind_invariant h fun _ => ?_
  rw [run_get_bind, run_ofOption_bind]
  cases hmanaged : registry.rooms[roomId]? with
  | none => exact h
  | some managed =>
    dsimp only
    rw [run_ofOption_bind]
    cases htrack : managed.room.tracks[trackId]? with
    | none => exact h
    | some track =>
      refine run_ensure_bind_invariant h fun _ => ⟨h.rooms, ?_⟩
      intro key hkey
      rcases Maps.mem_insert_iff.mp hkey with rfl | hold
      · exact ⟨managed, hmanaged, Maps.mem_of_getElem? htrack⟩
      · exact h.sinks key hold

/-! ## Removing -/

theorem InStep.unpublish (h : registry.InStep) (roomId : String) (trackId : TrackId) :
    (registry.unpublish roomId trackId).2.InStep := by
  unfold SfuRegistry.unpublish
  cases hmanaged : registry.rooms[roomId]? with
  | none => exact h
  | some managed =>
    dsimp only
    split_ifs with hremoved
    · obtain ⟨hmirrors, hbound⟩ := h.rooms roomId managed hmanaged
      obtain ⟨hnext, hnextBound, htracks⟩ := ManagedRoom.unpublish_spec hmirrors hbound trackId
      refine h.write hnext hnextBound fun key hkey => ?_
      obtain ⟨hold, hother⟩ := mem_dropSinks.mp hkey
      refine ⟨hold, ?_⟩
      rintro rfl
      exact htracks _ (h.track_of_sink hold hmanaged) (hother.resolve_left fun hne => hne rfl)
    · exact h

theorem InStep.unpublishOwned (h : registry.InStep) (roomId participantId : String)
    (trackId : TrackId) :
    ((unpublishOwned roomId participantId trackId).run registry).2.InStep := by
  unfold SfuRegistry.unpublishOwned
  refine run_ofExcept_bind_invariant h fun participant _ => ?_
  rw [run_get_bind, run_ofOption_bind]
  cases registry.rooms[roomId]? with
  | none => exact h
  | some managed =>
    dsimp only
    rw [run_ofOption_bind]
    cases managed.trackOwners[trackId]? with
    | none => exact h
    | some owner =>
      refine run_ensure_bind_invariant h fun _ => ?_
      rw [run_set_bind, run_ensure]
      exact h.unpublish roomId trackId

theorem InStep.unbindSession (h : registry.InStep) (roomId participantId sessionId : String) :
    (registry.unbindSession roomId participantId sessionId).2.InStep := by
  unfold SfuRegistry.unbindSession
  match parseParticipant participantId, hmanaged : registry.rooms[roomId]? with
  | .ok participant, some managed =>
    dsimp only
    cases hunbind : managed.unbind participant sessionId with
    | none => exact h
    | some result =>
      obtain ⟨tracks, next⟩ := result
      obtain ⟨hmirrors, hbound⟩ := h.rooms roomId managed hmanaged
      obtain ⟨-, -, -, hnext, hnextBound, htracks⟩ :=
        ManagedRoom.unbind_spec hmirrors hbound hunbind
      have hwritten : InStep ⟨registry.rooms.insert roomId next,
          tracks.foldl (fun sinks track => dropSinks sinks roomId track)
            registry.recordingSinks⟩ := by
        refine h.write hnext hnextBound fun key hkey => ?_
        obtain ⟨hold, hother⟩ := mem_foldl_dropSinks.mp hkey
        refine ⟨hold, ?_⟩
        rintro rfl
        exact htracks _ (h.track_of_sink hold hmanaged) (hother rfl)
      dsimp only
      split_ifs with hempty
      · refine ⟨fun other found hfound => h.rooms other found
          (Maps.getElem?_erase_eq_some.mp hfound).2, ?_⟩
        intro key hkey
        obtain ⟨found, hfound, htrack⟩ := hwritten.sinks key hkey
        rcases Maps.getElem?_insert_eq_some.mp hfound with ⟨-, rfl⟩ | ⟨hne, hold⟩
        · -- A track has an owner, and the owner a session.
          obtain ⟨track, htrack⟩ := Maps.mem_iff_exists.mp htrack
          have howner := (hnext.owners key.trackId track.owner).mpr ⟨track, htrack, rfl⟩
          have hsession := hnextBound.owners key.trackId track.owner howner
          rw [ExtTreeMap.isEmpty_iff.mp hempty] at hsession
          exact absurd hsession ExtTreeMap.not_mem_empty
        · exact ⟨found, Maps.getElem?_erase_eq_some.mpr ⟨hne, hold⟩, htrack⟩
      · exact hwritten
  | .ok participant, none => exact h
  | .error error, _ => exact h

/-! ## Runs -/

theorem InStep.step (h : registry.InStep) (call : Call) : (registry.step call).InStep := by
  cases call with
  | bindSession roomId participantId sessionId => exact h.bindSession roomId participantId sessionId
  | publish input =>
    refine run_ofExcept_bind_invariant h fun participant _ => ?_
    exact h.withRoom _ fun managed hmirrors hbound =>
      ManagedRoom.grown_publish hmirrors hbound participant input
  | unpublish roomId trackId => exact h.unpublish roomId trackId
  | unpublishOwned roomId participantId trackId => exact h.unpublishOwned roomId participantId trackId
  | addRecordingSinkForSsrc roomId trackId destination sourceSsrc =>
    exact h.addRecordingSinkForSsrc roomId trackId destination sourceSsrc
  | removeRecordingSink roomId trackId =>
    exact h.of_fewer_sinks fun key hkey => (mem_dropSinks.mp hkey).1
  | removeRecordingSinkDestination roomId trackId destination =>
    exact h.of_fewer_sinks fun key hkey => ExtTreeMap.mem_of_mem_erase hkey
  | subscribe input =>
    refine run_ofExcept_bind_invariant h fun participant _ => ?_
    exact h.withRoom _ fun managed hmirrors hbound =>
      ManagedRoom.grown_subscribe hmirrors hbound participant input
  | unsubscribe roomId participantId id =>
    refine run_ofExcept_bind_invariant h fun participant _ => ?_
    exact h.withRoom _ fun managed hmirrors hbound =>
      ManagedRoom.grown_unsubscribe hmirrors hbound participant id
  | unbindSession roomId participantId sessionId =>
    exact h.unbindSession roomId participantId sessionId
  | setLayer now roomId participantId id spatial temporal =>
    refine run_ofExcept_bind_invariant h fun participant _ => ?_
    exact h.withRoom _ fun managed hmirrors hbound =>
      ManagedRoom.grown_setLayer hmirrors hbound now participant id _

theorem inStep_foldl (h : registry.InStep) (calls : List Call) :
    (registry.runCalls calls).InStep := by
  induction calls generalizing registry with
  | nil => exact h
  | cons call calls ih => exact ih (h.step call)

/-- After every run of calls, successful or not, the maps of every room agree with the room, owners
and subscribers have sessions, and every recording sink is one of a published track. -/
theorem inStep_runCalls (calls : List Call) :
    (∀ (roomId : String) (managed : ManagedRoom),
      (new.runCalls calls).rooms[roomId]? = some managed → managed.Mirrors ∧ managed.Bound) ∧
    ∀ key ∈ (new.runCalls calls).recordingSinks, ∃ managed : ManagedRoom,
      (new.runCalls calls).rooms[key.roomId]? = some managed ∧
        key.trackId ∈ managed.room.tracks := by
  have h := inStep_foldl inStep_new calls
  exact ⟨h.rooms, h.sinks⟩

end Fluvora.MediaNode.SfuRegistry
