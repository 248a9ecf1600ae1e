import Fluvora.MediaNode.SfuRegistry
import Fluvora.Sfu.Indices

/-!
# The maps beside an SFU room

The service keeps the owners, the input SSRCs, the subscriptions and the congestion state of a room
in maps of its own.  `Mirrors` says that they agree with the room, and `Bound` that owners and
subscribers have a session.  Publishing and subscribing add to both sides; everything that is removed
goes through `mirrors_unpublished` (a track with its subscriptions) or `Mirrors.dropSubscription`.
-/

open Std (ExtTreeMap)

namespace Fluvora.Sfu.Room

open Fallible

variable {room : Room} {trackId : TrackId}

/-! ## What the core does -/

theorem publish_run (track : PublishedTrack) :
    (∃ error, (publish track).run room = (.error error, room)) ∨
      validateTrack track = .ok () ∧ track.id ∉ room.tracks ∧
        (∀ encoding ∈ track.encodings, encoding.ssrc ∉ room.ssrcIndex) ∧
        (publish track).run room = (.ok (), room.withTrack track) := by
  unfold publish
  rw [run_ofExcept_bind]
  cases hvalid : validateTrack track with
  | error error => exact .inl ⟨_, rfl⟩
  | ok _ =>
    dsimp only
    rw [run_get_bind, run_ensure_bind]
    by_cases hnew : track.id ∉ room.tracks
    · rw [if_pos hnew, run_ensure_bind]
      by_cases hlimit : room.tracks.size < room.configuration.maxTracks
      · rw [if_pos hlimit, run_ensure_bind]
        by_cases hfresh : ∀ encoding ∈ track.encodings, encoding.ssrc ∉ room.ssrcIndex
        · rw [if_pos hfresh]
          exact .inr ⟨rfl, hnew, hfresh, rfl⟩
        · rw [if_neg hfresh]
          exact .inl ⟨_, rfl⟩
      · rw [if_neg hlimit]
        exact .inl ⟨_, rfl⟩
    · rw [if_neg hnew]
      exact .inl ⟨_, rfl⟩

theorem subscribe_run (configuration : SubscriptionConfig) :
    (∃ error, (subscribe configuration).run room = (.error error, room)) ∨
      configuration.id ∉ room.subscriptions ∧ ∃ downTrack : DownTrack,
        downTrack.configuration = configuration ∧
        (subscribe configuration).run room = (.ok (), room.withSubscription downTrack) := by
  unfold subscribe
  rw [run_get_bind, run_ensure_bind]
  by_cases hnew : configuration.id ∉ room.subscriptions
  · rw [if_pos hnew, run_ensure_bind]
    split_ifs with houtput
    · exact .inl ⟨_, rfl⟩
    · rw [run_ensure_bind]
      split_ifs with hsafe
      · rw [run_ensure_bind]
        split_ifs with hlimit
        · rw [run_ofOption_bind]
          cases room.tracks[configuration.trackId]? with
          | none => exact .inl ⟨_, rfl⟩
          | some track =>
            dsimp only
            rw [run_ensure_bind]
            by_cases hlayer : track.encoding configuration.initialLayer.spatial ≠ none
            · rw [if_pos hlayer]
              exact .inr ⟨hnew, DownTrack.new configuration track
                room.configuration.retransmissionCachePackets
                room.configuration.retransmissionCacheAge, rfl, rfl⟩
            · rw [if_neg hlayer]
              exact .inl ⟨_, rfl⟩
        · exact .inl ⟨_, rfl⟩
      · exact .inl ⟨_, rfl⟩
  · rw [if_neg hnew]
    exact .inl ⟨_, rfl⟩

/-- The room without a track, after its subscriptions are removed. -/
theorem unpublish_removed {track : PublishedTrack} (htrack : room.tracks[trackId]? = some track) :
    Removed (room.withoutTrack trackId track) (room.unpublish trackId).2
      (room.subscribers trackId) := by
  have hremoved := removed_foldl (room.subscribers trackId) (room.withoutTrack trackId track)
  unfold unpublish
  rw [htrack]
  exact hremoved

theorem tracks_unpublish {other : TrackId} {track : PublishedTrack} :
    (room.unpublish trackId).2.tracks[other]? = some track ↔
      trackId ≠ other ∧ room.tracks[other]? = some track := by
  cases htrack : room.tracks[trackId]? with
  | none =>
    unfold unpublish
    rw [htrack]
    refine ⟨fun hother => ⟨?_, hother⟩, fun hother => hother.2⟩
    rintro rfl
    rw [htrack] at hother
    cases hother
  | some found =>
    rw [(unpublish_removed htrack).tracks]
    exact Maps.getElem?_erase_eq_some

theorem subscriptionConfig_unpublish (hroom : Consistent room) {id : SubscriptionId}
    {configuration : SubscriptionConfig} :
    (room.unpublish trackId).2.subscriptionConfig id = some configuration ↔
      room.subscriptionConfig id = some configuration ∧ configuration.trackId ≠ trackId := by
  cases htrack : room.tracks[trackId]? with
  | none =>
    unfold unpublish
    rw [htrack]
    refine ⟨fun hconfig => ⟨hconfig, ?_⟩, fun hconfig => hconfig.1⟩
    rintro rfl
    exact Maps.not_mem_iff.mpr htrack (hroom.configured id configuration hconfig).2.2
  | some found =>
    have hold : (room.withoutTrack trackId found).subscriptionConfig id =
        room.subscriptionConfig id := rfl
    rw [(unpublish_removed htrack).subscriptionConfig, hold]
    have hlisted := (hroom.lists trackId).mem id
    split_ifs with hmem
    · obtain ⟨listed, hconfig, hsame⟩ := hlisted.mp hmem
      simp only [false_iff, not_and, not_not]
      intro hother
      rw [hconfig] at hother
      cases hother
      exact hsame
    · refine ⟨fun hconfig => ⟨hconfig, ?_⟩, fun hconfig => hconfig.1⟩
      intro hsame
      exact hmem (hlisted.mpr ⟨configuration, hconfig, hsame⟩)

end Fluvora.Sfu.Room

namespace Fluvora.MediaNode.ManagedRoom

open Fallible
open Sfu (Encoding Layer ParticipantId PublishedTrack Room SubscriptionConfig SubscriptionId TrackId)

/-- The subscriptions of a congestion state belong to its participant. -/
def Congested (subscriptions : ExtTreeMap SubscriptionId (ParticipantId × TrackId))
    (congestion : ExtTreeMap ParticipantId ParticipantCongestion) : Prop :=
  ∀ (participant : ParticipantId) (state : ParticipantCongestion),
    congestion[participant]? = some state → ∀ id ∈ state.subscriptions,
      ∃ trackId : TrackId, subscriptions[id]? = some (participant, trackId)

/-- The maps of the service agree with the room. -/
structure Mirrors (managed : ManagedRoom) : Prop where
  consistent : managed.room.Consistent
  owners : ∀ (trackId : TrackId) (participant : ParticipantId),
    managed.trackOwners[trackId]? = some participant ↔
      ∃ track : PublishedTrack, managed.room.tracks[trackId]? = some track ∧
        track.owner = participant
  inputs : ∀ (ssrc : UInt32) (trackId : TrackId), managed.inputTracks[ssrc]? = some trackId ↔
    ∃ (track : PublishedTrack) (encoding : Encoding), managed.room.tracks[trackId]? = some track ∧
      encoding ∈ track.encodings ∧ encoding.ssrc = ssrc
  subscriptions : ∀ (id : SubscriptionId) (participant : ParticipantId) (trackId : TrackId),
    managed.subscriptions[id]? = some (participant, trackId) ↔
      ∃ configuration, managed.room.subscriptionConfig id = some configuration ∧
        configuration.subscriber = participant ∧ configuration.trackId = trackId
  congested : Congested managed.subscriptions managed.congestion

/-- Owners and subscribers have a session. -/
structure Bound (managed : ManagedRoom) : Prop where
  owners : ∀ (trackId : TrackId) (participant : ParticipantId),
    managed.trackOwners[trackId]? = some participant → participant ∈ managed.participantSessions
  subscribers : ∀ (id : SubscriptionId) (participant : ParticipantId) (trackId : TrackId),
    managed.subscriptions[id]? = some (participant, trackId) →
      participant ∈ managed.participantSessions

variable {managed : ManagedRoom}

theorem mirrors_new : new.Mirrors where
  consistent := Room.consistent_new _
  owners := by simp [new, Room.new]
  inputs := by simp [new, Room.new]
  subscriptions := by simp [new, Room.new, Room.subscriptionConfig]
  congested := by
    intro participant state hstate
    simp [new] at hstate

theorem bound_new : new.Bound := ⟨by simp [new], by simp [new]⟩

theorem Bound.bind (h : managed.Bound) (participant : ParticipantId) (sessionId : String) :
    (managed.bind participant sessionId).Bound := by
  constructor
  · intro trackId owner howner
    exact Maps.mem_insert_iff.mpr (.inr (h.owners trackId owner howner))
  · intro id subscriber trackId hsubscriber
    exact Maps.mem_insert_iff.mpr (.inr (h.subscribers id subscriber trackId hsubscriber))

theorem withCore_run {α : Type} (operation : Fallible Room Sfu.SfuError α) :
    (withCore operation).run managed =
      ((operation.run managed.room).1.mapError .core,
        { managed with room := (operation.run managed.room).2 }) := rfl

/-- The room may change in everything but its tracks and the configurations of subscriptions. -/
theorem Mirrors.of_reshaped (h : managed.Mirrors) {room : Room}
    (hroom : Room.Reshaped managed.room room) : Mirrors { managed with room := room } where
  consistent := hroom.consistent h.consistent
  owners := by
    dsimp only
    rw [hroom.tracks]
    exact h.owners
  inputs := by
    dsimp only
    rw [hroom.tracks]
    exact h.inputs
  subscriptions := by
    dsimp only
    simp only [hroom.subscriptionConfig]
    exact h.subscriptions
  congested := h.congested

/-! ## Congestion -/

section Congestion

variable {subscriptions : ExtTreeMap SubscriptionId (ParticipantId × TrackId)}
  {congestion : ExtTreeMap ParticipantId ParticipantCongestion} {id : SubscriptionId}

/-- A subscription that is dropped from the map is dropped from the state of its subscriber. -/
theorem Congested.drop (h : Congested subscriptions congestion) {subscriber : ParticipantId}
    (hsubscriber : ∀ (participant : ParticipantId) (trackId : TrackId),
      subscriptions[id]? = some (participant, trackId) → participant = subscriber) :
    Congested (subscriptions.erase id) (congestion.modify subscriber fun state =>
      { state with subscriptions := state.subscriptions.erase id }) := by
  intro participant state hstate other hother
  by_cases hsame : subscriber = participant
  · subst hsame
    rw [ExtTreeMap.getElem?_modify_self] at hstate
    obtain ⟨old, hold, rfl⟩ := Option.map_eq_some_iff.mp hstate
    obtain ⟨value, hvalue⟩ := Maps.mem_iff_exists.mp hother
    obtain ⟨hne, hvalue⟩ := Maps.getElem?_erase_eq_some.mp hvalue
    obtain ⟨trackId, htrack⟩ := h subscriber old hold other (Maps.mem_of_getElem? hvalue)
    exact ⟨trackId, Maps.getElem?_erase_eq_some.mpr ⟨hne, htrack⟩⟩
  · have hkept : congestion[participant]? = some state := by
      rw [ExtTreeMap.getElem?_modify, if_neg fun heq => hsame (Std.LawfulEqCmp.eq_of_compare heq)]
        at hstate
      exact hstate
    obtain ⟨trackId, htrack⟩ := h participant state hkept other hother
    refine ⟨trackId, Maps.getElem?_erase_eq_some.mpr ⟨?_, htrack⟩⟩
    rintro rfl
    exact hsame (hsubscriber participant trackId htrack).symm

theorem Congested.erase (h : Congested subscriptions congestion) (participant : ParticipantId) :
    Congested subscriptions (congestion.erase participant) := by
  intro other state hstate
  exact h other state (Maps.getElem?_erase_eq_some.mp hstate).2

/-- A new subscription joins the map. -/
theorem Congested.insert (h : Congested subscriptions congestion) (hnew : id ∉ subscriptions)
    (value : ParticipantId × TrackId) : Congested (subscriptions.insert id value) congestion := by
  intro participant state hstate other hother
  obtain ⟨trackId, htrack⟩ := h participant state hstate other hother
  refine ⟨trackId, (Maps.getElem?_insert_of_ne ?_).trans htrack⟩
  rintro rfl
  exact hnew (Maps.mem_of_getElem? htrack)

/-- A subscription joins the state of its subscriber. -/
theorem Congested.add (h : Congested subscriptions congestion) {participant : ParticipantId}
    {trackId : TrackId} (hid : subscriptions[id]? = some (participant, trackId))
    (extensionId : UInt8) (value : SubscriptionCongestion) :
    Congested subscriptions (congestion.insert participant ⟨extensionId,
      (congestion[participant]?.getD ⟨extensionId, ∅⟩).subscriptions.insert id value⟩) := by
  intro other state hstate key hkey
  rcases Maps.getElem?_insert_eq_some.mp hstate with ⟨rfl, rfl⟩ | ⟨-, hold⟩
  · rcases Maps.mem_insert_iff.mp hkey with rfl | hkey
    · exact ⟨trackId, hid⟩
    · cases hstate : congestion[participant]? with
      | none =>
        rw [hstate] at hkey
        simp at hkey
      | some old =>
        rw [hstate] at hkey
        exact h participant old hstate key hkey
  · exact h other state hold key hkey

end Congestion

/-! ## Adding -/

theorem Mirrors.withTrack (h : managed.Mirrors) {track : PublishedTrack}
    (hconsistent : (managed.room.withTrack track).Consistent)
    (hvalid : Sfu.validateTrack track = .ok ()) (hnew : track.id ∉ managed.room.tracks)
    (hfresh : ∀ encoding ∈ track.encodings, encoding.ssrc ∉ managed.room.ssrcIndex) :
    Mirrors { managed with
      room := managed.room.withTrack track
      trackOwners := managed.trackOwners.insert track.id track.owner
      inputTracks := track.encodings.foldl
        (fun inputs encoding => inputs.insert encoding.ssrc track.id) managed.inputTracks } where
  consistent := hconsistent
  owners trackId participant := by
    show (managed.trackOwners.insert track.id track.owner)[trackId]? = some participant ↔
      ∃ found : PublishedTrack, (managed.room.tracks.insert track.id track)[trackId]? =
        some found ∧ found.owner = participant
    rw [Maps.getElem?_insert_eq_some, h.owners]
    simp only [Maps.getElem?_insert_eq_some]
    constructor
    · rintro (⟨rfl, rfl⟩ | ⟨hne, found, hfound, rfl⟩)
      · exact ⟨track, .inl ⟨rfl, rfl⟩, rfl⟩
      · exact ⟨found, .inr ⟨hne, hfound⟩, rfl⟩
    · rintro ⟨found, ⟨rfl, rfl⟩ | ⟨hne, hfound⟩, rfl⟩
      · exact .inl ⟨rfl, rfl⟩
      · exact .inr ⟨hne, found, hfound, rfl⟩
  inputs ssrc trackId := by
    show (track.encodings.foldl (fun inputs encoding => inputs.insert encoding.ssrc track.id)
        managed.inputTracks)[ssrc]? = some trackId ↔
      ∃ (found : PublishedTrack) (encoding : Encoding),
        (managed.room.tracks.insert track.id track)[trackId]? = some found ∧
          encoding ∈ found.encodings ∧ encoding.ssrc = ssrc
    rw [Maps.getElem?_foldl_insert (fun _ => track.id) (Room.validateTrack_eq_ok hvalid).1, h.inputs]
    simp only [Maps.getElem?_insert_eq_some]
    constructor
    · rintro (⟨encoding, hencoding, rfl, rfl⟩ | ⟨⟨found, encoding, hfound, hencoding, rfl⟩, -⟩)
      · exact ⟨track, encoding, .inl ⟨rfl, rfl⟩, hencoding, rfl⟩
      · refine ⟨found, encoding, .inr ⟨?_, hfound⟩, hencoding, rfl⟩
        rintro rfl
        exact hnew (Maps.mem_of_getElem? hfound)
    · rintro ⟨found, encoding, ⟨rfl, rfl⟩ | ⟨hne, hfound⟩, hencoding, rfl⟩
      · exact .inl ⟨encoding, hencoding, rfl, rfl⟩
      · refine .inr ⟨⟨found, encoding, hfound, hencoding, rfl⟩, ?_⟩
        -- The SSRC of a published encoding is in the index of the room, so it is not new.
        intro other hother hssrc
        refine hfresh other hother (hssrc ▸ ?_)
        exact Maps.mem_of_getElem? ((h.consistent.ssrc encoding.ssrc trackId
          encoding.spatialLayer).mpr ⟨found, hfound, hencoding⟩)
  subscriptions := h.subscriptions
  congested := h.congested

/-- Both invariants, and the tracks of the room that may only have grown. -/
structure Grown (managed next : ManagedRoom) : Prop where
  mirrors : next.Mirrors
  bound : next.Bound
  tracks : ∀ trackId ∈ managed.room.tracks, trackId ∈ next.room.tracks

theorem grown_refl (h : managed.Mirrors) (hbound : managed.Bound) : Grown managed managed :=
  ⟨h, hbound, fun _ htrack => htrack⟩

theorem grown_publish (h : managed.Mirrors) (hbound : managed.Bound)
    (participant : ParticipantId) (input : PublishTrack) :
    Grown managed ((publish participant input).run managed).2 := by
  unfold ManagedRoom.publish
  rw [run_get_bind, run_ensure_bind]
  split_ifs with hsession
  · rw [run_bind, withCore_run]
    have hconsistent := Room.consistent_publish h.consistent ⟨input.trackId, participant, input.kind,
      input.codec, input.clockRate, input.payloadType, input.encodings⟩
    rcases @Room.publish_run managed.room ⟨input.trackId, participant, input.kind, input.codec,
      input.clockRate, input.payloadType, input.encodings⟩ with
      ⟨error, hrun⟩ | ⟨hvalid, hnew, hfresh, hrun⟩
    · rw [hrun]
      exact grown_refl h hbound
    · rw [hrun] at hconsistent ⊢
      refine ⟨h.withTrack hconsistent hvalid hnew hfresh, ⟨?_, hbound.subscribers⟩, ?_⟩
      · intro trackId owner howner
        rcases Maps.getElem?_insert_eq_some.mp howner with ⟨-, rfl⟩ | ⟨-, hold⟩
        · exact hsession
        · exact hbound.owners trackId owner hold
      · intro trackId htrack
        exact Maps.mem_insert_iff.mpr (.inr htrack)
  · exact grown_refl h hbound

/-- A subscription joins the room and the map of the service. -/
theorem Mirrors.withSubscription (h : managed.Mirrors) {downTrack : Sfu.DownTrack}
    (hconsistent : (managed.room.withSubscription downTrack).Consistent)
    (hnew : downTrack.configuration.id ∉ managed.room.subscriptions) :
    Mirrors { managed with
      room := managed.room.withSubscription downTrack
      subscriptions := managed.subscriptions.insert downTrack.configuration.id
        (downTrack.configuration.subscriber, downTrack.configuration.trackId) } where
  consistent := hconsistent
  owners := h.owners
  inputs := h.inputs
  subscriptions id participant trackId := by
    dsimp only
    rw [Maps.getElem?_insert_eq_some, Room.subscriptionConfig_withSubscription, h.subscriptions]
    split_ifs with hid
    · simp [hid, eq_comm]
    · simp [hid]
  congested := by
    refine h.congested.insert ?_ _
    intro hold
    obtain ⟨⟨participant, trackId⟩, hvalue⟩ := Maps.mem_iff_exists.mp hold
    obtain ⟨configuration, hconfig, -⟩ := (h.subscriptions _ participant trackId).mp hvalue
    exact hnew (Room.mem_subscriptions_iff.mpr (by rw [hconfig]; simp))

theorem grown_subscribe (h : managed.Mirrors) (hbound : managed.Bound)
    (participant : ParticipantId) (input : SubscribeTrack) :
    Grown managed ((subscribe participant input).run managed).2 := by
  unfold ManagedRoom.subscribe
  rw [run_get_bind, run_ensure_bind]
  split_ifs with hsession
  · rw [run_ofOption_bind]
    cases managed.room.tracks[input.trackId]? with
    | none => exact grown_refl h hbound
    | some track =>
      dsimp only
      rw [run_bind, withCore_run]
      generalize hconfig : (⟨input.subscriptionId, participant, input.trackId, input.outputSsrc,
        input.outputPayloadType, ⟨input.spatialLayer, input.temporalLayer⟩,
        input.initialSequenceNumber, input.initialTimestamp, input.extensionRewrites⟩ :
          SubscriptionConfig) = configuration
      have hconsistent := Room.consistent_subscribe h.consistent configuration
      rcases @Room.subscribe_run managed.room configuration with
        ⟨error, hrun⟩ | ⟨hnew, downTrack, rfl, hrun⟩
      · rw [hrun]
        exact grown_refl h hbound
      · rw [hrun] at hconsistent ⊢
        have hmirrors := h.withSubscription hconsistent hnew
        have hsubscribed : Bound { managed with
            room := managed.room.withSubscription downTrack
            subscriptions := managed.subscriptions.insert input.subscriptionId
              (participant, input.trackId) } := by
          refine ⟨hbound.owners, ?_⟩
          intro id subscriber trackId hsubscriber
          rcases Maps.getElem?_insert_eq_some.mp hsubscriber with ⟨-, heq⟩ | ⟨-, hold⟩
          · cases heq
            exact hsession
          · exact hbound.subscribers id subscriber trackId hold
        rw [← hconfig] at hmirrors
        cases input.transportWideExtensionId with
        | none => exact ⟨hmirrors, hsubscribed, fun _ htrack => htrack⟩
        | some extensionId =>
          refine ⟨⟨hmirrors.consistent, hmirrors.owners, hmirrors.inputs, hmirrors.subscriptions, ?_⟩,
            ⟨hsubscribed.owners, hsubscribed.subscribers⟩, fun _ htrack => htrack⟩
          exact hmirrors.congested.add ExtTreeMap.getElem?_insert_self extensionId _
  · exact grown_refl h hbound

theorem grown_setLayer (h : managed.Mirrors) (hbound : managed.Bound) (now : ℕ)
    (participant : ParticipantId) (id : SubscriptionId) (layer : Layer) :
    Grown managed ((setLayer now participant id layer).run managed).2 := by
  have hreshaped := Room.reshaped_setTargetLayer h.consistent now participant id layer
  have hgrown : Grown managed { managed with
      room := ((Room.setTargetLayer now participant id layer).run managed.room).2 } :=
    ⟨h.of_reshaped hreshaped, ⟨hbound.owners, hbound.subscribers⟩, fun _ htrack => by
      dsimp only
      rw [hreshaped.tracks]
      exact htrack⟩
  unfold ManagedRoom.setLayer
  exact run_bind_invariant (I := fun next : ManagedRoom => Grown managed next) hgrown
    fun _ _ _ hnext => hnext

/-! ## Removing -/

/-- A track goes with its subscriptions, on both sides. -/
theorem mirrors_unpublished (h : managed.Mirrors) (trackId : TrackId)
    {subscriptions : ExtTreeMap SubscriptionId (ParticipantId × TrackId)}
    {congestion : ExtTreeMap ParticipantId ParticipantCongestion}
    (hsubscriptions : ∀ (id : SubscriptionId) (value : ParticipantId × TrackId),
      subscriptions[id]? = some value ↔ managed.subscriptions[id]? = some value ∧
        value.2 ≠ trackId) (hcongested : Congested subscriptions congestion) :
    Mirrors ⟨(managed.room.unpublish trackId).2, managed.participantSessions,
      managed.trackOwners.erase trackId,
      managed.inputTracks.filter fun _ track => track ≠ trackId, subscriptions, congestion⟩ where
  consistent := Room.consistent_unpublish h.consistent trackId
  owners other participant := by
    dsimp only
    simp only [Room.tracks_unpublish, Maps.getElem?_erase_eq_some, h.owners]
    constructor
    · rintro ⟨hne, track, htrack, howner⟩
      exact ⟨track, ⟨hne, htrack⟩, howner⟩
    · rintro ⟨track, ⟨hne, htrack⟩, howner⟩
      exact ⟨hne, track, htrack, howner⟩
  inputs ssrc other := by
    dsimp only
    simp only [Room.tracks_unpublish, Maps.getElem?_filter_eq_some, decide_eq_true_eq, h.inputs]
    constructor
    · rintro ⟨⟨track, encoding, htrack, hencoding, hssrc⟩, hne⟩
      exact ⟨track, encoding, ⟨hne.symm, htrack⟩, hencoding, hssrc⟩
    · rintro ⟨track, encoding, ⟨hne, htrack⟩, hencoding, hssrc⟩
      exact ⟨⟨track, encoding, htrack, hencoding, hssrc⟩, hne.symm⟩
  subscriptions id participant other := by
    dsimp only
    rw [hsubscriptions, h.subscriptions]
    simp only [Room.subscriptionConfig_unpublish h.consistent]
    constructor
    · rintro ⟨⟨configuration, hconfig, hsubscriber, rfl⟩, hne⟩
      exact ⟨configuration, ⟨hconfig, hne⟩, hsubscriber, rfl⟩
    · rintro ⟨configuration, ⟨hconfig, hne⟩, hsubscriber, rfl⟩
      exact ⟨⟨configuration, hconfig, hsubscriber, rfl⟩, hne⟩
  congested := hcongested

/-- The loop of `unpublish` takes subscriptions out of the maps of the service. -/
theorem foldl_forgetSubscription (ids : List SubscriptionId) (managed : ManagedRoom) :
    ∃ congestion, ids.foldl forgetSubscription managed = { managed with
        subscriptions := ids.foldl (fun subscriptions id => subscriptions.erase id)
          managed.subscriptions
        congestion := congestion } ∧
      (Congested managed.subscriptions managed.congestion →
        Congested (ids.foldl (fun subscriptions id => subscriptions.erase id)
          managed.subscriptions) congestion) := by
  induction ids generalizing managed with
  | nil => exact ⟨managed.congestion, rfl, fun h => h⟩
  | cons id ids ih =>
    have hstep : ∃ congestion, managed.forgetSubscription id = { managed with
          subscriptions := managed.subscriptions.erase id, congestion := congestion } ∧
        (Congested managed.subscriptions managed.congestion →
          Congested (managed.subscriptions.erase id) congestion) := by
      unfold forgetSubscription
      cases hid : managed.subscriptions[id]? with
      | none =>
        have herase := Maps.erase_of_not_mem (Maps.not_mem_iff.mpr hid)
        rw [herase]
        exact ⟨managed.congestion, rfl, fun h => h⟩
      | some value =>
        obtain ⟨subscriber, trackId⟩ := value
        refine ⟨_, rfl, fun h => h.drop ?_⟩
        intro participant other hother
        rw [hid] at hother
        cases hother
        rfl
    obtain ⟨congestion, hforget, hcongested⟩ := hstep
    obtain ⟨last, hrest, hlast⟩ := ih (managed.forgetSubscription id)
    rw [hforget] at hrest hlast
    refine ⟨last, ?_, fun h => hlast (hcongested h)⟩
    rw [List.foldl_cons, hforget]
    exact hrest

/-- Fewer owners and subscriptions need no more sessions. -/
theorem Bound.of_subset (h : managed.Bound) {next : ManagedRoom}
    (howners : ∀ (trackId : TrackId) (participant : ParticipantId),
      next.trackOwners[trackId]? = some participant →
        managed.trackOwners[trackId]? = some participant)
    (hsubscriptions : ∀ (id : SubscriptionId) (value : ParticipantId × TrackId),
      next.subscriptions[id]? = some value → managed.subscriptions[id]? = some value)
    (hsessions : next.participantSessions = managed.participantSessions) : next.Bound := by
  constructor
  · intro trackId participant howner
    rw [hsessions]
    exact h.owners trackId participant (howners trackId participant howner)
  · intro id participant trackId hsubscriber
    rw [hsessions]
    exact h.subscribers id participant trackId (hsubscriptions id _ hsubscriber)

theorem mem_filtered_toList {m : ExtTreeMap SubscriptionId (ParticipantId × TrackId)}
    {keep : SubscriptionId × ParticipantId × TrackId → Bool} {id : SubscriptionId}
    {value : ParticipantId × TrackId} (hvalue : m[id]? = some value) :
    id ∈ (m.toList.filter keep).map Prod.fst ↔ keep (id, value) = true := by
  simp only [List.mem_map, List.mem_filter, Prod.exists, ExtTreeMap.mem_toList_iff_getElem?_eq_some]
  constructor
  · rintro ⟨key, participant, trackId, ⟨hlookup, hkeep⟩, rfl⟩
    rw [hvalue] at hlookup
    cases hlookup
    exact hkeep
  · intro hkeep
    exact ⟨id, value.1, value.2, ⟨hvalue, hkeep⟩, rfl⟩

theorem unpublish_spec (h : managed.Mirrors) (hbound : managed.Bound) (trackId : TrackId) :
    (managed.unpublish trackId).2.Mirrors ∧ (managed.unpublish trackId).2.Bound ∧
      ∀ other ∈ managed.room.tracks, other ≠ trackId →
        other ∈ (managed.unpublish trackId).2.room.tracks := by
  unfold ManagedRoom.unpublish
  dsimp only
  split_ifs with hremoved
  · obtain ⟨congestion, hfold, hcongested⟩ := foldl_forgetSubscription
      ((managed.subscriptions.toList.filter fun entry => entry.2.2 = trackId).map Prod.fst)
      { managed with
        room := (managed.room.unpublish trackId).2
        trackOwners := managed.trackOwners.erase trackId
        inputTracks := managed.inputTracks.filter fun _ track => track ≠ trackId }
    have hsubscriptions (id : SubscriptionId) (value : ParticipantId × TrackId) :
        (((managed.subscriptions.toList.filter fun entry => entry.2.2 = trackId).map
          Prod.fst).foldl (fun subscriptions id => subscriptions.erase id)
            managed.subscriptions)[id]? = some value ↔
          managed.subscriptions[id]? = some value ∧ value.2 ≠ trackId := by
      rw [Maps.getElem?_foldl_erase _ (fun id => id)]
      refine and_congr_right fun hvalue => ?_
      have hmem := @mem_filtered_toList managed.subscriptions
        (fun entry => decide (entry.2.2 = trackId)) id value hvalue
      rw [decide_eq_true_eq] at hmem
      rw [← not_iff_not, not_not, ← hmem]
      simp
    rw [hfold]
    refine ⟨mirrors_unpublished h trackId hsubscriptions (hcongested h.congested),
      hbound.of_subset ?_ ?_ rfl, ?_⟩
    · intro other participant howner
      exact (Maps.getElem?_erase_eq_some.mp howner).2
    · intro id value hvalue
      exact ((hsubscriptions id value).mp hvalue).1
    · intro other hother hne
      obtain ⟨track, htrack⟩ := Maps.mem_iff_exists.mp hother
      exact Maps.mem_of_getElem? (Room.tracks_unpublish.mpr ⟨hne.symm, htrack⟩)
  · exact ⟨h, hbound, fun other hother _ => hother⟩

/-- One subscription goes, on both sides. -/
theorem Mirrors.dropSubscription (h : managed.Mirrors) {id : SubscriptionId}
    {subscriber : ParticipantId}
    (hsubscriber : ∀ (participant : ParticipantId) (trackId : TrackId),
      managed.subscriptions[id]? = some (participant, trackId) → participant = subscriber) :
    (managed.dropSubscription id subscriber).Mirrors := by
  have hremoved := Room.removed_removeSubscription managed.room id
  refine ⟨hremoved.consistent h.consistent, ?_, ?_, ?_, h.congested.drop hsubscriber⟩
  · intro trackId participant
    show managed.trackOwners[trackId]? = some participant ↔ ∃ track : PublishedTrack,
      (managed.room.removeSubscription id).2.tracks[trackId]? = some track ∧
        track.owner = participant
    rw [hremoved.tracks]
    exact h.owners trackId participant
  · intro ssrc trackId
    show managed.inputTracks[ssrc]? = some trackId ↔ ∃ (track : PublishedTrack)
      (encoding : Encoding), (managed.room.removeSubscription id).2.tracks[trackId]? =
        some track ∧ encoding ∈ track.encodings ∧ encoding.ssrc = ssrc
    rw [hremoved.tracks]
    exact h.inputs ssrc trackId
  · intro other participant trackId
    show (managed.subscriptions.erase id)[other]? = some (participant, trackId) ↔
      ∃ configuration, (managed.room.removeSubscription id).2.subscriptionConfig other =
        some configuration ∧ configuration.subscriber = participant ∧
          configuration.trackId = trackId
    rw [Maps.getElem?_erase_eq_some, h.subscriptions, hremoved.subscriptionConfig]
    by_cases hid : id = other
    · simp [hid]
    · simp [hid, Ne.symm hid]

theorem tracks_dropSubscription (managed : ManagedRoom) (id : SubscriptionId)
    (subscriber : ParticipantId) :
    (managed.dropSubscription id subscriber).room.tracks = managed.room.tracks :=
  (Room.removed_removeSubscription managed.room id).tracks

theorem grown_unsubscribe (h : managed.Mirrors) (hbound : managed.Bound)
    (participant : ParticipantId) (id : SubscriptionId) :
    Grown managed ((unsubscribe participant id).run managed).2 := by
  unfold ManagedRoom.unsubscribe
  rw [run_get_bind, run_ofOption_bind]
  cases hid : managed.subscriptions[id]? with
  | none => exact grown_refl h hbound
  | some value =>
    obtain ⟨owner, trackId⟩ := value
    dsimp only
    rw [run_ensure_bind]
    split_ifs with howner
    · subst howner
      refine ⟨h.dropSubscription ?_, hbound.of_subset (fun _ _ howner => howner) ?_ rfl, ?_⟩
      · intro participant other hother
        rw [hid] at hother
        cases hother
        rfl
      · intro other value hvalue
        exact (Maps.getElem?_erase_eq_some.mp hvalue).2
      · intro other hother
        show other ∈ (managed.dropSubscription id owner).room.tracks
        rw [tracks_dropSubscription]
        exact hother
    · exact grown_refl h hbound

/-! ## Leaving -/

/-- The loop of `unbind_session` over subscriptions. -/
theorem foldl_dropSubscription (entries : List (SubscriptionId × ParticipantId))
    (h : managed.Mirrors)
    (hsubscribers : ∀ entry ∈ entries, ∀ (participant : ParticipantId) (trackId : TrackId),
      managed.subscriptions[entry.1]? = some (participant, trackId) → participant = entry.2) :
    ∃ next : ManagedRoom, entries.foldl (fun managed entry =>
        managed.dropSubscription entry.1 entry.2) managed = next ∧ next.Mirrors ∧
      next.participantSessions = managed.participantSessions ∧
      next.trackOwners = managed.trackOwners ∧
      next.subscriptions = entries.foldl (fun subscriptions entry => subscriptions.erase entry.1)
        managed.subscriptions := by
  induction entries generalizing managed with
  | nil => exact ⟨managed, rfl, h, rfl, rfl, rfl⟩
  | cons entry entries ih =>
    have hdropped := h.dropSubscription (hsubscribers entry (by simp))
    obtain ⟨next, hnext, hmirrors, hsessions, howners, hsubscriptions⟩ := ih hdropped (by
      intro other hother participant trackId hvalue
      exact hsubscribers other (by simp [hother]) participant trackId
        (Maps.getElem?_erase_eq_some.mp hvalue).2)
    exact ⟨next, hnext, hmirrors, hsessions, howners, hsubscriptions⟩

/-- `dropTrack` with the input SSRCs of the track. -/
def withoutTrack (managed : ManagedRoom) (trackId : TrackId) : ManagedRoom :=
  { managed.dropTrack trackId with
    inputTracks := managed.inputTracks.filter fun _ track => track ≠ trackId }

theorem foldl_dropTrack_inputs (tracks : List TrackId) (managed : ManagedRoom)
    (inputTracks : ExtTreeMap UInt32 TrackId) :
    tracks.foldl dropTrack { managed with inputTracks := inputTracks } =
      { tracks.foldl dropTrack managed with inputTracks := inputTracks } := by
  induction tracks generalizing managed with
  | nil => rfl
  | cons trackId tracks ih => exact ih (managed.dropTrack trackId)

theorem inputTracks_foldl_dropTrack (tracks : List TrackId) (managed : ManagedRoom) :
    (tracks.foldl dropTrack managed).inputTracks = managed.inputTracks := by
  induction tracks generalizing managed with
  | nil => rfl
  | cons trackId tracks ih => exact ih (managed.dropTrack trackId)

/-- The input SSRCs may as well be dropped track by track. -/
theorem foldl_withoutTrack (tracks : List TrackId) (managed : ManagedRoom) :
    tracks.foldl withoutTrack managed = { tracks.foldl dropTrack managed with
      inputTracks := managed.inputTracks.filter fun _ track => track ∉ tracks } := by
  induction tracks generalizing managed with
  | nil =>
    have hall : (managed.inputTracks.filter fun _ track => track ∉ ([] : List TrackId)) =
        managed.inputTracks := by
      refine ExtTreeMap.ext_getElem? fun {ssrc} => Option.ext fun trackId => ?_
      rw [Maps.getElem?_filter_eq_some]
      simp
    show managed = { managed with inputTracks := _ }
    rw [hall]
  | cons trackId tracks ih =>
    rw [List.foldl_cons, ih, withoutTrack, foldl_dropTrack_inputs]
    have hfilter : ((managed.inputTracks.filter fun _ track => track ≠ trackId).filter
        fun _ track => track ∉ tracks) =
          managed.inputTracks.filter fun _ track => track ∉ trackId :: tracks := by
      refine ExtTreeMap.ext_getElem? fun {ssrc} => Option.ext fun other => ?_
      simp only [Maps.getElem?_filter_eq_some, decide_eq_true_eq, List.mem_cons, not_or, and_assoc]
    dsimp only
    rw [hfilter]
    rfl

theorem Mirrors.foldl_withoutTrack (tracks : List TrackId) (h : managed.Mirrors)
    (hunused : ∀ trackId ∈ tracks, ∀ (id : SubscriptionId) (participant : ParticipantId),
      managed.subscriptions[id]? ≠ some (participant, trackId)) :
    (tracks.foldl withoutTrack managed).Mirrors := by
  induction tracks generalizing managed with
  | nil => exact h
  | cons trackId tracks ih =>
    have hwithout : (managed.withoutTrack trackId).Mirrors := by
      refine mirrors_unpublished h trackId ?_ h.congested
      intro id value
      refine ⟨fun hvalue => ⟨hvalue, ?_⟩, fun hvalue => hvalue.1⟩
      rintro rfl
      exact hunused value.2 (by simp) id value.1 hvalue
    refine ih hwithout ?_
    intro other hother id participant
    exact hunused other (by simp [hother]) id participant

theorem foldl_withoutTrack_fields (tracks : List TrackId) (managed : ManagedRoom) :
    (tracks.foldl withoutTrack managed).participantSessions = managed.participantSessions ∧
      (tracks.foldl withoutTrack managed).subscriptions = managed.subscriptions ∧
      (tracks.foldl withoutTrack managed).trackOwners =
        tracks.foldl (fun owners trackId => owners.erase trackId) managed.trackOwners := by
  induction tracks generalizing managed with
  | nil => exact ⟨rfl, rfl, rfl⟩
  | cons trackId tracks ih => exact ih (managed.withoutTrack trackId)

theorem mem_ownedTracks {participant : ParticipantId} {trackId : TrackId} :
    trackId ∈ managed.ownedTracks participant ↔
      managed.trackOwners[trackId]? = some participant := by
  simp only [ownedTracks, List.mem_map, List.mem_filter, Prod.exists,
    ExtTreeMap.mem_toList_iff_getElem?_eq_some, decide_eq_true_eq]
  constructor
  · rintro ⟨key, owner, ⟨howner, rfl⟩, rfl⟩
    exact howner
  · intro howner
    exact ⟨trackId, participant, ⟨howner, rfl⟩, rfl⟩

theorem mem_affectedSubscriptions {participant subscriber : ParticipantId} {id : SubscriptionId} :
    (id, subscriber) ∈ managed.affectedSubscriptions participant ↔
      ∃ trackId : TrackId, managed.subscriptions[id]? = some (subscriber, trackId) ∧
        (subscriber = participant ∨ trackId ∈ managed.ownedTracks participant) := by
  simp only [affectedSubscriptions, List.mem_map, List.mem_filter, Prod.exists,
    ExtTreeMap.mem_toList_iff_getElem?_eq_some, decide_eq_true_eq, Prod.mk.injEq]
  constructor
  · rintro ⟨key, owner, trackId, ⟨hvalue, haffected⟩, rfl, rfl⟩
    exact ⟨trackId, hvalue, haffected⟩
  · rintro ⟨trackId, hvalue, haffected⟩
    exact ⟨id, subscriber, trackId, ⟨hvalue, haffected⟩, rfl, rfl⟩

/-- A participant leaves with its tracks, the subscriptions of these and its own. -/
theorem unbind_spec (h : managed.Mirrors) (hbound : managed.Bound) {participant : ParticipantId}
    {sessionId : String} {tracks : List TrackId} {next : ManagedRoom}
    (hunbind : managed.unbind participant sessionId = some (tracks, next)) :
    managed.participantSessions[participant]? = some sessionId ∧
      next.participantSessions = managed.participantSessions.erase participant ∧
      tracks = managed.ownedTracks participant ∧ next.Mirrors ∧ next.Bound ∧
      ∀ trackId ∈ managed.room.tracks, trackId ∉ tracks → trackId ∈ next.room.tracks := by
  unfold unbind at hunbind
  dsimp only at hunbind
  split_ifs at hunbind with hsession
  rw [not_not] at hsession
  obtain ⟨rfl, hnext⟩ := Prod.mk.inj (Option.some.inj hunbind)
  have hstart : Mirrors { managed with
      participantSessions := managed.participantSessions.erase participant } :=
    ⟨h.consistent, h.owners, h.inputs, h.subscriptions, h.congested⟩
  obtain ⟨middle, hmiddle, hmirrors, hsessions, howners, hsubscriptions⟩ :=
    foldl_dropSubscription (managed.affectedSubscriptions participant) hstart (by
      rintro ⟨id, subscriber⟩ hentry other trackId hvalue
      obtain ⟨found, hfound, -⟩ := mem_affectedSubscriptions.mp hentry
      rw [hfound] at hvalue
      cases hvalue
      rfl)
  -- What is left is neither the participant's nor on one of its tracks.
  have hleft (id : SubscriptionId) (subscriber : ParticipantId) (trackId : TrackId)
      (hvalue : middle.subscriptions[id]? = some (subscriber, trackId)) :
      managed.subscriptions[id]? = some (subscriber, trackId) ∧ subscriber ≠ participant ∧
        trackId ∉ managed.ownedTracks participant := by
    rw [hsubscriptions, Maps.getElem?_foldl_erase _ Prod.fst] at hvalue
    have hkept : ¬(subscriber = participant ∨ trackId ∈ managed.ownedTracks participant) := by
      intro haffected
      exact hvalue.2 (id, subscriber)
        (mem_affectedSubscriptions.mpr ⟨trackId, hvalue.1, haffected⟩) rfl
    exact ⟨hvalue.1, not_or.mp hkept⟩
  have hwithout := hmirrors.foldl_withoutTrack (managed.ownedTracks participant) (by
    intro trackId htrack id subscriber hvalue
    exact (hleft id subscriber trackId hvalue).2.2 htrack)
  obtain ⟨hsessions', hsubscriptions', howners'⟩ :=
    foldl_withoutTrack_fields (managed.ownedTracks participant) middle
  have hlast : next = { (managed.ownedTracks participant).foldl withoutTrack middle with
      congestion := ((managed.ownedTracks participant).foldl withoutTrack
        middle).congestion.erase participant } := by
    rw [← hnext, hmiddle, inputTracks_foldl_dropTrack, foldl_withoutTrack]
  -- The other owners stay.
  have hother (trackId : TrackId) (owner : ParticipantId) :
      next.trackOwners[trackId]? = some owner ↔ managed.trackOwners[trackId]? = some owner ∧
        trackId ∉ managed.ownedTracks participant := by
    rw [hlast]
    dsimp only
    rw [howners', Maps.getElem?_foldl_erase _ (fun trackId => trackId), howners]
    refine and_congr_right fun _ => ⟨fun hne hmem => hne trackId hmem rfl, ?_⟩
    rintro hkept _ hmem rfl
    exact hkept hmem
  have hnextSessions : next.participantSessions =
      managed.participantSessions.erase participant := by
    rw [hlast]
    exact hsessions'.trans hsessions
  have hnextMirrors : next.Mirrors := by
    rw [hlast]
    exact ⟨hwithout.consistent, hwithout.owners, hwithout.inputs, hwithout.subscriptions,
      hwithout.congested.erase participant⟩
  refine ⟨hsession, hnextSessions, rfl, hnextMirrors, ⟨?_, ?_⟩, ?_⟩
  · intro trackId owner howner
    obtain ⟨hold, hkept⟩ := (hother trackId owner).mp howner
    rw [hnextSessions, ExtTreeMap.mem_erase]
    refine ⟨fun heq => hkept ?_, hbound.owners trackId owner hold⟩
    rw [mem_ownedTracks, Std.LawfulEqCmp.eq_of_compare heq]
    exact hold
  · intro id subscriber trackId hvalue
    rw [hlast] at hvalue
    dsimp only at hvalue
    rw [hsubscriptions'] at hvalue
    obtain ⟨hold, hne, -⟩ := hleft id subscriber trackId hvalue
    rw [hnextSessions, ExtTreeMap.mem_erase]
    exact ⟨fun heq => hne (Std.LawfulEqCmp.eq_of_compare heq).symm,
      hbound.subscribers id subscriber trackId hold⟩
  · intro trackId htrack hkept
    obtain ⟨track, htrack⟩ := Maps.mem_iff_exists.mp htrack
    have howner := (h.owners trackId track.owner).mpr ⟨track, htrack, rfl⟩
    obtain ⟨found, hfound, -⟩ := (hnextMirrors.owners trackId track.owner).mp
      ((hother trackId track.owner).mpr ⟨howner, hkept⟩)
    exact Maps.mem_of_getElem? hfound

end Fluvora.MediaNode.ManagedRoom
