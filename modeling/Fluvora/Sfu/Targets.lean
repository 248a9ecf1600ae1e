import Fluvora.Lib.Runs
import Fluvora.Sfu.Continuity
import Fluvora.Sfu.Feedback

/-!
# The targets of down-tracks

`set_target_layer` stores the target in the down-track before it looks the layer up in the track.
The call is refused cleanly exactly if it names a layer of the track, or the target that the
down-track has already (`setTargetLayer_atomic_iff`).  The targets of video are published layers in a
run exactly as long as no call names another one (`targetsPublished_iff`): no other call changes a
target, a subscription starts with a published one, and an unpublished track takes its subscriptions
with it.
-/

open Std (ExtTreeMap)

namespace Fluvora.Sfu

open Fallible

namespace DownTrack

variable {d : DownTrack}

@[simp] theorem configuration_setTargetLayer (layer : Layer) :
    (d.setTargetLayer layer).2.configuration = d.configuration := by
  unfold setTargetLayer
  split_ifs <;> rfl

@[simp] theorem targetLayer_setTargetLayer (layer : Layer) :
    (d.setTargetLayer layer).2.targetLayer = layer := by
  unfold setTargetLayer
  split_ifs with hsame
  · exact hsame
  · rfl

@[simp] theorem targetLayer_expireCache (now : ℕ) :
    (d.expireCache now).targetLayer = d.targetLayer := rfl

@[simp] theorem targetLayer_cachePacket (now : ℕ) (packet : ForwardedPacket) :
    (d.cachePacket now packet).targetLayer = d.targetLayer := by
  unfold cachePacket
  dsimp only
  split_ifs <;> rfl

@[simp] theorem targetLayer_advance (parsed : Rtp.Packet) (spatialLayer : UInt8) :
    (d.advance parsed spatialLayer).targetLayer = d.targetLayer := by
  unfold advance rewriteTimestamp rewriteBase
  split_ifs <;> rfl

/-- Forwarding is towards the target and does not move it. -/
theorem targetLayer_forward (now : ℕ) (track : PublishedTrack) (spatialLayer : UInt8)
    (info : MediaCodec.PayloadInfo) (input : Bytes) :
    ((forward now track spatialLayer info input).run d).2.targetLayer = d.targetLayer := by
  obtain ⟨waiting, -, hrun⟩ | ⟨error, -, hrun⟩ | ⟨parsed, error, -, -, -, hrun⟩ |
    ⟨parsed, packet, -, -, -, hrun⟩ := forward_cases d now track spatialLayer info input
  · rw [hrun]
  · rw [hrun]
  · rw [hrun, targetLayer_advance]
  · rw [hrun, targetLayer_cachePacket, targetLayer_advance]

end DownTrack

namespace Room

variable {visit : ExtTreeMap SubscriptionId DownTrack → List DownTrack} {room room' : Room}
  {now : ℕ} {subscriber : ParticipantId} {id : SubscriptionId} {layer : Layer} {d : DownTrack}

/-- The track publishes an encoding of the layer. -/
def Publishes (room : Room) (trackId : TrackId) (spatialLayer : UInt8) : Prop :=
  ∃ track, room.tracks[trackId]? = some track ∧ track.encoding spatialLayer ≠ none

/-- If the call returns an error, the room is unchanged. -/
def AtomicTarget (room : Room) (now : ℕ) (subscriber : ParticipantId) (id : SubscriptionId)
    (layer : Layer) : Prop :=
  ∀ error room', (setTargetLayer now subscriber id layer).run room = (.error error, room') →
    room' = room

/-- A down-track of the subscriber that the call is about has the target already, or its track
publishes the layer. -/
def Acceptable (room : Room) (subscriber : ParticipantId) (id : SubscriptionId) (layer : Layer) :
    Prop :=
  ∀ d, room.subscriptions[id]? = some d → d.configuration.subscriber = subscriber →
    d.targetLayer = layer ∨ room.Publishes d.configuration.trackId layer.spatial

/-- The target of every video down-track is a layer that its track publishes. -/
def TargetsPublished (room : Room) : Prop :=
  ∀ (id : SubscriptionId) d track, room.subscriptions[id]? = some d →
    room.tracks[d.configuration.trackId]? = some track → track.kind = .video →
    track.encoding d.targetLayer.spatial ≠ none

/-- A call for a new target of a video down-track of the subscriber names a layer that its track
publishes. -/
def RequestsPublished (room : Room) : Call → Prop
  | .setTargetLayer _ subscriber id layer =>
      ∀ d track, room.subscriptions[id]? = some d → d.configuration.subscriber = subscriber →
        room.tracks[d.configuration.trackId]? = some track → track.kind = .video →
        track.encoding layer.spatial ≠ none
  | _ => True

/-! ## One call -/

/-- The room in which the down-track has its new target. -/
def retargeted (room : Room) (id : SubscriptionId) (d : DownTrack) (layer : Layer) : Room :=
  { room with subscriptions := room.subscriptions.insert id (d.setTargetLayer layer).2 }

/-- A call that is not about a down-track of the subscriber changes nothing. -/
theorem setTargetLayer_unauthorized (now : ℕ) (layer : Layer)
    (h : ∀ d, room.subscriptions[id]? = some d → d.configuration.subscriber ≠ subscriber) :
    ((setTargetLayer now subscriber id layer).run room).2 = room := by
  rw [setTargetLayer, run_get_bind, run_ofOption_bind]
  cases hstored : room.subscriptions[id]? with
  | none => rfl
  | some d =>
    dsimp only
    rw [run_ensure_bind, if_neg (h d hstored)]

/-- A call for a layer that is not published fails with the target stored. -/
theorem setTargetLayer_unpublished (now : ℕ) (hstored : room.subscriptions[id]? = some d)
    (hown : d.configuration.subscriber = subscriber)
    (h : ¬room.Publishes d.configuration.trackId layer.spatial) :
    ∃ error, (setTargetLayer now subscriber id layer).run room =
      (.error error, room.retargeted id d layer) := by
  rw [setTargetLayer, run_get_bind, run_ofOption_bind, hstored]
  dsimp only
  rw [run_ensure_bind, if_pos hown, run_set_bind, run_ofOption_bind]
  cases htrack : room.tracks[d.configuration.trackId]? with
  | none => exact ⟨_, rfl⟩
  | some track =>
    cases hencoding : track.encoding layer.spatial with
    | none =>
      dsimp only
      rw [run_ofOption_bind, hencoding]
      exact ⟨_, rfl⟩
    | some encoding => exact absurd ⟨track, htrack, by simp [hencoding]⟩ h

theorem tracks_maybePli (room : Room) (now : ℕ) (trackId : TrackId) (mediaSsrc : UInt32) :
    (room.maybePli now trackId mediaSsrc).2.tracks = room.tracks := by
  unfold maybePli
  split_ifs <;> rfl

/-- A call for a published layer succeeds. -/
theorem setTargetLayer_published (now : ℕ) (hstored : room.subscriptions[id]? = some d)
    (hown : d.configuration.subscriber = subscriber)
    (h : room.Publishes d.configuration.trackId layer.spatial) :
    ∃ events room', (setTargetLayer now subscriber id layer).run room = (.ok events, room') ∧
      room'.subscriptions = (room.retargeted id d layer).subscriptions ∧
      room'.tracks = room.tracks := by
  obtain ⟨track, htrack, hencoding⟩ := h
  obtain ⟨encoding, hencoding⟩ := Option.ne_none_iff_exists'.mp hencoding
  rw [setTargetLayer, run_get_bind, run_ofOption_bind, hstored]
  dsimp only
  rw [run_ensure_bind, if_pos hown, run_set_bind, run_ofOption_bind, htrack]
  dsimp only
  rw [run_ofOption_bind, hencoding]
  dsimp only
  split_ifs
  · exact ⟨_, _, rfl, subscriptions_maybePli _ _, tracks_maybePli _ _ _ _⟩
  · exact ⟨_, _, rfl, rfl, rfl⟩

/-- Either way the down-track has the target afterwards. -/
theorem subscriptions_setTargetLayer (now : ℕ) (hstored : room.subscriptions[id]? = some d)
    (hown : d.configuration.subscriber = subscriber) (layer : Layer) :
    ((setTargetLayer now subscriber id layer).run room).2.subscriptions =
        room.subscriptions.insert id (d.setTargetLayer layer).2 ∧
      ((setTargetLayer now subscriber id layer).run room).2.tracks = room.tracks := by
  by_cases hpublished : room.Publishes d.configuration.trackId layer.spatial
  · obtain ⟨events, room', hrun, hsubscriptions, htracks⟩ :=
      setTargetLayer_published now hstored hown hpublished
    rw [hrun]
    exact ⟨hsubscriptions, htracks⟩
  · obtain ⟨error, hrun⟩ := setTargetLayer_unpublished now hstored hown hpublished
    rw [hrun]
    exact ⟨rfl, rfl⟩

/-- A failing call leaves the room alone exactly if it is acceptable. -/
theorem atomicTarget_iff (room : Room) (now : ℕ) (subscriber : ParticipantId)
    (id : SubscriptionId) (layer : Layer) :
    AtomicTarget room now subscriber id layer ↔ Acceptable room subscriber id layer := by
  constructor
  · intro hatomic d hstored hown
    by_contra hnot
    rw [not_or] at hnot
    obtain ⟨error, hrun⟩ := setTargetLayer_unpublished now hstored hown hnot.2
    have hsame := congrArg (fun room : Room => room.subscriptions[id]?) (hatomic _ _ hrun)
    simp only [retargeted, ExtTreeMap.getElem?_insert_self, hstored, Option.some.injEq] at hsame
    exact hnot.1 (hsame ▸ d.targetLayer_setTargetLayer layer)
  · intro hacceptable error room' hrun
    by_cases hreached : ∃ d, room.subscriptions[id]? = some d ∧
      d.configuration.subscriber = subscriber
    swap
    · have hunauthorized := setTargetLayer_unauthorized now layer
        fun d hstored hown => hreached ⟨d, hstored, hown⟩
      rwa [hrun] at hunauthorized
    obtain ⟨d, hstored, hown⟩ := hreached
    by_cases hpublished : room.Publishes d.configuration.trackId layer.spatial
    · obtain ⟨events, room'', hok, -⟩ :=
        setTargetLayer_published now hstored hown hpublished
      rw [hrun] at hok
      cases hok
    · have htarget := (hacceptable d hstored hown).resolve_right hpublished
      obtain ⟨error', hfail⟩ := setTargetLayer_unpublished now hstored hown hpublished
      rw [hrun] at hfail
      have hroom : room' = room.retargeted id d layer := congrArg Prod.snd hfail
      rw [hroom, retargeted, DownTrack.setTargetLayer, if_pos htarget]
      dsimp only
      rw [Maps.insert_of_getElem? hstored]

/-! ## Whole runs -/

/-- What has to hold of the target of a down-track, for given tracks. -/
def Aimed (tracks : ExtTreeMap TrackId PublishedTrack) (d : DownTrack) : Prop :=
  ∀ track, tracks[d.configuration.trackId]? = some track → track.kind = .video →
    track.encoding d.targetLayer.spatial ≠ none

theorem targetsPublished_iff_every : TargetsPublished room ↔ Every (Aimed room.tracks) room :=
  ⟨fun h id d hstored track => h id d track hstored, fun h id d track hstored => h id d hstored track⟩

theorem Aimed.of_eq {tracks : ExtTreeMap TrackId PublishedTrack} {d' : DownTrack}
    (h : Aimed tracks d) (hconfiguration : d'.configuration = d.configuration)
    (htarget : d'.targetLayer = d.targetLayer) : Aimed tracks d' := by
  unfold Aimed
  rw [hconfiguration, htarget]
  exact h

/-- A new track has no down-tracks yet. -/
theorem targetsPublished_publish (hroom : Consistent room) (h : TargetsPublished room)
    (track : PublishedTrack) : TargetsPublished ((publish track).run room).2 := by
  rw [publish]
  refine run_ofExcept_bind_invariant h fun _ _ => ?_
  rw [run_get_bind]
  refine run_ensure_bind_invariant h fun hnew => ?_
  refine run_ensure_bind_invariant h fun _ => ?_
  refine run_ensure_bind_invariant h fun _ => ?_
  intro id d found hstored hfound
  have hstored : room.subscriptions[id]? = some d := hstored
  have hpublished := (hroom.configured id d.configuration
    (by rw [subscriptionConfig, hstored, Option.map_some])).2.2
  have hne : track.id ≠ d.configuration.trackId := fun hsame => hnew (hsame ▸ hpublished)
  have hfound : (room.tracks.insert track.id track)[d.configuration.trackId]? = some found := hfound
  rw [Maps.getElem?_insert_of_ne hne] at hfound
  exact h id d found hstored hfound

theorem TargetsPublished.removed (h : TargetsPublished room) {ids : List SubscriptionId}
    (hremoved : Removed room room' ids) : TargetsPublished room' := by
  rw [targetsPublished_iff_every] at h ⊢
  rw [hremoved.tracks]
  exact h.removed hremoved

theorem targetsPublished_unpublish (h : TargetsPublished room) (trackId : TrackId) :
    TargetsPublished (room.unpublish trackId).2 := by
  unfold unpublish
  cases htrack : room.tracks[trackId]? with
  | none => exact h
  | some track =>
    have hwithout : TargetsPublished (room.withoutTrack trackId track) := by
      intro id d found hstored hfound
      exact h id d found hstored (Maps.getElem?_erase_eq_some.mp hfound).2
    exact hwithout.removed (removed_foldl _ _)

/-- A subscription starts with a published target. -/
theorem targetsPublished_subscribe (h : TargetsPublished room)
    (configuration : SubscriptionConfig) :
    TargetsPublished ((subscribe configuration).run room).2 := by
  rw [subscribe, run_get_bind]
  refine run_ensure_bind_invariant h fun _ => ?_
  refine run_ensure_bind_invariant h fun _ => ?_
  refine run_ensure_bind_invariant h fun _ => ?_
  refine run_ensure_bind_invariant h fun _ => ?_
  rw [run_ofOption_bind]
  cases htrack : room.tracks[configuration.trackId]? with
  | none => exact h
  | some track =>
    refine run_ensure_bind_invariant h fun hencoding => ?_
    rw [targetsPublished_iff_every] at h ⊢
    refine h.insert ?_ rfl
    intro found hfound _
    have hfound : room.tracks[configuration.trackId]? = some found := hfound
    rw [htrack, Option.some.injEq] at hfound
    subst hfound
    exact hencoding

theorem targetsPublished_setTargetLayer (h : TargetsPublished room)
    (hrequest : RequestsPublished room (.setTargetLayer now subscriber id layer)) :
    TargetsPublished ((setTargetLayer now subscriber id layer).run room).2 := by
  by_cases hreached : ∃ d, room.subscriptions[id]? = some d ∧
    d.configuration.subscriber = subscriber
  swap
  · rw [setTargetLayer_unauthorized now layer fun d hstored hown => hreached ⟨d, hstored, hown⟩]
    exact h
  obtain ⟨d, hstored, hown⟩ := hreached
  obtain ⟨hsubscriptions, htracks⟩ := subscriptions_setTargetLayer now hstored hown layer
  rw [targetsPublished_iff_every] at h ⊢
  rw [htracks]
  refine h.insert ?_ hsubscriptions
  intro track htrack hvideo
  rw [DownTrack.configuration_setTargetLayer] at htrack
  rw [DownTrack.targetLayer_setTargetLayer]
  exact hrequest d track hstored hown htrack hvideo

/-- Only a request for a target can break the targets. -/
theorem targetsPublished_step (call : Call) (hroom : Consistent room) (h : TargetsPublished room)
    (hrequest : RequestsPublished room call) : TargetsPublished (step visit room call) := by
  cases call with
  | publish track => exact targetsPublished_publish hroom h track
  | unpublish trackId => exact targetsPublished_unpublish h trackId
  | subscribe configuration => exact targetsPublished_subscribe h configuration
  | unsubscribe id => exact h.removed (removed_removeSubscription room id)
  | setTargetLayer now subscriber id layer => exact targetsPublished_setTargetLayer h hrequest
  | handleRtp now publisher input =>
    have htracks := (@reshaped_handleRtp visit _ hroom now publisher input).tracks
    rw [targetsPublished_iff_every] at h ⊢
    unfold step
    rw [htracks]
    exact h.handleRtp (fun d track spatialLayer info input hd => hd.of_eq
      (DownTrack.configuration_forward d now track spatialLayer info input)
      (DownTrack.targetLayer_forward now track spatialLayer info input)) publisher input
  | handleRtcp now subscriber input =>
    have htracks := (reshaped_handleRtcp hroom now subscriber input).tracks
    rw [targetsPublished_iff_every] at h ⊢
    unfold step
    rw [htracks]
    exact h.handleRtcp (fun d hd => hd.of_eq rfl rfl) input

/-- A request that leaves all targets published has named a published layer. -/
theorem requestsPublished_of_step (call : Call) (h : TargetsPublished (step visit room call)) :
    RequestsPublished room call := by
  cases call with
  | setTargetLayer now subscriber id layer =>
    intro d track hstored hown htrack hvideo
    obtain ⟨hsubscriptions, htracks⟩ :=
      subscriptions_setTargetLayer now hstored hown layer
    have hafter : ((setTargetLayer now subscriber id layer).run room).2.subscriptions[id]? =
        some (d.setTargetLayer layer).2 := by
      rw [hsubscriptions, ExtTreeMap.getElem?_insert_self]
    have hpublished := h id _ track hafter
    unfold step at hpublished
    rw [htracks, DownTrack.configuration_setTargetLayer,
      DownTrack.targetLayer_setTargetLayer] at hpublished
    exact hpublished htrack hvideo
  | publish track => trivial
  | unpublish trackId => trivial
  | subscribe configuration => trivial
  | unsubscribe id => trivial
  | handleRtp now publisher input => trivial
  | handleRtcp now subscriber input => trivial

theorem targetsPublished_iff (visit : ExtTreeMap SubscriptionId DownTrack → List DownTrack)
    (configuration : RoomConfig) (calls : List Call) :
    Runs.Always (step visit) TargetsPublished (new configuration) calls ↔
      Runs.Each (step visit) RequestsPublished (new configuration) calls := by
  refine Runs.always_iff_each (I := fun room => Consistent room ∧ TargetsPublished room)
    (fun _ h => h.2) ?_ ?_ ⟨consistent_new configuration, ?_⟩ calls
  · exact fun room call h hrequest =>
      ⟨consistent_step h.1 call, targetsPublished_step call h.1 h.2 hrequest⟩
  · exact fun room call _ h => requestsPublished_of_step call h
  · intro id d track hstored
    simp [new] at hstored

/-- After every run of calls, a request for a target that fails leaves the room alone exactly if it
is acceptable; and the targets of video are published layers all along a run exactly if every request
for one in it names a published layer. -/
theorem targets_sound_iff (visit : ExtTreeMap SubscriptionId DownTrack → List DownTrack)
    (configuration : RoomConfig) (calls : List Call) :
    (∀ now subscriber id layer,
      AtomicTarget (runCalls visit (new configuration) calls) now subscriber id layer ↔
        Acceptable (runCalls visit (new configuration) calls) subscriber id layer) ∧
    (Runs.Always (step visit) TargetsPublished (new configuration) calls ↔
      Runs.Each (step visit) RequestsPublished (new configuration) calls) :=
  ⟨atomicTarget_iff _, targetsPublished_iff visit configuration calls⟩

/-- A subscriber of the video track with two encodings. -/
def Sample.watching : List Call :=
  [.publish DownTrack.Sample.video, .subscribe DownTrack.Sample.configuration]

/-- The third layer of a track with two is refused, and is the target afterwards. -/
theorem unpublished_target_kept :
    Reachable Sample.inKeyOrder (runCalls Sample.inKeyOrder (new {}) Sample.watching) ∧
    ¬AtomicTarget (runCalls Sample.inKeyOrder (new {}) Sample.watching) 0 2 1 ⟨2, 0⟩ ∧
    ¬TargetsPublished (runCalls Sample.inKeyOrder (new {})
      (Sample.watching ++ [.setTargetLayer 0 2 1 ⟨2, 0⟩])) := by
  refine ⟨⟨{}, _, rfl⟩, ?_, ?_⟩
  · intro hatomic
    rcases hrun : (setTargetLayer 0 2 1 ⟨2, 0⟩).run
      (runCalls Sample.inKeyOrder (new {}) Sample.watching) with ⟨error | events, room'⟩
    · have hroom : ((setTargetLayer 0 2 1 ⟨2, 0⟩).run
          (runCalls Sample.inKeyOrder (new {}) Sample.watching)).2 =
          runCalls Sample.inKeyOrder (new {}) Sample.watching := by
        rw [hrun]
        exact hatomic error room' hrun
      revert hroom
      decide
    · have hok : ((setTargetLayer 0 2 1 ⟨2, 0⟩).run
          (runCalls Sample.inKeyOrder (new {}) Sample.watching)).1.isOk = true := by
        rw [hrun]
        rfl
      revert hok
      decide
  · intro htargets
    have htarget := htargets 1 (DownTrack.setTargetLayer (DownTrack.new
      DownTrack.Sample.configuration DownTrack.Sample.video 2048 2000000000) ⟨2, 0⟩).2
      DownTrack.Sample.video
    revert htarget
    decide

end Room

end Fluvora.Sfu
