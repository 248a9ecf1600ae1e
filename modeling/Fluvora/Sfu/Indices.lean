import Fluvora.Sfu.Forwarding
import Fluvora.Sfu.Room

/-!
# The indices of an SFU room

The room keeps five maps in step by hand.  `Indexed` says what they have to do with each other: the
SSRC index is the published encodings, the output index is the subscriptions, the list of every
track is its subscriptions, and only published encodings are in the throttle map.  The operations
that change tracks or subscriptions are followed map by map; the others only change the state of
down-tracks and the throttle map (`Reshaped`).
-/

open Std (ExtTreeMap)

namespace Fluvora.Sfu

open Fallible Results

namespace Room

/-- The configuration of a subscription. -/
def subscriptionConfig (room : Room) (id : SubscriptionId) : Option SubscriptionConfig :=
  room.subscriptions[id]?.map DownTrack.configuration

/-- The subscriptions of a track, in the order in which they were made. -/
def subscribers (room : Room) (trackId : TrackId) : List SubscriptionId :=
  room.trackSubscriptions[trackId]?.getD []

/-- Tracks are stored under their identifiers and are valid. -/
def TracksValid (room : Room) : Prop :=
  ∀ trackId track, room.tracks[trackId]? = some track →
    track.id = trackId ∧ validateTrack track = .ok ()

/-- The SSRC index maps the SSRC of every published encoding to its track and layer, and nothing
else. -/
def SsrcIndexed (room : Room) : Prop :=
  ∀ ssrc trackId layer, room.ssrcIndex[ssrc]? = some (trackId, layer) ↔
    ∃ track : PublishedTrack, room.tracks[trackId]? = some track ∧
      (⟨ssrc, layer⟩ : Encoding) ∈ track.encodings

/-- The output index maps the output SSRC of every subscription to it, and nothing else. -/
def OutputIndexed (room : Room) : Prop :=
  ∀ ssrc id, room.outputSsrcIndex[ssrc]? = some id ↔
    ∃ configuration, room.subscriptionConfig id = some configuration ∧
      configuration.outputSsrc = ssrc

/-- The list of a track is its subscriptions, each once, and there is no empty list. -/
structure ListIndexed (room : Room) (trackId : TrackId) : Prop where
  ne_nil : room.trackSubscriptions[trackId]? ≠ some []
  nodup : (room.subscribers trackId).Nodup
  mem : ∀ id, id ∈ room.subscribers trackId ↔
    ∃ configuration, room.subscriptionConfig id = some configuration ∧
      configuration.trackId = trackId

/-- Every SSRC of the throttle map is published. -/
def PliIndexed (room : Room) : Prop := ∀ ssrc ∈ room.lastPli, ssrc ∈ room.ssrcIndex

/-- The maps of a room are in step, and the room is within its limits. -/
structure Indexed (room : Room) : Prop where
  ssrc : SsrcIndexed room
  output : OutputIndexed room
  lists : ∀ trackId, ListIndexed room trackId
  pli : PliIndexed room
  tracks : room.tracks.size ≤ room.configuration.maxTracks
  subscriptions : room.subscriptions.size ≤ room.configuration.maxSubscriptions

/-- What else holds of the tracks and subscriptions of a room. -/
structure Consistent (room : Room) : Prop extends Indexed room where
  tracksValid : TracksValid room
  configured : ∀ id configuration, room.subscriptionConfig id = some configuration →
    configuration.id = id ∧ isRtcpMuxSafePayloadType configuration.outputPayloadType ∧
      configuration.trackId ∈ room.tracks

theorem consistent_new (configuration : RoomConfig) : Consistent (new configuration) where
  ssrc ssrc trackId layer := by simp [new]
  output ssrc id := by simp [new, subscriptionConfig]
  lists trackId := ⟨by simp [new], by simp [new, subscribers],
    by simp [new, subscribers, subscriptionConfig]⟩
  pli ssrc := by simp [new]
  tracks := by simp [new]
  subscriptions := by simp [new]
  tracksValid trackId track := by simp [new]
  configured id configuration := by simp [new, subscriptionConfig]

/-! ## Operations that keep tracks and subscriptions -/

/-- A room with the same tracks and subscriptions: down-tracks may have moved, and published SSRCs
may have joined the throttle map. -/
structure Reshaped (room room' : Room) : Prop where
  configuration : room'.configuration = room.configuration
  tracks : room'.tracks = room.tracks
  ssrcIndex : room'.ssrcIndex = room.ssrcIndex
  trackSubscriptions : room'.trackSubscriptions = room.trackSubscriptions
  outputSsrcIndex : room'.outputSsrcIndex = room.outputSsrcIndex
  subscriptionConfig : ∀ id, room'.subscriptionConfig id = room.subscriptionConfig id
  lastPli : ∀ ssrc ∈ room'.lastPli, ssrc ∈ room.lastPli ∨ ssrc ∈ room.ssrcIndex

theorem Reshaped.refl (room : Room) : Reshaped room room :=
  ⟨rfl, rfl, rfl, rfl, rfl, fun _ => rfl, fun _ h => .inl h⟩

theorem Reshaped.trans {room room' room'' : Room} (h : Reshaped room room')
    (h' : Reshaped room' room'') : Reshaped room room'' where
  configuration := h'.configuration.trans h.configuration
  tracks := h'.tracks.trans h.tracks
  ssrcIndex := h'.ssrcIndex.trans h.ssrcIndex
  trackSubscriptions := h'.trackSubscriptions.trans h.trackSubscriptions
  outputSsrcIndex := h'.outputSsrcIndex.trans h.outputSsrcIndex
  subscriptionConfig id := (h'.subscriptionConfig id).trans (h.subscriptionConfig id)
  lastPli ssrc hssrc := by
    rcases h'.lastPli ssrc hssrc with hssrc | hssrc
    · exact h.lastPli ssrc hssrc
    · rw [h.ssrcIndex] at hssrc
      exact .inr hssrc

theorem mem_subscriptions_iff {room : Room} {id : SubscriptionId} :
    id ∈ room.subscriptions ↔ room.subscriptionConfig id ≠ none := by
  rw [Maps.mem_iff_exists, subscriptionConfig]
  cases room.subscriptions[id]? <;> simp

theorem Reshaped.size_eq {room room' : Room} (h : Reshaped room room') :
    room'.subscriptions.size = room.subscriptions.size := by
  apply Maps.size_eq_of_mem_iff
  intro id
  rw [mem_subscriptions_iff, mem_subscriptions_iff, h.subscriptionConfig]

theorem Reshaped.consistent {room room' : Room} (h : Reshaped room room')
    (hroom : Consistent room) : Consistent room' where
  ssrc ssrc trackId layer := by
    rw [h.ssrcIndex, h.tracks]
    exact hroom.ssrc ssrc trackId layer
  output ssrc id := by
    rw [h.outputSsrcIndex, h.subscriptionConfig]
    exact hroom.output ssrc id
  lists trackId := by
    obtain ⟨hne, hnodup, hmem⟩ := hroom.lists trackId
    refine ⟨by rwa [h.trackSubscriptions], ?_, fun id => ?_⟩
    · rwa [subscribers, h.trackSubscriptions]
    · rw [subscribers, h.trackSubscriptions, h.subscriptionConfig]
      exact hmem id
  pli ssrc hssrc := by
    rw [h.ssrcIndex]
    exact (h.lastPli ssrc hssrc).elim (hroom.pli ssrc) id
  tracks := by
    rw [h.tracks, h.configuration]
    exact hroom.tracks
  subscriptions := by
    rw [h.size_eq, h.configuration]
    exact hroom.subscriptions
  tracksValid trackId track := by
    rw [h.tracks]
    exact hroom.tracksValid trackId track
  configured id configuration := by
    rw [h.subscriptionConfig, h.tracks]
    exact hroom.configured id configuration

/-- Storing a down-track with the configuration of the one before. -/
theorem reshaped_insert {room : Room} {id : SubscriptionId} {downTrack downTrack' : DownTrack}
    (h : room.subscriptions[id]? = some downTrack)
    (hconfig : downTrack'.configuration = downTrack.configuration) :
    Reshaped room { room with subscriptions := room.subscriptions.insert id downTrack' } := by
  refine ⟨rfl, rfl, rfl, rfl, rfl, fun other => ?_, fun _ h => .inl h⟩
  by_cases hother : id = other
  · subst hother
    simp [subscriptionConfig, h, hconfig]
  · simp [subscriptionConfig, Maps.getElem?_insert_of_ne hother]

theorem reshaped_maybePli {room : Room} (now : ℕ) (trackId : TrackId) {mediaSsrc : UInt32}
    (h : mediaSsrc ∈ room.ssrcIndex) : Reshaped room (room.maybePli now trackId mediaSsrc).2 := by
  unfold maybePli
  split_ifs
  · exact .refl room
  · refine ⟨rfl, rfl, rfl, rfl, rfl, fun _ => rfl, fun ssrc hssrc => ?_⟩
    rcases Maps.mem_insert_iff.mp hssrc with rfl | hssrc
    · exact .inr h
    · exact .inl hssrc

/-- An encoding that a track publishes has its SSRC in the index. -/
theorem SsrcIndexed.mem {room : Room} (h : SsrcIndexed room) {trackId : TrackId}
    {track : PublishedTrack} {encoding : Encoding} (htrack : room.tracks[trackId]? = some track)
    (hencoding : encoding ∈ track.encodings) : encoding.ssrc ∈ room.ssrcIndex :=
  Maps.mem_of_getElem? ((h encoding.ssrc trackId encoding.spatialLayer).mpr
    ⟨track, htrack, hencoding⟩)

theorem mem_of_encoding {track : PublishedTrack} {layer : UInt8} {encoding : Encoding}
    (h : track.encoding layer = some encoding) : encoding ∈ track.encodings :=
  List.mem_of_find?_eq_some h

theorem reshaped_requestKeyframe {room : Room} (now : ℕ) (trackId : TrackId) {mediaSsrc : UInt32}
    (h : mediaSsrc ∈ room.ssrcIndex) :
    Reshaped room ((requestKeyframe now trackId mediaSsrc).run room).2 :=
  reshaped_maybePli now trackId h

theorem reshaped_setTargetLayer {room : Room} (hroom : Consistent room) (now : ℕ)
    (subscriber : ParticipantId) (id : SubscriptionId) (layer : Layer) :
    Reshaped room ((setTargetLayer now subscriber id layer).run room).2 := by
  rw [setTargetLayer, run_get_bind, run_ofOption_bind]
  cases hdown : room.subscriptions[id]? with
  | none => exact .refl room
  | some downTrack =>
    refine run_ensure_bind_invariant (.refl room) fun _ => ?_
    dsimp only
    have hconfig : (downTrack.setTargetLayer layer).2.configuration = downTrack.configuration := by
      unfold DownTrack.setTargetLayer
      split_ifs <;> rfl
    have hstored := reshaped_insert hdown hconfig
    rw [run_set_bind, run_ofOption_bind]
    cases htrack : room.tracks[downTrack.configuration.trackId]? with
    | none => exact hstored
    | some track =>
      dsimp only
      rw [run_ofOption_bind]
      cases hencoding : track.encoding layer.spatial with
      | none => exact hstored
      | some encoding =>
        dsimp only
        split_ifs
        · have hssrc := hroom.ssrc.mem htrack (mem_of_encoding hencoding)
          exact hstored.trans (reshaped_requestKeyframe now _ hssrc)
        · exact hstored

theorem reshaped_forwardAll (now : ℕ) (track : PublishedTrack) (spatialLayer : UInt8)
    (info : MediaCodec.PayloadInfo) (input : Bytes) (ids : List SubscriptionId) (room : Room) :
    Reshaped room ((forwardAll now track spatialLayer info input ids).run room).2 := by
  induction ids generalizing room with
  | nil => exact .refl room
  | cons id ids ih =>
    rw [forwardAll, run_get_bind]
    cases hdown : room.subscriptions[id]? with
    | none => exact ih room
    | some downTrack =>
      dsimp only
      have hstored : Reshaped room
          ((forwardTo now track spatialLayer info input id downTrack).run room).2 :=
        reshaped_insert hdown (DownTrack.configuration_forward downTrack now track spatialLayer
          info input)
      refine run_bind_invariant hstored fun decision room' _ hroom' => ?_
      rw [state_run_bind_pure]
      exact hroom'.trans (ih room')

/-- The track that a packet belongs to is published. -/
theorem identify_eq_ok {room : Room} {publisher : ParticipantId} {input : Bytes} {source : Source}
    (h : room.identify publisher input = .ok source) :
    ∃ parsed, Rtp.Packet.parse input = .ok parsed ∧
      room.ssrcIndex[parsed.header.ssrc]? = some (source.trackId, source.spatialLayer) ∧
      room.tracks[source.trackId]? = some source.track := by
  rw [identify, bind_eq_ok] at h
  obtain ⟨parsed, hparsed, h⟩ := h
  rw [bind_eq_ok] at h
  obtain ⟨⟨trackId, spatialLayer⟩, hindex, h⟩ := h
  dsimp only at h
  rw [bind_eq_ok] at h
  obtain ⟨track, htrack, h⟩ := h
  rw [ite_error_eq_ok, ite_error_eq_ok, bind_eq_ok] at h
  obtain ⟨-, -, info, -, h⟩ := h
  rw [pure_eq_ok] at h
  subst h
  refine ⟨parsed, ?_, ?_, ?_⟩
  · cases hparse : Rtp.Packet.parse input with
    | error error => simp [hparse, Except.mapError] at hparsed
    | ok packet => simpa [hparse, Except.mapError] using hparsed
  · cases hssrc : room.ssrcIndex[parsed.header.ssrc]? with
    | none => simp [hssrc] at hindex
    | some found => simpa [hssrc] using hindex
  · cases hfound : room.tracks[trackId]? with
    | none => simp [hfound] at htrack
    | some found => simpa [hfound] using htrack

theorem reshaped_handleRtp {visit : ExtTreeMap SubscriptionId DownTrack → List DownTrack}
    {room : Room} (hroom : Consistent room) (now : ℕ) (publisher : ParticipantId) (input : Bytes) :
    Reshaped room ((handleRtp visit now publisher input).run room).2 := by
  rw [handleRtp, run_get_bind]
  refine run_ofExcept_bind_invariant (.refl room) fun source hsource => ?_
  obtain ⟨parsed, -, -, htrack⟩ := identify_eq_ok hsource
  refine run_bind_invariant (reshaped_forwardAll _ _ _ _ _ _ room) ?_
  rintro ⟨output, needsPli⟩ room' - hroom'
  dsimp only
  rw [state_run_bind_pure, requestWaiting, run_get_bind]
  cases needsPli with
  | false => exact hroom'
  | true =>
    cases hwaiting : room'.waitingTarget visit source.trackId source.track with
    | none => exact hroom'
    | some target =>
      obtain ⟨subscription, -, htarget⟩ := Option.bind_eq_some_iff.mp hwaiting
      have hssrc := hroom.ssrc.mem htrack (mem_of_encoding htarget)
      rw [← hroom'.ssrcIndex] at hssrc
      exact hroom'.trans (reshaped_requestKeyframe now _ hssrc)

theorem reshaped_handleRtcpPacket {room : Room} (hroom : Consistent room) (now : ℕ)
    (subscriber : ParticipantId) (packet : Rtcp.Packet) :
    Reshaped room (handleRtcpPacket now subscriber room packet).2 := by
  cases packet with
  | genericNack nack =>
    rw [handleRtcpPacket]
    cases hdown : room.authorizedDownTrack subscriber nack.mediaSsrc with
    | none => exact .refl room
    | some found =>
      obtain ⟨id, -, hfound⟩ := Option.bind_eq_some_iff.mp hdown
      obtain ⟨downTrack, hstored, hfound⟩ := Option.bind_eq_some_iff.mp hfound
      split_ifs at hfound
      cases hfound
      exact reshaped_insert hstored rfl
  | pictureLossIndication pli =>
    rw [handleRtcpPacket]
    cases hupstream : room.upstreamEncoding subscriber pli.mediaSsrc with
    | none => exact .refl room
    | some found =>
      obtain ⟨authorized, -, hfound⟩ := Option.bind_eq_some_iff.mp hupstream
      obtain ⟨track, htrack, hfound⟩ := Option.bind_eq_some_iff.mp hfound
      obtain ⟨encoding, hencoding, hfound⟩ := Option.bind_eq_some_iff.mp hfound
      cases hfound
      exact reshaped_maybePli now _ (hroom.ssrc.mem htrack (mem_of_encoding hencoding))
  | transportWideFeedback feedback => exact .refl room
  | senderReport report => exact .refl room
  | receiverReport report => exact .refl room
  | sourceDescription description => exact .refl room
  | raw packet => exact .refl room

theorem reshaped_handleRtcp {room : Room} (hroom : Consistent room) (now : ℕ)
    (subscriber : ParticipantId) (input : Bytes) :
    Reshaped room ((handleRtcp now subscriber input).run room).2 := by
  have hpackets : ∀ packets room, Consistent room →
      Reshaped room (handleRtcpPackets now subscriber packets room).2 := by
    intro packets
    induction packets with
    | nil => exact fun room _ => .refl room
    | cons packet packets ih =>
      intro room hroom
      have hfirst := reshaped_handleRtcpPacket hroom now subscriber packet
      exact hfirst.trans (ih _ (hfirst.consistent hroom))
  rw [handleRtcp]
  exact run_ofExcept_bind_invariant (.refl room) fun packets _ => hpackets packets room hroom

/-! ## Publishing and subscribing -/

theorem validateTrack_eq_ok {track : PublishedTrack} (h : validateTrack track = .ok ()) :
    (track.encodings.map Encoding.ssrc).Nodup ∧
      (track.encodings.map Encoding.spatialLayer).Nodup := by
  unfold validateTrack at h
  rw [ite_error_eq_ok, ite_error_eq_ok, ite_error_eq_ok] at h
  obtain ⟨-, -, hnodup, -⟩ := h
  rwa [not_or, not_not, not_not] at hnodup

/-- The room with one more track. -/
def withTrack (room : Room) (track : PublishedTrack) : Room :=
  { room with
    ssrcIndex := track.encodings.foldl
      (fun index encoding => index.insert encoding.ssrc (track.id, encoding.spatialLayer))
      room.ssrcIndex
    tracks := room.tracks.insert track.id track }

theorem getElem?_ssrcIndex_withTrack {room : Room} {track : PublishedTrack}
    (hvalid : validateTrack track = .ok ())
    (hfresh : ∀ encoding ∈ track.encodings, encoding.ssrc ∉ room.ssrcIndex) (ssrc : UInt32)
    (value : TrackId × UInt8) :
    (room.withTrack track).ssrcIndex[ssrc]? = some value ↔
      (∃ encoding ∈ track.encodings, encoding.ssrc = ssrc ∧
        (track.id, encoding.spatialLayer) = value) ∨ room.ssrcIndex[ssrc]? = some value := by
  rw [withTrack, Maps.getElem?_foldl_insert (fun encoding => (track.id, encoding.spatialLayer))
    (validateTrack_eq_ok hvalid).1]
  refine or_congr_right (and_iff_left_of_imp fun hold encoding hencoding hssrc => ?_)
  exact hfresh encoding hencoding (hssrc ▸ Maps.mem_of_getElem? hold)

theorem ssrcIndexed_withTrack {room : Room} {track : PublishedTrack} (hroom : SsrcIndexed room)
    (hvalid : validateTrack track = .ok ()) (hnew : track.id ∉ room.tracks)
    (hfresh : ∀ encoding ∈ track.encodings, encoding.ssrc ∉ room.ssrcIndex) :
    SsrcIndexed (room.withTrack track) := by
  intro ssrc trackId layer
  rw [getElem?_ssrcIndex_withTrack hvalid hfresh]
  by_cases htrack : track.id = trackId
  · subst htrack
    have hold : room.ssrcIndex[ssrc]? ≠ some (track.id, layer) := by
      intro hold
      obtain ⟨other, hother, -⟩ := (hroom ssrc track.id layer).mp hold
      exact hnew (Maps.mem_of_getElem? hother)
    simp only [withTrack, ExtTreeMap.getElem?_insert_self, Option.some.injEq, exists_eq_left', hold,
      or_false, Prod.mk.injEq, true_and]
    constructor
    · rintro ⟨⟨_, _⟩, hencoding, rfl, rfl⟩
      exact hencoding
    · intro hencoding
      exact ⟨_, hencoding, rfl, rfl⟩
  · have hother : ¬∃ encoding ∈ track.encodings, encoding.ssrc = ssrc ∧
        (track.id, encoding.spatialLayer) = (trackId, layer) := by
      simp [htrack]
    rw [or_iff_right hother, hroom ssrc trackId layer]
    simp only [withTrack, Maps.getElem?_insert_of_ne htrack]

theorem consistent_withTrack {room : Room} {track : PublishedTrack} (hroom : Consistent room)
    (hvalid : validateTrack track = .ok ()) (hnew : track.id ∉ room.tracks)
    (hfresh : ∀ encoding ∈ track.encodings, encoding.ssrc ∉ room.ssrcIndex)
    (hlimit : room.tracks.size < room.configuration.maxTracks) :
    Consistent (room.withTrack track) where
  ssrc := ssrcIndexed_withTrack hroom.ssrc hvalid hnew hfresh
  output := hroom.output
  lists trackId := ⟨(hroom.lists trackId).ne_nil, (hroom.lists trackId).nodup,
    (hroom.lists trackId).mem⟩
  pli ssrc hssrc := by
    obtain ⟨value, hvalue⟩ := Maps.mem_iff_exists.mp (hroom.pli ssrc hssrc)
    exact Maps.mem_of_getElem?
      ((getElem?_ssrcIndex_withTrack hvalid hfresh ssrc value).mpr (.inr hvalue))
  tracks := ExtTreeMap.size_insert_le.trans hlimit
  subscriptions := hroom.subscriptions
  tracksValid trackId other hother := by
    by_cases htrack : track.id = trackId
    · subst htrack
      simp only [withTrack, ExtTreeMap.getElem?_insert_self, Option.some.injEq] at hother
      subst hother
      exact ⟨rfl, hvalid⟩
    · simp only [withTrack, Maps.getElem?_insert_of_ne htrack] at hother
      exact hroom.tracksValid trackId other hother
  configured id configuration hconfig := by
    obtain ⟨hid, hsafe, htrack⟩ := hroom.configured id configuration hconfig
    exact ⟨hid, hsafe, Maps.mem_insert_iff.mpr (.inr htrack)⟩

theorem consistent_publish {room : Room} (hroom : Consistent room) (track : PublishedTrack) :
    Consistent ((publish track).run room).2 := by
  rw [publish]
  refine run_ofExcept_bind_invariant hroom fun _ hvalid => ?_
  rw [run_get_bind]
  refine run_ensure_bind_invariant hroom fun hnew => ?_
  refine run_ensure_bind_invariant hroom fun hlimit => ?_
  refine run_ensure_bind_invariant hroom fun hfresh => ?_
  exact consistent_withTrack hroom hvalid hnew hfresh hlimit

/-- The room with one more subscription. -/
def withSubscription (room : Room) (downTrack : DownTrack) : Room :=
  { room with
    outputSsrcIndex := room.outputSsrcIndex.insert downTrack.configuration.outputSsrc
      downTrack.configuration.id
    trackSubscriptions := room.trackSubscriptions.insert downTrack.configuration.trackId
      (room.trackSubscriptions[downTrack.configuration.trackId]?.getD [] ++
        [downTrack.configuration.id])
    subscriptions := room.subscriptions.insert downTrack.configuration.id downTrack }

theorem subscriptionConfig_withSubscription (room : Room) (downTrack : DownTrack)
    (id : SubscriptionId) :
    (room.withSubscription downTrack).subscriptionConfig id =
      if downTrack.configuration.id = id then some downTrack.configuration
      else room.subscriptionConfig id := by
  by_cases hid : downTrack.configuration.id = id
  · subst hid
    simp [subscriptionConfig, withSubscription]
  · simp [subscriptionConfig, withSubscription, Maps.getElem?_insert_of_ne hid, hid]

theorem outputIndexed_withSubscription {room : Room} {downTrack : DownTrack}
    (hroom : OutputIndexed room)
    (hnew : room.subscriptionConfig downTrack.configuration.id = none)
    (houtput : downTrack.configuration.outputSsrc ∉ room.outputSsrcIndex) :
    OutputIndexed (room.withSubscription downTrack) := by
  intro ssrc id
  rw [subscriptionConfig_withSubscription]
  by_cases hssrc : downTrack.configuration.outputSsrc = ssrc
  · subst hssrc
    simp only [withSubscription, ExtTreeMap.getElem?_insert_self, Option.some.injEq]
    split_ifs with hid
    · simp [hid]
    · refine iff_of_false hid ?_
      rintro ⟨configuration, hconfig, hssrc⟩
      exact houtput (Maps.mem_of_getElem? ((hroom _ id).mpr ⟨configuration, hconfig, hssrc⟩))
  · simp only [withSubscription, Maps.getElem?_insert_of_ne hssrc]
    rw [hroom ssrc id]
    split_ifs with hid
    · subst hid
      simp [hnew, hssrc]
    · rfl

theorem listIndexed_withSubscription {room : Room} {downTrack : DownTrack} {trackId : TrackId}
    (hroom : ListIndexed room trackId)
    (hnew : room.subscriptionConfig downTrack.configuration.id = none) :
    ListIndexed (room.withSubscription downTrack) trackId := by
  obtain ⟨hne, hnodup, hmem⟩ := hroom
  have hfresh : downTrack.configuration.id ∉ room.subscribers trackId := by
    rw [hmem, hnew]
    simp
  by_cases htrack : downTrack.configuration.trackId = trackId
  · have hlist : (room.withSubscription downTrack).subscribers trackId =
        room.subscribers trackId ++ [downTrack.configuration.id] := by
      subst htrack
      simp [subscribers, withSubscription]
    refine ⟨?_, ?_, fun id => ?_⟩
    · subst htrack
      simp [withSubscription]
    · rw [hlist, List.nodup_append]
      refine ⟨hnodup, List.nodup_singleton _, ?_⟩
      rintro a ha b hb rfl
      exact hfresh (List.mem_singleton.mp hb ▸ ha)
    · rw [hlist, subscriptionConfig_withSubscription, List.mem_append, List.mem_singleton, hmem]
      split_ifs with hid
      · subst hid
        simp [htrack]
      · simp [Ne.symm hid]
  · have hlist : (room.withSubscription downTrack).trackSubscriptions[trackId]? =
        room.trackSubscriptions[trackId]? := Maps.getElem?_insert_of_ne htrack
    refine ⟨by rwa [hlist], by rwa [subscribers, hlist], fun id => ?_⟩
    rw [subscribers, hlist, ← subscribers, subscriptionConfig_withSubscription, hmem]
    split_ifs with hid
    · subst hid
      simp [hnew, htrack]
    · rfl

theorem consistent_withSubscription {room : Room} {downTrack : DownTrack}
    (hroom : Consistent room) (hnew : downTrack.configuration.id ∉ room.subscriptions)
    (houtput : downTrack.configuration.outputSsrc ∉ room.outputSsrcIndex)
    (hsafe : isRtcpMuxSafePayloadType downTrack.configuration.outputPayloadType)
    (htrack : downTrack.configuration.trackId ∈ room.tracks)
    (hlimit : room.subscriptions.size < room.configuration.maxSubscriptions) :
    Consistent (room.withSubscription downTrack) := by
  rw [mem_subscriptions_iff, not_not] at hnew
  refine ⟨⟨hroom.ssrc, outputIndexed_withSubscription hroom.output hnew houtput,
    fun trackId => listIndexed_withSubscription (hroom.lists trackId) hnew, hroom.pli, hroom.tracks,
    ExtTreeMap.size_insert_le.trans hlimit⟩, hroom.tracksValid, ?_⟩
  intro id configuration hconfig
  rw [subscriptionConfig_withSubscription] at hconfig
  split_ifs at hconfig with hid
  · cases hconfig
    exact ⟨hid, hsafe, htrack⟩
  · exact hroom.configured id configuration hconfig

theorem consistent_subscribe {room : Room} (hroom : Consistent room)
    (configuration : SubscriptionConfig) :
    Consistent ((subscribe configuration).run room).2 := by
  rw [subscribe, run_get_bind]
  refine run_ensure_bind_invariant hroom fun hnew => ?_
  refine run_ensure_bind_invariant hroom fun houtput => ?_
  refine run_ensure_bind_invariant hroom fun hsafe => ?_
  refine run_ensure_bind_invariant hroom fun hlimit => ?_
  rw [run_ofOption_bind]
  cases htrack : room.tracks[configuration.trackId]? with
  | none => exact hroom
  | some track =>
    refine run_ensure_bind_invariant hroom fun _ => ?_
    have hpublished : configuration.trackId ∈ room.tracks := Maps.mem_of_getElem? htrack
    show Consistent (room.withSubscription (DownTrack.new configuration track
      room.configuration.retransmissionCachePackets room.configuration.retransmissionCacheAge))
    exact consistent_withSubscription hroom hnew houtput hsafe hpublished hlimit

/-! ## Removal -/

/-- A room from which subscriptions have been removed. -/
structure Removed (room room' : Room) (ids : List SubscriptionId) : Prop where
  configuration : room'.configuration = room.configuration
  tracks : room'.tracks = room.tracks
  ssrcIndex : room'.ssrcIndex = room.ssrcIndex
  lastPli : room'.lastPli = room.lastPli
  subscription : ∀ id : SubscriptionId, room'.subscriptions[id]? =
    if id ∈ ids then none else room.subscriptions[id]?
  output : OutputIndexed room → OutputIndexed room'
  lists : ∀ trackId, ListIndexed room trackId → ListIndexed room' trackId
  unlisted : ∀ trackId : TrackId, room.trackSubscriptions[trackId]? = none →
    room'.trackSubscriptions[trackId]? = none
  size : room'.subscriptions.size ≤ room.subscriptions.size

theorem Removed.refl (room : Room) : Removed room room [] :=
  ⟨rfl, rfl, rfl, rfl, fun _ => by simp, id, fun _ => id, fun _ => id, le_rfl⟩

theorem Removed.trans {room room' room'' : Room} {ids ids' : List SubscriptionId}
    (h : Removed room room' ids) (h' : Removed room' room'' ids') :
    Removed room room'' (ids ++ ids') where
  configuration := h'.configuration.trans h.configuration
  tracks := h'.tracks.trans h.tracks
  ssrcIndex := h'.ssrcIndex.trans h.ssrcIndex
  lastPli := h'.lastPli.trans h.lastPli
  subscription id := by
    rw [h'.subscription, h.subscription]
    by_cases hid : id ∈ ids <;> by_cases hid' : id ∈ ids' <;> simp [hid, hid']
  output hroom := h'.output (h.output hroom)
  lists trackId hroom := h'.lists trackId (h.lists trackId hroom)
  unlisted trackId hroom := h'.unlisted trackId (h.unlisted trackId hroom)
  size := h'.size.trans h.size

theorem Removed.subscriptionConfig {room room' : Room} {ids : List SubscriptionId}
    (h : Removed room room' ids) (id : SubscriptionId) :
    room'.subscriptionConfig id = if id ∈ ids then none else room.subscriptionConfig id := by
  rw [Room.subscriptionConfig, h.subscription]
  split_ifs <;> rfl

/-- Removing a subscription that is not there. -/
theorem removed_of_none {room : Room} {id : SubscriptionId}
    (h : room.subscriptions[id]? = none) : Removed room room [id] := by
  refine ⟨rfl, rfl, rfl, rfl, fun other => ?_, fun h => h, fun _ h => h, fun _ h => h, le_rfl⟩
  by_cases hid : other = id
  · subst hid
    simp [h]
  · simp [hid]

theorem getElem?_removeTrackSubscription (room : Room) (trackId other : TrackId)
    (id : SubscriptionId) :
    (room.removeTrackSubscription trackId id).trackSubscriptions[other]? =
      if trackId = other then
        (room.trackSubscriptions[other]?.map fun ids =>
          ids.filter fun candidate => candidate ≠ id).filter fun ids => !ids.isEmpty
      else room.trackSubscriptions[other]? := by
  unfold removeTrackSubscription
  by_cases hother : trackId = other
  · subst hother
    rw [if_pos rfl]
    cases hids : room.trackSubscriptions[trackId]? with
    | none => simp [hids]
    | some ids =>
      dsimp only [Option.map]
      generalize (ids.filter fun candidate => candidate ≠ id) = rest
      cases rest with
      | nil => simp [Option.filter]
      | cons first rest => simp [Option.filter]
  · rw [if_neg hother]
    cases room.trackSubscriptions[trackId]? with
    | none => rfl
    | some ids =>
      dsimp only
      split_ifs
      · exact Maps.getElem?_erase_of_ne hother
      · exact Maps.getElem?_insert_of_ne hother

/-- The room without one of its subscriptions. -/
def withoutSubscription (room : Room) (id : SubscriptionId) (configuration : SubscriptionConfig) :
    Room :=
  removeTrackSubscription { room with
    subscriptions := room.subscriptions.erase id
    outputSsrcIndex := room.outputSsrcIndex.erase configuration.outputSsrc }
    configuration.trackId id

theorem removeTrackSubscription_eq (room : Room) (trackId : TrackId) (id : SubscriptionId) :
    room.removeTrackSubscription trackId id =
      { room with trackSubscriptions :=
          (room.removeTrackSubscription trackId id).trackSubscriptions } := by
  unfold removeTrackSubscription
  cases room.trackSubscriptions[trackId]? with
  | none => rfl
  | some ids =>
    dsimp only
    split_ifs <;> rfl

theorem subscription_withoutSubscription (room : Room) (id : SubscriptionId)
    (configuration : SubscriptionConfig) (other : SubscriptionId) :
    (room.withoutSubscription id configuration).subscriptions[other]? =
      if other = id then none else room.subscriptions[other]? := by
  rw [withoutSubscription, removeTrackSubscription_eq]
  by_cases hid : other = id
  · subst hid
    simp
  · rw [if_neg hid, Maps.getElem?_erase_of_ne (Ne.symm hid)]

theorem subscriptionConfig_withoutSubscription (room : Room) (id : SubscriptionId)
    (configuration : SubscriptionConfig) (other : SubscriptionId) :
    (room.withoutSubscription id configuration).subscriptionConfig other =
      if other = id then none else room.subscriptionConfig other := by
  rw [subscriptionConfig, subscription_withoutSubscription]
  split_ifs <;> rfl

theorem outputIndexed_withoutSubscription {room : Room} {id : SubscriptionId}
    {configuration : SubscriptionConfig} (hid : room.subscriptionConfig id = some configuration)
    (hroom : OutputIndexed room) : OutputIndexed (room.withoutSubscription id configuration) := by
  intro ssrc other
  have hthis := (hroom configuration.outputSsrc id).mpr ⟨configuration, hid, rfl⟩
  rw [subscriptionConfig_withoutSubscription, withoutSubscription, removeTrackSubscription_eq]
  by_cases hssrc : configuration.outputSsrc = ssrc
  · subst hssrc
    simp only [ExtTreeMap.getElem?_erase_self, reduceCtorEq, false_iff]
    rintro ⟨found, hfound, hssrc⟩
    split_ifs at hfound with hother
    have hsame := (hroom configuration.outputSsrc other).mpr ⟨found, hfound, hssrc⟩
    rw [hthis, Option.some.injEq] at hsame
    exact hother hsame.symm
  · simp only [Maps.getElem?_erase_of_ne hssrc]
    rw [hroom ssrc other]
    split_ifs with hother
    · subst hother
      simp [hid, hssrc]
    · rfl

theorem listIndexed_withoutSubscription {room : Room} {id : SubscriptionId}
    {configuration : SubscriptionConfig} (hid : room.subscriptionConfig id = some configuration)
    {trackId : TrackId} (hroom : ListIndexed room trackId) :
    ListIndexed (room.withoutSubscription id configuration) trackId := by
  obtain ⟨hne, hnodup, hmem⟩ := hroom
  have hlookup : (room.withoutSubscription id configuration).trackSubscriptions[trackId]? =
      if configuration.trackId = trackId then
        (room.trackSubscriptions[trackId]?.map fun ids =>
          ids.filter fun candidate => candidate ≠ id).filter fun ids => !ids.isEmpty
      else room.trackSubscriptions[trackId]? := getElem?_removeTrackSubscription _ _ _ _
  have hlist : (room.withoutSubscription id configuration).subscribers trackId =
      (room.subscribers trackId).filter fun candidate => candidate ≠ id := by
    rw [subscribers, hlookup, subscribers]
    split_ifs with htrack
    · cases room.trackSubscriptions[trackId]? with
      | none => rfl
      | some ids =>
        dsimp only [Option.map, Option.getD_some]
        generalize (ids.filter fun candidate => candidate ≠ id) = rest
        cases rest with
        | nil => rfl
        | cons first rest => rfl
    · symm
      rw [List.filter_eq_self]
      intro other hother
      obtain ⟨found, hfound, hsource⟩ := (hmem other).mp hother
      by_contra hsame
      have hsame : other = id := by simpa using hsame
      rw [hsame, hid, Option.some.injEq] at hfound
      subst hfound
      exact htrack hsource
  refine ⟨?_, ?_, fun other => ?_⟩
  · rw [hlookup]
    split_ifs
    · intro hnil
      have hkept := (Option.filter_eq_some_iff.mp hnil).2
      simp at hkept
    · exact hne
  · rw [hlist]
    exact hnodup.filter _
  · rw [hlist, List.mem_filter, hmem, subscriptionConfig_withoutSubscription]
    by_cases hother : other = id
    · simp [hother]
    · simp [hother]

theorem removed_removeSubscription (room : Room) (id : SubscriptionId) :
    Removed room (room.removeSubscription id).2 [id] := by
  unfold removeSubscription
  cases hdown : room.subscriptions[id]? with
  | none => exact removed_of_none hdown
  | some downTrack =>
    have hid : room.subscriptionConfig id = some downTrack.configuration := by
      rw [subscriptionConfig, hdown, Option.map_some]
    show Removed room (room.withoutSubscription id downTrack.configuration) [id]
    refine ⟨?_, ?_, ?_, ?_, ?_, outputIndexed_withoutSubscription hid,
      fun trackId => listIndexed_withoutSubscription hid, ?_, ?_⟩
    · rw [withoutSubscription, removeTrackSubscription_eq]
    · rw [withoutSubscription, removeTrackSubscription_eq]
    · rw [withoutSubscription, removeTrackSubscription_eq]
    · rw [withoutSubscription, removeTrackSubscription_eq]
    · intro other
      rw [subscription_withoutSubscription]
      simp
    · intro trackId hnone
      rw [withoutSubscription, getElem?_removeTrackSubscription]
      simp [hnone]
    · rw [withoutSubscription, removeTrackSubscription_eq]
      exact ExtTreeMap.size_erase_le

theorem removed_foldl (ids : List SubscriptionId) (room : Room) :
    Removed room (ids.foldl (fun room id => (room.removeSubscription id).2) room) ids := by
  induction ids generalizing room with
  | nil => exact .refl room
  | cons id ids ih => exact (removed_removeSubscription room id).trans (ih _)

/-- Removing subscriptions keeps the room consistent. -/
theorem Removed.consistent {room room' : Room} {ids : List SubscriptionId}
    (h : Removed room room' ids) (hroom : Consistent room) : Consistent room' where
  ssrc ssrc trackId layer := by
    rw [h.ssrcIndex, h.tracks]
    exact hroom.ssrc ssrc trackId layer
  output := h.output hroom.output
  lists trackId := h.lists trackId (hroom.lists trackId)
  pli ssrc hssrc := by
    rw [h.lastPli] at hssrc
    rw [h.ssrcIndex]
    exact hroom.pli ssrc hssrc
  tracks := by
    rw [h.tracks, h.configuration]
    exact hroom.tracks
  subscriptions := by
    rw [h.configuration]
    exact h.size.trans hroom.subscriptions
  tracksValid trackId track := by
    rw [h.tracks]
    exact hroom.tracksValid trackId track
  configured id configuration hconfig := by
    rw [h.subscriptionConfig] at hconfig
    split_ifs at hconfig
    rw [h.tracks]
    exact hroom.configured id configuration hconfig

/-- The room without a track, before its subscriptions are removed. -/
def withoutTrack (room : Room) (trackId : TrackId) (track : PublishedTrack) : Room :=
  { room with
    tracks := room.tracks.erase trackId
    ssrcIndex := track.encodings.foldl
      (fun index encoding => index.erase encoding.ssrc) room.ssrcIndex
    lastPli := track.encodings.foldl
      (fun last encoding => last.erase encoding.ssrc) room.lastPli
    trackSubscriptions := room.trackSubscriptions.erase trackId }

theorem ssrcIndexed_withoutTrack {room : Room} {trackId : TrackId} {track : PublishedTrack}
    (hroom : SsrcIndexed room) (htrack : room.tracks[trackId]? = some track) :
    SsrcIndexed (room.withoutTrack trackId track) := by
  intro ssrc other layer
  simp only [withoutTrack, Maps.getElem?_foldl_erase, Maps.getElem?_erase_eq_some]
  rw [hroom ssrc other layer]
  constructor
  · rintro ⟨⟨found, hfound, hmem⟩, hnone⟩
    refine ⟨found, ⟨?_, hfound⟩, hmem⟩
    rintro rfl
    rw [htrack, Option.some.injEq] at hfound
    subst hfound
    exact hnone _ hmem rfl
  · rintro ⟨found, ⟨hne, hfound⟩, hmem⟩
    refine ⟨⟨found, hfound, hmem⟩, ?_⟩
    intro encoding hencoding hssrc
    have hthis := (hroom ssrc trackId encoding.spatialLayer).mpr
      ⟨track, htrack, hssrc ▸ hencoding⟩
    rw [(hroom ssrc other layer).mpr ⟨found, hfound, hmem⟩, Option.some.injEq,
      Prod.mk.injEq] at hthis
    exact hne hthis.1.symm

theorem pliIndexed_withoutTrack {room : Room} {trackId : TrackId} {track : PublishedTrack}
    (hroom : PliIndexed room) : PliIndexed (room.withoutTrack trackId track) := by
  intro ssrc hssrc
  obtain ⟨last, hlast⟩ := Maps.mem_iff_exists.mp hssrc
  obtain ⟨hlast, hnone⟩ := (Maps.getElem?_foldl_erase _ _ _ _ _).mp hlast
  obtain ⟨value, hvalue⟩ := Maps.mem_iff_exists.mp (hroom ssrc (Maps.mem_of_getElem? hlast))
  exact Maps.mem_of_getElem? ((Maps.getElem?_foldl_erase _ _ _ _ _).mpr ⟨hvalue, hnone⟩)

theorem consistent_unpublish {room : Room} (hroom : Consistent room) (trackId : TrackId) :
    Consistent (room.unpublish trackId).2 := by
  unfold unpublish
  cases htrack : room.tracks[trackId]? with
  | none => exact hroom
  | some track =>
  have hremoved := removed_foldl (room.subscribers trackId) (room.withoutTrack trackId track)
  show Consistent ((room.subscribers trackId).foldl (fun room id => (room.removeSubscription id).2)
    (room.withoutTrack trackId track))
  generalize (room.subscribers trackId).foldl (fun room id => (room.removeSubscription id).2)
    (room.withoutTrack trackId track) = room' at hremoved ⊢
  -- what is left belongs to other tracks
  have hleft : ∀ id configuration, room'.subscriptionConfig id = some configuration →
      room.subscriptionConfig id = some configuration ∧ configuration.trackId ≠ trackId := by
    intro id configuration hconfig
    rw [hremoved.subscriptionConfig] at hconfig
    split_ifs at hconfig with hlisted
    have hconfig : room.subscriptionConfig id = some configuration := hconfig
    refine ⟨hconfig, fun hsame => hlisted ?_⟩
    exact ((hroom.lists trackId).mem id).mpr ⟨configuration, hconfig, hsame⟩
  refine ⟨⟨?_, hremoved.output hroom.output, ?_, ?_, ?_, ?_⟩, ?_, ?_⟩
  · intro ssrc other layer
    rw [hremoved.ssrcIndex, hremoved.tracks]
    exact ssrcIndexed_withoutTrack hroom.ssrc htrack ssrc other layer
  · intro other
    by_cases hother : trackId = other
    · subst hother
      have hnone := hremoved.unlisted trackId ExtTreeMap.getElem?_erase_self
      refine ⟨by simp [hnone], by simp [subscribers, hnone], fun id => ?_⟩
      simp only [subscribers, hnone, Option.getD_none, List.not_mem_nil, false_iff]
      rintro ⟨configuration, hconfig, hsame⟩
      exact (hleft id configuration hconfig).2 hsame
    · apply hremoved.lists
      have hlist : (room.withoutTrack trackId track).trackSubscriptions[other]? =
          room.trackSubscriptions[other]? := Maps.getElem?_erase_of_ne hother
      obtain ⟨hne, hnodup, hmem⟩ := hroom.lists other
      refine ⟨by rwa [hlist], by rwa [subscribers, hlist], fun id => ?_⟩
      rw [subscribers, hlist]
      exact hmem id
  · intro ssrc hssrc
    rw [hremoved.lastPli] at hssrc
    rw [hremoved.ssrcIndex]
    exact pliIndexed_withoutTrack hroom.pli ssrc hssrc
  · rw [hremoved.tracks, hremoved.configuration]
    exact ExtTreeMap.size_erase_le.trans hroom.tracks
  · rw [hremoved.configuration]
    exact hremoved.size.trans hroom.subscriptions
  · intro other found hfound
    rw [hremoved.tracks] at hfound
    exact hroom.tracksValid other found (Maps.getElem?_erase_eq_some.mp hfound).2
  · intro id configuration hconfig
    obtain ⟨hold, hne⟩ := hleft id configuration hconfig
    obtain ⟨hid, hsafe, hpublished⟩ := hroom.configured id configuration hold
    obtain ⟨found, hfound⟩ := Maps.mem_iff_exists.mp hpublished
    rw [hremoved.tracks]
    exact ⟨hid, hsafe, Maps.mem_of_getElem? (Maps.getElem?_erase_eq_some.mpr ⟨hne.symm, hfound⟩)⟩

/-! ## Runs -/

variable {visit : ExtTreeMap SubscriptionId DownTrack → List DownTrack}

theorem consistent_step {room : Room} (hroom : Consistent room) (call : Call) :
    Consistent (step visit room call) := by
  cases call with
  | publish track => exact consistent_publish hroom track
  | unpublish trackId => exact consistent_unpublish hroom trackId
  | subscribe configuration => exact consistent_subscribe hroom configuration
  | unsubscribe id => exact (removed_removeSubscription room id).consistent hroom
  | setTargetLayer now subscriber id layer =>
    exact (reshaped_setTargetLayer hroom now subscriber id layer).consistent hroom
  | handleRtp now publisher input =>
    exact (reshaped_handleRtp hroom now publisher input).consistent hroom
  | handleRtcp now subscriber input =>
    exact (reshaped_handleRtcp hroom now subscriber input).consistent hroom

theorem consistent_runCalls {room : Room} (hroom : Consistent room) (calls : List Call) :
    Consistent (runCalls visit room calls) := by
  induction calls generalizing room with
  | nil => exact hroom
  | cons call calls ih => exact ih (consistent_step hroom call)

theorem Reachable.consistent {room : Room} (h : Reachable visit room) : Consistent room := by
  obtain ⟨configuration, calls, rfl⟩ := h
  exact consistent_runCalls (consistent_new configuration) calls

/-- After every run of calls, successful or not, the maps of a room are in step. -/
theorem indexed_runCalls (visit : ExtTreeMap SubscriptionId DownTrack → List DownTrack)
    (configuration : RoomConfig) (calls : List Call) :
    Indexed (runCalls visit (new configuration) calls) :=
  (consistent_runCalls (consistent_new configuration) calls).toIndexed

end Room

end Fluvora.Sfu
