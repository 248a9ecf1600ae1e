import Fluvora.Lib.Runs
import Fluvora.Sfu.Targets

/-!
# Keyframe requests

Three operations of a room ask the publisher of an encoding for a keyframe, and all of them go
through one throttle map.  A `Ledger` is what this is about: who owns an SSRC, and when it was asked
last.  The entries of its log are the publications, their ends and the requests; a request is allowed
if the owner is right and the last one is long enough ago.  Every call of a room is a list of allowed
entries (`Logged`), the requests among them being the events that the call returns, so what holds of
the ledger holds of every run (`requests_spaced`).
-/

open Std (ExtTreeMap)

namespace Fluvora.Sfu

open Fallible Results

/-! ## The ledger -/

/-- The owners of the SSRCs, and when they were asked last. -/
structure Ledger where
  ssrcIndex : ExtTreeMap UInt32 (TrackId × UInt8)
  lastPli : ExtTreeMap UInt32 ℕ

namespace Ledger

/-- What is written into the log of a room. -/
inductive Entry
  | published (track : PublishedTrack)
  | unpublished (track : PublishedTrack)
  | requested (now : ℕ) (trackId : TrackId) (mediaSsrc : UInt32)
deriving DecidableEq

def step (ledger : Ledger) : Entry → Ledger
  | .published track =>
      { ledger with
        ssrcIndex := track.encodings.foldl
          (fun index encoding => index.insert encoding.ssrc (track.id, encoding.spatialLayer))
          ledger.ssrcIndex }
  | .unpublished track =>
      { ssrcIndex := track.encodings.foldl
          (fun index encoding => index.erase encoding.ssrc) ledger.ssrcIndex
        lastPli := track.encodings.foldl
          (fun last encoding => last.erase encoding.ssrc) ledger.lastPli }
  | .requested now _ mediaSsrc => { ledger with lastPli := ledger.lastPli.insert mediaSsrc now }

/-- The track owns the SSRC. -/
def Owns (ledger : Ledger) (trackId : TrackId) (ssrc : UInt32) : Prop :=
  ∃ layer, ledger.ssrcIndex[ssrc]? = some (trackId, layer)

/-- Only free SSRCs are published, only their owner gives them back, and only the owner is asked,
not too soon after the last time. -/
def Allows (throttle : ℕ) (ledger : Ledger) : Entry → Prop
  | .published track =>
      validateTrack track = .ok () ∧ ∀ encoding ∈ track.encodings, encoding.ssrc ∉ ledger.ssrcIndex
  | .unpublished track => ∀ encoding ∈ track.encodings, ledger.Owns track.id encoding.ssrc
  | .requested now trackId mediaSsrc =>
      ledger.Owns trackId mediaSsrc ∧
        ∀ last, ledger.lastPli[mediaSsrc]? = some last → throttle ≤ now - last

variable {throttle now : ℕ} {ledger : Ledger} {trackId : TrackId} {ssrc : UInt32}

theorem Owns.eq (h : ledger.Owns trackId ssrc) {other : TrackId} (hother : ledger.Owns other ssrc) :
    trackId = other := by
  obtain ⟨layer, hlayer⟩ := h
  obtain ⟨layer', hlayer'⟩ := hother
  rw [hlayer, Option.some.injEq, Prod.mk.injEq] at hlayer'
  exact hlayer'.1

/-- The track owns the SSRC, and its last request is not older than `now`. -/
structure Asked (throttle : ℕ) (now : ℕ) (trackId : TrackId) (ssrc : UInt32) (ledger : Ledger) :
    Prop where
  owns : ledger.Owns trackId ssrc
  last : ∃ last, ledger.lastPli[ssrc]? = some last ∧ (throttle = 0 ∨ now ≤ last)

theorem asked_requested (throttle now : ℕ) (h : ledger.Owns trackId ssrc) :
    Asked throttle now trackId ssrc (ledger.step (.requested now trackId ssrc)) :=
  ⟨h, now, ExtTreeMap.getElem?_insert_self, .inr le_rfl⟩

/-- As long as its track is published, an SSRC that has been asked stays so. -/
theorem Asked.step (h : Asked throttle now trackId ssrc ledger) {entry : Entry}
    (hallowed : Allows throttle ledger entry)
    (hkept : ∀ track, entry = .unpublished track → track.id ≠ trackId) :
    Asked throttle now trackId ssrc (ledger.step entry) := by
  obtain ⟨⟨layer, hlayer⟩, last, hlast, hsince⟩ := h
  cases entry with
  | published track =>
    obtain ⟨hvalid, hfree⟩ := hallowed
    refine ⟨⟨layer, ?_⟩, last, hlast, hsince⟩
    unfold Ledger.step
    rw [Maps.getElem?_foldl_insert (fun encoding => (track.id, encoding.spatialLayer))
      (Room.validateTrack_eq_ok hvalid).1]
    refine .inr ⟨hlayer, fun encoding hencoding hssrc => ?_⟩
    exact hfree encoding hencoding (hssrc ▸ Maps.mem_of_getElem? hlayer)
  | unpublished track =>
    have hother : ∀ encoding ∈ track.encodings, encoding.ssrc ≠ ssrc := by
      rintro encoding hencoding rfl
      exact hkept track rfl ((hallowed encoding hencoding).eq ⟨layer, hlayer⟩)
    exact ⟨⟨layer, (Maps.getElem?_foldl_erase _ _ _ _ _).mpr ⟨hlayer, hother⟩⟩, last,
      (Maps.getElem?_foldl_erase _ _ _ _ _).mpr ⟨hlast, hother⟩, hsince⟩
  | requested later other mediaSsrc =>
    refine ⟨⟨layer, hlayer⟩, ?_⟩
    by_cases hssrc : mediaSsrc = ssrc
    · subst hssrc
      refine ⟨later, ExtTreeMap.getElem?_insert_self, ?_⟩
      have hapart := hallowed.2 last hlast
      omega
    · exact ⟨last, (Maps.getElem?_insert_of_ne hssrc).trans hlast, hsince⟩

/-- Two requests for one SSRC in a log of allowed entries are apart, unless the track of the first
has been unpublished in between. -/
theorem requested_spaced {before between after : List Entry} {now' : ℕ} {trackId' : TrackId}
    (hlog : Runs.Each step (Allows throttle) ledger
      (before ++ .requested now trackId ssrc :: (between ++ .requested now' trackId' ssrc :: after)))
    (hbetween : ∀ track, .unpublished track ∈ between → track.id ≠ trackId) :
    throttle ≤ now' - now := by
  obtain ⟨-, hfirst, hrest⟩ := Runs.each_append.mp hlog
  obtain ⟨hmiddle, hsecond, -⟩ := Runs.each_append.mp hrest
  have hkept : ∀ entry ∈ between, ∀ track, entry = .unpublished track → track.id ≠ trackId := by
    rintro entry hentry track rfl
    exact hbetween track hentry
  have hasked := (Runs.always_of_each (fun _ _ h hentry => h.step hentry.1 hentry.2)
    (asked_requested throttle now hfirst.1)
    (hmiddle.and (Runs.each_of_forall hkept _))).foldl
  obtain ⟨last, hlast, hsince⟩ := hasked.last
  have hapart := hsecond.2 last hlast
  omega

end Ledger

namespace Room

open Ledger (Entry)

variable {visit : ExtTreeMap SubscriptionId DownTrack → List DownTrack} {room room' : Room}

/-! ## The log of a room -/

def ledger (room : Room) : Ledger := ⟨room.ssrcIndex, room.lastPli⟩

/-- The keyframe requests among events. -/
def requests (now : ℕ) (events : List SfuEvent) : List Entry :=
  events.filterMap fun
    | .pictureLossIndication trackId mediaSsrc => some (.requested now trackId mediaSsrc)
    | _ => none

/-- The keyframe requests that a call returns. -/
def returned {α : Type} (now : ℕ) (events : α → List SfuEvent) : Except SfuError α → List Entry
  | .ok output => requests now (events output)
  | .error _ => []

/-- The entries of a call. -/
def entries (visit : ExtTreeMap SubscriptionId DownTrack → List DownTrack) (room : Room) :
    Call → List Entry
  | .publish track => if ((publish track).run room).1.isOk then [.published track] else []
  | .unpublish trackId => room.tracks[trackId]?.toList.map .unpublished
  | .subscribe _ => []
  | .unsubscribe _ => []
  | .setTargetLayer now subscriber id layer =>
      returned now (fun events => events) ((setTargetLayer now subscriber id layer).run room).1
  | .handleRtp now publisher input =>
      returned now ForwardOutcome.events ((handleRtp visit now publisher input).run room).1
  | .handleRtcp now subscriber input =>
      returned now ControlOutput.events ((handleRtcp now subscriber input).run room).1

/-- The entries of a run. -/
def log (visit : ExtTreeMap SubscriptionId DownTrack → List DownTrack) : Room → List Call → List Entry
  | _, [] => []
  | room, call :: calls => entries visit room call ++ log visit (step visit room call) calls

/-- The entries are allowed one after the other, and lead from one room to the other. -/
structure Logged (room : Room) (entries : List Entry) (room' : Room) : Prop where
  configuration : room'.configuration = room.configuration
  allowed : Runs.Each Ledger.step (Ledger.Allows room.configuration.pliThrottle) room.ledger entries
  ledger : entries.foldl Ledger.step room.ledger = room'.ledger

theorem Logged.refl (room : Room) : Logged room [] room := ⟨rfl, trivial, rfl⟩

theorem Logged.trans {room'' : Room} {first second : List Entry} (h : Logged room first room')
    (h' : Logged room' second room'') : Logged room (first ++ second) room'' where
  configuration := h'.configuration.trans h.configuration
  allowed := by
    refine Runs.each_append.mpr ⟨h.allowed, ?_⟩
    rw [h.ledger, ← h.configuration]
    exact h'.allowed
  ledger := by
    rw [List.foldl_append, h.ledger, h'.ledger]

/-- Two rooms that differ in their down-tracks only. -/
theorem logged_of_eq (hconfiguration : room'.configuration = room.configuration)
    (hledger : room'.ledger = room.ledger) : Logged room [] room' :=
  ⟨hconfiguration, trivial, hledger.symm⟩

theorem SsrcIndexed.owns (h : SsrcIndexed room) {trackId : TrackId} {track : PublishedTrack}
    {encoding : Encoding} (htrack : room.tracks[trackId]? = some track)
    (hencoding : encoding ∈ track.encodings) : room.ledger.Owns trackId encoding.ssrc :=
  ⟨encoding.spatialLayer, (h encoding.ssrc trackId encoding.spatialLayer).mpr
    ⟨track, htrack, hencoding⟩⟩

/-! ## One call -/

/-- The throttle: a request is made only if it is allowed, and it is written down. -/
theorem logged_maybePli (now : ℕ) {trackId : TrackId} {mediaSsrc : UInt32}
    (howns : room.ledger.Owns trackId mediaSsrc) :
    Logged room (requests now (room.maybePli now trackId mediaSsrc).1.toList)
      (room.maybePli now trackId mediaSsrc).2 := by
  unfold maybePli
  split_ifs with hsoon
  · exact .refl room
  · refine ⟨rfl, ⟨⟨howns, fun last hlast => ?_⟩, trivial⟩, rfl⟩
    have hlast : room.lastPli[mediaSsrc]? = some last := hlast
    rw [hlast] at hsoon
    simpa using hsoon

theorem logged_publish (room : Room) (track : PublishedTrack) :
    Logged room (if ((publish track).run room).1.isOk then [.published track] else [])
      ((publish track).run room).2 := by
  rw [publish, run_ofExcept_bind]
  cases hvalid : validateTrack track with
  | error error => exact .refl room
  | ok checked =>
    dsimp only
    rw [run_get_bind, run_ensure_bind]
    by_cases hnew : track.id ∉ room.tracks
    swap
    · rw [if_neg hnew]
      exact .refl room
    rw [if_pos hnew, run_ensure_bind]
    by_cases hlimit : room.tracks.size < room.configuration.maxTracks
    swap
    · rw [if_neg hlimit]
      exact .refl room
    rw [if_pos hlimit, run_ensure_bind]
    by_cases hfree : ∀ encoding ∈ track.encodings, encoding.ssrc ∉ room.ssrcIndex
    swap
    · rw [if_neg hfree]
      exact .refl room
    rw [if_pos hfree]
    exact ⟨rfl, ⟨⟨hvalid, hfree⟩, trivial⟩, rfl⟩

theorem logged_unpublish (hroom : Consistent room) (trackId : TrackId) :
    Logged room (room.tracks[trackId]?.toList.map .unpublished) (room.unpublish trackId).2 := by
  unfold unpublish
  cases htrack : room.tracks[trackId]? with
  | none => exact .refl room
  | some track =>
    have hremoved := removed_foldl (room.subscribers trackId) (room.withoutTrack trackId track)
    show Logged room [.unpublished track] ((room.subscribers trackId).foldl
      (fun room id => (room.removeSubscription id).2) (room.withoutTrack trackId track))
    refine ⟨hremoved.configuration, ⟨fun encoding hencoding => ?_, trivial⟩, ?_⟩
    · rw [(hroom.tracksValid trackId track htrack).1]
      exact hroom.ssrc.owns htrack hencoding
    · unfold ledger
      rw [hremoved.ssrcIndex, hremoved.lastPli]
      rfl

theorem logged_subscribe (room : Room) (configuration : SubscriptionConfig) :
    Logged room [] ((subscribe configuration).run room).2 := by
  have hsame : Logged room [] room := .refl room
  rw [subscribe, run_get_bind]
  refine run_ensure_bind_invariant hsame fun _ => ?_
  refine run_ensure_bind_invariant hsame fun _ => ?_
  refine run_ensure_bind_invariant hsame fun _ => ?_
  refine run_ensure_bind_invariant hsame fun _ => ?_
  rw [run_ofOption_bind]
  cases room.tracks[configuration.trackId]? with
  | none => exact hsame
  | some track =>
    refine run_ensure_bind_invariant hsame fun _ => ?_
    exact logged_of_eq rfl rfl

theorem logged_unsubscribe (room : Room) (id : SubscriptionId) :
    Logged room [] (room.unsubscribe id).2 := by
  have hremoved := removed_removeSubscription room id
  refine logged_of_eq hremoved.configuration ?_
  unfold ledger
  rw [unsubscribe, hremoved.ssrcIndex, hremoved.lastPli]

theorem logged_setTargetLayer (hroom : Consistent room) (now : ℕ) (subscriber : ParticipantId)
    (id : SubscriptionId) (layer : Layer) :
    Logged room (returned now (fun events => events)
      ((setTargetLayer now subscriber id layer).run room).1)
      ((setTargetLayer now subscriber id layer).run room).2 := by
  rw [setTargetLayer, run_get_bind, run_ofOption_bind]
  cases room.subscriptions[id]? with
  | none => exact .refl room
  | some d =>
    dsimp only
    rw [run_ensure_bind]
    split_ifs
    swap
    · exact .refl room
    rw [run_set_bind, run_ofOption_bind]
    have hstored : Logged room [] (room.retargeted id d layer) := logged_of_eq rfl rfl
    cases htrack : room.tracks[d.configuration.trackId]? with
    | none => exact hstored
    | some track =>
      dsimp only
      rw [run_ofOption_bind]
      cases hencoding : track.encoding layer.spatial with
      | none => exact hstored
      | some encoding =>
        dsimp only
        split_ifs
        · have howns := hroom.ssrc.owns htrack (mem_of_encoding hencoding)
          exact hstored.trans (@logged_maybePli (room.retargeted id d layer) now _ _ howns)
        · exact hstored

/-- Forwarding does not touch the ledger. -/
theorem logged_forwardAll (now : ℕ) (track : PublishedTrack) (spatialLayer : UInt8)
    (info : MediaCodec.PayloadInfo) (input : Bytes) (ids : List SubscriptionId) (room : Room) :
    Logged room [] ((forwardAll now track spatialLayer info input ids).run room).2 := by
  induction ids generalizing room with
  | nil => exact .refl room
  | cons id ids ih =>
    rw [forwardAll, run_get_bind]
    cases room.subscriptions[id]? with
    | none => exact ih room
    | some d =>
      have hfirst : Logged room [] ((forwardTo now track spatialLayer info input id d).run room).2 :=
        logged_of_eq rfl rfl
      refine run_bind_invariant hfirst fun decision room' _ hroom' => ?_
      rw [state_run_bind_pure]
      exact hroom'.trans (ih room')

/-- Nor does it ask for keyframes: its events are switches of layers. -/
theorem requests_decision (now : ℕ) {time : ℕ} {track : PublishedTrack} {spatialLayer : UInt8}
    {info : MediaCodec.PayloadInfo} {input : Bytes} {d d' : DownTrack} {packet : ForwardedPacket}
    {event : Option SfuEvent}
    (h : (DownTrack.forward time track spatialLayer info input).run d =
      (.ok (.forwarded packet event), d')) : requests now event.toList = [] := by
  obtain ⟨waiting, -, hrun⟩ | ⟨error, -, hrun⟩ | ⟨parsed, error, -, -, -, hrun⟩ |
    ⟨parsed, rewritten, -, -, -, hrun⟩ :=
    DownTrack.forward_cases d time track spatialLayer info input
  · rw [hrun] at h
    cases h
  · rw [hrun] at h
    cases h
  · rw [hrun] at h
    cases h
  · rw [hrun] at h
    cases h
    unfold DownTrack.switchEvent
    split_ifs <;> rfl

theorem requests_append (now : ℕ) (first second : List SfuEvent) :
    requests now (first ++ second) = requests now first ++ requests now second :=
  List.filterMap_append

theorem requests_forwardAll (now : ℕ) {track : PublishedTrack} {spatialLayer : UInt8}
    {info : MediaCodec.PayloadInfo} {input : Bytes} {ids : List SubscriptionId} {room room' : Room}
    {output : ForwardOutcome × Bool}
    (h : (forwardAll now track spatialLayer info input ids).run room = (.ok output, room')) :
    requests now output.1.events = [] := by
  induction ids generalizing room room' output with
  | nil =>
    cases h
    rfl
  | cons id ids ih =>
    rw [forwardAll, run_get_bind] at h
    cases hstored : room.subscriptions[id]? with
    | none =>
      rw [hstored] at h
      exact ih h
    | some d =>
      rw [hstored] at h
      dsimp only at h
      obtain ⟨decision, middle, hforward, h⟩ := run_bind_eq_ok.mp h
      obtain ⟨rest, last, hrest, h⟩ := run_bind_eq_ok.mp h
      cases h
      have hrest := ih hrest
      cases decision with
      | dropped waiting => exact hrest
      | forwarded packet event =>
        rcases hrun : (DownTrack.forward now track spatialLayer info input).run d with ⟨result, d'⟩
        have hresult : result = .ok (.forwarded packet event) := by
          have hfirst := congrArg Prod.fst hforward
          rw [forwardTo, hrun] at hfirst
          exact hfirst
        rw [hresult] at hrun
        show requests now (event.toList ++ rest.1.events) = []
        rw [requests_append, requests_decision now hrun, hrest]
        rfl

/-- What waits for a keyframe is an encoding of the track. -/
theorem logged_requestWaiting (now : ℕ) {trackId : TrackId} {track : PublishedTrack}
    (howns : ∀ encoding ∈ track.encodings, room.ledger.Owns trackId encoding.ssrc)
    (needsPli : Bool) :
    Logged room (returned now (fun events => events)
      ((requestWaiting visit now trackId track needsPli).run room).1)
      ((requestWaiting visit now trackId track needsPli).run room).2 := by
  rw [requestWaiting, run_get_bind]
  cases needsPli with
  | false => exact .refl room
  | true =>
    cases hwaiting : room.waitingTarget visit trackId track with
    | none => exact .refl room
    | some target =>
      obtain ⟨subscription, -, htarget⟩ := Option.bind_eq_some_iff.mp hwaiting
      exact logged_maybePli now (howns target (mem_of_encoding htarget))

theorem logged_handleRtp (hroom : Consistent room) (now : ℕ) (publisher : ParticipantId)
    (input : Bytes) :
    Logged room (returned now ForwardOutcome.events
      ((handleRtp visit now publisher input).run room).1)
      ((handleRtp visit now publisher input).run room).2 := by
  rw [handleRtp, run_get_bind, run_ofExcept_bind]
  cases hidentify : room.identify publisher input with
  | error error => exact .refl room
  | ok source =>
    obtain ⟨parsed, -, -, htrack⟩ := identify_eq_ok hidentify
    dsimp only
    have hforwarded := logged_forwardAll now source.track source.spatialLayer source.info input
      (room.trackSubscriptions[source.trackId]?.getD []) room
    rw [run_bind]
    rcases hforward : (forwardAll now source.track source.spatialLayer source.info input
      (room.trackSubscriptions[source.trackId]?.getD [])).run room with
      ⟨error | ⟨output, needsPli⟩, middle⟩
    · rw [hforward] at hforwarded
      exact hforwarded
    · rw [hforward] at hforwarded
      have howns : ∀ encoding ∈ source.track.encodings,
          middle.ledger.Owns source.trackId encoding.ssrc := by
        intro encoding hencoding
        rw [← hforwarded.ledger]
        exact hroom.ssrc.owns htrack hencoding
      have hwaited := @logged_requestWaiting visit _ now _ _ howns needsPli
      have hquiet : requests now output.events = [] := requests_forwardAll now hforward
      dsimp only
      rw [run_bind]
      rcases hwait : (requestWaiting visit now source.trackId source.track needsPli).run middle with
        ⟨error | events, last⟩
      · rw [hwait] at hwaited
        exact hforwarded.trans hwaited
      · rw [hwait] at hwaited
        show Logged room (requests now (output.events ++ events)) last
        rw [requests_append, hquiet]
        exact hforwarded.trans hwaited

theorem logged_handleRtcpPacket (hroom : Consistent room) (now : ℕ) (subscriber : ParticipantId)
    (packet : Rtcp.Packet) :
    Logged room (requests now (handleRtcpPacket now subscriber room packet).1.events)
      (handleRtcpPacket now subscriber room packet).2 := by
  cases packet with
  | genericNack nack =>
    rw [handleRtcpPacket]
    cases room.authorizedDownTrack subscriber nack.mediaSsrc with
    | none => exact .refl room
    | some found => exact logged_of_eq rfl rfl
  | pictureLossIndication pli =>
    rw [handleRtcpPacket]
    cases hupstream : room.upstreamEncoding subscriber pli.mediaSsrc with
    | none => exact .refl room
    | some found =>
      obtain ⟨authorized, -, hfound⟩ := Option.bind_eq_some_iff.mp hupstream
      obtain ⟨track, htrack, hfound⟩ := Option.bind_eq_some_iff.mp hfound
      obtain ⟨encoding, hencoding, hfound⟩ := Option.bind_eq_some_iff.mp hfound
      cases hfound
      refine logged_maybePli now ?_
      rw [(hroom.tracksValid _ track htrack).1]
      exact hroom.ssrc.owns htrack (mem_of_encoding hencoding)
  | transportWideFeedback feedback => exact .refl room
  | senderReport report => exact .refl room
  | receiverReport report => exact .refl room
  | sourceDescription description => exact .refl room
  | raw packet => exact .refl room

theorem logged_handleRtcpPackets (now : ℕ) (subscriber : ParticipantId)
    (packets : List Rtcp.Packet) (hroom : Consistent room) :
    Logged room (requests now (handleRtcpPackets now subscriber packets room).1.events)
      (handleRtcpPackets now subscriber packets room).2 := by
  induction packets generalizing room with
  | nil => exact .refl room
  | cons packet packets ih =>
    have hfirst := logged_handleRtcpPacket hroom now subscriber packet
    have hnext := (reshaped_handleRtcpPacket hroom now subscriber packet).consistent hroom
    rw [handleRtcpPackets]
    dsimp only
    rw [requests_append]
    exact hfirst.trans (ih hnext)

theorem logged_handleRtcp (hroom : Consistent room) (now : ℕ) (subscriber : ParticipantId)
    (input : Bytes) :
    Logged room (returned now ControlOutput.events ((handleRtcp now subscriber input).run room).1)
      ((handleRtcp now subscriber input).run room).2 := by
  rw [handleRtcp, run_ofExcept_bind]
  cases (Rtcp.parseCompound input).mapError SfuError.rtcp with
  | error error => exact .refl room
  | ok packets => exact logged_handleRtcpPackets now subscriber packets hroom

/-- Every call is a list of allowed entries, and the requests among them are what it returns. -/
theorem logged_step (hroom : Consistent room) (call : Call) :
    Logged room (entries visit room call) (step visit room call) := by
  cases call with
  | publish track => exact logged_publish room track
  | unpublish trackId => exact logged_unpublish hroom trackId
  | subscribe configuration => exact logged_subscribe room configuration
  | unsubscribe id => exact logged_unsubscribe room id
  | setTargetLayer now subscriber id layer => exact logged_setTargetLayer hroom now subscriber id layer
  | handleRtp now publisher input => exact logged_handleRtp hroom now publisher input
  | handleRtcp now subscriber input => exact logged_handleRtcp hroom now subscriber input

/-! ## Whole runs -/

theorem logged_runCalls (hroom : Consistent room) (calls : List Call) :
    Logged room (log visit room calls) (runCalls visit room calls) := by
  induction calls generalizing room with
  | nil => exact .refl room
  | cons call calls ih => exact (logged_step hroom call).trans (ih (consistent_step hroom call))

/-- Two keyframe requests for one SSRC in a run of calls, by whatever operations they are made, are
apart by the throttle if the track of the first is not unpublished in between.  The calls may be at
any times; if these do not decrease the difference is the time between the requests. -/
theorem requests_spaced (visit : ExtTreeMap SubscriptionId DownTrack → List DownTrack)
    (configuration : RoomConfig) (calls : List Call) {before between after : List Entry}
    {now now' : ℕ} {trackId trackId' : TrackId} {mediaSsrc : UInt32}
    (hlog : log visit (new configuration) calls =
      before ++ .requested now trackId mediaSsrc ::
        (between ++ .requested now' trackId' mediaSsrc :: after))
    (hbetween : ∀ track, .unpublished track ∈ between → track.id ≠ trackId) :
    configuration.pliThrottle ≤ now' - now := by
  have hallowed := (@logged_runCalls visit _ (consistent_new configuration) calls).allowed
  rw [hlog] at hallowed
  exact Ledger.requested_spaced hallowed hbetween

/-- A subscriber goes from layer to layer; in between its requests come too soon. -/
def Sample.switching : List Call :=
  Sample.watching ++ [.setTargetLayer 0 2 1 ⟨1, 1⟩, .setTargetLayer 10 2 1 ⟨0, 1⟩,
    .setTargetLayer 20 2 1 ⟨1, 1⟩, .setTargetLayer 30 2 1 ⟨0, 1⟩,
    .setTargetLayer 500000000 2 1 ⟨1, 1⟩]

theorem sample_requests_spaced :
    log Sample.inKeyOrder (new {}) Sample.switching =
      [.published DownTrack.Sample.video, .requested 0 1 8, .requested 10 1 7,
        .requested 500000000 1 8] ∧
    500000000 ≤ 500000000 - 0 := by
  have hlog : log Sample.inKeyOrder (new {}) Sample.switching =
      [.published DownTrack.Sample.video] ++ .requested 0 1 8 ::
        ([.requested 10 1 7] ++ .requested 500000000 1 8 :: []) := by
    decide
  exact ⟨hlog, requests_spaced Sample.inKeyOrder {} Sample.switching hlog (by simp)⟩

end Room

end Fluvora.Sfu
