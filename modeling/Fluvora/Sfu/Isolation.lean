import Fluvora.Sfu.Indices

/-!
# Isolation of the subscribers of a track

What one subscription gets out of a packet is its part of the output and its down-track afterwards
(`received`).  The subscribers of a track do not see each other as long as every down-track that
takes the packet can rewrite its header extensions (`Rewritable`).  If one of them cannot,
`handleRtp` fails after that down-track has moved on, and the subscribers behind it get nothing.
-/

open Std (ExtTreeMap)

namespace Fluvora.Sfu

open Fallible Results

namespace Room

variable {visit : ExtTreeMap SubscriptionId DownTrack → List DownTrack}

/-- What one subscription gets out of a call of `handleRtp`: its packets, and its state afterwards. -/
def received (result : Except SfuError ForwardOutcome × Room) (id : SubscriptionId) :
    List ForwardedPacket × Option DownTrack :=
  (match result.1 with
    | .error _ => []
    | .ok output => output.packets.filter fun packet => packet.subscriptionId = id,
    result.2.subscriptions[id]?)

/-- The room after some subscriptions have been removed. -/
def without (room : Room) (others : List SubscriptionId) : Room :=
  others.foldl (fun room id => (room.unsubscribe id).2) room

/-- Every subscription gets out of the packet what it would get without any of the others. -/
def Isolated (visit : ExtTreeMap SubscriptionId DownTrack → List DownTrack) (room : Room) (now : ℕ)
    (publisher : ParticipantId) (input : Bytes) : Prop :=
  ∀ id others, id ∉ others →
    received ((handleRtp visit now publisher input).run room) id =
      received ((handleRtp visit now publisher input).run (room.without others)) id

/-- A failure leaves every down-track as it was. -/
def KeepsOnError (visit : ExtTreeMap SubscriptionId DownTrack → List DownTrack) (room : Room)
    (now : ℕ) (publisher : ParticipantId) (input : Bytes) : Prop :=
  ∀ error room', (handleRtp visit now publisher input).run room = (.error error, room') →
    ∀ id : SubscriptionId, room'.subscriptions[id]? = room.subscriptions[id]?

/-- Every subscriber of the packet's track that takes the packet can rewrite its extensions. -/
def Rewritable (room : Room) (publisher : ParticipantId) (input : Bytes) : Prop :=
  ∀ source, room.identify publisher input = .ok source →
    ∀ (id : SubscriptionId) downTrack, room.subscriptions[id]? = some downTrack →
      downTrack.configuration.trackId = source.trackId →
      downTrack.takes source.track source.spatialLayer source.info →
      ∃ packet, Rtp.rewriteHeaderExtensions input downTrack.configuration.extensionRewrites =
        .ok packet

/-! ## The loop -/

section Loop

variable {now : ℕ} {track : PublishedTrack} {spatialLayer : UInt8}
  {info : MediaCodec.PayloadInfo} {input : Bytes}

/-- The packets of one decision. -/
def packetsOf : Except SfuError ForwardDecision → List ForwardedPacket
  | .ok (.forwarded packet _) => [packet]
  | _ => []

/-- The packets that a subscription is sent. -/
def packetsFor (room : Room) (now : ℕ) (track : PublishedTrack) (spatialLayer : UInt8)
    (info : MediaCodec.PayloadInfo) (input : Bytes) (id : SubscriptionId) : List ForwardedPacket :=
  match room.subscriptions[id]? with
  | none => []
  | some downTrack =>
      packetsOf ((DownTrack.forward now track spatialLayer info input).run downTrack).1

theorem packets_addDecision (decision : ForwardDecision) (rest : ForwardOutcome × Bool) :
    (addDecision decision rest).1.packets = packetsOf (.ok decision) ++ rest.1.packets := by
  cases decision <;> rfl

/-- If no down-track fails, all of them are served. -/
theorem forwardAll_ok {ids : List SubscriptionId} (hnodup : ids.Nodup) {room : Room}
    (hok : ∀ id ∈ ids, ∃ downTrack decision downTrack', room.subscriptions[id]? = some downTrack ∧
      (DownTrack.forward now track spatialLayer info input).run downTrack =
        (.ok decision, downTrack')) :
    ∃ output needsPli room',
      (forwardAll now track spatialLayer info input ids).run room = (.ok (output, needsPli), room') ∧
      output.packets = ids.flatMap (room.packetsFor now track spatialLayer info input) ∧
      ∀ id : SubscriptionId, room'.subscriptions[id]? =
        if id ∈ ids then
          room.subscriptions[id]?.map fun downTrack =>
            ((DownTrack.forward now track spatialLayer info input).run downTrack).2
        else room.subscriptions[id]? := by
  induction ids generalizing room with
  | nil => exact ⟨{}, false, room, rfl, rfl, fun id => by simp⟩
  | cons id ids ih =>
    rw [List.nodup_cons] at hnodup
    obtain ⟨downTrack, decision, downTrack', hdown, hrun⟩ := hok id (by simp)
    obtain ⟨next, hnext⟩ : ∃ next, next =
      { room with subscriptions := room.subscriptions.insert id downTrack' } := ⟨_, rfl⟩
    have hother : ∀ other, other ≠ id → next.subscriptions[other]? = room.subscriptions[other]? := by
      intro other hne
      rw [hnext]
      exact Maps.getElem?_insert_of_ne hne.symm
    have hforward : (forwardTo now track spatialLayer info input id downTrack).run room =
        (.ok decision, next) := by
      rw [forwardTo, hrun, hnext]
      rfl
    have hne : ∀ other ∈ ids, other ≠ id := by
      rintro other hmem rfl
      exact hnodup.1 hmem
    have hoks : ∀ other ∈ ids, ∃ downTrack decision downTrack',
        next.subscriptions[other]? = some downTrack ∧
        (DownTrack.forward now track spatialLayer info input).run downTrack =
          (.ok decision, downTrack') := by
      intro other hmem
      rw [hother other (hne other hmem)]
      exact hok other (by simp [hmem])
    obtain ⟨output, needsPli, room', hrest, hpackets, hstates⟩ := ih hnodup.2 hoks
    refine ⟨(addDecision decision (output, needsPli)).1, (addDecision decision (output, needsPli)).2,
      room', ?_, ?_, ?_⟩
    · rw [forwardAll, run_get_bind, hdown]
      dsimp only
      rw [run_bind, hforward]
      dsimp only
      rw [run_bind, hrest]
      rfl
    · have hthis : room.packetsFor now track spatialLayer info input id =
          packetsOf (.ok decision) := by
        rw [packetsFor, hdown]
        dsimp only
        rw [hrun]
      have hothers : ids.flatMap (next.packetsFor now track spatialLayer info input) =
          ids.flatMap (room.packetsFor now track spatialLayer info input) := by
        refine List.flatMap_congr fun other hmem => ?_
        rw [packetsFor, packetsFor, hother other (hne other hmem)]
      rw [packets_addDecision, List.flatMap_cons, hthis, hpackets, hothers]
    · intro other
      rw [hstates]
      by_cases hid : other = id
      · subst hid
        rw [if_neg hnodup.1, if_pos (by simp), hnext, hdown]
        simp [hrun]
      · rw [hother other hid]
        simp [hid]

/-- The first down-track that fails has moved on, and stops the loop. -/
theorem forwardAll_error {ids : List SubscriptionId} (hnodup : ids.Nodup) {room : Room}
    {id : SubscriptionId} (hmem : id ∈ ids) {downTrack downTrack' : DownTrack} {error : SfuError}
    (hdown : room.subscriptions[id]? = some downTrack)
    (hfail : (DownTrack.forward now track spatialLayer info input).run downTrack =
      (.error error, downTrack'))
    (hmoved : ∀ id ∈ ids, ∀ downTrack downTrack' error,
      room.subscriptions[id]? = some downTrack →
      (DownTrack.forward now track spatialLayer info input).run downTrack =
        (.error error, downTrack') → downTrack' ≠ downTrack) :
    ∃ error room', (forwardAll now track spatialLayer info input ids).run room =
      (.error error, room') ∧ ∃ other ∈ ids,
        room'.subscriptions[other]? ≠ room.subscriptions[other]? := by
  induction ids generalizing room with
  | nil => simp at hmem
  | cons first ids ih =>
    rw [List.nodup_cons] at hnodup
    have hne : ∀ other ∈ ids, first ≠ other := by
      rintro other hother rfl
      exact hnodup.1 hother
    rw [forwardAll, run_get_bind]
    cases hfirst : room.subscriptions[first]? with
    | none =>
      have hrest : id ∈ ids := by
        rcases List.mem_cons.mp hmem with rfl | hrest
        · rw [hdown] at hfirst
          cases hfirst
        · exact hrest
      obtain ⟨error, room', hrun, other, hother, hchanged⟩ := ih hnodup.2 hrest hdown
        fun id hid => hmoved id (by simp [hid])
      exact ⟨error, room', hrun, other, by simp [hother], hchanged⟩
    | some firstTrack =>
      dsimp only
      rw [run_bind, forwardTo]
      rcases hresult : (DownTrack.forward now track spatialLayer info input).run firstTrack with
        ⟨firstError | decision, firstTrack'⟩
      · refine ⟨firstError, _, rfl, first, by simp, ?_⟩
        have hmove := hmoved first (by simp) firstTrack firstTrack' firstError hfirst hresult
        rw [ExtTreeMap.getElem?_insert_self, hfirst]
        simpa using hmove
      · obtain ⟨next, hnext⟩ : ∃ next, next =
          { room with subscriptions := room.subscriptions.insert first firstTrack' } := ⟨_, rfl⟩
        have hkept : ∀ other ∈ ids, next.subscriptions[other]? = room.subscriptions[other]? := by
          intro other hother
          rw [hnext]
          exact Maps.getElem?_insert_of_ne (hne other hother)
        have hrest : id ∈ ids := by
          rcases List.mem_cons.mp hmem with rfl | hrest
          · rw [hdown, Option.some.injEq] at hfirst
            subst hfirst
            rw [hfail] at hresult
            cases hresult
          · exact hrest
        have hmoves : ∀ id ∈ ids, ∀ downTrack downTrack' error,
            next.subscriptions[id]? = some downTrack →
            (DownTrack.forward now track spatialLayer info input).run downTrack =
              (.error error, downTrack') → downTrack' ≠ downTrack := by
          intro other hother downTrack downTrack' error hlookup
          rw [hkept other hother] at hlookup
          exact hmoved other (by simp [hother]) downTrack downTrack' error hlookup
        obtain ⟨error, room', hrun, other, hother, hchanged⟩ :=
          ih hnodup.2 hrest ((hkept id hrest).trans hdown) hmoves
        refine ⟨error, room', ?_, other, by simp [hother], ?_⟩
        · show run _ { room with
            subscriptions := room.subscriptions.insert first firstTrack' } = _
          rw [← hnext, run_bind, hrun]
        · rwa [hkept other hother] at hchanged

/-- A down-track whose extensions can be rewritten does not fail. -/
theorem exists_forward_ok {parsed : Rtp.Packet} (hparse : Rtp.Packet.parse input = .ok parsed)
    {downTrack : DownTrack} (hsafe : downTrack.configuration.outputPayloadType ≤ 127)
    (hrewritable : downTrack.takes track spatialLayer info →
      ∃ packet, Rtp.rewriteHeaderExtensions input downTrack.configuration.extensionRewrites =
        .ok packet) :
    ∃ decision downTrack', (DownTrack.forward now track spatialLayer info input).run downTrack =
      (.ok decision, downTrack') := by
  obtain ⟨waiting, -, hrun⟩ | ⟨error, hparse', -⟩ | ⟨parsed, error, htakes, hparse', hfail, -⟩ |
    ⟨parsed, packet, -, -, -, hrun⟩ :=
    DownTrack.forward_cases downTrack now track spatialLayer info input
  · exact ⟨_, _, hrun⟩
  · rw [hparse] at hparse'
    cases hparse'
  · obtain ⟨packet, hpacket⟩ :=
      (DownTrack.exists_rewritten_iff hparse' hsafe).mpr (hrewritable htakes)
    rw [hfail] at hpacket
    cases hpacket
  · exact ⟨_, _, hrun⟩

/-- A down-track that fails has counted the packet. -/
theorem ne_of_forward_error {parsed : Rtp.Packet} (hparse : Rtp.Packet.parse input = .ok parsed)
    {downTrack downTrack' : DownTrack} {error : SfuError}
    (h : (DownTrack.forward now track spatialLayer info input).run downTrack =
      (.error error, downTrack')) : downTrack' ≠ downTrack := by
  obtain ⟨waiting, -, hrun⟩ | ⟨error, hparse', -⟩ | ⟨parsed, error, -, -, -, hrun⟩ |
    ⟨parsed, packet, -, -, -, hrun⟩ :=
    DownTrack.forward_cases downTrack now track spatialLayer info input
  · rw [hrun] at h
    cases h
  · rw [hparse] at hparse'
    cases hparse'
  · rw [hrun] at h
    cases h
    intro hsame
    have hnext := congrArg DownTrack.nextSequenceNumber hsame
    rw [DownTrack.nextSequenceNumber_advance] at hnext
    simp at hnext
  · rw [hrun] at h
    cases h

/-- A down-track that takes the packet, but cannot rewrite its extensions, fails. -/
theorem exists_forward_error {parsed : Rtp.Packet} (hparse : Rtp.Packet.parse input = .ok parsed)
    {downTrack : DownTrack} (hsafe : downTrack.configuration.outputPayloadType ≤ 127)
    (htakes : downTrack.takes track spatialLayer info)
    (hfail : ¬∃ packet, Rtp.rewriteHeaderExtensions input
      downTrack.configuration.extensionRewrites = .ok packet) :
    ∃ error downTrack', (DownTrack.forward now track spatialLayer info input).run downTrack =
      (.error error, downTrack') := by
  rw [DownTrack.forward_of_takes htakes, DownTrack.forwardTaken_run hparse]
  cases hrewritten : downTrack.rewritten parsed input with
  | error error => exact ⟨_, _, rfl⟩
  | ok packet => exact absurd ((DownTrack.exists_rewritten_iff hparse hsafe).mp ⟨_, hrewritten⟩) hfail

theorem subscriptionId_of_mem_packetsFor {room : Room} (hroom : Consistent room)
    {id : SubscriptionId} {packet : ForwardedPacket}
    (h : packet ∈ room.packetsFor now track spatialLayer info input id) :
    packet.subscriptionId = id := by
  unfold packetsFor at h
  cases hdown : room.subscriptions[id]? with
  | none => simp [hdown] at h
  | some downTrack =>
    have hid : downTrack.configuration.id = id :=
      (hroom.configured id _ (by rw [subscriptionConfig, hdown, Option.map_some])).1
    rw [hdown] at h
    dsimp only at h
    obtain ⟨waiting, -, hrun⟩ | ⟨error, -, hrun⟩ | ⟨parsed, error, -, -, -, hrun⟩ |
      ⟨parsed, packet, -, -, -, hrun⟩ :=
      DownTrack.forward_cases downTrack now track spatialLayer info input
    · rw [hrun] at h
      simp [packetsOf] at h
    · rw [hrun] at h
      simp [packetsOf] at h
    · rw [hrun] at h
      simp [packetsOf] at h
    · rw [hrun] at h
      simp only [packetsOf, List.mem_singleton] at h
      rw [h]
      exact hid

/-- The packets of one subscription among those of all. -/
theorem filter_flatMap_packetsFor {room : Room} (hroom : Consistent room)
    {ids : List SubscriptionId} (hnodup : ids.Nodup) (id : SubscriptionId) :
    ((ids.flatMap (room.packetsFor now track spatialLayer info input)).filter
      fun packet => packet.subscriptionId = id) =
        if id ∈ ids then room.packetsFor now track spatialLayer info input id else [] := by
  induction ids with
  | nil => simp
  | cons first ids ih =>
    rw [List.nodup_cons] at hnodup
    rw [List.flatMap_cons, List.filter_append, ih hnodup.2]
    by_cases hid : first = id
    · subst hid
      rw [if_neg hnodup.1, if_pos (by simp), List.append_nil, List.filter_eq_self]
      intro packet hpacket
      simpa using subscriptionId_of_mem_packetsFor hroom hpacket
    · have hnone : (room.packetsFor now track spatialLayer info input first).filter
          (fun packet => packet.subscriptionId = id) = [] := by
        rw [List.filter_eq_nil_iff]
        intro packet hpacket
        rw [subscriptionId_of_mem_packetsFor hroom hpacket]
        simpa using hid
      rw [hnone, List.nil_append]
      simp [Ne.symm hid]

end Loop

/-! ## The whole call -/

section Call

variable {now : ℕ} {publisher : ParticipantId} {input : Bytes}

/-- Asking for a keyframe does not fail and leaves the down-tracks alone. -/
theorem requestWaiting_run (trackId : TrackId) (track : PublishedTrack) (needsPli : Bool)
    (room : Room) :
    ∃ events room', (requestWaiting visit now trackId track needsPli).run room =
      (.ok events, room') ∧ room'.subscriptions = room.subscriptions := by
  rw [requestWaiting, run_get_bind]
  have hkeyframe : ∀ mediaSsrc, ∃ events room',
      (requestKeyframe now trackId mediaSsrc).run room = (.ok events, room') ∧
        room'.subscriptions = room.subscriptions := by
    intro mediaSsrc
    refine ⟨(room.maybePli now trackId mediaSsrc).1.toList,
      (room.maybePli now trackId mediaSsrc).2, rfl, ?_⟩
    unfold maybePli
    split_ifs <;> rfl
  cases needsPli with
  | false => exact ⟨[], room, rfl, rfl⟩
  | true =>
    cases room.waitingTarget visit trackId track with
    | none => exact ⟨[], room, rfl, rfl⟩
    | some target => exact hkeyframe target.ssrc

theorem handleRtp_of_identify_error {room : Room} {error : SfuError}
    (h : room.identify publisher input = .error error) :
    (handleRtp visit now publisher input).run room = (.error error, room) := by
  rw [handleRtp, run_get_bind, run_ofExcept_bind, h]

/-- The down-track of a subscriber of a track. -/
theorem exists_of_mem_subscribers {room : Room} (hroom : Consistent room) {trackId : TrackId}
    {id : SubscriptionId} (h : id ∈ room.subscribers trackId) :
    ∃ downTrack, room.subscriptions[id]? = some downTrack ∧
      downTrack.configuration.trackId = trackId ∧
      downTrack.configuration.outputPayloadType ≤ 127 := by
  obtain ⟨configuration, hconfig, htrack⟩ := ((hroom.lists trackId).mem id).mp h
  obtain ⟨downTrack, hdown, rfl⟩ := Option.map_eq_some_iff.mp hconfig
  exact ⟨downTrack, hdown, htrack, (hroom.configured id _ hconfig).2.1.1⟩

theorem mem_subscribers {room : Room} (hroom : Consistent room) {id : SubscriptionId}
    {downTrack : DownTrack} (h : room.subscriptions[id]? = some downTrack) :
    id ∈ room.subscribers downTrack.configuration.trackId :=
  ((hroom.lists _).mem id).mpr ⟨_, by rw [subscriptionConfig, h, Option.map_some], rfl⟩

/-- If every down-track can rewrite the packet, the packet is handled. -/
theorem handleRtp_of_rewritable {room : Room} (hroom : Consistent room)
    (hrewritable : Rewritable room publisher input) {source : Source}
    (hsource : room.identify publisher input = .ok source) :
    ∃ output room', (handleRtp visit now publisher input).run room = (.ok output, room') ∧
      output.packets = (room.subscribers source.trackId).flatMap
        (room.packetsFor now source.track source.spatialLayer source.info input) ∧
      ∀ id : SubscriptionId, room'.subscriptions[id]? =
        if id ∈ room.subscribers source.trackId then
          room.subscriptions[id]?.map fun downTrack =>
            ((DownTrack.forward now source.track source.spatialLayer source.info input).run
              downTrack).2
        else room.subscriptions[id]? := by
  obtain ⟨parsed, hparse, -, -⟩ := identify_eq_ok hsource
  have hok : ∀ id ∈ room.subscribers source.trackId, ∃ downTrack decision downTrack',
      room.subscriptions[id]? = some downTrack ∧
      (DownTrack.forward now source.track source.spatialLayer source.info input).run downTrack =
        (.ok decision, downTrack') := by
    intro id hid
    obtain ⟨downTrack, hdown, htrack, hsafe⟩ := exists_of_mem_subscribers hroom hid
    obtain ⟨decision, downTrack', hrun⟩ := exists_forward_ok hparse hsafe
      (hrewritable source hsource id downTrack hdown htrack)
    exact ⟨downTrack, decision, downTrack', hdown, hrun⟩
  obtain ⟨output, needsPli, room', hrun, hpackets, hstates⟩ :=
    forwardAll_ok (hroom.lists source.trackId).nodup hok
  obtain ⟨events, room'', hwaiting, hsame⟩ :=
    @requestWaiting_run visit now source.trackId source.track needsPli room'
  refine ⟨{ output with events := output.events ++ events }, room'', ?_, hpackets, ?_⟩
  · rw [handleRtp, run_get_bind, run_ofExcept_bind, hsource]
    dsimp only
    rw [← subscribers, run_bind, hrun]
    dsimp only
    rw [run_bind, hwaiting]
    rfl
  · rw [hsame]
    exact hstates

/-- What a subscription gets depends on its own down-track only. -/
theorem received_of_rewritable {room : Room} (hroom : Consistent room)
    (hrewritable : Rewritable room publisher input) {source : Source}
    (hsource : room.identify publisher input = .ok source) (id : SubscriptionId) :
    received ((handleRtp visit now publisher input).run room) id =
      match room.subscriptions[id]? with
      | none => ([], none)
      | some downTrack =>
          if downTrack.configuration.trackId = source.trackId then
            (packetsOf ((DownTrack.forward now source.track source.spatialLayer source.info
                input).run downTrack).1,
              some ((DownTrack.forward now source.track source.spatialLayer source.info
                input).run downTrack).2)
          else ([], some downTrack) := by
  obtain ⟨output, room', hrun, hpackets, hstates⟩ :=
    @handleRtp_of_rewritable visit now publisher input room hroom hrewritable source hsource
  rw [hrun, received, hstates]
  dsimp only
  rw [hpackets, filter_flatMap_packetsFor hroom (hroom.lists _).nodup]
  by_cases hmem : id ∈ room.subscribers source.trackId
  · obtain ⟨downTrack, hdown, htrack, -⟩ := exists_of_mem_subscribers hroom hmem
    rw [if_pos hmem, if_pos hmem, packetsFor, hdown]
    simp [htrack]
  · rw [if_neg hmem, if_neg hmem]
    cases hdown : room.subscriptions[id]? with
    | none => rfl
    | some downTrack =>
      have htrack : downTrack.configuration.trackId ≠ source.trackId := by
        intro htrack
        exact hmem (htrack ▸ mem_subscribers hroom hdown)
      simp [htrack]

/-- If a down-track cannot rewrite the packet, the call fails and some down-track has moved on. -/
theorem handleRtp_of_not_rewritable {room : Room} (hroom : Consistent room)
    (h : ¬Rewritable room publisher input) :
    ∃ error room', (handleRtp visit now publisher input).run room = (.error error, room') ∧
      ∃ other : SubscriptionId, room'.subscriptions[other]? ≠ room.subscriptions[other]? := by
  unfold Rewritable at h
  push Not at h
  obtain ⟨source, hsource, id, downTrack, hdown, htrack, htakes, hfail⟩ := h
  obtain ⟨parsed, hparse, -, -⟩ := identify_eq_ok hsource
  have hmem : id ∈ room.subscribers source.trackId := htrack ▸ mem_subscribers hroom hdown
  have hsafe : downTrack.configuration.outputPayloadType ≤ 127 :=
    (hroom.configured id _ (by rw [subscriptionConfig, hdown, Option.map_some])).2.1.1
  obtain ⟨error, downTrack', hrun⟩ := @exists_forward_error now source.track source.spatialLayer
    source.info input parsed hparse downTrack hsafe htakes (by push Not; exact hfail)
  obtain ⟨error, room', hloop, other, -, hchanged⟩ := forwardAll_error
    (hroom.lists source.trackId).nodup hmem hdown hrun
    fun id _ downTrack downTrack' error _ hrun => ne_of_forward_error hparse hrun
  refine ⟨error, room', ?_, other, hchanged⟩
  rw [handleRtp, run_get_bind, run_ofExcept_bind, hsource]
  dsimp only
  rw [← subscribers, run_bind, hloop]

theorem removed_without (room : Room) (others : List SubscriptionId) :
    Removed room (room.without others) others := removed_foldl others room

theorem identify_without (room : Room) (others : List SubscriptionId) :
    (room.without others).identify publisher input = room.identify publisher input := by
  have hremoved := removed_without room others
  rw [identify, identify, hremoved.ssrcIndex, hremoved.tracks]

theorem Rewritable.without {room : Room} (h : Rewritable room publisher input)
    (others : List SubscriptionId) : Rewritable (room.without others) publisher input := by
  intro source hsource id downTrack hdown
  rw [identify_without] at hsource
  rw [(removed_without room others).subscription] at hdown
  split_ifs at hdown
  exact h source hsource id downTrack hdown

/-- The subscribers of a track do not see each other, and a failure leaves no trace, exactly if every
down-track that takes the packet can rewrite its header extensions. -/
theorem handleRtp_isolated_iff {room : Room} (hreachable : Reachable visit room) (now : ℕ)
    (publisher : ParticipantId) (input : Bytes) :
    Isolated visit room now publisher input ∧ KeepsOnError visit room now publisher input ↔
      Rewritable room publisher input := by
  have hroom := hreachable.consistent
  constructor
  · rintro ⟨-, hkeeps⟩
    by_contra hnot
    obtain ⟨error, room', hrun, other, hchanged⟩ := handleRtp_of_not_rewritable hroom hnot
    exact hchanged (hkeeps error room' hrun other)
  · intro hrewritable
    cases hsource : room.identify publisher input with
    | error error =>
      have hrun := @handleRtp_of_identify_error visit now publisher input room error hsource
      constructor
      · intro id others hid
        have hwithout := @handleRtp_of_identify_error visit now publisher input
          (room.without others) error ((identify_without room others).trans hsource)
        rw [hrun, hwithout, received, received, (removed_without room others).subscription,
          if_neg hid]
      · intro error' room' hrun' id
        rw [hrun] at hrun'
        cases hrun'
        rfl
    | ok source =>
      constructor
      · intro id others hid
        have hremoved := removed_without room others
        rw [received_of_rewritable hroom hrewritable hsource,
          received_of_rewritable (hremoved.consistent hroom) (hrewritable.without others)
            ((identify_without room others).trans hsource), hremoved.subscription, if_neg hid]
      · intro error room' hrun'
        obtain ⟨output, room'', hrun, -, -⟩ := @handleRtp_of_rewritable visit now publisher input
          room hroom hrewritable source hsource
        rw [hrun] at hrun'
        cases hrun'

end Call

/-! ## A subscriber that cannot rewrite -/

/-- Visits the down-tracks in the order of their identifiers. -/
def Sample.inKeyOrder (subscriptions : ExtTreeMap SubscriptionId DownTrack) : List DownTrack :=
  subscriptions.values

/-- An audio track of participant 1 with one encoding. -/
def Sample.track : PublishedTrack where
  id := 1
  owner := 1
  kind := .audio
  codec := .opus
  clockRate := 48000
  payloadType := 111
  encodings := [⟨7, 0⟩]

def Sample.subscription (id : SubscriptionId) (extensionRewrites : List Rtp.ExtensionRewrite) :
    SubscriptionConfig where
  id := id
  subscriber := 2
  trackId := 1
  outputSsrc := id.toUInt32 + 100
  outputPayloadType := 111
  initialLayer := ⟨0, 0⟩
  initialSequenceNumber := 1000
  initialTimestamp := 0
  extensionRewrites := extensionRewrites

/-- A packet of the track without header extensions. -/
def Sample.packet : Bytes := [0x80, 111, 0, 1, 0, 0, 0, 0, 0, 0, 0, 7, 42]

/-- Two subscribers, the first of which renumbers a header extension. -/
def Sample.room : Room :=
  runCalls Sample.inKeyOrder (new {}) [.publish Sample.track,
    .subscribe (Sample.subscription 1 [⟨1, some 2, none⟩]), .subscribe (Sample.subscription 2 [])]

theorem sample_handleRtp_isolated_iff :
    Reachable Sample.inKeyOrder Sample.room ∧
    (Isolated Sample.inKeyOrder Sample.room 0 1 Sample.packet ∧
        KeepsOnError Sample.inKeyOrder Sample.room 0 1 Sample.packet ↔
      Rewritable Sample.room 1 Sample.packet) :=
  ⟨⟨{}, _, rfl⟩, handleRtp_isolated_iff ⟨{}, _, rfl⟩ 0 1 Sample.packet⟩

/-- The packet cannot be rewritten for the first subscriber: the call fails, the first subscriber has
used up a sequence number, and the second gets nothing, although alone it would be served. -/
theorem unrewritable_packet_not_isolated :
    Reachable Sample.inKeyOrder Sample.room ∧
    ¬Isolated Sample.inKeyOrder Sample.room 0 1 Sample.packet ∧
    ¬KeepsOnError Sample.inKeyOrder Sample.room 0 1 Sample.packet := by
  refine ⟨⟨{}, _, rfl⟩, ?_, ?_⟩
  · intro hisolated
    have hreceived := congrArg Prod.fst (hisolated 2 [1] (by decide))
    revert hreceived
    decide
  · intro hkeeps
    rcases hrun : (handleRtp Sample.inKeyOrder 0 1 Sample.packet).run Sample.room with
      ⟨error | output, room'⟩
    · have hkept := hkeeps error room' hrun 1
      have hroom : room' = ((handleRtp Sample.inKeyOrder 0 1 Sample.packet).run Sample.room).2 := by
        rw [hrun]
      rw [hroom] at hkept
      revert hkept
      decide
    · have hok : ((handleRtp Sample.inKeyOrder 0 1 Sample.packet).run Sample.room).1.isOk = true := by
        rw [hrun]
        rfl
      revert hok
      decide

end Room

end Fluvora.Sfu
