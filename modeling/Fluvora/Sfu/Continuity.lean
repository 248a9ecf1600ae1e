import Fluvora.Lib.Runs
import Fluvora.Sfu.Indices

/-!
# What a subscriber sees of a track

A down-track is driven by packets of the encodings of its track, by target changes and by
retransmission requests, in any order.  `emissions` are the packets that it forwards.  They carry
consecutive sequence numbers, keep the timestamp distances of their source as long as the source
does not change, and never exceed the temporal target; the spatial layer of a video track changes
only at the start of a keyframe of the target layer.
-/

open Std (ExtTreeMap)

namespace Fluvora.Sfu

open Fallible Results

namespace DownTrack

/-- What happens to a down-track. -/
inductive Event
  | forward (now : ℕ) (spatialLayer : UInt8) (info : MediaCodec.PayloadInfo) (input : Bytes)
  | setTargetLayer (layer : Layer)
  | retransmit (now : ℕ) (sequenceNumbers : List UInt16)

/-- The down-track after an event. -/
def step (track : PublishedTrack) (d : DownTrack) : Event → DownTrack
  | .forward now spatialLayer info input =>
      ((forward now track spatialLayer info input).run d).2
  | .setTargetLayer layer => (d.setTargetLayer layer).2
  | .retransmit now sequenceNumbers => (d.retransmit now sequenceNumbers).2

def runEvents (track : PublishedTrack) (d : DownTrack) (events : List Event) : DownTrack :=
  events.foldl (step track) d

/-- A packet comes from the encoding of the track that its SSRC belongs to. -/
def Event.FromTrack (track : PublishedTrack) : Event → Prop
  | .forward _ spatialLayer _ input => ∃ parsed, Rtp.Packet.parse input = .ok parsed ∧
      (⟨parsed.header.ssrc, spatialLayer⟩ : Encoding) ∈ track.encodings
  | _ => True

/-- The event does not fail. -/
def Event.Succeeds (track : PublishedTrack) (d : DownTrack) : Event → Prop
  | .forward now spatialLayer info input =>
      ((DownTrack.forward now track spatialLayer info input).run d).1.isOk = true
  | _ => True

instance (track : PublishedTrack) (d : DownTrack) : (event : Event) →
    Decidable (event.Succeeds track d)
  | .forward .. => inferInstanceAs (Decidable (_ = true))
  | .setTargetLayer _ => isTrue trivial
  | .retransmit .. => isTrue trivial

/-- No event of the run fails. -/
def Succeed (track : PublishedTrack) : DownTrack → List Event → Prop
  | _, [] => True
  | d, event :: events => event.Succeeds track d ∧ Succeed track (step track d event) events

/-- A forwarded packet, with what the down-track knew about it. -/
structure Emission where
  packet : Bytes
  spatialLayer : UInt8
  temporalId : Option UInt8
  inputTimestamp : UInt32
  /-- The target at that time. -/
  target : Layer

/-- The timestamp of a forwarded packet on the wire. -/
def Emission.timestamp (emission : Emission) : UInt32 := (emission.packet.u32At 4).getD 0

/-- What an event makes the down-track forward. -/
def emits (track : PublishedTrack) (d : DownTrack) : Event → Option Emission
  | .forward now spatialLayer info input =>
    match ((forward now track spatialLayer info input).run d).1, Rtp.Packet.parse input with
    | .ok (.forwarded packet _), .ok parsed =>
      some ⟨packet.packet, spatialLayer, info.temporalId, parsed.header.timestamp, d.targetLayer⟩
    | _, _ => none
  | _ => none

/-- The packets that a run forwards. -/
def emissions (track : PublishedTrack) (d : DownTrack) (events : List Event) : List Emission :=
  Runs.produced (step track) (emits track) d events

/-- Two packets of one layer are as far apart as their sources. -/
def KeepsDistance (a b : Emission) : Prop :=
  a.spatialLayer = b.spatialLayer → b.timestamp - a.timestamp = b.inputTimestamp - a.inputTimestamp

/-! ## One event -/

variable {track : PublishedTrack} {d : DownTrack}

/-- The state behind the packet that was forwarded last. -/
structure Behind (track : PublishedTrack) (last : Emission) (d : DownTrack) : Prop where
  source : ∃ ssrc, (⟨ssrc, last.spatialLayer⟩ : Encoding) ∈ track.encodings ∧
    d.currentInputSsrc = some ssrc
  selected : d.selectedSpatial = some last.spatialLayer
  timestamp : last.timestamp =
    d.outputTimestampBase + (last.inputTimestamp - d.inputTimestampBase)

/-- The state before the first packet. -/
structure Fresh (d : DownTrack) : Prop where
  source : d.currentInputSsrc = none
  selected : d.selectedSpatial = none

/-- The state after some packets. -/
def Follows (track : PublishedTrack) : Option Emission → DownTrack → Prop
  | none, d => Fresh d
  | some last, d => Behind track last d

/-- An event that forwards nothing leaves the rewriting state alone. -/
structure Idle (d d' : DownTrack) : Prop where
  configuration : d'.configuration = d.configuration
  nextSequenceNumber : d'.nextSequenceNumber = d.nextSequenceNumber
  currentInputSsrc : d'.currentInputSsrc = d.currentInputSsrc
  selectedSpatial : d'.selectedSpatial = d.selectedSpatial
  inputTimestampBase : d'.inputTimestampBase = d.inputTimestampBase
  outputTimestampBase : d'.outputTimestampBase = d.outputTimestampBase

theorem Idle.refl (d : DownTrack) : Idle d d := ⟨rfl, rfl, rfl, rfl, rfl, rfl⟩

theorem Idle.follows {d' : DownTrack} (h : Idle d d') {last : Option Emission}
    (hlast : Follows track last d) : Follows track last d' := by
  cases last with
  | none => exact ⟨h.currentInputSsrc.trans hlast.source, h.selectedSpatial.trans hlast.selected⟩
  | some last =>
    obtain ⟨⟨ssrc, hencoding, hssrc⟩, hselected, htimestamp⟩ := hlast
    refine ⟨⟨ssrc, hencoding, h.currentInputSsrc.trans hssrc⟩, h.selectedSpatial.trans hselected, ?_⟩
    rw [htimestamp, h.outputTimestampBase, h.inputTimestampBase]

theorem idle_setTargetLayer (layer : Layer) : Idle d (d.setTargetLayer layer).2 := by
  unfold setTargetLayer
  split_ifs
  · exact .refl d
  · exact ⟨rfl, rfl, rfl, rfl, rfl, rfl⟩

theorem idle_expireCache (now : ℕ) : Idle d (d.expireCache now) := ⟨rfl, rfl, rfl, rfl, rfl, rfl⟩

theorem idle_cachePacket (now : ℕ) (packet : ForwardedPacket) : Idle d (d.cachePacket now packet) := by
  unfold cachePacket
  dsimp only
  split_ifs
  · exact idle_expireCache now
  · exact ⟨rfl, rfl, rfl, rfl, rfl, rfl⟩

theorem rewriteBase_eq (inputTimestamp : UInt32) (switched : Bool) :
    (d.rewriteBase inputTimestamp switched).2.currentInputSsrc = d.currentInputSsrc ∧
    (d.rewriteBase inputTimestamp switched).2.selectedSpatial = d.selectedSpatial := by
  unfold rewriteBase
  split_ifs
  · exact ⟨rfl, rfl⟩
  · exact ⟨rfl, rfl⟩
  · exact ⟨rfl, rfl⟩

theorem bases_advance (parsed : Rtp.Packet) (spatialLayer : UInt8) :
    (d.advance parsed spatialLayer).inputTimestampBase =
      (d.rewriteBase parsed.header.timestamp (d.switches parsed)).2.inputTimestampBase ∧
    (d.advance parsed spatialLayer).outputTimestampBase =
      (d.rewriteBase parsed.header.timestamp (d.switches parsed)).2.outputTimestampBase := by
  unfold advance
  split_ifs
  · exact ⟨rfl, rfl⟩
  · exact ⟨rfl, rfl⟩

theorem source_advance (parsed : Rtp.Packet) (spatialLayer : UInt8) :
    (d.advance parsed spatialLayer).currentInputSsrc =
      (if d.switches parsed then some parsed.header.ssrc else d.currentInputSsrc) ∧
    (d.advance parsed spatialLayer).selectedSpatial =
      if d.switches parsed then some spatialLayer else d.selectedSpatial := by
  have hbase := @rewriteBase_eq d parsed.header.timestamp (d.switches parsed)
  unfold advance
  split_ifs
  · exact ⟨rfl, rfl⟩
  · exact hbase

/-- A packet from another source becomes the new base. -/
theorem bases_of_switches {parsed : Rtp.Packet} (h : d.switches parsed = true)
    (spatialLayer : UInt8) :
    (d.advance parsed spatialLayer).inputTimestampBase = parsed.header.timestamp ∧
    (d.advance parsed spatialLayer).outputTimestampBase = d.outputTimestamp parsed := by
  have houtput : d.outputTimestamp parsed =
    (d.rewriteBase parsed.header.timestamp (d.switches parsed)).1 := rfl
  obtain ⟨hinputBase, houtputBase⟩ := @bases_advance d parsed spatialLayer
  rw [hinputBase, houtputBase, houtput, h, rewriteBase]
  by_cases hsource : d.currentInputSsrc = none
  · rw [if_pos hsource]
    exact ⟨rfl, rfl⟩
  · rw [if_neg hsource, if_pos rfl]
    exact ⟨rfl, rfl⟩

/-- A packet from the same source keeps the bases. -/
theorem bases_of_not_switches {parsed : Rtp.Packet} (h : d.switches parsed = false)
    (spatialLayer : UInt8) :
    (d.advance parsed spatialLayer).inputTimestampBase = d.inputTimestampBase ∧
    (d.advance parsed spatialLayer).outputTimestampBase = d.outputTimestampBase ∧
    d.outputTimestamp parsed =
      d.outputTimestampBase + (parsed.header.timestamp - d.inputTimestampBase) := by
  have hsource : ¬d.currentInputSsrc = none := by
    intro hnone
    simp [switches, hnone] at h
  have houtput : d.outputTimestamp parsed =
    (d.rewriteBase parsed.header.timestamp (d.switches parsed)).1 := rfl
  obtain ⟨hinputBase, houtputBase⟩ := @bases_advance d parsed spatialLayer
  rw [hinputBase, houtputBase, houtput, h, rewriteBase, if_neg hsource]
  exact ⟨rfl, rfl, rfl⟩

/-- An encoding is determined by its layer. -/
theorem ssrc_eq_of_layer (hvalid : validateTrack track = .ok ()) {ssrc ssrc' : UInt32}
    {layer : UInt8} (h : (⟨ssrc, layer⟩ : Encoding) ∈ track.encodings)
    (h' : (⟨ssrc', layer⟩ : Encoding) ∈ track.encodings) : ssrc = ssrc' := by
  have hinj := List.inj_on_of_nodup_map (Room.validateTrack_eq_ok hvalid).2 h h' rfl
  exact congrArg Encoding.ssrc hinj

theorem layer_eq_of_ssrc (hvalid : validateTrack track = .ok ()) {ssrc : UInt32}
    {layer layer' : UInt8} (h : (⟨ssrc, layer⟩ : Encoding) ∈ track.encodings)
    (h' : (⟨ssrc, layer'⟩ : Encoding) ∈ track.encodings) : layer = layer' := by
  have hinj := List.inj_on_of_nodup_map (Room.validateTrack_eq_ok hvalid).1 h h' rfl
  exact congrArg Encoding.spatialLayer hinj

/-- What one packet does: the state is behind it, and it is as far from the packet before as its
source. -/
theorem behind_advance (hvalid : validateTrack track = .ok ()) {last : Option Emission}
    (hlast : Follows track last d) {parsed : Rtp.Packet} {emission : Emission}
    (hencoding : (⟨parsed.header.ssrc, emission.spatialLayer⟩ : Encoding) ∈ track.encodings)
    (hinput : emission.inputTimestamp = parsed.header.timestamp)
    (houtput : emission.timestamp = d.outputTimestamp parsed) :
    Behind track emission (d.advance parsed emission.spatialLayer) ∧
      ∀ previous ∈ last, KeepsDistance previous emission := by
  obtain ⟨hssrc, hselected⟩ := @source_advance d parsed emission.spatialLayer
  cases hswitches : d.switches parsed with
  | true =>
    rw [hswitches, if_pos rfl] at hssrc hselected
    obtain ⟨hinputBase, houtputBase⟩ := bases_of_switches hswitches emission.spatialLayer
    refine ⟨⟨⟨_, hencoding, hssrc⟩, hselected, ?_⟩, ?_⟩
    · rw [houtput, houtputBase, hinput, hinputBase]
      simp
    · rintro previous ⟨⟩ hlayer
      -- one layer has one SSRC, so this packet would not have switched
      obtain ⟨⟨ssrc, hprevious, hcurrent⟩, -, -⟩ := hlast
      rw [hlayer] at hprevious
      rw [ssrc_eq_of_layer hvalid hprevious hencoding] at hcurrent
      simp [switches, hcurrent] at hswitches
  | false =>
    have hcurrent : d.currentInputSsrc = some parsed.header.ssrc := by
      simpa [switches] using hswitches
    rw [hswitches, if_neg (by simp)] at hssrc hselected
    obtain ⟨hinputBase, houtputBase, htimestamp⟩ :=
      bases_of_not_switches hswitches emission.spatialLayer
    cases last with
    | none =>
      rw [hlast.source] at hcurrent
      cases hcurrent
    | some previous =>
      obtain ⟨⟨ssrc, hprevious, hsource⟩, hlayer, hbase⟩ := hlast
      rw [hsource, Option.some.injEq] at hcurrent
      subst hcurrent
      have hsame := layer_eq_of_ssrc hvalid hprevious hencoding
      refine ⟨⟨⟨_, hencoding, hssrc.trans hsource⟩, ?_, ?_⟩, ?_⟩
      · rw [hselected, hlayer, hsame]
      · rw [houtput, htimestamp, houtputBase, hinputBase, hinput]
      · rintro _ ⟨⟩ -
        rw [houtput, htimestamp, hbase, hinput]
        grind

/-- What an event does that forwards a packet. -/
structure Emitted (last : Option Emission) (d : DownTrack) (emission : Emission)
    (track : PublishedTrack) (d' : DownTrack) : Prop where
  carries : Rtp.Carries emission.packet d.configuration.outputPayloadType d.nextSequenceNumber
    emission.timestamp d.configuration.outputSsrc
  distance : ∀ previous ∈ last, KeepsDistance previous emission
  temporal : ∀ temporal, emission.temporalId = some temporal → temporal ≤ emission.target.temporal
  behind : Behind track emission d'
  configuration : d'.configuration = d.configuration
  nextSequenceNumber : d'.nextSequenceNumber = d.nextSequenceNumber + 1

theorem emitted_step (hvalid : validateTrack track = .ok ()) {last : Option Emission}
    (hlast : Follows track last d) {event : Event} (hfrom : event.FromTrack track)
    {emission : Emission} (h : emits track d event = some emission) :
    Emitted last d emission track (step track d event) := by
  cases event with
  | setTargetLayer layer => simp [emits] at h
  | retransmit now sequenceNumbers => simp [emits] at h
  | forward now spatialLayer info input =>
    obtain ⟨waiting, -, hrun⟩ | ⟨error, -, hrun⟩ | ⟨parsed, error, -, -, -, hrun⟩ |
      ⟨parsed, packet, htakes, hparse, hrewritten, hrun⟩ :=
      forward_cases d now track spatialLayer info input
    · simp [emits, hrun] at h
    · simp [emits, hrun] at h
    · simp [emits, hrun] at h
    · simp only [emits, hrun, hparse, Option.some.injEq] at h
      obtain ⟨parsed', hparse', hencoding⟩ := hfrom
      rw [hparse, Except.ok.injEq] at hparse'
      subst hparse'
      have hcarries := carries_rewritten hparse hrewritten
      have htimestamp : emission.timestamp = d.outputTimestamp parsed := by
        rw [← h, Emission.timestamp]
        show (packet.u32At 4).getD 0 = _
        rw [hcarries.timestamp]
        rfl
      have hlayer : emission.spatialLayer = spatialLayer := by rw [← h]
      obtain ⟨hbehind, hdistance⟩ := behind_advance hvalid hlast (hlayer ▸ hencoding)
        (by rw [← h]) htimestamp
      have hidle := @idle_cachePacket (d.advance parsed spatialLayer) now
        (d.forwardedPacket spatialLayer info packet)
      rw [hlayer] at hbehind
      have hcached := hidle.follows (show Follows track (some emission) _ from hbehind)
      rw [step, hrun]
      refine ⟨?_, hdistance, ?_, hcached, ?_, ?_⟩
      · rw [htimestamp, ← h]
        exact hcarries
      · rw [← h]
        exact htakes.2.2
      · rw [configuration_cachePacket, configuration_advance]
      · exact hidle.nextSequenceNumber.trans nextSequenceNumber_advance

/-- An event that succeeds without forwarding leaves the rewriting state alone. -/
theorem idle_step {event : Event} (hsucceeds : event.Succeeds track d)
    (h : emits track d event = none) : Idle d (step track d event) := by
  cases event with
  | setTargetLayer layer => exact idle_setTargetLayer layer
  | retransmit now sequenceNumbers => exact idle_expireCache now
  | forward now spatialLayer info input =>
    unfold Event.Succeeds at hsucceeds
    obtain ⟨waiting, -, hrun⟩ | ⟨error, -, hrun⟩ | ⟨parsed, error, -, -, -, hrun⟩ |
      ⟨parsed, packet, -, hparse, -, hrun⟩ :=
      forward_cases d now track spatialLayer info input
    · rw [step, hrun]
      exact .refl d
    · simp [hrun, Except.isOk, Except.toBool] at hsucceeds
    · simp [hrun, Except.isOk, Except.toBool] at hsucceeds
    · simp [emits, hrun, hparse] at h

/-- The spatial layer of a video track changes only at the start of a keyframe of the target. -/
theorem selected_step (hvideo : track.kind = .video) {event : Event}
    (h : (step track d event).selectedSpatial ≠ d.selectedSpatial) :
    ∃ now info input, event = .forward now d.targetLayer.spatial info input ∧
      info.keyframe = true ∧ info.startOfFrame = true ∧
      (step track d event).selectedSpatial = some d.targetLayer.spatial := by
  cases event with
  | setTargetLayer layer => exact absurd (idle_setTargetLayer layer).selectedSpatial h
  | retransmit now sequenceNumbers => exact absurd (idle_expireCache now).selectedSpatial h
  | forward now spatialLayer info input =>
    have hadvance : ∀ parsed, d.takes track spatialLayer info →
        (step track d (.forward now spatialLayer info input)).selectedSpatial =
          (d.advance parsed spatialLayer).selectedSpatial →
        ∃ now' info' input', Event.forward now spatialLayer info input =
            .forward now' d.targetLayer.spatial info' input' ∧
          info'.keyframe = true ∧ info'.startOfFrame = true ∧
          (step track d (.forward now spatialLayer info input)).selectedSpatial =
            some d.targetLayer.spatial := by
      intro parsed htakes hstep
      rw [(source_advance parsed spatialLayer).2] at hstep
      split_ifs at hstep
      swap
      · exact absurd hstep h
      have hne : d.selectedSpatial ≠ some spatialLayer := fun hsame => h (hstep.trans hsame.symm)
      obtain ⟨hlayer, hkeyframe, -⟩ := htakes
      have htarget := hlayer.resolve_left hne
      obtain ⟨hkey, hstart⟩ := hkeyframe hvideo hne
      exact ⟨now, info, input, by rw [htarget], hkey, hstart, by rw [hstep, htarget]⟩
    obtain ⟨waiting, -, hrun⟩ | ⟨error, -, hrun⟩ | ⟨parsed, error, htakes, -, -, hrun⟩ |
      ⟨parsed, packet, htakes, -, -, hrun⟩ :=
      forward_cases d now track spatialLayer info input
    · rw [step, hrun] at h
      exact absurd rfl h
    · rw [step, hrun] at h
      exact absurd rfl h
    · exact hadvance parsed htakes (by rw [step, hrun])
    · refine hadvance parsed htakes ?_
      rw [step, hrun]
      exact (idle_cachePacket _ _).selectedSpatial

/-! ## Runs -/

/-- The packets of a run, from any state behind the packets before. -/
theorem emissions_continue (hvalid : validateTrack track = .ok ()) {events : List Event}
    (hfrom : ∀ event ∈ events, event.FromTrack track) {last : Option Emission} {d : DownTrack}
    (hlast : Follows track last d) (hsucceed : Succeed track d events) :
    (∀ k emission, (emissions track d events)[k]? = some emission →
      Rtp.Carries emission.packet d.configuration.outputPayloadType
        (d.nextSequenceNumber + .ofNat k) emission.timestamp d.configuration.outputSsrc ∧
      ∀ temporal, emission.temporalId = some temporal → temporal ≤ emission.target.temporal) ∧
    (last.toList ++ emissions track d events).IsChain KeepsDistance := by
  induction events generalizing last d with
  | nil =>
    refine ⟨fun k emission h => by simp [emissions, Runs.produced] at h, ?_⟩
    cases last <;> simp [emissions, Runs.produced]
  | cons event events ih =>
    have hfirst := hfrom event (by simp)
    have hrest : ∀ event ∈ events, event.FromTrack track := fun e he => hfrom e (by simp [he])
    obtain ⟨hnow, hlater⟩ := hsucceed
    cases hemits : emits track d event with
    | none =>
      have hidle := idle_step hnow hemits
      have hsame : emissions track d (event :: events) = emissions track (step track d event) events := by
        simp [emissions, Runs.produced, hemits]
      rw [hsame, ← hidle.configuration, ← hidle.nextSequenceNumber]
      exact ih hrest (hidle.follows hlast) hlater
    | some emission =>
      have hemitted := emitted_step hvalid hlast hfirst hemits
      have hnext : Follows track (some emission) (step track d event) := hemitted.behind
      obtain ⟨hcarries, hchain⟩ := ih hrest hnext hlater
      have hcons : emissions track d (event :: events) =
          emission :: emissions track (step track d event) events := by
        simp [emissions, Runs.produced, hemits]
      rw [hcons]
      constructor
      · intro k found hfound
        cases k with
        | zero =>
          rw [List.getElem?_cons_zero, Option.some.injEq] at hfound
          subst hfound
          refine ⟨?_, hemitted.temporal⟩
          simpa using hemitted.carries
        | succ k =>
          rw [List.getElem?_cons_succ] at hfound
          have hfound := hcarries k found hfound
          rw [hemitted.configuration, hemitted.nextSequenceNumber] at hfound
          have hcount : d.nextSequenceNumber + .ofNat (k + 1) =
              d.nextSequenceNumber + 1 + .ofNat k := by
            rw [UInt16.ofNat_add]
            grind
          rw [hcount]
          exact hfound
      · rw [Option.toList_some, List.singleton_append] at hchain
        cases last with
        | none => exact hchain
        | some previous =>
          rw [Option.toList_some, List.singleton_append, List.isChain_cons_cons]
          exact ⟨hemitted.distance previous rfl, hchain⟩

/-- What a down-track forwards in a run without failures. -/
theorem emissions_continuous (configuration : SubscriptionConfig) (track : PublishedTrack)
    (cacheCapacity cacheAge : ℕ) (hvalid : validateTrack track = .ok ()) (events : List Event)
    (hfrom : ∀ event ∈ events, event.FromTrack track)
    (hsucceed : Succeed track (new configuration track cacheCapacity cacheAge) events) :
    let start := new configuration track cacheCapacity cacheAge
    (∀ k emission, (emissions track start events)[k]? = some emission →
      Rtp.Carries emission.packet configuration.outputPayloadType
        (configuration.initialSequenceNumber + .ofNat k) emission.timestamp
        configuration.outputSsrc) ∧
    (emissions track start events).IsChain KeepsDistance ∧
    (track.kind = .video → ∀ before event after, events = before ++ event :: after →
      (step track (runEvents track start before) event).selectedSpatial ≠
        (runEvents track start before).selectedSpatial →
      ∃ now info input,
        event = .forward now (runEvents track start before).targetLayer.spatial info input ∧
        info.keyframe = true ∧ info.startOfFrame = true ∧
        (step track (runEvents track start before) event).selectedSpatial =
          some (runEvents track start before).targetLayer.spatial) ∧
    ∀ emission ∈ emissions track start events, ∀ temporal,
      emission.temporalId = some temporal → temporal ≤ emission.target.temporal := by
  intro start
  have hfresh : Follows track none start := ⟨rfl, rfl⟩
  obtain ⟨hcarries, hchain⟩ := emissions_continue hvalid hfrom hfresh hsucceed
  refine ⟨fun k emission h => (hcarries k emission h).1, hchain, ?_, ?_⟩
  · intro hvideo before event after _ hchanged
    exact selected_step hvideo hchanged
  · intro emission hemission
    obtain ⟨k, hk⟩ := List.mem_iff_getElem?.mp hemission
    exact (hcarries k emission hk).2

/-- A video track with two encodings. -/
def Sample.video : PublishedTrack where
  id := 1
  owner := 1
  kind := .video
  codec := .vp8
  clockRate := 90000
  payloadType := 96
  encodings := [⟨7, 0⟩, ⟨8, 1⟩]

def Sample.configuration : SubscriptionConfig where
  id := 1
  subscriber := 2
  trackId := 1
  outputSsrc := 100
  outputPayloadType := 97
  initialLayer := ⟨0, 1⟩
  initialSequenceNumber := 65535
  initialTimestamp := 5000
  extensionRewrites := []

/-- A packet of an encoding, at a time. -/
def Sample.arrival (encoding : Encoding) (timestamp : UInt32) (keyframe : Bool) : Event :=
  .forward 0 encoding.spatialLayer ⟨true, true, keyframe, some 0, none⟩
    ([0x80, 96, 0, 1] ++ Bytes.ofU32 timestamp ++ Bytes.ofU32 encoding.ssrc ++ [1, 2])

/-- Two packets of the lower layer, a switch to the upper one at its keyframe, and a packet of each
layer. -/
def Sample.events : List Event :=
  [Sample.arrival ⟨7, 0⟩ 1000 true, Sample.arrival ⟨7, 0⟩ 4000 false, .setTargetLayer ⟨1, 1⟩,
    Sample.arrival ⟨8, 1⟩ 90000 true, Sample.arrival ⟨7, 0⟩ 7000 false,
    Sample.arrival ⟨8, 1⟩ 93000 false]

theorem sample_emissions_continuous :
    let start := new Sample.configuration Sample.video 2048 2000000000
    (emissions Sample.video start Sample.events).length = 4 ∧
    (emissions Sample.video start Sample.events).IsChain KeepsDistance := by
  intro start
  have hfrom : ∀ event ∈ Sample.events, event.FromTrack Sample.video := by
    intro event hevent
    simp only [Sample.events, List.mem_cons, List.not_mem_nil, or_false] at hevent
    rcases hevent with rfl | rfl | rfl | rfl | rfl | rfl
    · exact ⟨_, rfl, by decide⟩
    · exact ⟨_, rfl, by decide⟩
    · trivial
    · exact ⟨_, rfl, by decide⟩
    · exact ⟨_, rfl, by decide⟩
    · exact ⟨_, rfl, by decide⟩
  have hsucceed : Succeed Sample.video start Sample.events :=
    ⟨by decide, by decide, trivial, by decide, by decide,
      by decide, trivial⟩
  refine ⟨by decide, ?_⟩
  exact (emissions_continuous Sample.configuration Sample.video 2048 2000000000 rfl Sample.events
    hfrom hsucceed).2.1

end DownTrack

end Fluvora.Sfu
