import Fluvora.Lib.Results
import Fluvora.Rtp.Rewriting
import Fluvora.Sfu.DownTrack

/-!
# What a down-track does with a packet

`forward` drops a packet or takes it (`takes`).  A packet that it takes moves the rewriting state
(`advance`), whether or not the packet can then be rewritten (`rewritten`); only a rewritten packet
is returned and cached.
-/

namespace Fluvora.Sfu

open Fallible Results
open MediaCodec (PayloadInfo)

namespace DownTrack

variable {d : DownTrack} {now : ℕ} {track : PublishedTrack} {spatialLayer : UInt8}
  {info : PayloadInfo} {input : Bytes} {parsed : Rtp.Packet}

/-- The packet passes the layer, keyframe and temporal checks. -/
def takes (d : DownTrack) (track : PublishedTrack) (spatialLayer : UInt8) (info : PayloadInfo) :
    Prop :=
  (d.selectedSpatial = some spatialLayer ∨ spatialLayer = d.targetLayer.spatial) ∧
  (track.kind = .video → d.selectedSpatial ≠ some spatialLayer →
    info.keyframe = true ∧ info.startOfFrame = true) ∧
  ∀ temporal, info.temporalId = some temporal → temporal ≤ d.targetLayer.temporal

/-- The packet as the subscriber gets it. -/
def rewritten (d : DownTrack) (parsed : Rtp.Packet) (input : Bytes) : Except Rtp.RtpError Bytes := do
  let packet ← (d.rewriteOf parsed).apply input
  Rtp.rewriteHeaderExtensions packet d.configuration.extensionRewrites

@[simp] theorem configuration_rewriteTimestamp (inputTimestamp : UInt32) (switched : Bool) :
    (d.rewriteTimestamp inputTimestamp switched).2.configuration = d.configuration := by
  unfold rewriteTimestamp rewriteBase
  split_ifs <;> rfl

@[simp] theorem nextSequenceNumber_rewriteTimestamp (inputTimestamp : UInt32) (switched : Bool) :
    (d.rewriteTimestamp inputTimestamp switched).2.nextSequenceNumber = d.nextSequenceNumber := by
  unfold rewriteTimestamp rewriteBase
  split_ifs <;> rfl

@[simp] theorem configuration_advance :
    (d.advance parsed spatialLayer).configuration = d.configuration := by
  unfold advance
  split_ifs <;> simp

@[simp] theorem nextSequenceNumber_advance :
    (d.advance parsed spatialLayer).nextSequenceNumber = d.nextSequenceNumber + 1 := by
  unfold advance
  split_ifs <;> simp

@[simp] theorem configuration_expireCache : (d.expireCache now).configuration = d.configuration :=
  rfl

@[simp] theorem configuration_cachePacket {packet : ForwardedPacket} :
    (d.cachePacket now packet).configuration = d.configuration := by
  unfold cachePacket
  dsimp only
  split_ifs <;> rfl

/-- A packet that does not pass the checks is dropped. -/
theorem forward_of_not_takes (h : ¬d.takes track spatialLayer info) :
    ∃ waiting, (forward now track spatialLayer info input).run d = (.ok (.dropped waiting), d) := by
  rw [forward, run_get_bind]
  dsimp only
  split_ifs with hlayer hkeyframe htemporal
  · exact ⟨_, rfl⟩
  · exact ⟨_, rfl⟩
  · exact ⟨_, rfl⟩
  · refine absurd ⟨?_, ?_, ?_⟩ h
    · by_contra hne
      rw [not_or] at hne
      exact hlayer ⟨hne.1, fun hswitch => hne.2 hswitch.2⟩
    · intro hvideo hne
      by_contra hframe
      exact hkeyframe ⟨⟨hvideo, hne⟩, hframe⟩
    · intro temporal hsome
      simpa [hsome] using htemporal

theorem forward_of_takes (h : d.takes track spatialLayer info) :
    (forward now track spatialLayer info input).run d =
      (forwardTaken now spatialLayer info input).run d := by
  obtain ⟨hlayer, hkeyframe, htemporal⟩ := h
  have hcontinues : ¬(¬d.selectedSpatial = some spatialLayer ∧
      ¬(d.selectedSpatial ≠ some spatialLayer ∧ spatialLayer = d.targetLayer.spatial)) := by
    rintro ⟨hne, hswitch⟩
    exact hlayer.elim hne fun htarget => hswitch ⟨hne, htarget⟩
  have hframe : ¬((track.kind = .video ∧ ¬d.selectedSpatial = some spatialLayer) ∧
      ¬(info.keyframe = true ∧ info.startOfFrame = true)) := by
    rintro ⟨⟨hvideo, hne⟩, hnot⟩
    exact hnot (hkeyframe hvideo hne)
  have hany : ¬info.temporalId.any (d.targetLayer.temporal < ·) = true := by
    cases hsome : info.temporalId with
    | none => simp
    | some temporal => simpa using htemporal temporal hsome
  rw [forward, run_get_bind]
  dsimp only
  rw [if_neg hcontinues, if_neg hframe, if_neg hany]

/-- A packet that is taken moves the state, and is forwarded if it can be rewritten. -/
theorem forwardTaken_run (hparse : Rtp.Packet.parse input = .ok parsed) :
    (forwardTaken now spatialLayer info input).run d =
      match d.rewritten parsed input with
      | .error error => (.error (.rtp error), d.advance parsed spatialLayer)
      | .ok packet =>
          (.ok (.forwarded (d.forwardedPacket spatialLayer info packet)
            (d.switchEvent parsed spatialLayer)),
            (d.advance parsed spatialLayer).cachePacket now
              (d.forwardedPacket spatialLayer info packet)) := by
  rw [forwardTaken, run_ofExcept_bind, hparse]
  dsimp only [Except.mapError]
  rw [run_get_bind, run_set_bind, run_ofExcept_bind, rewritten]
  rcases (d.rewriteOf parsed).apply input with error | packet
  · rfl
  dsimp only [Except.mapError]
  rw [run_ofExcept_bind, bind_ok]
  rcases Rtp.rewriteHeaderExtensions packet d.configuration.extensionRewrites with error | packet
  · rfl
  · rfl

/-- What `forward` can do: drop the packet, refuse it, fail to rewrite it, or forward it. -/
theorem forward_cases (d : DownTrack) (now : ℕ) (track : PublishedTrack) (spatialLayer : UInt8)
    (info : PayloadInfo) (input : Bytes) :
    (∃ waiting, ¬d.takes track spatialLayer info ∧
      (forward now track spatialLayer info input).run d = (.ok (.dropped waiting), d)) ∨
    (∃ error, Rtp.Packet.parse input = .error error ∧
      (forward now track spatialLayer info input).run d = (.error (.rtp error), d)) ∨
    (∃ parsed error, d.takes track spatialLayer info ∧ Rtp.Packet.parse input = .ok parsed ∧
      d.rewritten parsed input = .error error ∧
      (forward now track spatialLayer info input).run d =
        (.error (.rtp error), d.advance parsed spatialLayer)) ∨
    (∃ parsed packet, d.takes track spatialLayer info ∧ Rtp.Packet.parse input = .ok parsed ∧
      d.rewritten parsed input = .ok packet ∧
      (forward now track spatialLayer info input).run d =
        (.ok (.forwarded (d.forwardedPacket spatialLayer info packet)
          (d.switchEvent parsed spatialLayer)),
          (d.advance parsed spatialLayer).cachePacket now
            (d.forwardedPacket spatialLayer info packet))) := by
  by_cases htakes : d.takes track spatialLayer info
  swap
  · obtain ⟨waiting, hrun⟩ := forward_of_not_takes htakes
    exact .inl ⟨waiting, htakes, hrun⟩
  right
  rw [forward_of_takes htakes]
  cases hparse : Rtp.Packet.parse input with
  | error error =>
    left
    refine ⟨error, rfl, ?_⟩
    rw [forwardTaken, run_ofExcept_bind, hparse]
    rfl
  | ok parsed =>
    right
    rw [forwardTaken_run hparse]
    cases hrewritten : d.rewritten parsed input with
    | error error => exact .inl ⟨parsed, error, htakes, rfl, hrewritten, rfl⟩
    | ok packet => exact .inr ⟨parsed, packet, htakes, rfl, hrewritten, rfl⟩

theorem configuration_forward (d : DownTrack) (now : ℕ) (track : PublishedTrack)
    (spatialLayer : UInt8) (info : PayloadInfo) (input : Bytes) :
    ((forward now track spatialLayer info input).run d).2.configuration = d.configuration := by
  obtain ⟨waiting, -, hrun⟩ | ⟨error, -, hrun⟩ | ⟨parsed, error, -, -, -, hrun⟩ |
    ⟨parsed, packet, -, -, -, hrun⟩ := forward_cases d now track spatialLayer info input
  · rw [hrun]
  · rw [hrun]
  · rw [hrun, configuration_advance]
  · rw [hrun, configuration_cachePacket, configuration_advance]

/-! ## What is sent -/

/-- The fixed header is rewritten as long as the output payload type is one. -/
theorem apply_rewriteOf (hparse : Rtp.Packet.parse input = .ok parsed)
    (hsafe : d.configuration.outputPayloadType ≤ 127) :
    (d.rewriteOf parsed).apply input =
      .ok (Rtp.headed (input.getD 0 0)
        (input.getD 1 0 &&& 0x80 ||| d.configuration.outputPayloadType) d.nextSequenceNumber
        (d.outputTimestamp parsed) d.configuration.outputSsrc (input.drop Rtp.fixedHeaderLen)) :=
  Rtp.Rewrite.apply_eq hparse hsafe _ _ _

/-- A packet is only rewritten for an output payload type of seven bits. -/
theorem safe_of_rewritten {packet : Bytes} (h : d.rewritten parsed input = .ok packet) :
    d.configuration.outputPayloadType ≤ 127 := by
  rw [rewritten, bind_eq_ok] at h
  obtain ⟨headed, happly, -⟩ := h
  by_contra hunsafe
  have hfilter : Option.filter (fun payloadType : UInt8 => decide (127 < payloadType))
      (d.rewriteOf parsed).payloadType = some d.configuration.outputPayloadType := by
    rw [Option.filter_eq_some_iff]
    exact ⟨rfl, by simpa using hunsafe⟩
  rw [Rtp.Rewrite.apply, bind_eq_ok] at happly
  obtain ⟨-, -, happly⟩ := happly
  rw [hfilter] at happly
  cases happly

/-- Only the header extensions can keep a packet from being rewritten. -/
theorem exists_rewritten_iff (hparse : Rtp.Packet.parse input = .ok parsed)
    (hsafe : d.configuration.outputPayloadType ≤ 127) :
    (∃ packet, d.rewritten parsed input = .ok packet) ↔
      ∃ packet, Rtp.rewriteHeaderExtensions input d.configuration.extensionRewrites =
        .ok packet := by
  have hheader := Rtp.Packet.headerOf_parse hparse
  have hlen : Rtp.fixedHeaderLen ≤ input.length := hheader.fixed.trans hheader.inside
  rw [rewritten, apply_rewriteOf hparse hsafe, bind_ok]
  refine Rtp.exists_rewriteHeaderExtensions_iff hparse ?_ ?_ ?_ _
  swap
  · rfl
  swap
  · rfl
  simp only [Rtp.headed, List.length_append, List.length_drop, List.length_cons, List.length_nil,
    Bytes.length_ofU16, Bytes.length_ofU32]
  unfold Rtp.fixedHeaderLen at hlen ⊢
  omega

/-- A forwarded packet carries the next sequence number, the rewritten timestamp and the output SSRC
and payload type. -/
theorem carries_rewritten {packet : Bytes} (hparse : Rtp.Packet.parse input = .ok parsed)
    (h : d.rewritten parsed input = .ok packet) :
    Rtp.Carries packet d.configuration.outputPayloadType d.nextSequenceNumber
      (d.outputTimestamp parsed) d.configuration.outputSsrc := by
  have hsafe := safe_of_rewritten h
  rw [rewritten, apply_rewriteOf hparse hsafe, bind_ok] at h
  refine Rtp.rewriteHeaderExtensions_carries h (Rtp.carries_headed ?_)
  exact Rtp.marker_or_and (Rtp.toNat_and_128_mod _) hsafe

end DownTrack

end Fluvora.Sfu
