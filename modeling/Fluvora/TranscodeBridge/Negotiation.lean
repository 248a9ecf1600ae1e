import Fluvora.TranscodeBridge.Coordinator

/-!
# Which path media takes

A subscriber gets the source as it is, a shared transcoder output, or buffered playback.  What exists
for a request is `Feasible`; `rank` is the order of preference, which a critical network turns round.
`negotiate` picks the best of what is feasible (`negotiate_best`), and a coordinator refuses the output
that it picks only for a quota, a tenant or its identifiers, never for the output itself
(`acquire_negotiated`).
-/

namespace Fluvora.TranscodeBridge

inductive NetworkQuality
  | good
  | constrained
  | critical
deriving DecidableEq

structure NegotiationRequest where
  source : SourceDescriptor
  subscriberCodecs : List MediaCodec
  networkQuality : NetworkQuality
  allowTranscoding : Bool
  hlsFallbackUrl : Option String
  targetWidth : UInt16
  targetHeight : UInt16
  targetFramesPerSecond : UInt16
  targetBitrateBps : UInt64
deriving DecidableEq

inductive NegotiationDecision
  | directForward (codec : MediaCodec)
  | transcode (spec : TranscodeSpec)
  | hlsFallback (url : String)
  | rejectCodecIncompatible
deriving DecidableEq

namespace NegotiationRequest

/-- The output in a codec, within the ceilings of the request and of the source. -/
def output (request : NegotiationRequest) (targetCodec : MediaCodec) : TranscodeSpec where
  source := request.source
  targetCodec := targetCodec
  width := min request.targetWidth request.source.width
  height := min request.targetHeight request.source.height
  framesPerSecond := min request.targetFramesPerSecond request.source.framesPerSecond
  bitrateBps := request.targetBitrateBps

/-- The transcoder output for the request, if one is allowed. -/
def transcoding (request : NegotiationRequest) : Option TranscodeSpec :=
  if request.allowTranscoding then
    match request.subscriberCodecs.head? with
    | some targetCodec =>
        if (request.output targetCodec).validate.isOk then some (request.output targetCodec) else none
    | none => none
  else none

/-- Buffered playback where there is some, else nothing. -/
def fallback (request : NegotiationRequest) : NegotiationDecision :=
  match request.hlsFallbackUrl with
  | some url => .hlsFallback url
  | none => .rejectCodecIncompatible

/-- The realtime paths, and what is left without one. -/
def realtime (request : NegotiationRequest) : NegotiationDecision :=
  if request.source.codec ∈ request.subscriberCodecs then .directForward request.source.codec
  else
    match request.transcoding with
    | some spec => .transcode spec
    | none => request.fallback

end NegotiationRequest

/-- Chooses direct forwarding, shared transcoding, or HLS fallback. -/
def negotiate (request : NegotiationRequest) : NegotiationDecision :=
  if request.networkQuality = .critical then
    match request.hlsFallbackUrl with
    | some url => .hlsFallback url
    | none => request.realtime
  else request.realtime

/-! ## The best path -/

/-- What exists for a request: a source that the subscriber decodes, an output in the codec that it
prefers, playback at the address that it knows. -/
inductive Feasible (request : NegotiationRequest) : NegotiationDecision → Prop
  | directForward (hdecodes : request.source.codec ∈ request.subscriberCodecs) :
      Feasible request (.directForward request.source.codec)
  | transcode (targetCodec : MediaCodec) (hallowed : request.allowTranscoding = true)
      (hprefers : request.subscriberCodecs.head? = some targetCodec)
      (hvalid : (request.output targetCodec).Valid) :
      Feasible request (.transcode (request.output targetCodec))
  | hlsFallback (url : String) (hknown : request.hlsFallbackUrl = some url) :
      Feasible request (.hlsFallback url)
  | rejectCodecIncompatible : Feasible request .rejectCodecIncompatible

/-- The place of a decision in the order of preference, the best one first. -/
def rank (quality : NetworkQuality) : NegotiationDecision → ℕ
  | .directForward _ => 1
  | .transcode _ => 2
  | .hlsFallback _ => if quality = .critical then 0 else 3
  | .rejectCodecIncompatible => 4

/-- A decision that is feasible, and before every other one that is. -/
def Best (request : NegotiationRequest) (decision : NegotiationDecision) : Prop :=
  Feasible request decision ∧ ∀ other, Feasible request other →
    other = decision ∨ rank request.networkQuality decision < rank request.networkQuality other

variable {request : NegotiationRequest} {spec : TranscodeSpec}

theorem transcoding_eq_some : request.transcoding = some spec ↔ request.allowTranscoding = true ∧
    ∃ targetCodec, request.subscriberCodecs.head? = some targetCodec ∧
      (request.output targetCodec).Valid ∧ spec = request.output targetCodec := by
  have hok : ∀ spec : TranscodeSpec, spec.validate.isOk = true ↔ spec.Valid := by
    intro spec
    rw [← spec.validate_iff]
    cases spec.validate <;> simp [Except.isOk, Except.toBool]
  unfold NegotiationRequest.transcoding
  split_ifs with hallowed
  · cases hhead : request.subscriberCodecs.head? with
    | none => simp
    | some targetCodec =>
      dsimp only
      by_cases hvalid : (request.output targetCodec).Valid
      · rw [if_pos ((hok _).mpr hvalid)]
        simp [hallowed, hvalid, eq_comm]
      · rw [if_neg fun h => hvalid ((hok _).mp h)]
        simp [hvalid]
  · simp [hallowed]

theorem feasible_transcode_iff :
    Feasible request (.transcode spec) ↔ request.transcoding = some spec := by
  rw [transcoding_eq_some]
  constructor
  · intro h
    cases h with
    | transcode targetCodec hallowed hprefers hvalid =>
      exact ⟨hallowed, targetCodec, hprefers, hvalid, rfl⟩
  · rintro ⟨hallowed, targetCodec, hprefers, hvalid, rfl⟩
    exact .transcode targetCodec hallowed hprefers hvalid

/-- Playback, or nothing, is the best if there is no realtime path. -/
theorem best_fallback (hdirect : request.source.codec ∉ request.subscriberCodecs)
    (htranscode : request.transcoding = none) : Best request request.fallback := by
  unfold NegotiationRequest.fallback
  cases hurl : request.hlsFallbackUrl with
  | some url =>
    refine ⟨.hlsFallback url hurl, fun other hother => ?_⟩
    cases hother with
    | directForward hdecodes => exact absurd hdecodes hdirect
    | transcode targetCodec hallowed hprefers hvalid =>
      have hsome := transcoding_eq_some.mpr ⟨hallowed, targetCodec, hprefers, hvalid, rfl⟩
      rw [htranscode] at hsome
      cases hsome
    | hlsFallback other hknown =>
      rw [hurl] at hknown
      exact .inl (by rw [Option.some.inj hknown])
    | rejectCodecIncompatible =>
      right
      dsimp only [rank]
      split_ifs <;> omega
  | none =>
    refine ⟨.rejectCodecIncompatible, fun other hother => ?_⟩
    cases hother with
    | directForward hdecodes => exact absurd hdecodes hdirect
    | transcode targetCodec hallowed hprefers hvalid =>
      have hsome := transcoding_eq_some.mpr ⟨hallowed, targetCodec, hprefers, hvalid, rfl⟩
      rw [htranscode] at hsome
      cases hsome
    | hlsFallback other hknown =>
      rw [hurl] at hknown
      cases hknown
    | rejectCodecIncompatible => exact .inl rfl

/-- A realtime path is the best one unless playback is known on a critical network. -/
theorem best_realtime (h : request.networkQuality = .critical → request.hlsFallbackUrl = none) :
    Best request request.realtime := by
  have hlater : ∀ url, request.hlsFallbackUrl = some url → request.networkQuality ≠ .critical := by
    intro url hurl hcritical
    rw [h hcritical] at hurl
    cases hurl
  unfold NegotiationRequest.realtime
  split_ifs with hdirect
  · refine ⟨.directForward hdirect, fun other hother => ?_⟩
    cases hother with
    | directForward _ => exact .inl rfl
    | transcode _ _ _ _ => exact .inr (by dsimp only [rank]; omega)
    | hlsFallback url hknown =>
      right
      rw [rank, rank, if_neg (hlater url hknown)]
      omega
    | rejectCodecIncompatible => exact .inr (by dsimp only [rank]; omega)
  · cases htranscode : request.transcoding with
    | none => exact best_fallback hdirect htranscode
    | some spec =>
      refine ⟨feasible_transcode_iff.mpr htranscode, fun other hother => ?_⟩
      cases hother with
      | directForward hdecodes => exact absurd hdecodes hdirect
      | transcode targetCodec hallowed hprefers hvalid =>
        have hsome := transcoding_eq_some.mpr ⟨hallowed, targetCodec, hprefers, hvalid, rfl⟩
        rw [htranscode] at hsome
        exact .inl (by rw [Option.some.inj hsome])
      | hlsFallback url hknown =>
        right
        rw [rank, rank, if_neg (hlater url hknown)]
        omega
      | rejectCodecIncompatible => exact .inr (by dsimp only [rank]; omega)

theorem best_negotiate (request : NegotiationRequest) : Best request (negotiate request) := by
  unfold negotiate
  split_ifs with hcritical
  · cases hurl : request.hlsFallbackUrl with
    | some url =>
      refine ⟨.hlsFallback url hurl, fun other hother => ?_⟩
      cases hother with
      | hlsFallback other hknown =>
        rw [hurl] at hknown
        exact .inl (by rw [Option.some.inj hknown])
      | directForward _ => exact .inr (by simp [rank, hcritical])
      | transcode _ _ _ _ => exact .inr (by simp [rank, hcritical])
      | rejectCodecIncompatible => exact .inr (by simp [rank, hcritical])
    | none => exact best_realtime fun _ => hurl
  · exact best_realtime fun h => absurd h hcritical

/-- The decision is the best one of all that are feasible, and the only best one. -/
theorem negotiate_best (request : NegotiationRequest) (decision : NegotiationDecision) :
    negotiate request = decision ↔ Best request decision := by
  have hbest := best_negotiate request
  constructor
  · rintro rfl
    exact hbest
  · rintro ⟨hfeasible, hfirst⟩
    rcases hfirst _ hbest.1 with heq | hlt
    · exact heq
    · rcases hbest.2 _ hfeasible with heq | hlt'
      · exact heq.symm
      · omega

/-- An output that a decision picks is one of its source, not larger, in the codec that the subscriber
prefers, and no coordinator refuses it for what it is. -/
theorem acquire_negotiated (request : NegotiationRequest) (spec : TranscodeSpec)
    (hpicked : negotiate request = .transcode spec) :
    spec.Valid ∧ spec.source = request.source ∧
      request.subscriberCodecs.head? = some spec.targetCodec ∧
      ∀ (c : Coordinator) (tenantId : String) (error : TranscodeError),
        (c.acquire tenantId spec).1 = .error error → c.jobs.get? spec = none ∧
          (error = .invalidTenant ∨ error = .globalQuota ∨ error = .tenantQuota ∨
            error = .jobIdExhausted) := by
  have hfeasible := (best_negotiate request).1
  rw [hpicked] at hfeasible
  obtain ⟨-, targetCodec, hprefers, hvalid, rfl⟩ :=
    transcoding_eq_some.mp (feasible_transcode_iff.mp hfeasible)
  refine ⟨hvalid, rfl, hprefers, fun c tenantId error hrefused => ?_⟩
  unfold Coordinator.acquire at hrefused
  rw [(TranscodeSpec.validate_iff _).mpr hvalid] at hrefused
  dsimp only at hrefused
  cases hget : c.jobs.get? (request.output targetCodec) with
  | some job =>
    rw [hget] at hrefused
    cases hrefused
  | none =>
    refine ⟨rfl, ?_⟩
    rw [hget] at hrefused
    dsimp only at hrefused
    split_ifs at hrefused
    · cases hrefused
      exact .inl rfl
    · cases hrefused
      exact .inr (.inl rfl)
    · cases hrefused
      exact .inr (.inr (.inl rfl))
    · cases hnext : c.nextJobId.next with
      | none =>
        rw [hnext] at hrefused
        cases hrefused
        exact .inr (.inr (.inr rfl))
      | some next =>
        rw [hnext] at hrefused
        cases hrefused

/-- A subscriber that decodes H.264 alone, on a good network. -/
def sampleRequest : NegotiationRequest where
  source := ⟨"track-1", .vp9, 1920, 1080, 30⟩
  subscriberCodecs := [.h264]
  networkQuality := .good
  allowTranscoding := true
  hlsFallbackUrl := none
  targetWidth := 1280
  targetHeight := 720
  targetFramesPerSecond := 60
  targetBitrateBps := 1500000

theorem sample_acquire_negotiated : (sampleRequest.output .h264).Valid ∧
    (Coordinator.new ⟨0, 1⟩).jobs.get? (sampleRequest.output .h264) = none := by
  obtain ⟨hvalid, -, -, hacquire⟩ :=
    acquire_negotiated sampleRequest (sampleRequest.output .h264) (by decide)
  exact ⟨hvalid, (hacquire (Coordinator.new ⟨0, 1⟩) "tenant-a" .globalQuota (by decide)).1⟩

end Fluvora.TranscodeBridge
