import Fluvora.Sdp.Model

/-!
# Answers

`create_sfu_answer`: a checked offer is answered section by section, either with the codecs that the
SFU can forward or with a rejection.  The output is a list of lines here, each of which is written
with a carriage return and a newline; writing to a string does not fail.
-/

namespace Fluvora.Sdp

open Words

def maxAnswerBytes : ℕ := 256 * 1024

/-- A codec the SFU can receive and forward. -/
structure CodecCapability where
  name : Text
  clockRate : UInt32
  channels : UInt16
deriving DecidableEq

/-- The capability matches a codec. -/
def CodecCapability.fits (capability : CodecCapability) (codec : RtpCodec) : Bool :=
  eqIgnoreAsciiCase capability.name codec.name && capability.clockRate = codec.clockRate &&
    capability.channels = codec.channels

/-- Server-controlled values used to answer a browser offer. -/
structure AnswerConfig where
  sessionId : UInt64
  iceUfrag : Text
  icePassword : Text
  fingerprintAlgorithm : Text
  fingerprint : Text
  candidates : List Text
  audioCodecs : List CodecCapability
  videoCodecs : List CodecCapability
  extensionUris : List Text
  acceptDataChannel : Bool

/-- Lines as they are written. -/
def written (lines : List Text) : Text := lines.flatMap (· ++ ['\r', '\n'])

/-! ## Codecs -/

def capabilities (config : AnswerConfig) : MediaKind → Option (List CodecCapability)
  | .audio => some config.audioCodecs
  | .video => some config.videoCodecs
  | _ => none

/-- The payload types of the codecs that the SFU can forward. -/
def selectedPrimary (capabilities : List CodecCapability) (offered : List RtpCodec) : List UInt8 :=
  (offered.filter fun codec => !eqIgnoreAsciiCase codec.name "rtx".toList &&
    capabilities.any fun capability => capability.fits codec).map RtpCodec.payloadType

/-- The codec is one of these, or an RTX codec for one of these. -/
def isSelected (primary : List UInt8) (codec : RtpCodec) : Bool :=
  codec.payloadType ∈ primary || codec.associatedPayloadType.any (· ∈ primary)

def selectCodecs (media : MediaDescription) (config : AnswerConfig) :
    Except SdpError (List RtpCodec) := do
  let offered ← media.codecs
  match capabilities config media.kind with
  | none => return []
  | some capabilities =>
      let primary := selectedPrimary capabilities offered
      if primary = [] ∧ media.port ≠ 0 then
        .error (.new (.noCompatibleCodec (media.mid.getD "unknown".toList)))
      else
        return offered.filter (isSelected primary)

/-! ## Sections -/

/-- An attribute with a value. -/
def valued (name : String) (value : Text) : Attribute := ⟨name.toList, some value⟩

/-- An attribute without a value. -/
def bare (name : Text) : Attribute := ⟨name, none⟩

def attributeLine (entry : Attribute) : Text :=
  "a=".toList ++ entry.name ++ entry.value.elim [] (':' :: ·)

/-- The `m=` line of a section; each format comes with the blank in front of it. -/
def mediaLine (media : MediaDescription) (port : Text) (formats : Text) : Text :=
  "m=".toList ++ media.kind.asStr ++ ' ' :: port ++ ' ' :: media.protocol ++ formats

/-- The lines of a section. -/
def sectionLines (line : Text) (attributes : List Attribute) : List Text :=
  line :: "c=IN IP4 0.0.0.0".toList :: attributes.map attributeLine

def writeTransportAttributes (mid : Text) (direction : Direction) (config : AnswerConfig) :
    List Attribute :=
  [valued "mid" mid, valued "ice-ufrag" config.iceUfrag, valued "ice-pwd" config.icePassword,
    valued "setup" "passive".toList, bare direction.asStr]

/-- The channels at the end of an RTPMAP, if there are several. -/
def channelsText (channels : UInt16) : Text :=
  if 1 < channels then '/' :: numeral channels.toNat else []

/-- The RTPMAP of a codec. -/
def rtpmapText (codec : RtpCodec) : Text :=
  codec.name ++ '/' :: numeral codec.clockRate.toNat ++ channelsText codec.channels

def writeCodec (codec : RtpCodec) : List Attribute :=
  let target := numeral codec.payloadType.toNat
  valued "rtpmap" (target ++ ' ' :: rtpmapText codec) ::
    (codec.fmtp.toList.map fun fmtp => valued "fmtp" (target ++ ' ' :: fmtp)) ++
      codec.rtcpFeedback.map fun feedback => valued "rtcp-fb" (target ++ ' ' :: feedback)

def writeExtension (extension : ExtMap) : Attribute :=
  valued "extmap" (numeral extension.id.toNat ++
    extension.direction.elim [] (fun direction => '/' :: direction.reciprocal.asStr) ++
      ' ' :: extension.uri ++ extension.attributes.elim [] (' ' :: ·))

def writeExtensions (media : MediaDescription) (config : AnswerConfig) :
    Except SdpError (List Attribute) := do
  let extmaps ← media.extmaps
  return (extmaps.filter fun extension => extension.uri ∈ config.extensionUris).map writeExtension

def writeCandidates (config : AnswerConfig) : List Attribute :=
  config.candidates.map (valued "candidate") ++ [bare "end-of-candidates".toList]

/-- The attributes of an accepted RTP section. -/
def rtpAttributes (media : MediaDescription) (mid : Text) (codecs : List RtpCodec)
    (extensions : List Attribute) (config : AnswerConfig) : List Attribute :=
  writeTransportAttributes mid media.direction.reciprocal config ++ [bare "rtcp-mux".toList] ++
    codecs.flatMap writeCodec ++ extensions ++ writeCandidates config

def writeRtpMedia (media : MediaDescription) (mid : Text) (codecs : List RtpCodec)
    (config : AnswerConfig) : Except SdpError (List Text) := do
  let extensions ← writeExtensions media config
  return sectionLines
    (mediaLine media ['9'] (codecs.flatMap fun codec => ' ' :: numeral codec.payloadType.toNat))
    (rtpAttributes media mid codecs extensions config)

/-- The attributes of an accepted application section. -/
def applicationAttributes (media : MediaDescription) (mid : Text) (config : AnswerConfig) :
    List Attribute :=
  writeTransportAttributes mid media.direction.reciprocal config ++
    (media.attributeValues "sctp-port".toList).map (valued "sctp-port") ++
    (media.attributeValues "max-message-size".toList).map (valued "max-message-size") ++
    writeCandidates config

def writeApplicationMedia (media : MediaDescription) (mid : Text) (config : AnswerConfig) :
    List Text :=
  sectionLines (mediaLine media ['9'] (' ' :: joinWords media.formats))
    (applicationAttributes media mid config)

def writeRejectedMedia (media : MediaDescription) (mid : Text) : List Text :=
  sectionLines (mediaLine media ['0'] (' ' :: joinWords media.formats))
    [valued "mid" mid, bare "inactive".toList]

def writeMediaAnswer (media : MediaDescription) (config : AnswerConfig) :
    Except SdpError (List Text) :=
  match media.mid with
  | none => .error (.new .missingMid)
  | some mid =>
      match media.kind with
      | .audio | .video => do
          let selected ← selectCodecs media config
          if media.port = 0 ∨ selected = [] then return writeRejectedMedia media mid
          else writeRtpMedia media mid selected config
      | .application =>
          if config.acceptDataChannel ∧ media.port ≠ 0 then
            .ok (writeApplicationMedia media mid config)
          else
            .ok (writeRejectedMedia media mid)
      | .other _ => .ok (writeRejectedMedia media mid)

/-! ## The answer -/

/-- The mids of the sections, each with a blank in front. -/
def bundleMembers : List MediaDescription → Except SdpError Text
  | [] => .ok []
  | media :: rest =>
      match media.mid with
      | none => .error (.new .missingMid)
      | some mid => do
          let members ← bundleMembers rest
          return ' ' :: mid ++ members

def writeBundleLine (offer : SessionDescription) : Except SdpError Text := do
  let members ← bundleMembers offer.media
  return "a=group:BUNDLE".toList ++ members

/-- The lines in front of the media sections. -/
def sessionLines (config : AnswerConfig) (bundleLine : Text) : List Text :=
  ["v=0".toList, "o=- ".toList ++ numeral config.sessionId.toNat ++ " 2 IN IP4 0.0.0.0".toList,
    "s=-".toList, "t=0 0".toList, "a=ice-lite".toList, bundleLine,
    "a=fingerprint:".toList ++ config.fingerprintAlgorithm ++ ' ' :: config.fingerprint]

/-- The loop of `create_sfu_answer`: the sections are added to the output, which may not grow too
large. -/
def writeMediaAnswers (config : AnswerConfig) :
    List MediaDescription → List Text → Except SdpError (List Text)
  | [], output => .ok output
  | media :: rest, output => do
      let lines ← writeMediaAnswer media config
      if maxAnswerBytes < byteLength (written (output ++ lines)) then
        .error (.new .answerTooLarge)
      else
        writeMediaAnswers config rest (output ++ lines)

/-- Creates a passive ICE-lite/DTLS SFU answer. -/
def createSfuAnswer (offer : SessionDescription) (config : AnswerConfig) :
    Except SdpError Text := do
  offer.validateWebrtcOffer
  let bundleLine ← writeBundleLine offer
  let output ← writeMediaAnswers config offer.media (sessionLines config bundleLine)
  return written output

end Fluvora.Sdp
