import Fluvora.Lib.Lines
import Fluvora.Lib.Results
import Fluvora.Lib.Words

/-!
# Session descriptions

The data model of `crates/webrtc/sdp`: a session description with its media sections, what is read
out of their attributes, and the checks on the offer of a browser.  Texts are lists of characters.
The hash maps that `codecs` makes out of attributes are looked up here directly: the last `fmtp` of a
format counts, and all its `rtcp-fb`.
-/

namespace Fluvora.Sdp

open Words

abbrev Text := List Char

scoped instance lawfulText : LawfulBEq (List Char) := inferInstance

/-- Stable categories for SDP failures. -/
inductive SdpErrorKind
  | documentTooLarge (length : ℕ)
  | lineTooLong (length : ℕ)
  | invalidLine
  | missingSessionField (field : String)
  | unsupportedVersion (version : Text)
  | invalidMediaLine
  | invalidAttribute (name : Text) (reason : String)
  | mediaLineWithoutMedia (prefixCharacter : Char)
  | duplicateMid (mid : Text)
  | missingMid
  | unknownBundleMid (mid : Text)
  | mediaNotBundled (mid : Text)
  | missingRtcpMux (mid : Text)
  | missingIceCredentials (mid : Text)
  | missingFingerprint (mid : Text)
  | invalidSetupRole (mid : Text)
  | noCompatibleCodec (mid : Text)
  | invalidPayloadType (value : Text)
  | invalidRtpMap (value : Text)
  | answerTooLarge
deriving DecidableEq

/-- A structured SDP parsing or validation failure. -/
structure SdpError where
  line : Option ℕ
  kind : SdpErrorKind
deriving DecidableEq

def SdpError.new (kind : SdpErrorKind) : SdpError := ⟨none, kind⟩

def SdpError.atLine (line : ℕ) (kind : SdpErrorKind) : SdpError := ⟨some line, kind⟩

/-- An SDP attribute split into name and optional value. -/
structure Attribute where
  name : Text
  value : Option Text
deriving DecidableEq

/-- Media kind from an `m=` line. -/
inductive MediaKind
  | audio
  | video
  | application
  | other (value : Text)
deriving DecidableEq

namespace MediaKind

def parse (value : Text) : MediaKind :=
  if value = "audio".toList then .audio
  else if value = "video".toList then .video
  else if value = "application".toList then .application
  else .other value

def asStr : MediaKind → Text
  | .audio => "audio".toList
  | .video => "video".toList
  | .application => "application".toList
  | .other value => value

/-- This media section carries RTP. -/
def isRtp : MediaKind → Bool
  | .audio | .video => true
  | .application | .other _ => false

end MediaKind

/-- RTP transceiver direction. -/
inductive Direction
  | sendRecv
  | sendOnly
  | recvOnly
  | inactive
deriving DecidableEq

namespace Direction

/-- The answer-side reciprocal direction. -/
def reciprocal : Direction → Direction
  | .sendRecv => .sendRecv
  | .sendOnly => .recvOnly
  | .recvOnly => .sendOnly
  | .inactive => .inactive

def asStr : Direction → Text
  | .sendRecv => "sendrecv".toList
  | .sendOnly => "sendonly".toList
  | .recvOnly => "recvonly".toList
  | .inactive => "inactive".toList

/-- The direction with a name. -/
def ofName (name : Text) : Option Direction :=
  if name = "sendrecv".toList then some .sendRecv
  else if name = "sendonly".toList then some .sendOnly
  else if name = "recvonly".toList then some .recvOnly
  else if name = "inactive".toList then some .inactive
  else none

end Direction

/-- DTLS setup role. -/
inductive SetupRole
  | actPass
  | active
  | passive
  | holdConn
deriving DecidableEq

def SetupRole.parse (value : Text) : Option SetupRole :=
  if value = "actpass".toList then some .actPass
  else if value = "active".toList then some .active
  else if value = "passive".toList then some .passive
  else if value = "holdconn".toList then some .holdConn
  else none

/-- An RTP codec advertised by a media section. -/
structure RtpCodec where
  payloadType : UInt8
  name : Text
  clockRate : UInt32
  channels : UInt16
  fmtp : Option Text
  rtcpFeedback : List Text
deriving DecidableEq

/-- Reads an unsigned number of eight bits. -/
def parseU8 (text : Text) : Option UInt8 := (parseNumeral 255 text).map UInt8.ofNat

def parseU16 (text : Text) : Option UInt16 := (parseNumeral 65535 text).map UInt16.ofNat

def parseU32 (text : Text) : Option UInt32 := (parseNumeral 4294967295 text).map UInt32.ofNat

/-- The payload type that an `apt` parameter names. -/
def parseApt (item : Text) : Option UInt8 := do
  let (name, value) ← splitOnce '=' (trim item)
  if eqIgnoreAsciiCase (trim name) "apt".toList then parseU8 (trim value) else none

/-- The RTX `apt` payload type of an RTX codec. -/
def RtpCodec.associatedPayloadType (codec : RtpCodec) : Option UInt8 :=
  if eqIgnoreAsciiCase codec.name "rtx".toList then
    codec.fmtp.bind fun fmtp => (fmtp.splitOn ';').findSome? parseApt
  else none

/-- An RTP header extension mapping. -/
structure ExtMap where
  id : UInt8
  direction : Option Direction
  uri : Text
  attributes : Option Text
deriving DecidableEq

/-- One media section. -/
structure MediaDescription where
  kind : MediaKind
  port : UInt16
  protocol : Text
  formats : List Text
  connection : Option Text
  attributes : List Attribute
deriving DecidableEq

/-- A parsed SDP session description. -/
structure SessionDescription where
  version : Text
  origin : Text
  sessionName : Text
  timing : Text
  connection : Option Text
  attributes : List Attribute
  media : List MediaDescription
deriving DecidableEq

/-- The value of the first attribute with a name. -/
def firstAttribute (attributes : List Attribute) (name : Text) : Option Text :=
  (attributes.find? fun entry => entry.name = name).bind Attribute.value

/-- The values of the attributes with a name. -/
def valuesOf (attributes : List Attribute) (name : Text) : List Text :=
  (attributes.filter fun entry => entry.name = name).filterMap Attribute.value

def parsePayloadType (value : Text) : Except SdpError UInt8 :=
  match (parseU8 value).filter (· ≤ 127) with
  | some payloadType => .ok payloadType
  | none => .error (.new (.invalidPayloadType value))

/-- Name, clock rate and channels of an RTPMAP. -/
def parseRtpmap (value : Text) : Except SdpError (Text × UInt32 × UInt16) :=
  let parts := value.splitOn '/'
  let name := parts[0]?.filter (· ≠ [])
  let clockRate := parts[1]?.bind parseU32
  let channels := parts[2]?.elim (some 1) parseU16
  if 3 < parts.length then
    .error (.new (.invalidRtpMap value))
  else
    match name, clockRate, channels with
    | some name, some clockRate, some channels =>
        if 0 < clockRate ∧ 0 < channels then .ok (name, clockRate, channels)
        else .error (.new (.invalidRtpMap value))
    | _, _, _ => .error (.new (.invalidRtpMap value))

def splitAttributeTarget (value : Text) : Option (Text × Text) := splitOnce ' ' value

def parseDirection (value : Text) : Except SdpError Direction :=
  match Direction.ofName value with
  | some direction => .ok direction
  | none => .error (.new (.invalidAttribute "direction".toList "unknown direction"))

/-- The identifier of an extension with its optional direction. -/
def parseIdAndDirection (value : Text) : Except SdpError (Text × Option Direction) :=
  match splitOnce '/' value with
  | some (id, direction) => do
      let direction ← parseDirection direction
      return (id, some direction)
  | none => .ok (value, none)

def parseExtensionId (id : Text) : Except SdpError UInt8 :=
  match (parseU8 id).filter (0 < ·) with
  | some id => .ok id
  | none => .error (.new (.invalidAttribute "extmap".toList "invalid ID"))

def parseExtmap (entry : Attribute) : Except SdpError ExtMap :=
  match entry.value with
  | none => .error (.new (.invalidAttribute "extmap".toList "missing value"))
  | some value =>
      match splitWhitespace value with
      | idAndDirection :: uri :: remaining => do
          let (id, direction) ← parseIdAndDirection idAndDirection
          let id ← parseExtensionId id
          return ⟨id, direction, uri, if remaining = [] then none else some (joinWords remaining)⟩
      | _ => .error (.new (.invalidAttribute "extmap".toList "expected id and URI"))

namespace MediaDescription

/-- The value of the first attribute with a name. -/
def getAttribute (media : MediaDescription) (name : Text) : Option Text :=
  firstAttribute media.attributes name

def hasAttribute (media : MediaDescription) (name : Text) : Bool :=
  media.attributes.any fun entry => entry.name = name

def mid (media : MediaDescription) : Option Text := media.getAttribute "mid".toList

/-- The offered direction, defaulting to sendrecv. -/
def direction (media : MediaDescription) : Direction :=
  (media.attributes.findSome? fun entry => Direction.ofName entry.name).getD .sendRecv

def attributeValues (media : MediaDescription) (name : Text) : List Text :=
  valuesOf media.attributes name

/-- The values of an attribute with their targets. -/
def targets (media : MediaDescription) (name : Text) : List (Text × Text) :=
  (media.attributeValues name).filterMap splitAttributeTarget

/-- The last value for a target. -/
def attributeMap (media : MediaDescription) (name target : Text) : Option Text :=
  ((media.targets name).reverse.find? fun entry => entry.1 = target).map Prod.snd

/-- All values for a target. -/
def attributeMultimap (media : MediaDescription) (name target : Text) : List Text :=
  ((media.targets name).filter fun entry => entry.1 = target).map Prod.snd

/-- The first value for a target. -/
def findPrefixedAttribute (media : MediaDescription) (name target : Text) : Option Text :=
  ((media.targets name).find? fun entry => entry.1 = target).map Prod.snd

/-- The codec of a format whose RTPMAP has been read. -/
def codecOf (media : MediaDescription) (format : Text) (payloadType : UInt8)
    (rtpmap : Text × UInt32 × UInt16) : RtpCodec where
  payloadType := payloadType
  name := rtpmap.1
  clockRate := rtpmap.2.1
  channels := rtpmap.2.2
  fmtp := media.attributeMap "fmtp".toList format
  rtcpFeedback := media.attributeMultimap "rtcp-fb".toList format ++
    media.attributeMultimap "rtcp-fb".toList ['*']

/-- The loop of `codecs` over the formats. -/
def codecsOf (media : MediaDescription) : List Text → Except SdpError (List RtpCodec)
  | [] => .ok []
  | format :: formats => do
      let payloadType ← parsePayloadType format
      match media.findPrefixedAttribute "rtpmap".toList format with
      | none =>
          if payloadType < 96 then media.codecsOf formats
          else .error (.new (.invalidRtpMap format))
      | some rtpmap => do
          let rtpmap ← parseRtpmap rtpmap
          let codecs ← media.codecsOf formats
          return media.codecOf format payloadType rtpmap :: codecs

/-- Parses all offered RTP codecs. -/
def codecs (media : MediaDescription) : Except SdpError (List RtpCodec) :=
  media.codecsOf media.formats

/-- The loop of `extmaps`. -/
def extmapsOf : List Attribute → Except SdpError (List ExtMap)
  | [] => .ok []
  | entry :: entries => do
      let extmap ← parseExtmap entry
      let extmaps ← extmapsOf entries
      return extmap :: extmaps

/-- Parses all extmap attributes. -/
def extmaps (media : MediaDescription) : Except SdpError (List ExtMap) :=
  extmapsOf (media.attributes.filter fun entry => entry.name = "extmap".toList)

end MediaDescription

namespace SessionDescription

def getAttribute (offer : SessionDescription) (name : Text) : Option Text :=
  firstAttribute offer.attributes name

/-- The mids of a group, if it is a BUNDLE group. -/
def parseBundle (value : Text) : Option (List Text) :=
  match splitWhitespace value with
  | semantics :: mids => if eqIgnoreAsciiCase semantics "BUNDLE".toList then some mids else none
  | [] => none

/-- All BUNDLE mids from the first BUNDLE group. -/
def bundleMids (offer : SessionDescription) : List Text :=
  ((valuesOf offer.attributes "group".toList).findSome? parseBundle).getD []

/-- A media-level attribute or its session-level inherited value. -/
def effectiveAttribute (offer : SessionDescription) (media : MediaDescription) (name : Text) :
    Option Text :=
  (media.getAttribute name).or (offer.getAttribute name)

def validateMedia (offer : SessionDescription) (media : MediaDescription) (mid : Text) :
    Except SdpError Unit :=
  if media.port = 0 then
    .ok ()
  else if offer.effectiveAttribute media "ice-ufrag".toList = none ∨
      offer.effectiveAttribute media "ice-pwd".toList = none then
    .error (.new (.missingIceCredentials mid))
  else if offer.effectiveAttribute media "fingerprint".toList = none then
    .error (.new (.missingFingerprint mid))
  else if (offer.effectiveAttribute media "setup".toList).bind SetupRole.parse ∉
      [some .actPass, some .active] then
    .error (.new (.invalidSetupRole mid))
  else if media.kind.isRtp then
    if ¬media.hasAttribute "rtcp-mux".toList then
      .error (.new (.missingRtcpMux mid))
    else do
      let _ ← media.codecs
      return ()
  else
    .ok ()

/-- The loop of `validate_webrtc_offer` over the media sections; the mids seen are returned. -/
def validateSections (offer : SessionDescription) :
    List MediaDescription → List Text → Except SdpError (List Text)
  | [], seen => .ok seen
  | media :: rest, seen =>
      match media.mid with
      | none => .error (.new .missingMid)
      | some mid =>
          if mid ∈ seen then .error (.new (.duplicateMid mid))
          else if mid ∉ offer.bundleMids then .error (.new (.mediaNotBundled mid))
          else do
            offer.validateMedia media mid
            offer.validateSections rest (mid :: seen)

/-- Validates constraints required by a bundled browser WebRTC offer. -/
def validateWebrtcOffer (offer : SessionDescription) : Except SdpError Unit := do
  let seen ← offer.validateSections offer.media []
  match offer.bundleMids.find? (· ∉ seen) with
  | some mid => .error (.new (.unknownBundleMid mid))
  | none => .ok ()

end SessionDescription

end Fluvora.Sdp
