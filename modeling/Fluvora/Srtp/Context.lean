import Fluvora.Lib.Fallible
import Fluvora.Lib.Maps
import Fluvora.Rtp.Packet
import Fluvora.Rtcp.Packet
import Fluvora.Srtp.Replay

/-!
# SRTP contexts

`SrtpContext` of `crates/webrtc/srtp`: key derivation, AES-CTR encryption, authentication tags and
the four operations.  `Crypto` stands for the two primitives the source takes from other crates,
AES-128 on one block and HMAC-SHA1; counter mode is written out, so that the counter blocks that a
packet is encrypted with are values of the model.
-/

open Std (ExtTreeMap)

namespace Fluvora.Srtp

open Fallible

/-- The cryptographic primitives. -/
structure Crypto where
  /-- AES-128 of one block under a key. -/
  aes : Vector UInt8 16 → Bytes → Vector UInt8 16
  /-- HMAC-SHA1 of a message under a key. -/
  hmac : Vector UInt8 20 → Bytes → Vector UInt8 20

/-- SRTP key, authentication, replay, and packet failures. -/
inductive SrtpError
  | authenticationFailed
  | replay (error : ReplayError)
  | nonMonotonicSequence
  | packetIndexExhausted
  | srtcpPacketTooShort (length : ℕ)
  | rtp (error : Rtp.RtpError)
  | rtcp (error : Rtcp.RtcpError)
deriving DecidableEq

def maxSrtpIndex : ℕ := 2 ^ 48 - 1
def maxSrtcpIndex : ℕ := 0x7fffffff

inductive ProtectionProfile
  | aes128CmSha1_80
  | aes128CmSha1_32
deriving DecidableEq

def ProtectionProfile.rtpTagLen : ProtectionProfile → ℕ
  | .aes128CmSha1_80 => 10
  | .aes128CmSha1_32 => 4

def ProtectionProfile.rtcpTagLen : ProtectionProfile → ℕ
  | .aes128CmSha1_80 => 10
  | .aes128CmSha1_32 => 10

/-! ## Counter mode -/

/-- The counter blocks that encrypt `length` bytes: a big-endian 128-bit counter from the IV on. -/
def counterBlocks (iv : Bytes) (length : ℕ) : List Bytes :=
  (List.range ((length + 15) / 16)).map fun k => Bytes.ofNat 16 (iv.toNat + k)

def keystream (crypto : Crypto) (key : Vector UInt8 16) (iv : Bytes) (length : ℕ) : Bytes :=
  (counterBlocks iv length).flatMap fun counter => (crypto.aes key counter).toList

def applyKeystream (crypto : Crypto) (key : Vector UInt8 16) (iv payload : Bytes) : Bytes :=
  List.zipWith (· ^^^ ·) payload (keystream crypto key iv payload.length)

/-! ## Keys -/

/-- One direction of DTLS-exported SRTP master keying material. -/
structure KeyingMaterial where
  masterKey : Vector UInt8 16
  masterSalt : Vector UInt8 14

structure SessionKeys where
  encryption : Vector UInt8 16
  authentication : Vector UInt8 20
  salt : Vector UInt8 14
deriving DecidableEq

def deriveKey (crypto : Crypto) (material : KeyingMaterial) (label : UInt8) (length : ℕ) :
    Vector UInt8 length :=
  let iv := Bytes.xorAt (material.masterSalt.toList ++ [0, 0]) 7 [label]
  .ofFn fun i =>
    (applyKeystream crypto material.masterKey iv (List.replicate length 0)).getD i 0

def KeyingMaterial.derive (crypto : Crypto) (material : KeyingMaterial)
    (encryptionLabel authenticationLabel saltLabel : UInt8) : SessionKeys where
  encryption := deriveKey crypto material encryptionLabel 16
  authentication := deriveKey crypto material authenticationLabel 20
  salt := deriveKey crypto material saltLabel 14

def KeyingMaterial.deriveSrtp (crypto : Crypto) (material : KeyingMaterial) : SessionKeys :=
  material.derive crypto 0 1 2

def KeyingMaterial.deriveSrtcp (crypto : Crypto) (material : KeyingMaterial) : SessionKeys :=
  material.derive crypto 3 4 5

/-- The salt with the SSRC at byte 4, the low 48 bits of the index at byte 8, and a zero block
counter. -/
def makeIv (salt : Vector UInt8 14) (ssrc : UInt32) (index : ℕ) : Bytes :=
  (Bytes.xorAt (salt.toList ++ [0, 0]) 4 (Bytes.ofU32 ssrc)).xorAt 8 ((Bytes.ofNat 8 index).drop 2)

def crypt (crypto : Crypto) (payload : Bytes) (keys : SessionKeys) (ssrc : UInt32) (index : ℕ) :
    Bytes :=
  applyKeystream crypto keys.encryption (makeIv keys.salt ssrc index) payload

def authenticateRtp (crypto : Crypto) (keys : SessionKeys) (packet : Bytes)
    (rolloverCounter : ℕ) : Bytes :=
  (crypto.hmac keys.authentication (packet ++ Bytes.ofNat 4 rolloverCounter)).toList

def authenticate (crypto : Crypto) (keys : SessionKeys) (packet : Bytes) : Bytes :=
  (crypto.hmac keys.authentication packet).toList

def verifyTag (expected received : Bytes) : Except SrtpError Unit :=
  if expected = received then .ok () else .error .authenticationFailed

/-! ## Contexts -/

structure OutboundRtpState where
  highestIndex : Option ℕ := none
deriving DecidableEq

def OutboundRtpState.advance (sequenceNumber : UInt16) : Fallible OutboundRtpState SrtpError ℕ := do
  let state ← get
  let index := estimateIndex state.highestIndex sequenceNumber
  ensure (state.highestIndex.all fun highest => highest < index) .nonMonotonicSequence
  ensure (index ≤ maxSrtpIndex) .packetIndexExhausted
  set { highestIndex := some index }
  return index

/-- Bidirectional SRTP/SRTCP cryptographic and replay state. -/
structure SrtpContext where
  profile : ProtectionProfile
  outboundRtpKeys : SessionKeys
  inboundRtpKeys : SessionKeys
  outboundRtcpKeys : SessionKeys
  inboundRtcpKeys : SessionKeys
  outboundRtp : ExtTreeMap UInt32 OutboundRtpState
  inboundRtp : ExtTreeMap UInt32 ReplayWindow
  outboundRtcpIndex : ℕ
  inboundRtcp : ExtTreeMap UInt32 ReplayWindow
deriving DecidableEq

namespace SrtpContext

def new (crypto : Crypto) (profile : ProtectionProfile) (outbound inbound : KeyingMaterial) :
    SrtpContext where
  profile := profile
  outboundRtpKeys := outbound.deriveSrtp crypto
  inboundRtpKeys := inbound.deriveSrtp crypto
  outboundRtcpKeys := outbound.deriveSrtcp crypto
  inboundRtcpKeys := inbound.deriveSrtcp crypto
  outboundRtp := ∅
  inboundRtp := ∅
  outboundRtcpIndex := 0
  inboundRtcp := ∅

/-- The next index of an SSRC; its entry is created if there is none. -/
def advanceOutbound (ssrc : UInt32) (sequenceNumber : UInt16) :
    Fallible SrtpContext SrtpError ℕ := do
  let s ← get
  let (result, state) :=
    (OutboundRtpState.advance sequenceNumber).run (s.outboundRtp[ssrc]?.getD {})
  set { s with outboundRtp := s.outboundRtp.insert ssrc state }
  ofExcept result

/-- The rollover counter of an index, if it fits 32 bits. -/
def rolloverCounter (index : ℕ) : Except SrtpError ℕ :=
  if index / 2 ^ 16 < 2 ^ 32 then .ok (index / 2 ^ 16) else .error .packetIndexExhausted

/-- Encrypts an RTP payload and appends the profile authentication tag. -/
def protectRtp (crypto : Crypto) (packet : Bytes) : Fallible SrtpContext SrtpError Bytes := do
  let parsed ← ofExcept ((Rtp.Packet.parse packet).mapError .rtp)
  let ssrc := parsed.header.ssrc
  let index ← advanceOutbound ssrc parsed.header.sequenceNumber
  let s ← get
  let encrypted := packet.take parsed.headerLen ++
    crypt crypto (packet.drop parsed.headerLen) s.outboundRtpKeys ssrc index
  let roc ← ofExcept (rolloverCounter index)
  let tag := authenticateRtp crypto s.outboundRtpKeys encrypted roc
  return encrypted ++ tag.take s.profile.rtpTagLen

def readU16 (input : Bytes) (position : ℕ) : Except SrtpError UInt16 :=
  (input.u16At position).elim (.error .authenticationFailed) .ok

def readU32 (input : Bytes) (position : ℕ) : Except SrtpError UInt32 :=
  (input.u32At position).elim (.error .authenticationFailed) .ok

/-- Authenticates, replay-checks, and decrypts one SRTP packet. -/
def unprotectRtp (crypto : Crypto) (packet : Bytes) : Fallible SrtpContext SrtpError Bytes := do
  let s ← get
  let tagLen := s.profile.rtpTagLen
  ensure (tagLen ≤ packet.length) .authenticationFailed
  let encrypted := packet.take (packet.length - tagLen)
  let receivedTag := packet.drop (packet.length - tagLen)
  let headerLen ← ofExcept ((Rtp.parseHeaderLength encrypted).mapError .rtp)
  let sequenceNumber ← ofExcept (readU16 encrypted 2)
  let ssrc ← ofExcept (readU32 encrypted 8)
  let replay := s.inboundRtp[ssrc]?.getD {}
  let index := estimateIndex replay.maximum sequenceNumber
  ofExcept ((replay.check index).mapError .replay)
  let roc ← ofExcept (rolloverCounter index)
  let expected := authenticateRtp crypto s.inboundRtpKeys encrypted roc
  ofExcept (verifyTag (expected.take tagLen) receivedTag)
  let plaintext := encrypted.take headerLen ++
    crypt crypto (encrypted.drop headerLen) s.inboundRtpKeys ssrc index
  let _ ← ofExcept ((Rtp.Packet.parse plaintext).mapError .rtp)
  set { s with inboundRtp := s.inboundRtp.insert ssrc (replay.accept index) }
  return plaintext

/-- Encrypts an RTCP compound packet and appends its E/index word and authentication tag. -/
def protectRtcp (crypto : Crypto) (packet : Bytes) : Fallible SrtpContext SrtpError Bytes := do
  let _ ← ofExcept ((Rtcp.parseCompound packet).mapError .rtcp)
  ensure (8 ≤ packet.length) (.srtcpPacketTooShort packet.length)
  let s ← get
  ensure (s.outboundRtcpIndex ≤ maxSrtcpIndex) .packetIndexExhausted
  let index := s.outboundRtcpIndex
  set { s with outboundRtcpIndex := index + 1 }
  let ssrc ← ofExcept (readU32 packet 4)
  let encrypted := packet.take 8 ++ crypt crypto (packet.drop 8) s.outboundRtcpKeys ssrc index
  let authenticated := encrypted ++ Bytes.ofNat 4 (index + 2 ^ 31)
  let tag := authenticate crypto s.outboundRtcpKeys authenticated
  return authenticated ++ tag.take s.profile.rtcpTagLen

/-- Authenticates, replay-checks, and decrypts one SRTCP packet. -/
def unprotectRtcp (crypto : Crypto) (packet : Bytes) : Fallible SrtpContext SrtpError Bytes := do
  let s ← get
  let tagLen := s.profile.rtcpTagLen
  ensure (tagLen + 12 ≤ packet.length) (.srtcpPacketTooShort packet.length)
  let authenticated := packet.take (packet.length - tagLen)
  let receivedTag := packet.drop (packet.length - tagLen)
  let indexOffset := authenticated.length - 4
  let indexWord ← ofExcept (readU32 authenticated indexOffset)
  let index := (indexWord &&& 0x7fffffff).toNat
  let ssrc ← ofExcept (readU32 authenticated 4)
  let replay := s.inboundRtcp[ssrc]?.getD {}
  ofExcept ((replay.check index).mapError .replay)
  let expected := authenticate crypto s.inboundRtcpKeys authenticated
  ofExcept (verifyTag (expected.take tagLen) receivedTag)
  let clear := authenticated.take indexOffset
  let plaintext :=
    if indexWord &&& 0x80000000 ≠ 0 then
      clear.take 8 ++ crypt crypto (clear.drop 8) s.inboundRtcpKeys ssrc index
    else clear
  let _ ← ofExcept ((Rtcp.parseCompound plaintext).mapError .rtcp)
  set { s with inboundRtcp := s.inboundRtcp.insert ssrc (replay.accept index) }
  return plaintext

end SrtpContext

end Fluvora.Srtp
