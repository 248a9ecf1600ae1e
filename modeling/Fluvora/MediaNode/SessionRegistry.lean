import Fluvora.Lib.Maps
import Fluvora.RtcSession.Session

/-!
# The session registry of a media node

`SessionRegistry` of `crates/services/media-node`: the sessions of one shared UDP socket, the index
from local username fragments to sessions and the routes from remote addresses to sessions.  Calls
follow each other; a datagram writes the session even when it then fails.  Errors carry the error of
the layer below where the source carries its text.
-/

open Std (ExtTreeMap)

namespace Fluvora.MediaNode

open Fallible
open Ice (Agent Configuration CredentialError Credentials)
open RtcSession (DirectionalKeyingMaterial Session SessionAction SessionError Transmit)
open Srtp (Crypto)
open Stun (Digests Message StunError)

/-- Hard resource limit for one process. -/
def maxSessions : ℕ := 100000

/-- Control-plane input for one ICE generation. -/
structure SessionProvision where
  sessionId : String
  roomId : String
  participantId : String
  localUsernameFragment : String
  localPassword : Bytes
  remoteUsernameFragment : String
  remotePassword : Bytes
  expectedPeerFingerprint : String
  tieBreaker : UInt64

/-- Fresh credentials for an ICE restart. -/
structure SessionIceRestart where
  sessionId : String
  localUsernameFragment : String
  localPassword : Bytes
  remoteUsernameFragment : String
  remotePassword : Bytes
  tieBreaker : UInt64

structure ManagedSession where
  roomId : String
  participantId : String
  expectedPeerFingerprint : String
  session : Session
deriving DecidableEq

inductive RegistryError
  | invalidIdentifier
  | invalidFingerprint
  | invalidIceCredentials (error : CredentialError)
  | duplicateSession
  | duplicateUsernameFragment
  | capacity
  | unknownRemote
  | unknownSession
  | stun (error : StunError)
  | missingUsername
  | unknownUsernameFragment
  | remoteCollision
  | transport (error : SessionError)
deriving DecidableEq

/-- Routed session output with its metadata. -/
structure RoutedActions where
  sessionId : String
  roomId : String
  participantId : String
  expectedPeerFingerprint : String
  actions : List SessionAction

structure SessionRegistry where
  sessions : ExtTreeMap String ManagedSession
  localUfragToSession : ExtTreeMap String String
  remoteToSession : ExtTreeMap SocketAddr String
  capacity : ℕ
deriving DecidableEq

def isIdentifierByte (byte : UInt8) : Bool :=
  (48 ≤ byte && byte ≤ 57) || (65 ≤ byte && byte ≤ 90) || (97 ≤ byte && byte ≤ 122) ||
    byte = 45 || byte = 95 || byte = 58

def validateIdentifier (value : String) (maximum : ℕ) : Except RegistryError Unit :=
  if value.utf8ByteSize = 0 ∨ maximum < value.utf8ByteSize ∨
      ¬value.toUTF8.data.toList.all isIdentifierByte then
    .error .invalidIdentifier
  else .ok ()

/-- The part of a username in front of its first colon. -/
def localUfrag (username : String) : String :=
  .ofList (username.toList.takeWhile fun c => c ≠ ':')

def newCredentials (usernameFragment : String) (password : Bytes) :
    Except RegistryError Credentials :=
  (Credentials.new usernameFragment password).mapError .invalidIceCredentials

namespace SessionRegistry

/-- Creates a bounded empty registry. -/
def new (capacity : ℕ) : SessionRegistry := ⟨∅, ∅, ∅, min capacity maxSessions⟩

/-- The checks of `provision` that look at the input only. -/
def provisioned (input : SessionProvision) : Except RegistryError ManagedSession := do
  validateIdentifier input.sessionId 128
  validateIdentifier input.roomId 128
  validateIdentifier input.participantId 128
  if input.expectedPeerFingerprint.utf8ByteSize = 0 ∨
      256 < input.expectedPeerFingerprint.utf8ByteSize then
    .error .invalidFingerprint
  else
    let localCredentials ← newCredentials input.localUsernameFragment input.localPassword
    let remoteCredentials ← newCredentials input.remoteUsernameFragment input.remotePassword
    return {
      roomId := input.roomId
      participantId := input.participantId
      expectedPeerFingerprint := input.expectedPeerFingerprint
      session := .new (.new (.new localCredentials remoteCredentials input.tieBreaker)) }

/-- Provisions an ICE/RTC session. -/
def provision (input : SessionProvision) : Fallible SessionRegistry RegistryError Unit := do
  let managed ← ofExcept (provisioned input)
  let registry ← get
  ensure (input.sessionId ∉ registry.sessions) .duplicateSession
  ensure (input.localUsernameFragment ∉ registry.localUfragToSession) .duplicateUsernameFragment
  ensure (registry.sessions.size < registry.capacity) .capacity
  set { registry with
    localUfragToSession :=
      registry.localUfragToSession.insert input.localUsernameFragment input.sessionId
    sessions := registry.sessions.insert input.sessionId managed }

/-- The checks of `restart_ice` that look at the input only. -/
def restarted (input : SessionIceRestart) : Except RegistryError Configuration := do
  validateIdentifier input.sessionId 128
  let localCredentials ← newCredentials input.localUsernameFragment input.localPassword
  let remoteCredentials ← newCredentials input.remoteUsernameFragment input.remotePassword
  return .new localCredentials remoteCredentials input.tieBreaker

/-- Replaces the ICE generation of a session and drops its aliases. -/
def restartIce (input : SessionIceRestart) : Fallible SessionRegistry RegistryError Unit := do
  let configuration ← ofExcept (restarted input)
  let registry ← get
  let managed ← ofOption registry.sessions[input.sessionId]? .unknownSession
  ensure (registry.localUfragToSession[input.localUsernameFragment]?.all (· = input.sessionId))
    .duplicateUsernameFragment
  set { registry with
    sessions := registry.sessions.insert input.sessionId
      { managed with session := managed.session.restartIce configuration }
    localUfragToSession :=
      (registry.localUfragToSession.filter fun _ owner => owner ≠ input.sessionId).insert
        input.localUsernameFragment input.sessionId
    remoteToSession := registry.remoteToSession.filter fun _ owner => owner ≠ input.sessionId }

/-- Removes a session and all route aliases. -/
def remove (registry : SessionRegistry) (sessionId : String) : Bool × SessionRegistry :=
  if sessionId ∈ registry.sessions then
    (true, { registry with
      sessions := registry.sessions.erase sessionId
      localUfragToSession := registry.localUfragToSession.filter fun _ mapped => mapped ≠ sessionId
      remoteToSession := registry.remoteToSession.filter fun _ mapped => mapped ≠ sessionId })
  else (false, registry)

/-- The session that the username of a STUN message addresses. -/
def routeStun (registry : SessionRegistry) (bytes : Bytes) : Except RegistryError String := do
  let message ← (Message.parse bytes).mapError .stun
  match ← message.username.mapError .stun with
  | none => .error .missingUsername
  | some username =>
      registry.localUfragToSession[localUfrag username]?.elim (.error .unknownUsernameFragment) .ok

/-- The session that a datagram belongs to. -/
def route (registry : SessionRegistry) (remote : SocketAddr) (bytes : Bytes) :
    Except RegistryError String :=
  match classify bytes with
  | .stun => registry.routeStun bytes
  | _ => registry.remoteToSession[remote]?.elim (.error .unknownRemote) .ok

/-- A call of one session, which is written back whether the call succeeds or not. -/
def withSession {α : Type} (sessionId : String) (call : Fallible Session SessionError α) :
    Fallible SessionRegistry RegistryError α := do
  let registry ← get
  let managed ← ofOption registry.sessions[sessionId]? .unknownSession
  let (result, session) := call.run managed.session
  set { registry with
    sessions := registry.sessions.insert sessionId { managed with session := session } }
  ofExcept (result.mapError .transport)

/-- Routes the remote address to a session that has it selected. -/
def recordRoute (remote : SocketAddr) (sessionId : String) :
    Fallible SessionRegistry RegistryError Unit := do
  let registry ← get
  let managed ← ofOption registry.sessions[sessionId]? .unknownSession
  if managed.session.selectedRemote = some remote then do
    ensure (registry.remoteToSession[remote]?.all (· = sessionId)) .remoteCollision
    set { registry with remoteToSession := registry.remoteToSession.insert remote sessionId }
  else
    return ()

/-- Routes one datagram to a session. -/
def handleDatagram (digests : Digests) (crypto : Crypto) (now : ℕ)
    (localAddr remote : SocketAddr) (bytes : Bytes) :
    Fallible SessionRegistry RegistryError RoutedActions := do
  let registry ← get
  let sessionId ← ofExcept (registry.route remote bytes)
  let managed ← ofOption registry.sessions[sessionId]? .unknownSession
  let actions ← withSession sessionId
    (Session.handleDatagram digests crypto now localAddr remote bytes)
  recordRoute remote sessionId
  return ⟨sessionId, managed.roomId, managed.participantId, managed.expectedPeerFingerprint, actions⟩

/-- Applies consent timers to every session. -/
def tick (registry : SessionRegistry) (now : ℕ) : List RoutedActions × SessionRegistry :=
  (registry.sessions.toList.filterMap fun (sessionId, managed) =>
      let actions := (managed.session.tick now).1
      if actions = [] then none
      else some ⟨sessionId, managed.roomId, managed.participantId,
        managed.expectedPeerFingerprint, actions⟩,
    { registry with
      sessions := registry.sessions.map fun _ managed =>
        { managed with session := (managed.session.tick now).2 } })

def installDtlsKeyingMaterial (crypto : Crypto) (sessionId : String)
    (keying : DirectionalKeyingMaterial) :
    Fallible SessionRegistry RegistryError (List SessionAction) :=
  withSession sessionId (Session.installDtlsKeyingMaterial crypto keying)

def protectRtp (crypto : Crypto) (sessionId : String) (packet : Bytes) :
    Fallible SessionRegistry RegistryError Transmit :=
  withSession sessionId (Session.protectRtp crypto packet)

def protectRtcp (crypto : Crypto) (sessionId : String) (packet : Bytes) :
    Fallible SessionRegistry RegistryError Transmit :=
  withSession sessionId (Session.protectRtcp crypto packet)

/-- The calls that write the registry. -/
inductive Call
  | provision (input : SessionProvision)
  | restartIce (input : SessionIceRestart)
  | remove (sessionId : String)
  | handleDatagram (now : ℕ) (localAddr remote : SocketAddr) (bytes : Bytes)
  | tick (now : ℕ)
  | installDtlsKeyingMaterial (sessionId : String) (keying : DirectionalKeyingMaterial)
  | protectRtp (sessionId : String) (packet : Bytes)
  | protectRtcp (sessionId : String) (packet : Bytes)

/-- The registry that a call leaves, whether it succeeds or not. -/
def step (digests : Digests) (crypto : Crypto) (registry : SessionRegistry) :
    Call → SessionRegistry
  | .provision input => ((provision input).run registry).2
  | .restartIce input => ((restartIce input).run registry).2
  | .remove sessionId => (registry.remove sessionId).2
  | .handleDatagram now localAddr remote bytes =>
      ((handleDatagram digests crypto now localAddr remote bytes).run registry).2
  | .tick now => (registry.tick now).2
  | .installDtlsKeyingMaterial sessionId keying =>
      ((installDtlsKeyingMaterial crypto sessionId keying).run registry).2
  | .protectRtp sessionId packet => ((protectRtp crypto sessionId packet).run registry).2
  | .protectRtcp sessionId packet => ((protectRtcp crypto sessionId packet).run registry).2

end SessionRegistry

end Fluvora.MediaNode
