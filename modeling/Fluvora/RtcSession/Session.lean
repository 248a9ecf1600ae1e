import Fluvora.Ice.Agent
import Fluvora.Net.Datagram
import Fluvora.Srtp.Context

/-!
# RTC sessions

`Session` of `crates/webrtc/rtc-session`: one ICE generation, the selected tuple and the SRTP context
of a peer connection, with every call of its interface.  `perform` runs one call, and `step` is the
session that it leaves.
-/

namespace Fluvora.RtcSession

open Fallible
open Ice (Agent IceError IceState)
open Srtp (Crypto KeyingMaterial ProtectionProfile SrtpContext SrtpError)
open Stun (Digests)

/-- Composite transport state. -/
inductive SessionState
  | new
  | dtlsHandshaking
  | connected
  | disconnected
  | failed
  | closed
deriving DecidableEq

/-- UDP transmission requested by the session. -/
structure Transmit where
  source : SocketAddr
  destination : SocketAddr
  payload : Bytes
deriving DecidableEq

/-- Side effect emitted by datagram or timer processing. -/
inductive SessionAction
  | transmit (transmit : Transmit)
  | dtlsInput (record : Bytes)
  | inboundRtp (packet : Bytes)
  | inboundRtcp (bytes : Bytes) (packets : List Rtcp.Packet)
  | stateChanged (source target : SessionState)
deriving DecidableEq

inductive SessionError
  | ice (error : IceError)
  | srtp (error : SrtpError)
  | rtp (error : Rtp.RtpError)
  | rtcp (error : Rtcp.RtcpError)
  | unexpectedDatagram (kind : DatagramKind)
  | tupleMismatch
  | srtpNotReady
  | noSelectedPair
  | invalidState (state : SessionState)
  | closed
deriving DecidableEq

/-- SRTP keys for both directions, from the DTLS exporter. -/
structure DirectionalKeyingMaterial where
  profile : ProtectionProfile
  outbound : KeyingMaterial
  inbound : KeyingMaterial

structure Session where
  ice : Agent
  state : SessionState
  selectedLocal : Option SocketAddr
  selectedRemote : Option SocketAddr
  srtp : Option SrtpContext
deriving DecidableEq

def mapIceTransmit (transmit : Ice.Transmit) : Transmit :=
  ⟨transmit.source, transmit.destination, transmit.payload⟩

namespace Session

/-- Creates a session around a fresh ICE-lite agent. -/
def new (ice : Agent) : Session := ⟨ice, .new, none, none, none⟩

def transition (s : Session) (target : SessionState) : List SessionAction × Session :=
  if target = s.state then ([], s)
  else ([.stateChanged s.state target], { s with state := target })

/-- The session state that follows a change of the ICE state. -/
def targetState (s : Session) : IceState → SessionState
  | .new => .new
  | .completed =>
      if s.state = .new ∨ s.state = .disconnected then
        if s.srtp.isSome then .connected else .dtlsHandshaking
      else s.state
  | .connected => s.state
  | .disconnected => .disconnected
  | .failed => .failed

def applyIceEvent (s : Session) : Ice.Event → List SessionAction × Session
  | .selectedPair pair =>
      ([], { s with selectedLocal := some pair.localAddr, selectedRemote := some pair.remote })
  | .stateChanged _ target => s.transition (s.targetState target)

/-- The events one after the other, with the actions of all of them. -/
def applyIceEvents (s : Session) : List Ice.Event → List SessionAction × Session
  | [] => ([], s)
  | event :: events =>
      let (actions, next) := s.applyIceEvent event
      let (more, last) := next.applyIceEvents events
      (actions ++ more, last)

def handleStun (digests : Digests) (now : ℕ) (localAddr remote : SocketAddr) (input : Bytes) :
    Fallible Session SessionError (List SessionAction) := do
  let s ← get
  let (result, ice) := (Agent.handleDatagram digests now localAddr remote input).run s.ice
  set { s with ice := ice }
  let output ← ofExcept (result.mapError .ice)
  let s ← get
  let (actions, s) := s.applyIceEvents output.events
  set s
  return .transmit (mapIceTransmit output.transmit) :: actions

def requireSelectedTuple (localAddr remote : SocketAddr) : Fallible Session SessionError Unit := do
  let s ← get
  ensure (s.selectedLocal = some localAddr ∧ s.selectedRemote = some remote) .tupleMismatch

/-- An operation of the SRTP context, if the keys are there. -/
def withSrtp {α : Type} (operation : Fallible SrtpContext SrtpError α) :
    Fallible Session SessionError α := do
  let s ← get
  let context ← ofOption s.srtp .srtpNotReady
  let (result, context) := operation.run context
  set { s with srtp := some context }
  ofExcept (result.mapError .srtp)

def handleDtls (localAddr remote : SocketAddr) (input : Bytes) :
    Fallible Session SessionError (List SessionAction) := do
  requireSelectedTuple localAddr remote
  let s ← get
  ensure (s.state = .dtlsHandshaking ∨ s.state = .connected) (.unexpectedDatagram .dtls)
  return [.dtlsInput input]

def handleRtp (crypto : Crypto) (localAddr remote : SocketAddr) (input : Bytes) :
    Fallible Session SessionError (List SessionAction) := do
  requireSelectedTuple localAddr remote
  let plaintext ← withSrtp (SrtpContext.unprotectRtp crypto input)
  let _ ← ofExcept ((Rtp.Packet.parse plaintext).mapError .rtp)
  return [.inboundRtp plaintext]

def handleRtcp (crypto : Crypto) (localAddr remote : SocketAddr) (input : Bytes) :
    Fallible Session SessionError (List SessionAction) := do
  requireSelectedTuple localAddr remote
  let plaintext ← withSrtp (SrtpContext.unprotectRtcp crypto input)
  let packets ← ofExcept ((Rtcp.parseCompound plaintext).mapError .rtcp)
  return [.inboundRtcp plaintext packets]

/-- Routes one UDP datagram through ICE, DTLS, or SRTP. -/
def handleDatagram (digests : Digests) (crypto : Crypto) (now : ℕ)
    (localAddr remote : SocketAddr) (input : Bytes) :
    Fallible Session SessionError (List SessionAction) := do
  let s ← get
  ensure (s.state ≠ .closed) .closed
  match classify input with
  | .stun => handleStun digests now localAddr remote input
  | .dtls => handleDtls localAddr remote input
  | .rtp => handleRtp crypto localAddr remote input
  | .rtcp => handleRtcp crypto localAddr remote input
  | kind => fail (.unexpectedDatagram kind)

/-- Applies ICE consent timers. -/
def tick (s : Session) (now : ℕ) : List SessionAction × Session :=
  let (events, ice) := s.ice.tick now
  applyIceEvents { s with ice := ice } events

/-- Installs SRTP keys after the DTLS backend has verified the peer. -/
def installDtlsKeyingMaterial (crypto : Crypto) (keying : DirectionalKeyingMaterial) :
    Fallible Session SessionError (List SessionAction) := do
  let s ← get
  ensure (s.state = .dtlsHandshaking) (.invalidState s.state)
  let (actions, s) := transition
    { s with srtp := some (.new crypto keying.profile keying.outbound keying.inbound) } .connected
  set s
  return actions

def selectedTransmit (s : Session) (payload : Bytes) : Except SessionError Transmit :=
  match s.selectedLocal, s.selectedRemote with
  | some source, some destination => .ok ⟨source, destination, payload⟩
  | _, _ => .error .noSelectedPair

/-- Wraps an outbound clear RTP packet for the selected pair. -/
def protectRtp (crypto : Crypto) (packet : Bytes) : Fallible Session SessionError Transmit := do
  let packet ← withSrtp (SrtpContext.protectRtp crypto packet)
  let s ← get
  ofExcept (s.selectedTransmit packet)

/-- Wraps an outbound clear RTCP compound packet for the selected pair. -/
def protectRtcp (crypto : Crypto) (packet : Bytes) : Fallible Session SessionError Transmit := do
  let packet ← withSrtp (SrtpContext.protectRtcp crypto packet)
  let s ← get
  ofExcept (s.selectedTransmit packet)

/-- Wraps a DTLS backend output record for the selected pair. -/
def transmitDtls (s : Session) (payload : Bytes) : Except SessionError Transmit :=
  s.selectedTransmit payload

/-- Permanently closes the transport and erases the SRTP context. -/
def close (s : Session) : List SessionAction × Session :=
  transition { s with srtp := none } .closed

/-- Starts a fresh ICE generation; the SRTP keys stay. -/
def restartIce (s : Session) (configuration : Ice.Configuration) : Session :=
  { s with
    ice := s.ice.restart configuration
    selectedLocal := none
    selectedRemote := none
    state := .new }

/-! ## Calls -/

inductive Call
  | handleDatagram (now : ℕ) (localAddr remote : SocketAddr) (input : Bytes)
  | tick (now : ℕ)
  | installDtlsKeyingMaterial (keying : DirectionalKeyingMaterial)
  | protectRtp (packet : Bytes)
  | protectRtcp (packet : Bytes)
  | transmitDtls (payload : Bytes)
  | close
  | restartIce (configuration : Ice.Configuration)

/-- What a call returns: actions for the runtime, or one datagram to send. -/
inductive Reply
  | actions (actions : List SessionAction)
  | secured (transmit : Transmit)
  | dtls (transmit : Transmit)

def perform (digests : Digests) (crypto : Crypto) : Call → Fallible Session SessionError Reply
  | .handleDatagram now localAddr remote input => do
      let actions ← handleDatagram digests crypto now localAddr remote input
      return .actions actions
  | .tick now => do
      let s ← get
      let (actions, s) := s.tick now
      set s
      return .actions actions
  | .installDtlsKeyingMaterial keying => do
      let actions ← installDtlsKeyingMaterial crypto keying
      return .actions actions
  | .protectRtp packet => do
      let transmit ← protectRtp crypto packet
      return .secured transmit
  | .protectRtcp packet => do
      let transmit ← protectRtcp crypto packet
      return .secured transmit
  | .transmitDtls payload => do
      let s ← get
      let transmit ← ofExcept (s.transmitDtls payload)
      return .dtls transmit
  | .close => do
      let s ← get
      let (actions, s) := s.close
      set s
      return .actions actions
  | .restartIce configuration => do
      modify fun s => s.restartIce configuration
      return .actions []

/-- The session that a call leaves. -/
def step (digests : Digests) (crypto : Crypto) (s : Session) (call : Call) : Session :=
  ((perform digests crypto call).run s).2

/-- The session after a run. -/
def runCalls (digests : Digests) (crypto : Crypto) (s : Session) (calls : List Call) : Session :=
  calls.foldl (step digests crypto) s

end Session

end Fluvora.RtcSession
