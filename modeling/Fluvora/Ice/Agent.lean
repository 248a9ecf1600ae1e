import Fluvora.Lib.Fallible
import Fluvora.Stun.Message

/-!
# ICE-lite agents

The state machine of `crates/webrtc/ice-lite`: an agent answers authenticated connectivity checks,
keeps the candidate pairs that it has seen and the one that was nominated, and watches over consent.
`handleDatagram` may fail after it has written, so it is a `Fallible` computation; times are
durations in nanoseconds.
-/

namespace Fluvora.Ice

open Fallible
open Stun (Message MessageBuilder MessageClass MessageType StunError TransactionId Digests)

/-! ## Configuration -/

inductive CredentialError
  | invalidUsernameFragmentLength (length : ℕ)
  | usernameFragmentContainsColon
  | invalidPasswordLength (length : ℕ)
deriving DecidableEq

/-- A username fragment and a short-term password within the bounds that `new` checks. -/
structure Credentials where
  usernameFragment : String
  password : Bytes
  fragment_length : usernameFragment.utf8ByteSize ≠ 0 ∧ usernameFragment.utf8ByteSize ≤ 256
  fragment_colon : ':' ∉ usernameFragment.toList
  password_length : 22 ≤ password.length ∧ password.length ≤ 256
deriving DecidableEq

def Credentials.new (usernameFragment : String) (password : Bytes) :
    Except CredentialError Credentials :=
  if hfragment : usernameFragment.utf8ByteSize ≠ 0 ∧ usernameFragment.utf8ByteSize ≤ 256 then
    if hcolon : ':' ∉ usernameFragment.toList then
      if hpassword : 22 ≤ password.length ∧ password.length ≤ 256 then
        .ok ⟨usernameFragment, password, hfragment, hcolon, hpassword⟩
      else .error (.invalidPasswordLength password.length)
    else .error .usernameFragmentContainsColon
  else .error (.invalidUsernameFragmentLength usernameFragment.utf8ByteSize)

structure Configuration where
  localCredentials : Credentials
  remoteCredentials : Credentials
  tieBreaker : UInt64
  consentTimeout : ℕ
  failureTimeout : ℕ
  maxCandidatePairs : ℕ
deriving DecidableEq

/-- Consent for 30 seconds, failure after a minute, at most 64 pairs. -/
def Configuration.new (localCredentials remoteCredentials : Credentials) (tieBreaker : UInt64) :
    Configuration where
  localCredentials := localCredentials
  remoteCredentials := remoteCredentials
  tieBreaker := tieBreaker
  consentTimeout := 30 * 10 ^ 9
  failureTimeout := 60 * 10 ^ 9
  maxCandidatePairs := 64

/-! ## The agent -/

inductive IceState
  | new
  | connected
  | completed
  | disconnected
  | failed
deriving DecidableEq

inductive IntegrityAlgorithm
  | sha1
  | sha256
deriving DecidableEq

/-- A pair of addresses learned from an authenticated check. -/
structure CandidatePair where
  localAddr : SocketAddr
  remote : SocketAddr
  priority : UInt32
  nominated : Bool
  lastAuthenticated : ℕ
deriving DecidableEq

inductive Event
  | stateChanged (source target : IceState)
  | selectedPair (pair : CandidatePair)
deriving DecidableEq

/-- One UDP transmission for the runtime to perform. -/
structure Transmit where
  source : SocketAddr
  destination : SocketAddr
  payload : Bytes
deriving DecidableEq

structure HandleOutput where
  transmit : Transmit
  events : List Event
deriving DecidableEq

inductive IceError
  | stun (error : StunError)
  | notBindingRequest
  | invalidUsername
  | missingPriority
  | candidatePairLimit
  | restartRequired
deriving DecidableEq

/-- An agent for one peer connection and one ICE generation. -/
structure Agent where
  configuration : Configuration
  state : IceState
  pairs : List CandidatePair
  selectedPair : Option CandidatePair
  lastAuthenticated : Option ℕ
deriving DecidableEq

/-- `?` on a STUN result. -/
def stunning {α : Type} (x : Except StunError α) : Except IceError α := x.mapError .stun

def validateMessageType (message : Message) : Except IceError Unit :=
  if message.messageType.method = .binding ∧ message.messageType.messageClass = .request then .ok ()
  else .error .notBindingRequest

def addIntegrity (builder : MessageBuilder) (algorithm : IntegrityAlgorithm) (password : Bytes) :
    MessageBuilder :=
  match algorithm with
  | .sha1 => builder.withIntegrity (.sha1 password)
  | .sha256 => builder.withIntegrity (.sha256 password)

namespace Agent

/-- Creates a fresh ICE generation. -/
def new (configuration : Configuration) : Agent where
  configuration := configuration
  state := .new
  pairs := []
  selectedPair := none
  lastAuthenticated := none

def transition (agent : Agent) (target : IceState) : List Event × Agent :=
  if agent.state = target then ([], agent)
  else ([.stateChanged agent.state target], { agent with state := target })

/-- Advances consent timers. -/
def tick (agent : Agent) (now : ℕ) : List Event × Agent :=
  match agent.lastAuthenticated with
  | none => ([], agent)
  | some lastAuthenticated =>
      let elapsed := now - lastAuthenticated
      if agent.configuration.failureTimeout ≤ elapsed then agent.transition .failed
      else if agent.configuration.consentTimeout ≤ elapsed then agent.transition .disconnected
      else ([], agent)

/-- Replaces both credential generations and clears all transport state. -/
def restart (_agent : Agent) (configuration : Configuration) : Agent := new configuration

def authenticate (digests : Digests) (agent : Agent) (message : Message) :
    Except IceError IntegrityAlgorithm := do
  let expectedUsername := agent.configuration.localCredentials.usernameFragment ++ ":" ++
    agent.configuration.remoteCredentials.usernameFragment
  let username ← stunning message.username
  if username ≠ some expectedUsername then
    .error .invalidUsername
  else
    let password := agent.configuration.localCredentials.password
    let algorithm ←
      if (message.attributeOf .messageIntegritySha256).isSome then do
        stunning (message.verifyMessageIntegritySha256 digests password)
        pure IntegrityAlgorithm.sha256
      else do
        stunning (message.verifyMessageIntegritySha1 digests password)
        pure IntegrityAlgorithm.sha1
    if (message.attributeOf .fingerprint).isSome then
      stunning (message.verifyFingerprint digests)
      return algorithm
    else
      return algorithm

def errorBuilder (transactionId : TransactionId) (code : UInt16) (reason : String) :
    Except IceError MessageBuilder :=
  stunning ((MessageBuilder.new ⟨.binding, .errorResponse⟩ transactionId).errorCode code reason)

def errorOutput (digests : Digests) (agent : Agent) (builder : MessageBuilder)
    (algorithm : IntegrityAlgorithm) (localAddr remote : SocketAddr) :
    Except IceError HandleOutput := do
  let payload ← stunning
    ((addIntegrity builder algorithm agent.configuration.localCredentials.password).withFingerprint.build
      digests)
  return ⟨⟨localAddr, remote, payload⟩, []⟩

/-- The signed error response to a check that violates ICE semantics. -/
def semanticErrorResponse (digests : Digests) (agent : Agent) (message : Message)
    (algorithm : IntegrityAlgorithm) (localAddr remote : SocketAddr) :
    Except IceError (Option HandleOutput) := do
  let unknown := message.unknownRequiredAttributes
  if !unknown.isEmpty then
    let builder ← errorBuilder message.transactionId 420 "Unknown Attribute"
    let output ← agent.errorOutput digests (builder.unknownAttributes unknown) algorithm localAddr
      remote
    return some output
  else
    let controlling ← stunning message.iceControlling
    let controlled ← stunning message.iceControlled
    if controlled.isSome || !controlling.isSome then
      let builder ← errorBuilder message.transactionId 487 "Role Conflict"
      let output ← agent.errorOutput digests
        (builder.iceControlled agent.configuration.tieBreaker) algorithm localAddr remote
      return some output
    else
      let priority ← stunning message.priority
      if priority.isNone then
        let builder ← errorBuilder message.transactionId 400 "Bad Request"
        let output ← agent.errorOutput digests builder algorithm localAddr remote
        return some output
      else
        return none

def successResponse (digests : Digests) (agent : Agent) (message : Message) (remote : SocketAddr)
    (algorithm : IntegrityAlgorithm) : Except IceError Bytes :=
  let builder := (MessageBuilder.new ⟨.binding, .successResponse⟩
    message.transactionId).xorMappedAddress remote
  stunning
    ((addIntegrity builder algorithm agent.configuration.localCredentials.password).withFingerprint.build
      digests)

/-- The known pair of the addresses after another check, and the pairs with it. -/
def touch (now : ℕ) (localAddr remote : SocketAddr) (priority : UInt32) (nominated : Bool) :
    List CandidatePair → Option (CandidatePair × List CandidatePair)
  | [] => none
  | pair :: rest =>
      if pair.localAddr = localAddr ∧ pair.remote = remote then
        let pair := { pair with
          priority := priority
          nominated := pair.nominated || nominated
          lastAuthenticated := now }
        some (pair, pair :: rest)
      else
        (touch now localAddr remote priority nominated rest).map fun found =>
          (found.1, pair :: found.2)

/-- The pair of the addresses, among the known ones or new. -/
def findOrAddPair (now : ℕ) (localAddr remote : SocketAddr) (priority : UInt32)
    (nominated : Bool) : Fallible Agent IceError CandidatePair := do
  let agent ← get
  match touch now localAddr remote priority nominated agent.pairs with
  | some (pair, pairs) => do
      set { agent with pairs := pairs }
      return pair
  | none => do
      ensure (agent.pairs.length < agent.configuration.maxCandidatePairs) .candidatePairLimit
      let pair : CandidatePair := ⟨localAddr, remote, priority, nominated, now⟩
      set { agent with pairs := agent.pairs ++ [pair] }
      return pair

def recordValidPair (now : ℕ) (localAddr remote : SocketAddr) (priority : UInt32)
    (nominated : Bool) : Fallible Agent IceError (List Event) := do
  modify fun agent => { agent with lastAuthenticated := some now }
  let pair ← findOrAddPair now localAddr remote priority nominated
  let agent ← get
  if nominated ∧ agent.selectedPair ≠ some pair then do
    set { agent with selectedPair := some pair }
    return [.selectedPair pair]
  else
    return []

def transitionAfterCheck (agent : Agent) (nominated : Bool) : List Event × Agent :=
  agent.transition (if nominated || agent.selectedPair.isSome then .completed else .connected)

/-- What is found out about a datagram before the agent is changed. -/
inductive Verdict
  | respond (output : HandleOutput)
  | accept (message : Message) (algorithm : IntegrityAlgorithm) (priority : UInt32)

/-- The part of `handle_datagram` that only reads the agent. -/
def examine (digests : Digests) (agent : Agent) (localAddr remote : SocketAddr) (input : Bytes) :
    Except IceError Verdict := do
  if agent.state = .failed then
    .error .restartRequired
  else
    let message ← stunning (Message.parse input)
    validateMessageType message
    let algorithm ← agent.authenticate digests message
    match ← agent.semanticErrorResponse digests message algorithm localAddr remote with
    | some output => return .respond output
    | none =>
        match ← stunning message.priority with
        | none => .error .missingPriority
        | some priority => return .accept message algorithm priority

/-- Handles one UDP datagram. -/
def handleDatagram (digests : Digests) (now : ℕ) (localAddr remote : SocketAddr) (input : Bytes) :
    Fallible Agent IceError HandleOutput := do
  let agent ← get
  match ← ofExcept (agent.examine digests localAddr remote input) with
  | .respond output => return output
  | .accept message algorithm priority => do
      let nominated := message.useCandidate
      let events ← recordValidPair now localAddr remote priority nominated
      let agent ← get
      let payload ← ofExcept (agent.successResponse digests message remote algorithm)
      let (more, agent) := agent.transitionAfterCheck nominated
      set agent
      return ⟨⟨localAddr, remote, payload⟩, events ++ more⟩

end Agent

end Fluvora.Ice
