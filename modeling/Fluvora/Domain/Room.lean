import Fluvora.Lib.Fallible
import Fluvora.Lib.History
import Fluvora.Lib.Maps

/-!
# The room aggregate

The event-sourced room of `crates/foundation/domain`: its commands, events and errors, the
decision of a command into an event (`Room.decide`), the effect of an event (`Room.apply`), the
idempotent `Room.execute`, and the two ways back from storage, `Room.restore` from an event stream
and `Room.restoreSnapshot` from a snapshot.

Hash maps and hash sets are extensional finite maps and sets.  A snapshot sorts what it reads out
of them by key, which is the order in which `toList` lists them.
-/

open Std (ExtTreeMap ExtTreeSet)

namespace Fluvora.Domain

/-- Default maximum UTF-8 bytes in a durable chat message. -/
def maxChatBytes : ℕ := 4096

/-- Maximum UTF-8 bytes in a custom-data namespace. -/
def maxCustomNamespaceBytes : ℕ := 64

/-- Default maximum encoded application bytes in durable custom data. -/
def maxCustomDataBytes : ℕ := 60 * 1024

def commandHistoryLimit : ℕ := 4096

def giftTransactionHistoryLimit : ℕ := 4096

def maxGiftTransactionIdBytes : ℕ := 512

def maxGiftIdBytes : ℕ := 256

abbrev RoomId := BitVec 128

abbrev UserId := BitVec 128

abbrev CommandId := BitVec 128

/-- Room media topology. -/
inductive RoomMode
  | sfu
  | p2p
  | live
  | vod
deriving DecidableEq, Repr

/-- Participant permission level. -/
inductive MemberRole
  | host
  | coHost
  | publisher
  | audience
deriving DecidableEq, Repr

def MemberRole.canPublish : MemberRole → Bool
  | .host | .coHost | .publisher => true
  | .audience => false

def MemberRole.canModerate : MemberRole → Bool
  | .host | .coHost => true
  | .publisher | .audience => false

/-- Bounded room policy persisted with the aggregate. -/
structure RoomPolicy where
  maxMembers : ℕ
  maxPublishers : ℕ
  maxChatBytes : ℕ
  maxCustomDataBytes : ℕ
deriving DecidableEq, Repr

/-- `RoomPolicy::default()`. -/
def RoomPolicy.default : RoomPolicy where
  maxMembers := 10000
  maxPublishers := 32
  maxChatBytes := Domain.maxChatBytes
  maxCustomDataBytes := Domain.maxCustomDataBytes

/-- Server-verified payment result used to emit a gift event. -/
structure VerifiedGiftReceipt where
  transactionId : String
  giftId : String
  quantity : UInt32
  unitValue : UInt64
  currency : String
  recipient : UserId
deriving DecidableEq

/-- Application-defined versioned data. -/
structure CustomData where
  namespaceName : String
  schemaVersion : UInt16
  payload : List UInt8
deriving DecidableEq

/-- A validated room command. -/
inductive RoomCommand
  | join (user : UserId)
  | leave (user : UserId)
  | setRole (actor user : UserId) (role : MemberRole)
  | startPublishing (user : UserId)
  | stopPublishing (user : UserId)
  | sendChat (user : UserId) (messageId : BitVec 128) (text : String)
  | recordVerifiedGift (sender : UserId) (receipt : VerifiedGiftReceipt)
  | sendCustomData (user : UserId) (data : CustomData)
  | «end» (actor : UserId)
deriving DecidableEq

/-- Persisted room state change. -/
inductive RoomEventKind
  | created (host : UserId) (mode : RoomMode)
  | memberJoined (user : UserId) (role : MemberRole)
  | memberLeft (user : UserId)
  | roleChanged (user : UserId) (role : MemberRole)
  | publishingStarted (user : UserId)
  | publishingStopped (user : UserId)
  | chatSent (user : UserId) (messageId : BitVec 128) (text : String)
  | giftRecorded (sender : UserId) (receipt : VerifiedGiftReceipt) (totalValue : UInt64)
  | customDataSent (user : UserId) (data : CustomData)
  | ended (actor : UserId)
deriving DecidableEq

/-- Ordered event-store record. -/
structure RoomEvent where
  sequence : UInt64
  commandId : CommandId
  timestampMillis : UInt64
  kind : RoomEventKind
deriving DecidableEq

/-- Result of idempotent command execution. -/
inductive CommandOutcome
  | applied (event : RoomEvent)
  | duplicate
deriving DecidableEq

/-- Room command or restoration failure. -/
inductive RoomError
  | emptyEventStream
  | invalidCreationEvent
  | invalidSnapshot
  | eventSequenceGap (expected actual : UInt64)
  | sequenceExhausted
  | roomEnded
  | alreadyMember (user : UserId)
  | notMember (user : UserId)
  | permissionDenied (user : UserId)
  | hostCannotLeave
  | memberLimit
  | publisherLimit
  | alreadyPublishing (user : UserId)
  | notPublishing (user : UserId)
  | invalidChatLength (length : ℕ)
  | invalidGiftReceipt
  | duplicateGiftTransaction
  | giftValueOverflow
  | invalidCustomData
deriving DecidableEq

/-- `Display for RoomError`. -/
def RoomError.display : RoomError → String
  | .emptyEventStream => "room event stream is empty"
  | .invalidCreationEvent => "invalid room creation event"
  | .invalidSnapshot => "invalid room state snapshot"
  | .eventSequenceGap expected actual =>
      s!"room event sequence gap: expected {expected}, got {actual}"
  | .sequenceExhausted => "room event sequence exhausted"
  | .roomEnded => "room has ended"
  | .alreadyMember user => s!"user UserId({user.toNat}) already joined"
  | .notMember user => s!"user UserId({user.toNat}) is not in room"
  | .permissionDenied user => s!"permission denied for UserId({user.toNat})"
  | .hostCannotLeave => "host must end the room"
  | .memberLimit => "room member limit reached"
  | .publisherLimit => "room publisher limit reached"
  | .alreadyPublishing user => s!"user UserId({user.toNat}) already publishes"
  | .notPublishing user => s!"user UserId({user.toNat}) is not publishing"
  | .invalidChatLength length => s!"invalid chat length {length}"
  | .invalidGiftReceipt => "invalid verified gift receipt"
  | .duplicateGiftTransaction => "duplicate gift transaction"
  | .giftValueOverflow => "gift value overflow"
  | .invalidCustomData => "invalid custom room data"

/-- Event-sourced room aggregate. -/
structure Room where
  id : RoomId
  mode : RoomMode
  policy : RoomPolicy
  members : ExtTreeMap UserId MemberRole
  publishers : ExtTreeSet UserId
  ended : Bool
  sequence : UInt64
  processedCommands : ExtTreeSet CommandId
  commandOrder : List CommandId
  giftTransactions : ExtTreeSet String
  giftTransactionOrder : List String
deriving DecidableEq

/-- Versioned, bounded current-state representation used by durable room snapshots. -/
structure RoomSnapshot where
  schemaVersion : UInt8
  id : RoomId
  mode : RoomMode
  policy : RoomPolicy
  members : List (UserId × MemberRole)
  publishers : List UserId
  ended : Bool
  sequence : UInt64
  commandOrder : List CommandId
  giftTransactionOrder : List String
deriving DecidableEq

/-! ## Text validation -/

/-- `char::is_control`: the Unicode category `Cc`. -/
def isControl (c : Char) : Bool :=
  c.toNat < 0x20 || (0x7f ≤ c.toNat && c.toNat ≤ 0x9f)

def validGiftText (value : String) (maximumBytes : ℕ) : Bool :=
  !value.isEmpty && value.utf8ByteSize ≤ maximumBytes && !value.toList.any isControl

/-- `u8::is_ascii_alphanumeric`. -/
def isAsciiAlphanumeric (byte : UInt8) : Bool :=
  (0x30 ≤ byte && byte ≤ 0x39) || (0x41 ≤ byte && byte ≤ 0x5a) || (0x61 ≤ byte && byte ≤ 0x7a)

/-- `u8::is_ascii_uppercase`. -/
def isAsciiUppercase (byte : UInt8) : Bool := 0x41 ≤ byte && byte ≤ 0x5a

/-- `str::as_bytes`. -/
def asBytes (value : String) : List UInt8 := value.toUTF8.data.toList

def validCustomNamespace (value : String) : Bool :=
  let bytes := asBytes value
  !bytes.isEmpty && bytes.length ≤ maxCustomNamespaceBytes &&
    bytes.head?.any isAsciiAlphanumeric && bytes.getLast?.any isAsciiAlphanumeric &&
    bytes.all fun byte =>
      isAsciiAlphanumeric byte || byte == 0x2e || byte == 0x5f || byte == 0x2d

/-- `u64::checked_add(1)`. -/
def checkedSucc (n : UInt64) : Option UInt64 :=
  if n.toNat + 1 < 2 ^ 64 then some (n + 1) else none

/-- `u64::checked_mul`. -/
def checkedMul (a b : UInt64) : Option UInt64 :=
  if a.toNat * b.toNat < 2 ^ 64 then some (a * b) else none

namespace Room

/-! ## Deciding a command -/

def requireMember (room : Room) (user : UserId) : Except RoomError MemberRole :=
  match room.members[user]? with
  | some role => .ok role
  | none => .error (.notMember user)

def decideJoin (room : Room) (user : UserId) : Except RoomError RoomEventKind :=
  if user ∈ room.members then .error (.alreadyMember user)
  else if room.policy.maxMembers ≤ room.members.size then .error .memberLimit
  else .ok (.memberJoined user .audience)

def decideLeave (room : Room) (user : UserId) : Except RoomError RoomEventKind := do
  match ← room.requireMember user with
  | .host => .error .hostCannotLeave
  | _ => .ok (.memberLeft user)

def decideRoleChange (room : Room) (actor user : UserId) (role : MemberRole) :
    Except RoomError RoomEventKind := do
  let actorRole ← room.requireMember actor
  let current ← room.requireMember user
  if !actorRole.canModerate ||
      (actorRole == .coHost && (current == .host || current == .coHost)) ||
      current == .host || role == .host then
    .error (.permissionDenied actor)
  else
    .ok (.roleChanged user role)

def decideStartPublishing (room : Room) (user : UserId) : Except RoomError RoomEventKind := do
  let role ← room.requireMember user
  if room.mode == .vod || !role.canPublish then .error (.permissionDenied user)
  else if user ∈ room.publishers then .error (.alreadyPublishing user)
  else if room.policy.maxPublishers ≤ room.publishers.size then .error .publisherLimit
  else .ok (.publishingStarted user)

def decideStopPublishing (room : Room) (user : UserId) : Except RoomError RoomEventKind := do
  let _ ← room.requireMember user
  if user ∈ room.publishers then .ok (.publishingStopped user)
  else .error (.notPublishing user)

def decideChat (room : Room) (user : UserId) (messageId : BitVec 128) (text : String) :
    Except RoomError RoomEventKind := do
  let _ ← room.requireMember user
  if text.isEmpty || room.policy.maxChatBytes < text.utf8ByteSize then
    .error (.invalidChatLength text.utf8ByteSize)
  else
    .ok (.chatSent user messageId text)

def decideGift (room : Room) (sender : UserId) (receipt : VerifiedGiftReceipt) :
    Except RoomError RoomEventKind := do
  let _ ← room.requireMember sender
  let _ ← room.requireMember receipt.recipient
  if !validGiftText receipt.transactionId maxGiftTransactionIdBytes ||
      !validGiftText receipt.giftId maxGiftIdBytes || receipt.quantity == 0 ||
      receipt.currency.utf8ByteSize != 3 || !(asBytes receipt.currency).all isAsciiUppercase then
    .error .invalidGiftReceipt
  else if receipt.transactionId ∈ room.giftTransactions then
    .error .duplicateGiftTransaction
  else
    match checkedMul receipt.unitValue receipt.quantity.toUInt64 with
    | some totalValue => .ok (.giftRecorded sender receipt totalValue)
    | none => .error .giftValueOverflow

def decideCustomData (room : Room) (user : UserId) (data : CustomData) :
    Except RoomError RoomEventKind := do
  let _ ← room.requireMember user
  if !validCustomNamespace data.namespaceName ||
      room.policy.maxCustomDataBytes < data.payload.length then
    .error .invalidCustomData
  else
    .ok (.customDataSent user data)

def decideEnd (room : Room) (actor : UserId) : Except RoomError RoomEventKind := do
  let role ← room.requireMember actor
  if role != .host then .error (.permissionDenied actor) else .ok (.ended actor)

/-- The event a command gives rise to, or why it is refused. -/
def decide (room : Room) : RoomCommand → Except RoomError RoomEventKind
  | .join user => room.decideJoin user
  | .leave user => room.decideLeave user
  | .setRole actor user role => room.decideRoleChange actor user role
  | .startPublishing user => room.decideStartPublishing user
  | .stopPublishing user => room.decideStopPublishing user
  | .sendChat user messageId text => room.decideChat user messageId text
  | .recordVerifiedGift sender receipt => room.decideGift sender receipt
  | .sendCustomData user data => room.decideCustomData user data
  | .end actor => room.decideEnd actor

/-! ## Applying an event -/

def rememberCommand (room : Room) (commandId : CommandId) : Room :=
  let history := History.remember commandHistoryLimit room.processedCommands room.commandOrder
    commandId
  { room with processedCommands := history.1, commandOrder := history.2 }

def rememberGiftTransaction (room : Room) (transactionId : String) : Room :=
  let history := History.remember giftTransactionHistoryLimit room.giftTransactions
    room.giftTransactionOrder transactionId
  { room with giftTransactions := history.1, giftTransactionOrder := history.2 }

/-- The part of `apply` that depends on the kind of event. -/
def applyKind (room : Room) : RoomEventKind → Room
  | .created host _ => { room with members := room.members.insert host .host }
  | .memberJoined user role | .roleChanged user role =>
      { room with
        members := room.members.insert user role
        publishers := if role.canPublish then room.publishers else room.publishers.erase user }
  | .memberLeft user =>
      { room with
        members := room.members.erase user
        publishers := room.publishers.erase user }
  | .publishingStarted user => { room with publishers := room.publishers.insert user }
  | .publishingStopped user => { room with publishers := room.publishers.erase user }
  | .giftRecorded _ receipt _ => room.rememberGiftTransaction receipt.transactionId
  | .ended _ => { room with publishers := ∅, ended := true }
  | .chatSent .. | .customDataSent .. => room

def apply (room : Room) (event : RoomEvent) : Room :=
  { room.applyKind event.kind with sequence := event.sequence }.rememberCommand event.commandId

def empty (id : RoomId) (mode : RoomMode) (policy : RoomPolicy) : Room where
  id
  mode
  policy
  members := ∅
  publishers := ∅
  ended := false
  sequence := 0
  processedCommands := ∅
  commandOrder := []
  giftTransactions := ∅
  giftTransactionOrder := []

/-- Creates a room and its first persistable event. -/
def create (id : RoomId) (mode : RoomMode) (host : UserId) (policy : RoomPolicy)
    (commandId : CommandId) (timestampMillis : UInt64) : Room × RoomEvent :=
  let event : RoomEvent := { sequence := 1, commandId, timestampMillis, kind := .created host mode }
  ((empty id mode policy).apply event, event)

/-- Executes, applies, and returns one idempotent command. -/
def execute (commandId : CommandId) (timestampMillis : UInt64) (command : RoomCommand) :
    Fallible Room RoomError CommandOutcome := do
  let room ← Fallible.get
  if commandId ∈ room.processedCommands then
    pure .duplicate
  else do
    Fallible.ensure (room.ended = false) .roomEnded
    let kind ← Fallible.ofExcept (room.decide command)
    let sequence ← Fallible.ofOption (checkedSucc room.sequence) .sequenceExhausted
    let event : RoomEvent := { sequence, commandId, timestampMillis, kind }
    Fallible.set (room.apply event)
    pure (.applied event)

/-! ## Restoring a room -/

/-- The loop of `restore`: every event must carry the next sequence number. -/
def replay (room : Room) : List RoomEvent → Except RoomError Room
  | [] => .ok room
  | event :: events =>
      if event.sequence != room.sequence + 1 then
        .error (.eventSequenceGap (room.sequence + 1) event.sequence)
      else
        (room.apply event).replay events

/-- Restores an aggregate from an exact ordered event stream. -/
def restore (id : RoomId) (mode : RoomMode) (policy : RoomPolicy) (events : List RoomEvent) :
    Except RoomError Room :=
  match events.head? with
  | none => .error .emptyEventStream
  | some first =>
      match first.kind with
      | .created _ eventMode =>
          if eventMode == mode then (empty id mode policy).replay events
          else .error .invalidCreationEvent
      | _ => .error .invalidCreationEvent

/-- Captures current aggregate state without retaining historical chat/custom payloads. -/
def snapshot (room : Room) : RoomSnapshot where
  schemaVersion := 1
  id := room.id
  mode := room.mode
  policy := room.policy
  members := room.members.toList
  publishers := room.publishers.toList
  ended := room.ended
  sequence := room.sequence
  commandOrder := room.commandOrder
  giftTransactionOrder := room.giftTransactionOrder

end Room

/-- The policy bounds that `restore_snapshot` checks. -/
def RoomPolicy.valid (policy : RoomPolicy) : Bool :=
  (2 ≤ policy.maxMembers && policy.maxMembers ≤ 100000) &&
    (1 ≤ policy.maxPublishers && policy.maxPublishers ≤ 1024) &&
    (1 ≤ policy.maxChatBytes && policy.maxChatBytes ≤ Domain.maxChatBytes) &&
    (1 ≤ policy.maxCustomDataBytes && policy.maxCustomDataBytes ≤ Domain.maxCustomDataBytes)

namespace RoomSnapshot

def memberMap (snapshot : RoomSnapshot) : ExtTreeMap UserId MemberRole :=
  .ofList snapshot.members compare

def publisherSet (snapshot : RoomSnapshot) : ExtTreeSet UserId :=
  .ofList snapshot.publishers compare

def processedCommands (snapshot : RoomSnapshot) : ExtTreeSet CommandId :=
  .ofList snapshot.commandOrder compare

def giftTransactions (snapshot : RoomSnapshot) : ExtTreeSet String :=
  .ofList snapshot.giftTransactionOrder compare

def historiesValid (snapshot : RoomSnapshot) : Bool :=
  !snapshot.commandOrder.isEmpty && snapshot.commandOrder.length ≤ commandHistoryLimit &&
    snapshot.processedCommands.size == snapshot.commandOrder.length &&
    snapshot.giftTransactionOrder.length ≤ giftTransactionHistoryLimit &&
    snapshot.giftTransactions.size == snapshot.giftTransactionOrder.length &&
    snapshot.giftTransactionOrder.all (validGiftText · maxGiftTransactionIdBytes)

def membershipValid (snapshot : RoomSnapshot) : Bool :=
  !snapshot.memberMap.isEmpty && snapshot.memberMap.size == snapshot.members.length &&
    snapshot.memberMap.size ≤ snapshot.policy.maxMembers &&
    (snapshot.memberMap.toList.filter (·.2 == MemberRole.host)).length == 1

def publishersValid (snapshot : RoomSnapshot) : Bool :=
  snapshot.publisherSet.size == snapshot.publishers.length &&
    snapshot.publisherSet.size ≤ snapshot.policy.maxPublishers &&
    (snapshot.publisherSet.toList.all fun user =>
      snapshot.memberMap[user]?.any MemberRole.canPublish) &&
    (!snapshot.ended || snapshot.publisherSet.isEmpty)

end RoomSnapshot

/-- Restores and validates a bounded current-state snapshot. -/
def Room.restoreSnapshot (snapshot : RoomSnapshot) : Except RoomError Room :=
  if snapshot.schemaVersion != 1 || snapshot.sequence == 0 || !snapshot.policy.valid ||
      !snapshot.historiesValid || !snapshot.membershipValid || !snapshot.publishersValid then
    .error .invalidSnapshot
  else
    .ok {
      id := snapshot.id
      mode := snapshot.mode
      policy := snapshot.policy
      members := snapshot.memberMap
      publishers := snapshot.publisherSet
      ended := snapshot.ended
      sequence := snapshot.sequence
      processedCommands := snapshot.processedCommands
      commandOrder := snapshot.commandOrder
      giftTransactions := snapshot.giftTransactions
      giftTransactionOrder := snapshot.giftTransactionOrder }

end Fluvora.Domain
