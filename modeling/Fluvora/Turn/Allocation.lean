import Fluvora.Lib.Fallible
import Fluvora.Lib.Expiry
import Fluvora.Net.Address

/-!
# TURN allocations

The protocol state of `crates/webrtc/turn`: an allocation with its lifetime, its permissions and its
channel bindings.  Times are nanoseconds since the start of the server; sums of times saturate at
the largest duration.  Every operation that reads the permissions or the channels purges the expired
ones first, also if it fails afterwards.
-/

open Std (ExtTreeMap)

namespace Fluvora.Turn

/-- `Duration::MAX`. -/
def durationMax : ℕ := (2 ^ 64 - 1) * 1000000000 + 999999999

/-- `Duration::saturating_add`. -/
@[irreducible]
def saturatingAdd (a b : ℕ) : ℕ := min (a + b) durationMax

theorem saturatingAdd_mono {a b : ℕ} (h : a ≤ b) (c : ℕ) : saturatingAdd a c ≤ saturatingAdd b c := by
  unfold saturatingAdd
  omega

def second : ℕ := 1000000000

def defaultAllocationLifetime : ℕ := 600 * second
def maxAllocationLifetime : ℕ := 3600 * second
def permissionLifetime : ℕ := 300 * second
def channelLifetime : ℕ := 600 * second
def minChannelNumber : UInt16 := 0x4000
def maxChannelNumber : UInt16 := 0x4fff
def maxPermissions : ℕ := 64
def maxChannels : ℕ := 64

/-- The failures of allocations; those of the `ChannelData` codec are left out. -/
inductive TurnError
  | invalidChannelNumber (channelNumber : UInt16)
  | peerAddressFamilyMismatch
  | channelConflict
  | capacity
deriving DecidableEq

structure ChannelBinding where
  peer : SocketAddr
  expiresAt : ℕ
deriving DecidableEq

/-- One deterministic UDP relay allocation. -/
structure Allocation where
  username : String
  clientAddress : SocketAddr
  relayedAddress : SocketAddr
  expiresAt : ℕ
  permissions : ExtTreeMap IpAddr ℕ
  channels : ExtTreeMap UInt16 ChannelBinding
deriving DecidableEq

/-- An operation on an allocation that may fail and keeps its writes when it does. -/
abbrev Operation := Fallible Allocation TurnError

/-- Encapsulation used for a datagram received from a peer. -/
inductive PeerRoute
  | channel (number : UInt16)
  | dataIndication
deriving DecidableEq

namespace Allocation

open Fallible

def new (now : ℕ) (username : String) (clientAddress relayedAddress : SocketAddr) : Allocation where
  username := username
  clientAddress := clientAddress
  relayedAddress := relayedAddress
  expiresAt := saturatingAdd now defaultAllocationLifetime
  permissions := ∅
  channels := ∅

/-- Returns seconds remaining in the allocation. -/
def remainingLifetime (a : Allocation) (now : ℕ) : ℕ :=
  min ((a.expiresAt - now) / second) (2 ^ 32 - 1)

/-- Returns whether the allocation expired. -/
def expired (a : Allocation) (now : ℕ) : Bool := a.expiresAt ≤ now

/-- The lifetime that a refresh grants. -/
def grantedLifetime (requestedSeconds : Option UInt32) : ℕ :=
  min (requestedSeconds.elim defaultAllocationLifetime fun seconds => seconds.toNat * second)
    maxAllocationLifetime

/-- Refreshes the allocation and returns the granted lifetime in seconds. -/
def refresh (now : ℕ) (requestedSeconds : Option UInt32) (a : Allocation) : ℕ × Allocation :=
  (min (grantedLifetime requestedSeconds / second) (2 ^ 32 - 1),
    { a with expiresAt := saturatingAdd now (grantedLifetime requestedSeconds) })

def expireChildren (now : ℕ) (a : Allocation) : Allocation :=
  { a with
    permissions := Expiry.purge id now a.permissions
    channels := Expiry.purge ChannelBinding.expiresAt now a.channels }

/-- The number of addresses that a request adds to the permissions. -/
def additional (a : Allocation) (peers : List SocketAddr) : ℕ :=
  ((peers.map SocketAddr.ip).filter fun ip => !a.permissions.contains ip).dedup.length

/-- The loop of `createPermissions` over the peers. -/
def permitAll (expiresAt : ℕ) (peers : List SocketAddr) (a : Allocation) : Allocation :=
  { a with
    permissions := peers.foldl (fun permissions peer => permissions.insert peer.ip expiresAt)
      a.permissions }

/-- Installs or refreshes IP permissions atomically. -/
def createPermissions (now : ℕ) (peers : List SocketAddr) : Operation Unit := do
  modify (expireChildren now)
  let a ← get
  ensure (peers ≠ [] ∧ ∀ peer ∈ peers, peer.ip.sameFamily a.relayedAddress.ip = true)
    .peerAddressFamilyMismatch
  ensure (a.permissions.size + a.additional peers ≤ maxPermissions) .capacity
  modify (permitAll (saturatingAdd now permissionLifetime) peers)

/-- The channel number or the peer is bound to something else. -/
def conflicts (a : Allocation) (channelNumber : UInt16) (peer : SocketAddr) : Bool :=
  (a.channels[channelNumber]?.any fun binding => binding.peer != peer) ||
    a.channels.toList.any fun entry => entry.1 != channelNumber && entry.2.peer == peer

/-- Creates or refreshes a channel binding and its permission. -/
def bindChannel (now : ℕ) (channelNumber : UInt16) (peer : SocketAddr) : Operation Unit := do
  modify (expireChildren now)
  let a ← get
  ensure (minChannelNumber ≤ channelNumber ∧ channelNumber ≤ maxChannelNumber)
    (.invalidChannelNumber channelNumber)
  ensure (peer.ip.sameFamily a.relayedAddress.ip = true) .peerAddressFamilyMismatch
  ensure (a.conflicts channelNumber peer = false) .channelConflict
  ensure (channelNumber ∈ a.channels ∨ a.channels.size < maxChannels) .capacity
  createPermissions now [peer]
  modify fun a => { a with
    channels := a.channels.insert channelNumber ⟨peer, saturatingAdd now channelLifetime⟩ }

/-- Resolves client `ChannelData` into a permitted peer destination. -/
def channelPeer (now : ℕ) (channelNumber : UInt16) (a : Allocation) :
    Option SocketAddr × Allocation :=
  let a := expireChildren now a
  ((a.channels[channelNumber]?).bind fun binding =>
    if a.permissions.contains binding.peer.ip then some binding.peer else none, a)

/-- Checks whether a Send indication may target a peer. -/
def permits (now : ℕ) (peer : SocketAddr) (a : Allocation) : Bool × Allocation :=
  let a := expireChildren now a
  (a.permissions.contains peer.ip && peer.ip.sameFamily a.relayedAddress.ip, a)

/-- Chooses `ChannelData` when a live binding exists; otherwise chooses a Data indication. -/
def peerRoute (now : ℕ) (peer : SocketAddr) (a : Allocation) : Option PeerRoute × Allocation :=
  let (permitted, a) := a.permits now peer
  if !permitted then (none, a)
  else
    ((a.channels.toList.findSome? fun entry =>
        if entry.2.peer = peer then some (.channel entry.1) else none).or (some .dataIndication), a)

end Allocation

end Fluvora.Turn
