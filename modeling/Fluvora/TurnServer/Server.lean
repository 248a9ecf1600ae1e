import Fluvora.Lib.Bytes
import Fluvora.Turn.Allocation

/-!
# The TURN server

The handlers of `crates/services/turn-server`: authentication, ALLOCATE with its two lock sections
and the socket that is bound between them, REFRESH, CREATE PERMISSION, CHANNEL BIND, the data paths
in both directions, the expiry sweep and the end of a connection.  Each lock section is one step of
the server, so the sections of several requests interleave in any order.

A message is given by what the handlers read of it, keys and nonces by the functions that derive and
check them.  Responses are kept as values, metrics are left out, and a datagram is relayed at the
time that its handler reads.
-/

open Std (ExtTreeMap TransOrd LawfulEqOrd TransCmp LawfulEqCmp)

namespace Fluvora.TurnServer

open Turn

/-! ## Configuration and messages -/

def maxRelayDataBytes : ℕ := 65000

structure ServerConfig where
  controlBind : SocketAddr
  statusBind : SocketAddr
  advertisedIp : IpAddr
  relayBindIp : IpAddr
  relayPortMin : UInt16
  relayPortMax : UInt16
  allowPrivatePeers : Bool
  maximumRelayBytesPerSecond : ℕ
  realm : String
  maximumAllocations : ℕ
  maximumAllocationsPerIp : ℕ
  /-- Where TLS connections are accepted. -/
  tlsBind : Option SocketAddr

abbrev Key := List UInt8

inductive NonceError
  | stale
  | invalid
deriving DecidableEq

/-- The keys of usernames and the check of nonces, both at a Unix time. -/
structure Credentials where
  credentialKey : ℕ → String → Option Key
  validateNonce : String → ℕ → IpAddr → Except NonceError Unit

inductive Method
  | allocate
  | refresh
  | createPermission
  | channelBind
  | other
deriving DecidableEq

inductive ServerError
  | malformedRequest
  | stun
  | turn (error : TurnError)
deriving DecidableEq

def attributeLifetime : UInt16 := 0x000d
def attributeXorPeerAddress : UInt16 := 0x0012
def attributeData : UInt16 := 0x0013
def attributeChannelNumber : UInt16 := 0x000c
def attributeRequestedTransport : UInt16 := 0x0019
def attributeFingerprint : UInt16 := 0x8028

/-- What the handlers read of a parsed STUN message. -/
structure Message where
  method : Method
  transactionId : Bytes
  attributeValue : UInt16 → Option Bytes
  xorAddress : UInt16 → Except ServerError (Option SocketAddr)
  xorAddresses : UInt16 → Except ServerError (List SocketAddr)
  username : Except ServerError (Option String)
  realm : Except ServerError (Option String)
  nonce : Except ServerError (Option String)
  verifyMessageIntegritySha1 : Key → Bool
  verifyFingerprint : Bool
  unknownRequiredAttributes : List UInt16

def requestedTransport (message : Message) : Except ServerError (Option UInt8) :=
  match message.attributeValue attributeRequestedTransport with
  | none => .ok none
  | some [transport, 0, 0, 0] => .ok (some transport)
  | some _ => .error .malformedRequest

def u32Attribute (message : Message) (kind : UInt16) : Except ServerError (Option UInt32) :=
  match message.attributeValue kind with
  | none => .ok none
  | some [a, b, c, d] => .ok (some (Bytes.toU32 a b c d))
  | some _ => .error .malformedRequest

def channelNumber (message : Message) : Except ServerError (Option UInt16) :=
  match message.attributeValue attributeChannelNumber with
  | none => .ok none
  | some [a, b, 0, 0] => .ok (some (Bytes.toU16 a b))
  | some _ => .error .malformedRequest

/-! ## Peers -/

def isMulticast : IpAddr → Bool
  | .v4 octets => IpAddr.isMulticast (.v4 octets) || octets = #v[255, 255, 255, 255]
  | .v6 octets => IpAddr.isMulticast (.v6 octets) || IpAddr.isUnspecified (.v6 octets)

def isPrivateV4 (octets : Vector UInt8 4) : Bool :=
  let first := IpAddr.octet octets 0
  let second := IpAddr.octet octets 1
  let third := IpAddr.octet octets 2
  IpAddr.isLoopback (.v4 octets) ||
    -- `is_link_local` and `is_private`
    (first = 169 && second = 254) || first = 10 || (first = 172 && 16 ≤ second && second ≤ 31) ||
    (first = 192 && second = 168) ||
    first = 0 || (first = 100 && 64 ≤ second && second ≤ 127) ||
    (first = 192 && second = 0 && third = 0) || (first = 192 && second = 0 && third = 2) ||
    (first = 192 && second = 88 && third = 99) || (first = 198 && (second = 18 || second = 19)) ||
    (first = 198 && second = 51 && third = 100) || (first = 203 && second = 0 && third = 113) ||
    240 ≤ first

def isPrivatePeer : IpAddr → Bool
  | .v4 octets => isPrivateV4 octets
  | .v6 octets =>
      let first := IpAddr.segment octets 0
      IpAddr.isLoopback (.v6 octets) ||
        -- `is_unicast_link_local` and `is_unique_local`
        first &&& 0xffc0 = 0xfe80 || first &&& 0xfe00 = 0xfc00 ||
        (first = 0x2001 && IpAddr.segment octets 1 = 0x0db8) || first &&& 0xffc0 = 0xfec0 ||
        (IpAddr.toIpv4Mapped octets).any isPrivateV4

def concreteIpMatches (candidate configured : IpAddr) : Bool :=
  !configured.isUnspecified && candidate = configured

def isServerEndpoint (config : ServerConfig) (peer : SocketAddr) : Bool :=
  let localAddress := peer.ip = config.advertisedIp ||
    concreteIpMatches peer.ip config.controlBind.ip ||
    concreteIpMatches peer.ip config.statusBind.ip || concreteIpMatches peer.ip config.relayBindIp ||
    config.tlsBind.any fun bind => concreteIpMatches peer.ip bind.ip
  if !localAddress then false
  else if peer.port = config.controlBind.port || peer.port = config.statusBind.port ||
      config.tlsBind.any fun bind => peer.port = bind.port then true
  else
    config.relayPortMin != 0 && config.relayPortMin ≤ peer.port && peer.port ≤ config.relayPortMax

def safePeer (config : ServerConfig) (peer : SocketAddr) : Bool :=
  !(peer.port = 0 || peer.ip.isUnspecified || isMulticast peer.ip ||
    (!config.allowPrivatePeers && isPrivatePeer peer.ip) || isServerEndpoint config peer)

/-! ## Clients and their allocations -/

inductive ClientKey
  | udp (address : SocketAddr)
  | tcp (connectionId : UInt64) (address : SocketAddr)
deriving DecidableEq

namespace ClientKey

def address : ClientKey → SocketAddr
  | .udp address => address
  | .tcp _ address => address

/-- The numbers that identify a client. -/
def code : ClientKey → List ℕ
  | .udp address => 0 :: address.code
  | .tcp connectionId address => 1 :: connectionId.toNat :: address.code

theorem code_injective : Function.Injective code := by
  intro a b h
  cases a with
  | udp address =>
    cases b with
    | udp address' => rw [SocketAddr.code_injective (List.cons.inj h).2]
    | tcp => cases (List.cons.inj h).1
  | tcp connectionId address =>
    cases b with
    | udp => cases (List.cons.inj h).1
    | tcp connectionId' address' =>
      obtain ⟨hid, haddress⟩ := List.cons.inj (List.cons.inj h).2
      rw [UInt64.toNat_inj.mp hid, SocketAddr.code_injective haddress]

instance : Ord ClientKey := ⟨compareOn code⟩

instance : TransOrd ClientKey := inferInstanceAs (TransCmp (compareOn code))

instance : LawfulEqOrd ClientKey where
  eq_of_compare h := code_injective (LawfulEqCmp.eq_of_compare h)

end ClientKey

structure BandwidthLimiter where
  availableBytes : ℕ
  updatedAt : ℕ
deriving DecidableEq

namespace BandwidthLimiter

/-- `u64::saturating_mul(2)`. -/
def burst (bytesPerSecond : ℕ) : ℕ := min (bytesPerSecond * 2) (2 ^ 64 - 1)

def new (bytesPerSecond now : ℕ) : BandwidthLimiter := ⟨burst bytesPerSecond, now⟩

/-- The limiter after the time that has passed. -/
def replenish (limiter : BandwidthLimiter) (now bytesPerSecond : ℕ) : BandwidthLimiter :=
  let replenished := min (bytesPerSecond * (now - limiter.updatedAt)) (2 ^ 128 - 1) / 1000000000
  if replenished = 0 then limiter
  else
    ⟨min (min (limiter.availableBytes + min replenished (2 ^ 64 - 1)) (2 ^ 64 - 1))
      (burst bytesPerSecond), now⟩

def consume (limiter : BandwidthLimiter) (now bytes bytesPerSecond : ℕ) : Bool × BandwidthLimiter :=
  let limiter := limiter.replenish now bytesPerSecond
  if limiter.availableBytes < bytes then (false, limiter)
  else (true, { limiter with availableBytes := limiter.availableBytes - bytes })

end BandwidthLimiter

/-- The responses of the handlers; their encoding is left out. -/
inductive Response
  | allocated (relayedAddress mappedAddress : SocketAddr) (lifetime : ℕ)
  | refreshed (lifetime : ℕ)
  | success
  | error (code : ℕ) (reason : String)
deriving DecidableEq

structure ManagedAllocation where
  allocation : Allocation
  allocateTransaction : Bytes
  allocateResponse : Response
  bandwidth : BandwidthLimiter
deriving DecidableEq

/-- An ALLOCATE between its quota check and its insertion, with its allocation once the relay socket
is bound. -/
structure PendingAllocate where
  client : ClientKey
  transactionId : Bytes
  username : String
  allocation : Option (Allocation × ℕ)
deriving DecidableEq

structure Server where
  config : ServerConfig
  credentials : Credentials
  allocations : ExtTreeMap ClientKey ManagedAllocation
  /-- The ALLOCATE requests that are being handled, by a number for each. -/
  pending : ExtTreeMap ℕ PendingAllocate

namespace Server

def start (config : ServerConfig) (credentials : Credentials) : Server := ⟨config, credentials, ∅, ∅⟩

/-! ## Authentication -/

inductive AuthRejection
  | unauthorized
  | staleNonce
deriving DecidableEq

structure Authentication where
  username : String
  key : Key

/-- The value of an attribute that a request has to carry. -/
def required (value : Except ServerError (Option String)) : Except AuthRejection String :=
  match value with
  | .ok (some value) => .ok value
  | _ => .error .unauthorized

def authenticate (s : Server) (unixSeconds : ℕ) (client : SocketAddr) (message : Message) :
    Except AuthRejection Authentication := do
  let username ← required message.username
  let realm ← required message.realm
  let nonce ← required message.nonce
  if realm ≠ s.config.realm then
    .error .unauthorized
  else
    let key ← (s.credentials.credentialKey unixSeconds username).elim (.error .unauthorized) .ok
    match s.credentials.validateNonce nonce unixSeconds client.ip with
    | .error .stale => .error .staleNonce
    | .error .invalid => .error .unauthorized
    | .ok () =>
        if !message.verifyMessageIntegritySha1 key then
          .error .unauthorized
        else if (message.attributeValue attributeFingerprint).isSome && !message.verifyFingerprint then
          .error .unauthorized
        else
          return { username, key }

/-! ## Allocating -/

/-- The allocations of clients with one address. -/
def fromIp (s : Server) (ip : IpAddr) : ℕ :=
  (s.allocations.keys.filter fun key => key.address.ip = ip).length

/-- The quota check of `handleAllocate` passes. -/
def hasRoom (s : Server) (client : ClientKey) : Bool :=
  s.allocations.size < s.config.maximumAllocations &&
    s.fromIp client.address.ip < s.config.maximumAllocationsPerIp

/-- The first lock section of `handleAllocate`; the request goes on if there is no response. -/
def allocateCheck (call : ℕ) (client : ClientKey) (message : Message)
    (authentication : Authentication) (s : Server) :
    Except ServerError (Option Response) × Server :=
  match requestedTransport message with
  | .error error => (.error error, s)
  | .ok transport =>
      if transport ≠ some 17 then
        (.ok (some (.error 442 "Unsupported Transport Protocol")), s)
      else
        match s.allocations[client]? with
        | some existing =>
            if existing.allocateTransaction = message.transactionId then
              (.ok (some existing.allocateResponse), s)
            else (.ok (some (.error 437 "Allocation Mismatch")), s)
        | none =>
            if !s.hasRoom client then (.ok (some (.error 486 "Allocation Quota Reached")), s)
            else
              (.ok none, { s with
                pending := s.pending.insert call
                  ⟨client, message.transactionId, authentication.username, none⟩ })

/-- `bindRelaySocket` has returned a port, or none: the allocation is created, outside of the lock. -/
def allocateBind (call now : ℕ) (port : Option UInt16) (s : Server) : Server :=
  match s.pending[call]?, port with
  | some request, some port =>
      { s with
        pending := s.pending.insert call { request with
          allocation := some (Allocation.new now request.username request.client.address
            (.new s.config.advertisedIp port), now) } }
  | some _, none => { s with pending := s.pending.erase call }
  | none, _ => s

/-- The entry that an ALLOCATE inserts. -/
def managed (config : ServerConfig) (request : PendingAllocate) (allocation : Allocation)
    (now : ℕ) : ManagedAllocation where
  allocation := allocation
  allocateTransaction := request.transactionId
  allocateResponse := .allocated allocation.relayedAddress request.client.address
    (allocation.remainingLifetime now)
  bandwidth := .new config.maximumRelayBytesPerSecond now

/-- The second lock section of `handleAllocate`. -/
def allocateInsert (call : ℕ) (s : Server) : Option Response × Server :=
  match s.pending[call]? with
  | some ⟨client, transactionId, username, some (allocation, now)⟩ =>
      if client ∈ s.allocations then
        (some (.error 437 "Allocation Mismatch"), { s with pending := s.pending.erase call })
      else
        let entry := managed s.config ⟨client, transactionId, username, some (allocation, now)⟩
          allocation now
        (some entry.allocateResponse, { s with
          pending := s.pending.erase call
          allocations := s.allocations.insert client entry })
  | _ => (none, s)

/-! ## Requests on an allocation -/

/-- The allocation of a client, for a request authenticated with its username. -/
def owned (client : ClientKey) (authentication : Authentication) (s : Server) :
    Except Response ManagedAllocation :=
  match s.allocations[client]? with
  | none => .error (.error 437 "Allocation Mismatch")
  | some existing =>
      if existing.allocation.username ≠ authentication.username then
        .error (.error 441 "Wrong Credentials")
      else .ok existing

/-- Stores what became of a client's allocation. -/
def store (client : ClientKey) (existing : ManagedAllocation) (allocation : Allocation)
    (s : Server) : Server :=
  { s with allocations := s.allocations.insert client { existing with allocation } }

def handleRefresh (now : ℕ) (client : ClientKey) (message : Message)
    (authentication : Authentication) (s : Server) : Except ServerError Response × Server :=
  match u32Attribute message attributeLifetime with
  | .error error => (.error error, s)
  | .ok requestedLifetime =>
      match s.owned client authentication with
      | .error response => (.ok response, s)
      | .ok existing =>
          if requestedLifetime = some 0 then
            (.ok (.refreshed 0), { s with allocations := s.allocations.erase client })
          else
            let (lifetime, allocation) := Allocation.refresh now requestedLifetime existing.allocation
            (.ok (.refreshed lifetime), s.store client existing allocation)

/-- The response to what `createPermissions` has returned. -/
def permissionResponse : Except TurnError Unit → Except ServerError Response
  | .ok () => .ok .success
  | .error .peerAddressFamilyMismatch => .ok (.error 443 "Peer Address Family Mismatch")
  | .error .capacity => .ok (.error 508 "Insufficient Capacity")
  | .error error => .error (.turn error)

/-- The response to what `bindChannel` has returned. -/
def bindResponse : Except TurnError Unit → Except ServerError Response
  | .ok () => .ok .success
  | .error .peerAddressFamilyMismatch => .ok (.error 443 "Peer Address Family Mismatch")
  | .error .capacity => .ok (.error 508 "Insufficient Capacity")
  | .error (.invalidChannelNumber _) => .ok (.error 400 "Bad Request")
  | .error .channelConflict => .ok (.error 400 "Bad Request")

/-- Runs an operation on the allocation of an authenticated client. -/
def operate (client : ClientKey) (authentication : Authentication) (operation : Operation Unit)
    (respond : Except TurnError Unit → Except ServerError Response) (s : Server) :
    Except ServerError Response × Server :=
  match s.owned client authentication with
  | .error response => (.ok response, s)
  | .ok existing =>
      let (result, allocation) := operation.run existing.allocation
      (respond result, s.store client existing allocation)

def handleCreatePermission (now : ℕ) (client : ClientKey) (message : Message)
    (authentication : Authentication) (s : Server) : Except ServerError Response × Server :=
  match message.xorAddresses attributeXorPeerAddress with
  | .error error => (.error error, s)
  | .ok peers =>
      if peers = [] || peers.any fun peer => !safePeer s.config peer then
        (.ok (.error 400 "Bad Request"), s)
      else s.operate client authentication (Allocation.createPermissions now peers) permissionResponse

def handleChannelBind (now : ℕ) (client : ClientKey) (message : Message)
    (authentication : Authentication) (s : Server) : Except ServerError Response × Server :=
  match channelNumber message, message.xorAddress attributeXorPeerAddress with
  | .error error, _ => (.error error, s)
  | .ok _, .error error => (.error error, s)
  | .ok (some channel), .ok (some peer) =>
      if !safePeer s.config peer then (.ok (.error 403 "Forbidden Peer Address"), s)
      else s.operate client authentication (Allocation.bindChannel now channel peer) bindResponse
  | .ok _, .ok _ => (.ok (.error 400 "Bad Request"), s)

/-- A request, up to the end of its first lock section; an ALLOCATE that passes its check has no
response yet. -/
def handleAuthenticatedRequest (call now unixSeconds : ℕ) (client : ClientKey) (message : Message)
    (s : Server) : Except ServerError (Option Response) × Server :=
  match s.authenticate unixSeconds client.address message with
  | .error .unauthorized => (.ok (some (.error 401 "Unauthorized")), s)
  | .error .staleNonce => (.ok (some (.error 438 "Stale Nonce")), s)
  | .ok authentication =>
      if message.unknownRequiredAttributes ≠ [] then
        (.ok (some (.error 420 "Unknown Attribute")), s)
      else
        match message.method with
        | .allocate => s.allocateCheck call client message authentication
        | .refresh =>
            let (response, s) := s.handleRefresh now client message authentication
            (some <$> response, s)
        | .createPermission =>
            let (response, s) := s.handleCreatePermission now client message authentication
            (some <$> response, s)
        | .channelBind =>
            let (response, s) := s.handleChannelBind now client message authentication
            (some <$> response, s)
        | .other => (.ok (some (.error 400 "Bad Request")), s)

/-! ## Relaying -/

/-- A datagram that leaves the server for a peer or for a client. -/
inductive Relayed
  | toPeer (client : ClientKey) (peer : SocketAddr) (data : Bytes)
  | toClient (client : ClientKey) (peer : SocketAddr) (route : PeerRoute) (data : Bytes)
deriving DecidableEq

/-- Charges the datagram to the bandwidth of the allocation and relays it if there is enough. -/
def charge (now : ℕ) (client : ClientKey) (existing : ManagedAllocation) (allocation : Allocation)
    (data : Bytes) (relayed : Relayed) (s : Server) : List Relayed × Server :=
  let (enough, bandwidth) := existing.bandwidth.consume now data.length
    s.config.maximumRelayBytesPerSecond
  (if enough then [relayed] else [],
    { s with allocations := s.allocations.insert client { existing with allocation, bandwidth } })

def handleSendIndication (now : ℕ) (client : ClientKey) (message : Message) (s : Server) :
    List Relayed × Server :=
  match message.xorAddress attributeXorPeerAddress, message.attributeValue attributeData with
  | .ok (some peer), some data =>
      if maxRelayDataBytes < data.length || !safePeer s.config peer then ([], s)
      else
        match s.allocations[client]? with
        | none => ([], s)
        | some existing =>
            let (permitted, allocation) := Allocation.permits now peer existing.allocation
            if permitted then
              s.charge now client existing allocation data (.toPeer client peer data)
            else ([], s.store client existing allocation)
  | _, _ => ([], s)

def handleChannelData (now : ℕ) (client : ClientKey) (channel : UInt16) (data : Bytes)
    (s : Server) : List Relayed × Server :=
  if maxRelayDataBytes < data.length then ([], s)
  else
    match s.allocations[client]? with
    | none => ([], s)
    | some existing =>
        let (peer, allocation) := Allocation.channelPeer now channel existing.allocation
        match peer with
        | some peer => s.charge now client existing allocation data (.toPeer client peer data)
        | none => ([], s.store client existing allocation)

/-- One datagram of `relayPeerDatagrams`. -/
def relayPeerDatagram (now : ℕ) (client : ClientKey) (peer : SocketAddr) (data : Bytes)
    (s : Server) : List Relayed × Server :=
  if maxRelayDataBytes < data.length then ([], s)
  else
    match s.allocations[client]? with
    | none => ([], s)
    | some existing =>
        let (route, allocation) := Allocation.peerRoute now peer existing.allocation
        match route with
        | some route =>
            s.charge now client existing allocation data (.toClient client peer route data)
        | none => ([], s.store client existing allocation)

def removeExpired (now : ℕ) (s : Server) : Server :=
  { s with allocations := s.allocations.filter fun _ managed => !managed.allocation.expired now }

/-- The end of a client's connection. -/
def disconnect (client : ClientKey) (s : Server) : Server :=
  { s with allocations := s.allocations.erase client }

/-! ## Steps -/

/-- One lock section of the server, or the socket bound between two. -/
inductive Input
  | request (call now unixSeconds : ℕ) (client : ClientKey) (message : Message)
  | allocateBind (call now : ℕ) (port : Option UInt16)
  | allocateInsert (call : ℕ)
  | sendIndication (now : ℕ) (client : ClientKey) (message : Message)
  | channelData (now : ℕ) (client : ClientKey) (channel : UInt16) (data : Bytes)
  | peerDatagram (now : ℕ) (client : ClientKey) (peer : SocketAddr) (data : Bytes)
  | removeExpired (now : ℕ)
  | disconnect (client : ClientKey)

def step (s : Server) : Input → Server
  | .request call now unixSeconds client message =>
      (handleAuthenticatedRequest call now unixSeconds client message s).2
  | .allocateBind call now port => s.allocateBind call now port
  | .allocateInsert call => (s.allocateInsert call).2
  | .sendIndication now client message => (s.handleSendIndication now client message).2
  | .channelData now client channel data => (s.handleChannelData now client channel data).2
  | .peerDatagram now client peer data => (s.relayPeerDatagram now client peer data).2
  | .removeExpired now => s.removeExpired now
  | .disconnect client => s.disconnect client

/-- The datagrams that a step relays. -/
def Input.relayed (input : Input) (s : Server) : List Relayed :=
  match input with
  | .sendIndication now client message => (s.handleSendIndication now client message).1
  | .channelData now client channel data => (s.handleChannelData now client channel data).1
  | .peerDatagram now client peer data => (s.relayPeerDatagram now client peer data).1
  | _ => []

def runInputs (inputs : List Input) (s : Server) : Server := inputs.foldl step s

end Server

end Fluvora.TurnServer
