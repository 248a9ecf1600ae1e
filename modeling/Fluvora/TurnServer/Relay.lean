import Fluvora.Turn.Authorisation
import Fluvora.TurnServer.Quota

/-!
# What the server relays

The responses of a run tell for each client what it has been granted: `history` lists its successful
ALLOCATE, its refreshes, the addresses permitted for it, each with the username that the request was
authenticated with, and the ends of its allocations.  `Authorised` says of such a history that an
address may be relayed to and from at a time: the last allocation has not ended, its lifetime has
been extended in time, and its user has permitted the address less than five minutes ago.

No handler looks at the lifetime of an allocation, and only the sweep removes the ones that are past
it.  Every datagram of a run is authorised as long as no data path and no refresh meets an allocation
between the end of its lifetime and the sweep (`late`); one that does is served.
-/

open Std (ExtTreeMap)

namespace Fluvora.TurnServer.Server

open Turn

variable {s t : Server} {now : ℕ} {client : ClientKey}

/-! ## Histories -/

/-- Something that a client has been granted, or the end of its allocation. -/
inductive Event
  | allocated (username : String) (now : ℕ)
  | refreshed (username : String) (now lifetime : ℕ)
  | permitted (username : String) (now : ℕ) (ips : List IpAddr)
  | ended
deriving DecidableEq

/-- The event belongs to the allocation that was there before it. -/
def Event.continues : Event → Bool
  | .refreshed .. => true
  | .permitted .. => true
  | _ => false

/-- The addresses that a request asks to permit. -/
def permittedIps (message : Message) : List IpAddr :=
  match message.method with
  | .createPermission =>
      ((message.xorAddresses attributeXorPeerAddress).toOption.getD []).map SocketAddr.ip
  | .channelBind =>
      ((message.xorAddress attributeXorPeerAddress).toOption.join.toList).map SocketAddr.ip
  | _ => []

/-- What the response to an authenticated request grants. -/
def granted (now : ℕ) (message : Message) (authentication : Authentication)
    (response : Except ServerError (Option Response)) : List Event :=
  match message.method, response with
  | .refresh, .ok (some (.refreshed lifetime)) =>
      if lifetime = 0 then [.ended] else [.refreshed authentication.username now lifetime]
  | .createPermission, .ok (some .success) =>
      [.permitted authentication.username now (permittedIps message)]
  | .channelBind, .ok (some .success) =>
      [.permitted authentication.username now (permittedIps message)]
  | _, _ => []

/-- What a step grants to a client. -/
def Input.events (client : ClientKey) (input : Input) (s : Server) : List Event :=
  match input with
  | .request call now unixSeconds sender message =>
      match s.authenticate unixSeconds sender.address message with
      | .ok authentication =>
          if sender = client then
            granted now message authentication
              (s.handleAuthenticatedRequest call now unixSeconds sender message).1
          else []
      | .error _ => []
  | .allocateInsert call =>
      match s.pending[call]?, (s.allocateInsert call).1 with
      | some ⟨owner, _, username, some (_, now)⟩, some (.allocated ..) =>
          if owner = client then [.allocated username now] else []
      | _, _ => []
  | .disconnect sender => if sender = client then [.ended] else []
  | _ => []

def history (client : ClientKey) : List Input → Server → List Event
  | [], _ => []
  | input :: rest, s => input.events client s ++ history client rest (s.step input)

/-- A lifetime that ends at a time is extended by every refresh before it ends, and has not ended at
`now`. -/
def Unexpired : ℕ → List Event → ℕ → Prop
  | ends, [], now => now < ends
  | ends, .refreshed _ refreshedAt lifetime :: rest, now =>
      refreshedAt < ends ∧ Unexpired (refreshedAt + lifetime * second) rest now
  | ends, _ :: rest, now => Unexpired ends rest now

/-- The client has an allocation whose lifetime has not ended, and the user who created it has
permitted the address within the last five minutes. -/
def Authorised (history : List Event) (ip : IpAddr) (now : ℕ) : Prop :=
  ∃ older username created recent,
    history = older ++ .allocated username created :: recent ∧
      (∀ event ∈ recent, event.continues = true) ∧
      Unexpired (created + defaultAllocationLifetime) recent now ∧
      ∃ permittedAt ips, .permitted username permittedAt ips ∈ recent ∧ ip ∈ ips ∧
        permittedAt ≤ now ∧ now < permittedAt + permissionLifetime

/-! ## Runs -/

/-- The time that a step reads. -/
def Input.time : Input → Option ℕ
  | .request _ now _ _ _ => some now
  | .allocateBind _ now _ => some now
  | .allocateInsert _ => none
  | .sendIndication now _ _ => some now
  | .channelData now _ _ _ => some now
  | .peerDatagram now _ _ _ => some now
  | .removeExpired now => some now
  | .disconnect _ => none

/-- The times of the steps do not decrease, from a time on. -/
def Ordered : ℕ → List Input → Prop
  | _, [] => True
  | last, input :: rest => last ≤ input.time.getD last ∧ Ordered (input.time.getD last) rest

/-- The lifetime of the client's allocation has ended, and the allocation is still there. -/
def lapsed (s : Server) (client : ClientKey) (now : ℕ) : Bool :=
  s.allocations[client]?.any fun existing => existing.allocation.expired now

/-- The request extends the lifetime of the client's allocation. -/
def renews (s : Server) (unixSeconds : ℕ) (client : ClientKey) (message : Message) : Bool :=
  message.method = .refresh && (u32Attribute message attributeLifetime).toOption != some (some 0) &&
    match s.authenticate unixSeconds client.address message with
    | .ok authentication => (s.owned client authentication).isOk
    | .error _ => false

/-- A datagram or a refresh for an allocation whose lifetime has ended. -/
def Input.late (input : Input) (s : Server) : Bool :=
  match input with
  | .request _ now unixSeconds client message =>
      s.renews unixSeconds client message && s.lapsed client now
  | .sendIndication now client _ => s.lapsed client now
  | .channelData now client _ _ => s.lapsed client now
  | .peerDatagram now client _ _ => s.lapsed client now
  | _ => false

/-- No step of a run is late, in the state before it. -/
def noneLate : List Input → Server → Bool
  | [], _ => true
  | input :: rest, s => !input.late s && noneLate rest (s.step input)

/-! ## What a step does to an allocation -/

/-- The allocation of a client. -/
def held (s : Server) (client : ClientKey) : Option Allocation :=
  s.allocations[client]?.map ManagedAllocation.allocation

/-- What a step at a time may do to the allocation of a client, with what it grants. -/
inductive Change (config : ServerConfig) (now : ℕ) :
    Option Allocation → List Event → Option Allocation → Prop
  | kept (a : Option Allocation) : Change config now a [] a
  | gone (a : Option Allocation) (events : List Event) : Change config now a events none
  | created (a : Option Allocation) (username : String) (createdAt : ℕ)
      (clientAddress relayedAddress : SocketAddr) :
      Change config now a [.allocated username createdAt]
        (some (.new createdAt username clientAddress relayedAddress))
  | purged (a : Allocation) : Change config now (some a) [] (some (a.expireChildren now))
  | refreshed (a : Allocation) (requestedSeconds : Option UInt32)
      (hlive : a.expired now = false) :
      Change config now (some a)
        [.refreshed a.username now (a.refresh now requestedSeconds).1]
        (some (a.refresh now requestedSeconds).2)
  | permitted (a : Allocation) (peers : List SocketAddr) :
      Change config now (some a) [.permitted a.username now (peers.map SocketAddr.ip)]
        (some ((a.expireChildren now).permitAll (saturatingAdd now permissionLifetime) peers))
  | bound (a : Allocation) (channelNumber : UInt16) (peer : SocketAddr)
      (hsafe : safePeer config peer = true) :
      Change config now (some a) [.permitted a.username now [peer.ip]]
        (some { (a.expireChildren now).permitAll (saturatingAdd now permissionLifetime) [peer] with
          channels := (a.expireChildren now).channels.insert channelNumber
            ⟨peer, saturatingAdd now channelLifetime⟩ })

/-- The allocations of pending ALLOCATE requests are new. -/
def PendingNew (s : Server) : Prop :=
  ∀ (call : ℕ) (request : PendingAllocate) (a : Allocation) (createdAt : ℕ),
    s.pending[call]? = some request → request.allocation = some (a, createdAt) →
      ∃ relayedAddress, a = .new createdAt request.username request.client.address relayedAddress

theorem pendingNew_insert {call : ℕ} {request : PendingAllocate}
    (h : ∀ a createdAt, request.allocation = some (a, createdAt) →
      ∃ relayedAddress, a = .new createdAt request.username request.client.address relayedAddress)
    (hs : PendingNew s) :
    PendingNew { s with pending := s.pending.insert call request } := by
  intro other found a createdAt hfound hallocation
  by_cases hother : call = other
  · subst hother
    rw [ExtTreeMap.getElem?_insert_self] at hfound
    cases hfound
    exact h a createdAt hallocation
  · rw [Maps.getElem?_insert_of_ne hother] at hfound
    exact hs other found a createdAt hfound hallocation

theorem pendingNew_erase (call : ℕ) (hs : PendingNew s)
    (hpending : t.pending = s.pending.erase call) : PendingNew t := by
  intro other found a createdAt hfound
  rw [hpending] at hfound
  exact hs other found a createdAt (Maps.getElem?_erase_eq_some.mp hfound).2

/-- A step at a time changes what the clients hold, with what it grants to them. -/
structure Moves (now : ℕ) (events : ClientKey → List Event) (s t : Server) : Prop where
  config : t.config = s.config
  pending : PendingNew s → PendingNew t
  change : ∀ client, Change s.config now (s.held client) (events client) (t.held client)

/-- Events of one client. -/
def only (client : ClientKey) (events : List Event) (other : ClientKey) : List Event :=
  if client = other then events else []

theorem only_nil (client : ClientKey) : only client [] = fun _ => [] := by
  funext other
  rw [only, ite_self]

theorem moves_of_eq (now : ℕ) (hconfig : t.config = s.config)
    (hpending : PendingNew s → PendingNew t) (hallocations : t.allocations = s.allocations) :
    Moves now (fun _ => []) s t := by
  refine ⟨hconfig, hpending, fun other => ?_⟩
  rw [held, held, hallocations]
  exact .kept _

theorem Moves.refl (now : ℕ) (s : Server) : Moves now (fun _ => []) s s :=
  moves_of_eq now rfl id rfl

theorem moves_refused (now : ℕ) (client : ClientKey) (s : Server) :
    Moves now (only client []) s s := by
  rw [only_nil]
  exact .refl now s

theorem held_eq_some {existing : ManagedAllocation} (h : s.allocations[client]? = some existing) :
    s.held client = some existing.allocation := by
  rw [held, h]
  rfl

theorem moves_insert {events : List Event} {entry : ManagedAllocation}
    (hconfig : t.config = s.config) (hpending : PendingNew s → PendingNew t)
    (hallocations : t.allocations = s.allocations.insert client entry)
    (h : Change s.config now (s.held client) events (some entry.allocation)) :
    Moves now (only client events) s t := by
  refine ⟨hconfig, hpending, fun other => ?_⟩
  rw [show t.held other = ((s.allocations.insert client entry)[other]?).map
    ManagedAllocation.allocation by rw [held, hallocations]]
  by_cases hother : client = other
  · subst hother
    rw [only, if_pos rfl, ExtTreeMap.getElem?_insert_self]
    exact h
  · rw [only, if_neg hother, Maps.getElem?_insert_of_ne hother]
    exact .kept _

theorem moves_erase (now : ℕ) (client : ClientKey) (events : List Event) (s : Server) :
    Moves now (only client events) s { s with allocations := s.allocations.erase client } := by
  refine ⟨rfl, id, fun other => ?_⟩
  show Change s.config now (s.held other) _
    ((s.allocations.erase client)[other]?.map ManagedAllocation.allocation)
  by_cases hother : client = other
  · subst hother
    rw [ExtTreeMap.getElem?_erase_self]
    exact .gone _ _
  · rw [only, if_neg hother, Maps.getElem?_erase_of_ne hother]
    exact .kept _

/-! ## The requests -/

theorem owned_eq_error {authentication : Authentication} {response : Response}
    (h : s.owned client authentication = .error response) :
    ∃ code reason, response = .error code reason := by
  unfold owned at h
  split at h
  · cases h
    exact ⟨_, _, rfl⟩
  · split_ifs at h
    cases h
    exact ⟨_, _, rfl⟩

/-- Only a request for no lifetime is granted none. -/
theorem refresh_ne_zero {requestedSeconds : Option UInt32} (h : requestedSeconds ≠ some 0)
    (a : Allocation) : (a.refresh now requestedSeconds).1 ≠ 0 := by
  have hgranted : second ≤ Allocation.grantedLifetime requestedSeconds := by
    cases requestedSeconds with
    | none => decide
    | some seconds =>
      have hseconds : seconds.toNat ≠ 0 := fun hzero =>
        h (congrArg some (UInt32.toNat_inj.mp (hzero.trans UInt32.toNat_zero.symm)))
      rw [Allocation.grantedLifetime, Option.elim_some, maxAllocationLifetime]
      refine le_min ?_ ?_
      · exact Nat.le_mul_of_pos_left second (Nat.pos_of_ne_zero hseconds)
      · exact Nat.le_mul_of_pos_left second (by decide)
  have hquotient : 1 ≤ Allocation.grantedLifetime requestedSeconds / second :=
    (Nat.one_le_div_iff (by decide)).mpr hgranted
  rw [Allocation.refresh]
  omega

theorem moves_handleRefresh {message : Message} {authentication : Authentication}
    (hmethod : message.method = .refresh)
    (hlate : (u32Attribute message attributeLifetime).toOption ≠ some (some 0) →
      (s.owned client authentication).isOk = true → s.lapsed client now = false) :
    Moves now (only client (granted now message authentication
        (some <$> (s.handleRefresh now client message authentication).1))) s
      (s.handleRefresh now client message authentication).2 := by
  unfold handleRefresh granted
  rw [hmethod]
  cases hlifetime : u32Attribute message attributeLifetime with
  | error error => exact moves_refused now client s
  | ok requestedLifetime =>
    dsimp only
    cases howned : s.owned client authentication with
    | error response =>
      obtain ⟨code, reason, rfl⟩ := owned_eq_error howned
      exact moves_refused now client s
    | ok existing =>
      obtain ⟨hexisting, husername⟩ := owned_eq_ok howned
      dsimp only
      by_cases hzero : requestedLifetime = some 0
      · rw [if_pos hzero]
        exact moves_erase now client _ s
      · rw [if_neg hzero]
        have hlapsed := hlate (by simpa [hlifetime, Except.toOption] using hzero)
          (by rw [howned]; rfl)
        rw [lapsed, hexisting, Option.any_some] at hlapsed
        have hchange := @Change.refreshed s.config now existing.allocation requestedLifetime hlapsed
        rw [husername, ← held_eq_some hexisting] at hchange
        show Moves now (only client (if (existing.allocation.refresh now requestedLifetime).1 = 0
          then _ else _)) s _
        rw [if_neg (refresh_ne_zero hzero _)]
        exact moves_insert rfl id rfl hchange

theorem granted_error (now : ℕ) (message : Message) (authentication : Authentication) (code : ℕ)
    (reason : String) : granted now message authentication (.ok (some (.error code reason))) = [] := by
  unfold granted
  split
  · next h => cases h
  · next h => cases h
  · next h => cases h
  · rfl

/-- An operation on the allocation of the client does what it does to that allocation. -/
theorem moves_operate {message : Message} {authentication : Authentication}
    {operation : Operation Unit} {respond : Except TurnError Unit → Except ServerError Response}
    (h : ∀ a : Allocation, a.username = authentication.username →
      Change s.config now (some a)
        (granted now message authentication (some <$> respond (operation.run a).1))
        (some (operation.run a).2)) :
    Moves now (only client (granted now message authentication
        (some <$> (s.operate client authentication operation respond).1))) s
      (s.operate client authentication operation respond).2 := by
  unfold operate
  cases howned : s.owned client authentication with
  | error response =>
    obtain ⟨code, reason, rfl⟩ := owned_eq_error howned
    show Moves now (only client (granted now message authentication
      (.ok (some (.error code reason))))) s s
    rw [granted_error]
    exact moves_refused now client s
  | ok existing =>
    obtain ⟨hexisting, husername⟩ := owned_eq_ok howned
    have hchange := h existing.allocation husername
    rw [← held_eq_some hexisting] at hchange
    exact moves_insert rfl id rfl hchange

theorem moves_handleCreatePermission {message : Message} (authentication : Authentication)
    (hmethod : message.method = .createPermission) :
    Moves now (only client (granted now message authentication
        (some <$> (s.handleCreatePermission now client message authentication).1))) s
      (s.handleCreatePermission now client message authentication).2 := by
  unfold handleCreatePermission
  cases hpeers : message.xorAddresses attributeXorPeerAddress with
  | error error =>
    unfold granted
    rw [hmethod]
    exact moves_refused now client s
  | ok peers =>
    dsimp only
    split_ifs
    · show Moves now (only client (granted now message authentication
        (.ok (some (.error _ _))))) s s
      rw [granted_error]
      exact moves_refused now client s
    · refine moves_operate fun a husername => ?_
      have hips : permittedIps message = peers.map SocketAddr.ip := by
        rw [permittedIps, hmethod, hpeers]
        rfl
      obtain ⟨error, hrun⟩ | ⟨-, -, hrun⟩ := Allocation.createPermissions_run now peers a
      · rw [hrun]
        have hnone : granted now message authentication (some <$> permissionResponse (.error error)) =
            [] := by
          unfold granted
          rw [hmethod]
          cases error <;> rfl
        rw [hnone]
        exact .purged a
      · rw [hrun]
        have hsome : granted now message authentication (some <$> permissionResponse (.ok ())) =
            [.permitted a.username now (peers.map SocketAddr.ip)] := by
          unfold granted
          rw [hmethod, ← hips, husername]
          rfl
        rw [hsome]
        exact .permitted a peers

theorem moves_handleChannelBind {message : Message} (authentication : Authentication)
    (hmethod : message.method = .channelBind) :
    Moves now (only client (granted now message authentication
        (some <$> (s.handleChannelBind now client message authentication).1))) s
      (s.handleChannelBind now client message authentication).2 := by
  have hrefused : ∀ code reason, Moves now (only client
      (granted now message authentication (some <$> .ok (.error code reason)))) s s := by
    intro code reason
    show Moves now (only client (granted now message authentication
      (.ok (some (.error code reason))))) s s
    rw [granted_error]
    exact moves_refused now client s
  unfold handleChannelBind
  split
  · unfold granted
    rw [hmethod]
    exact moves_refused now client s
  · unfold granted
    rw [hmethod]
    exact moves_refused now client s
  next channel peer hchannel hpeer =>
    split_ifs with hunsafe
    · exact hrefused _ _
    · have hsafe : safePeer s.config peer = true := by simpa using hunsafe
      refine moves_operate fun a husername => ?_
      have hips : permittedIps message = [peer.ip] := by
        rw [permittedIps, hmethod, hpeer]
        rfl
      obtain ⟨error, hrun⟩ | ⟨-, -, -, -, hrun⟩ := Allocation.bindChannel_run now channel peer a
      · rw [hrun]
        have hnone : granted now message authentication (some <$> bindResponse (.error error)) = [] := by
          unfold granted
          rw [hmethod]
          cases error <;> rfl
        rw [hnone]
        exact .purged a
      · rw [hrun]
        have hsome : granted now message authentication (some <$> bindResponse (.ok ())) =
            [.permitted a.username now [peer.ip]] := by
          unfold granted
          rw [hmethod, ← hips, husername]
          rfl
        rw [hsome]
        exact .bound a channel peer hsafe
  · exact hrefused _ _

/-- A request that the client is authenticated for. -/
theorem moves_authenticated {call unixSeconds : ℕ} {message : Message}
    {authentication : Authentication}
    (hauthentic : s.authenticate unixSeconds client.address message = .ok authentication)
    (hlate : (Input.request call now unixSeconds client message).late s = false) :
    Moves now (only client (granted now message authentication
        (s.handleAuthenticatedRequest call now unixSeconds client message).1)) s
      (s.handleAuthenticatedRequest call now unixSeconds client message).2 := by
  unfold handleAuthenticatedRequest
  rw [hauthentic]
  dsimp only
  split_ifs with hunknown
  · rw [granted_error]
    exact moves_refused now client s
  cases hmethod : message.method with
  | allocate =>
    have hnone : ∀ response, granted now message authentication response = [] := by
      intro response
      unfold granted
      rw [hmethod]
    rw [hnone]
    dsimp only
    unfold allocateCheck
    split
    · exact moves_refused now client s
    split
    · exact moves_refused now client s
    split
    · split <;> exact moves_refused now client s
    · split
      · exact moves_refused now client s
      · rw [only_nil]
        refine moves_of_eq now rfl (pendingNew_insert ?_) rfl
        intro a createdAt h
        cases h
  | refresh =>
    refine moves_handleRefresh hmethod fun hlifetime howned => ?_
    have hrenews : s.renews unixSeconds client message = true := by
      rw [renews, hmethod, hauthentic]
      simpa using ⟨hlifetime, howned⟩
    rw [Input.late, hrenews] at hlate
    exact hlate
  | createPermission => exact moves_handleCreatePermission authentication hmethod
  | channelBind => exact moves_handleChannelBind authentication hmethod
  | other =>
    dsimp only
    rw [granted_error]
    exact moves_refused now client s

theorem moves_request {call unixSeconds : ℕ} {message : Message}
    (hlate : (Input.request call now unixSeconds client message).late s = false) :
    Moves now (fun other => (Input.request call now unixSeconds client message).events other s) s
      (s.step (.request call now unixSeconds client message)) := by
  cases hauthentic : s.authenticate unixSeconds client.address message with
  | error rejection =>
    have hsame : (s.handleAuthenticatedRequest call now unixSeconds client message).2 = s := by
      rw [handleAuthenticatedRequest, hauthentic]
      cases rejection <;> rfl
    rw [step, hsame]
    refine ⟨rfl, id, fun other => ?_⟩
    rw [Input.events, hauthentic]
    exact .kept _
  | ok authentication =>
    have hmoves := moves_authenticated hauthentic hlate
    refine ⟨hmoves.config, hmoves.pending, fun other => ?_⟩
    rw [Input.events, hauthentic]
    exact hmoves.change other

/-! ## The other steps -/

theorem moves_allocateBind (call : ℕ) (port : Option UInt16) (s : Server) :
    Moves now (fun _ => []) s (s.allocateBind call now port) := by
  unfold allocateBind
  split
  next request port hrequest =>
    refine moves_of_eq now rfl (pendingNew_insert fun a createdAt h => ?_) rfl
    cases h
    exact ⟨_, rfl⟩
  · exact moves_of_eq now rfl (fun hs => pendingNew_erase call hs rfl) rfl
  · exact .refl now s

theorem moves_allocateInsert (now call : ℕ) (hpending : PendingNew s) :
    Moves now (fun client => (Input.allocateInsert call).events client s) s
      (s.allocateInsert call).2 := by
  rcases hrequest : s.pending[call]? with _ | ⟨owner, transactionId, username, _ | ⟨a, createdAt⟩⟩
  · simp only [Input.events, allocateInsert, hrequest]
    exact .refl now s
  · simp only [Input.events, allocateInsert, hrequest]
    exact .refl now s
  · simp only [Input.events, allocateInsert, hrequest]
    split_ifs with hmem
    · exact moves_of_eq now rfl (fun hs => pendingNew_erase call hs rfl) rfl
    · obtain ⟨relayedAddress, hnew⟩ := hpending call _ a createdAt hrequest rfl
      refine @moves_insert s _ now owner [.allocated username createdAt] _ rfl
        (fun hs => pendingNew_erase call hs rfl) rfl ?_
      rw [managed, hnew]
      exact .created _ _ _ _ _

/-- The table after the purge of one allocation. -/
theorem moves_purged {existing entry : ManagedAllocation}
    (h : s.allocations[client]? = some existing)
    (hentry : entry.allocation = existing.allocation.expireChildren now) :
    Moves now (fun _ => []) s
      { s with allocations := s.allocations.insert client entry } := by
  rw [← only_nil client]
  refine moves_insert rfl id rfl ?_
  rw [held_eq_some h, hentry]
  exact .purged existing.allocation

theorem peerRoute_snd (now : ℕ) (peer : SocketAddr) (a : Allocation) :
    (a.peerRoute now peer).2 = a.expireChildren now := by
  unfold Allocation.peerRoute
  dsimp only
  split <;> rfl

theorem moves_handleSendIndication (message : Message) (s : Server) :
    Moves now (fun _ => []) s (s.handleSendIndication now client message).2 := by
  unfold handleSendIndication
  split
  · split_ifs
    · exact .refl now s
    split
    · exact .refl now s
    next existing hexisting =>
      dsimp only
      split_ifs
      · exact moves_purged hexisting rfl
      · exact moves_purged hexisting rfl
  · exact .refl now s

theorem moves_handleChannelData (channel : UInt16) (data : Bytes) (s : Server) :
    Moves now (fun _ => []) s (s.handleChannelData now client channel data).2 := by
  unfold handleChannelData
  split_ifs
  · exact .refl now s
  split
  · exact .refl now s
  next existing hexisting =>
    dsimp only
    split
    · exact moves_purged hexisting rfl
    · exact moves_purged hexisting rfl

theorem moves_relayPeerDatagram (peer : SocketAddr) (data : Bytes) (s : Server) :
    Moves now (fun _ => []) s (s.relayPeerDatagram now client peer data).2 := by
  unfold relayPeerDatagram
  split_ifs
  · exact .refl now s
  split
  · exact .refl now s
  next existing hexisting =>
    dsimp only
    split
    · exact moves_purged hexisting (peerRoute_snd now peer existing.allocation)
    · exact moves_purged hexisting (peerRoute_snd now peer existing.allocation)

theorem moves_removeExpired (now : ℕ) (s : Server) :
    Moves now (fun _ => []) s (s.removeExpired now) := by
  refine ⟨rfl, id, fun client => ?_⟩
  have hfilter : (s.removeExpired now).held client = (s.allocations[client]?.filter
      fun existing => !existing.allocation.expired now).map ManagedAllocation.allocation := by
    rw [held, removeExpired, ExtTreeMap.getElem?_filter']
  rw [hfilter, held]
  cases s.allocations[client]? with
  | none => exact .kept _
  | some existing =>
    rw [Option.filter_some]
    split_ifs
    · exact .kept _
    · exact .gone _ _

/-- Every step changes the allocations of the clients as `Change` says. -/
theorem moves_step {input : Input} (hlate : input.late s = false) (hpending : PendingNew s)
    (last : ℕ) :
    Moves (input.time.getD last) (fun client => input.events client s) s (s.step input) := by
  cases input with
  | request call now unixSeconds client message => exact moves_request hlate
  | allocateBind call now port => exact moves_allocateBind call port s
  | allocateInsert call => exact moves_allocateInsert last call hpending
  | sendIndication now client message => exact moves_handleSendIndication message s
  | channelData now client channel data => exact moves_handleChannelData channel data s
  | peerDatagram now client peer data => exact moves_relayPeerDatagram peer data s
  | removeExpired now => exact moves_removeExpired now s
  | disconnect client => exact moves_erase last client _ s

/-! ## Histories and allocations -/

/-- What the events since its creation at a time say of an allocation, up to a last time. -/
structure Recorded (config : ServerConfig) (created : ℕ) (recent : List Event) (last : ℕ)
    (a : Allocation) : Prop where
  continues : ∀ event ∈ recent, event.continues = true
  unexpired : ∀ now < a.expiresAt, Unexpired (created + defaultAllocationLifetime) recent now
  permitted : ∀ (ip : IpAddr) (d : ℕ), a.permissions[ip]? = some d →
    ∃ permittedAt ips, .permitted a.username permittedAt ips ∈ recent ∧ ip ∈ ips ∧
      permittedAt ≤ last ∧ d ≤ permittedAt + permissionLifetime
  bound : ∀ (number : UInt16) (binding : ChannelBinding), a.channels[number]? = some binding →
    safePeer config binding.peer = true

/-- An allocation is the last one that the history creates, and is recorded there. -/
def Follows (config : ServerConfig) (history : List Event) (last : ℕ) (a : Allocation) : Prop :=
  ∃ older created recent, history = older ++ .allocated a.username created :: recent ∧
    Recorded config created recent last a

section

variable {config : ServerConfig} {created last : ℕ} {recent : List Event} {a : Allocation}

theorem saturatingAdd_le (x y : ℕ) : saturatingAdd x y ≤ x + y := by
  unfold saturatingAdd
  exact min_le_left _ _

theorem unexpired_permitted (ends : ℕ) (recent : List Event) (username : String)
    (permittedAt : ℕ) (ips : List IpAddr) (now : ℕ) :
    Unexpired ends (recent ++ [.permitted username permittedAt ips]) now ↔
      Unexpired ends recent now := by
  induction recent generalizing ends with
  | nil => exact Iff.rfl
  | cons event rest ih =>
    cases event with
    | refreshed => exact and_congr_right fun _ => ih _
    | allocated => exact ih _
    | permitted => exact ih _
    | ended => exact ih _

theorem unexpired_refreshed (ends : ℕ) (recent : List Event) (username : String)
    (refreshedAt lifetime now : ℕ) :
    Unexpired ends (recent ++ [.refreshed username refreshedAt lifetime]) now ↔
      Unexpired ends recent refreshedAt ∧ now < refreshedAt + lifetime * second := by
  induction recent generalizing ends with
  | nil => exact Iff.rfl
  | cons event rest ih =>
    cases event with
    | refreshed => exact (and_congr_right fun _ => ih _).trans and_assoc.symm
    | allocated => exact ih _
    | permitted => exact ih _
    | ended => exact ih _

/-- The granted lifetime is a number of seconds. -/
theorem refresh_mul_second (now : ℕ) (requestedSeconds : Option UInt32) (a : Allocation) :
    (a.refresh now requestedSeconds).1 * second = Allocation.grantedLifetime requestedSeconds := by
  have hseconds : ∃ n ≤ 3600, Allocation.grantedLifetime requestedSeconds = n * second := by
    cases requestedSeconds with
    | none => exact ⟨600, by decide, by decide⟩
    | some seconds =>
      refine ⟨min seconds.toNat 3600, min_le_right _ _, ?_⟩
      rw [Allocation.grantedLifetime, Option.elim_some, maxAllocationLifetime, Nat.mul_min_mul_right]
  obtain ⟨n, hn, hgranted⟩ := hseconds
  rw [Allocation.refresh, hgranted, Nat.mul_div_cancel n (by decide), min_eq_left (by omega)]

theorem Recorded.wait (h : Recorded config created recent last a) (hle : last ≤ now) :
    Recorded config created recent now a := by
  refine ⟨h.continues, h.unexpired, fun ip d hd => ?_, h.bound⟩
  obtain ⟨permittedAt, ips, hmem, hip, hbefore, hdeadline⟩ := h.permitted ip d hd
  exact ⟨permittedAt, ips, hmem, hip, hbefore.trans hle, hdeadline⟩

theorem recorded_new (config : ServerConfig) (created last : ℕ) (username : String)
    (clientAddress relayedAddress : SocketAddr) :
    Recorded config created [] last (.new created username clientAddress relayedAddress) := by
  refine ⟨by simp, fun now hnow => ?_, fun ip d hd => ?_, fun number binding hbinding => ?_⟩
  · exact lt_of_lt_of_le hnow (saturatingAdd_le _ _)
  · simp [Allocation.new] at hd
  · simp [Allocation.new] at hbinding

theorem Recorded.purge (h : Recorded config created recent last a) (now : ℕ) :
    Recorded config created recent last (a.expireChildren now) := by
  refine ⟨h.continues, h.unexpired, fun ip d hd => ?_, fun number binding hbinding => ?_⟩
  · exact h.permitted ip d (Expiry.getElem?_purge_eq_some.mp hd).1
  · exact h.bound number binding (Expiry.getElem?_purge_eq_some.mp hbinding).1

theorem Recorded.refresh (h : Recorded config created recent last a) (hlive : a.expired now = false)
    (requestedSeconds : Option UInt32) :
    Recorded config created
      (recent ++ [.refreshed a.username now (a.refresh now requestedSeconds).1]) last
      (a.refresh now requestedSeconds).2 := by
  have hbefore : now < a.expiresAt := by simpa [Allocation.expired] using hlive
  refine ⟨fun event hevent => ?_, fun later hlater => ?_, fun ip d hd => ?_, h.bound⟩
  · rcases List.mem_append.mp hevent with hevent | hevent
    · exact h.continues event hevent
    · rw [List.mem_singleton.mp hevent]
      rfl
  · rw [unexpired_refreshed, refresh_mul_second]
    exact ⟨h.unexpired now hbefore, lt_of_lt_of_le hlater (saturatingAdd_le _ _)⟩
  · obtain ⟨permittedAt, ips, hmem, hrest⟩ := h.permitted ip d hd
    exact ⟨permittedAt, ips, List.mem_append_left _ hmem, hrest⟩

theorem Recorded.permit (h : Recorded config created recent last a) (hle : last ≤ now)
    (peers : List SocketAddr) :
    Recorded config created (recent ++ [.permitted a.username now (peers.map SocketAddr.ip)]) now
      (a.permitAll (saturatingAdd now permissionLifetime) peers) := by
  refine ⟨fun event hevent => ?_, fun later hlater => ?_, fun ip d hd => ?_, h.bound⟩
  · rcases List.mem_append.mp hevent with hevent | hevent
    · exact h.continues event hevent
    · rw [List.mem_singleton.mp hevent]
      rfl
  · rw [unexpired_permitted]
    exact h.unexpired later hlater
  · rcases Allocation.getElem?_permitAll hd with hold | ⟨hip, rfl⟩
    · obtain ⟨permittedAt, ips, hmem, hip, hbefore, hdeadline⟩ := h.permitted ip d hold
      exact ⟨permittedAt, ips, List.mem_append_left _ hmem, hip, hbefore.trans hle, hdeadline⟩
    · exact ⟨now, _, List.mem_append_right _ (List.mem_singleton_self _), hip, le_rfl,
        saturatingAdd_le _ _⟩

/-- A channel is bound to a safe peer, which is permitted with it. -/
theorem Recorded.bind (h : Recorded config created recent last a) (channelNumber : UInt16)
    {binding : ChannelBinding} (hsafe : safePeer config binding.peer = true) :
    Recorded config created recent last
      { a with channels := a.channels.insert channelNumber binding } := by
  refine ⟨h.continues, h.unexpired, h.permitted, fun number found hfound => ?_⟩
  by_cases hnumber : channelNumber = number
  · subst hnumber
    have hbinding : binding = found := by simpa using hfound
    rw [← hbinding]
    exact hsafe
  · exact h.bound number found (by rwa [Maps.getElem?_insert_of_ne hnumber] at hfound)

/-- What a step grants explains what it makes of an allocation. -/
theorem follows_change {history events : List Event} {old new : Option Allocation}
    (h : ∀ a, old = some a → Follows config history last a) (hle : last ≤ now)
    (hchange : Change config now old events new) {b : Allocation} (hb : new = some b) :
    Follows config (history ++ events) now b := by
  cases hchange with
  | kept =>
    obtain ⟨older, created, recent, rfl, hrecorded⟩ := h b hb
    refine ⟨older, created, recent, List.append_nil _, hrecorded.wait hle⟩
  | gone => cases hb
  | created _ username createdAt clientAddress relayedAddress =>
    cases hb
    exact ⟨history, createdAt, [], rfl, recorded_new _ _ _ _ _ _⟩
  | purged a =>
    cases hb
    obtain ⟨older, created, recent, rfl, hrecorded⟩ := h a rfl
    exact ⟨older, created, recent, List.append_nil _, (hrecorded.wait hle).purge now⟩
  | refreshed a requestedSeconds hlive =>
    cases hb
    obtain ⟨older, created, recent, rfl, hrecorded⟩ := h a rfl
    exact ⟨older, created, _, List.append_assoc _ _ _,
      (hrecorded.wait hle).refresh hlive requestedSeconds⟩
  | permitted a peers =>
    cases hb
    obtain ⟨older, created, recent, rfl, hrecorded⟩ := h a rfl
    exact ⟨older, created, _, List.append_assoc _ _ _,
      ((hrecorded.wait hle).purge now).permit le_rfl peers⟩
  | bound a channelNumber peer hsafe =>
    cases hb
    obtain ⟨older, created, recent, rfl, hrecorded⟩ := h a rfl
    exact ⟨older, created, _, List.append_assoc _ _ _,
      (((hrecorded.wait hle).purge now).permit le_rfl [peer]).bind channelNumber hsafe⟩

/-- A permission that is left after a purge authorises its address. -/
theorem Follows.authorised {history : List Event} (h : Follows config history last a)
    (hle : last ≤ now) (hlive : a.expired now = false) {ip : IpAddr}
    (hip : (a.expireChildren now).permissions.contains ip = true) : Authorised history ip now := by
  obtain ⟨older, created, recent, rfl, hrecorded⟩ := h
  have hbefore : now < a.expiresAt := by simpa [Allocation.expired] using hlive
  rw [ExtTreeMap.contains_iff_mem] at hip
  obtain ⟨d, hd⟩ := Maps.mem_iff_exists.mp hip
  obtain ⟨hstored, hahead⟩ := Expiry.getElem?_purge_eq_some.mp hd
  obtain ⟨permittedAt, ips, hmem, hin, hpast, hdeadline⟩ := hrecorded.permitted ip d hstored
  exact ⟨older, a.username, created, recent, rfl, hrecorded.continues, hrecorded.unexpired now hbefore,
    permittedAt, ips, hmem, hin, hpast.trans hle, lt_of_lt_of_le hahead hdeadline⟩

/-- A channel that resolves to a peer was bound to it, and the peer is permitted. -/
theorem channelPeer_eq_some {channelNumber : UInt16} {peer : SocketAddr}
    (h : (a.channelPeer now channelNumber).1 = some peer) :
    (∃ binding, a.channels[channelNumber]? = some binding ∧ binding.peer = peer) ∧
      (a.expireChildren now).permissions.contains peer.ip = true := by
  have hbind : ((a.expireChildren now).channels[channelNumber]?).bind (fun binding =>
      if (a.expireChildren now).permissions.contains binding.peer.ip then some binding.peer
      else none) = some peer := h
  obtain ⟨binding, hbinding, hpeer⟩ := Option.bind_eq_some_iff.mp hbind
  split_ifs at hpeer with hpermitted
  cases hpeer
  exact ⟨⟨binding, (Expiry.getElem?_purge_eq_some.mp hbinding).1, rfl⟩, hpermitted⟩

theorem permissions_of_permits {peer : SocketAddr} (h : (a.permits now peer).1 = true) :
    (a.expireChildren now).permissions.contains peer.ip = true := by
  have hboth : ((a.expireChildren now).permissions.contains peer.ip &&
    peer.ip.sameFamily a.relayedAddress.ip) = true := h
  exact (Bool.and_eq_true _ _ ▸ hboth).1

theorem permissions_of_peerRoute {peer : SocketAddr} {route : PeerRoute}
    (h : (a.peerRoute now peer).1 = some route) :
    (a.expireChildren now).permissions.contains peer.ip = true := by
  unfold Allocation.peerRoute at h
  dsimp only at h
  split_ifs at h with hrefused
  exact permissions_of_permits (by simpa using hrefused)

end

/-! ## Runs -/

/-- The histories explain every allocation of a state, up to a last time. -/
structure Explained (history : ClientKey → List Event) (last : ℕ) (s : Server) : Prop where
  pending : PendingNew s
  follows : ∀ client a, s.held client = some a → Follows s.config (history client) last a

theorem explained_start (config : ServerConfig) (credentials : Credentials) (last : ℕ) :
    Explained (fun _ => []) last (start config credentials) := by
  refine ⟨fun call request a createdAt h => ?_, fun client a h => ?_⟩
  · simp [start] at h
  · simp [start, held] at h

theorem Explained.step {history : ClientKey → List Event} {last : ℕ}
    (h : Explained history last s) {input : Input} (hlate : input.late s = false)
    (hle : last ≤ input.time.getD last) :
    Explained (fun client => history client ++ input.events client s) (input.time.getD last)
      (s.step input) := by
  have hmoves := moves_step hlate h.pending last
  refine ⟨hmoves.pending h.pending, fun client a ha => ?_⟩
  rw [hmoves.config]
  exact follows_change (h.follows client) hle (hmoves.change client) ha

theorem not_expired_of_lapsed {existing : ManagedAllocation}
    (hexisting : s.allocations[client]? = some existing) (h : s.lapsed client now = false) :
    existing.allocation.expired now = false := by
  rw [lapsed, hexisting, Option.any_some] at h
  exact h

/-- What a datagram is charged as is all that can be relayed. -/
theorem mem_charge {existing : ManagedAllocation} {allocation : Allocation} {data : Bytes}
    {sent relayed : Relayed}
    (h : relayed ∈ (s.charge now client existing allocation data sent).1) : relayed = sent := by
  unfold charge at h
  dsimp only at h
  split_ifs at h
  · exact List.mem_singleton.mp h
  · cases h

/-- The datagram of a data path goes to a safe address if it goes to a peer, and its address on the
other side is authorised by the history of the client. -/
def Relayed.Permitted (config : ServerConfig) (history : ClientKey → List Event) (now : ℕ) :
    Relayed → Prop
  | .toPeer client peer _ => safePeer config peer = true ∧ Authorised (history client) peer.ip now
  | .toClient client peer _ _ => Authorised (history client) peer.ip now

section

variable {history : ClientKey → List Event} {last : ℕ} {relayed : Relayed}

theorem permitted_handleSendIndication (h : Explained history last s) {message : Message}
    (hlapsed : s.lapsed client now = false) (hle : last ≤ now)
    (hrelayed : relayed ∈ (s.handleSendIndication now client message).1) :
    relayed.Permitted s.config history now := by
  unfold handleSendIndication at hrelayed
  split at hrelayed
  next peer data hpeer hdata =>
    split_ifs at hrelayed with hrefused
    · cases hrelayed
    split at hrelayed
    · cases hrelayed
    next existing hexisting =>
      dsimp only at hrelayed
      split_ifs at hrelayed with hpermits
      · rw [mem_charge hrelayed]
        refine ⟨by simp_all, ?_⟩
        exact (h.follows client _ (held_eq_some hexisting)).authorised hle
          (not_expired_of_lapsed hexisting hlapsed) (permissions_of_permits hpermits)
      · cases hrelayed
  · cases hrelayed

theorem permitted_handleChannelData (h : Explained history last s) {channel : UInt16} {data : Bytes}
    (hlapsed : s.lapsed client now = false) (hle : last ≤ now)
    (hrelayed : relayed ∈ (s.handleChannelData now client channel data).1) :
    relayed.Permitted s.config history now := by
  unfold handleChannelData at hrelayed
  split_ifs at hrelayed
  · cases hrelayed
  split at hrelayed
  · cases hrelayed
  next existing hexisting =>
    dsimp only at hrelayed
    split at hrelayed
    next peer hpeer =>
      rw [mem_charge hrelayed]
      have hfollows := h.follows client _ (held_eq_some hexisting)
      obtain ⟨⟨binding, hbinding, rfl⟩, hpermitted⟩ := channelPeer_eq_some hpeer
      refine ⟨?_, hfollows.authorised hle (not_expired_of_lapsed hexisting hlapsed) hpermitted⟩
      obtain ⟨older, created, recent, -, hrecorded⟩ := hfollows
      exact hrecorded.bound channel binding hbinding
    · cases hrelayed

theorem permitted_relayPeerDatagram (h : Explained history last s) {peer : SocketAddr} {data : Bytes}
    (hlapsed : s.lapsed client now = false) (hle : last ≤ now)
    (hrelayed : relayed ∈ (s.relayPeerDatagram now client peer data).1) :
    relayed.Permitted s.config history now := by
  unfold relayPeerDatagram at hrelayed
  split_ifs at hrelayed
  · cases hrelayed
  split at hrelayed
  · cases hrelayed
  next existing hexisting =>
    dsimp only at hrelayed
    split at hrelayed
    next route hroute =>
      rw [mem_charge hrelayed]
      exact (h.follows client _ (held_eq_some hexisting)).authorised hle
        (not_expired_of_lapsed hexisting hlapsed) (permissions_of_peerRoute hroute)
    · cases hrelayed

/-- The three data paths. -/
theorem Explained.permitted (h : Explained history last s) {input : Input}
    (hlate : input.late s = false) (htime : input.time = some now) (hle : last ≤ now)
    (hrelayed : relayed ∈ input.relayed s) : relayed.Permitted s.config history now := by
  cases input with
  | sendIndication _ client message =>
    cases htime
    exact permitted_handleSendIndication h hlate hle hrelayed
  | channelData _ client channel data =>
    cases htime
    exact permitted_handleChannelData h hlate hle hrelayed
  | peerDatagram _ client peer data =>
    cases htime
    exact permitted_relayPeerDatagram h hlate hle hrelayed
  | _ => cases hrelayed

/-- From any state that the histories explain. -/
theorem Explained.run {inputs before after : List Input} {input : Input}
    (h : Explained history last s) (hordered : Ordered last inputs) (hlate : noneLate inputs s = true)
    (hinputs : inputs = before ++ input :: after) (htime : input.time = some now)
    (hrelayed : relayed ∈ input.relayed (runInputs before s)) :
    relayed.Permitted s.config
      (fun client => history client ++ Server.history client before s) now := by
  induction before generalizing inputs s history last with
  | nil =>
    subst hinputs
    rw [List.nil_append, noneLate, Bool.and_eq_true, Bool.not_eq_true'] at hlate
    have hle : last ≤ now := by simpa [htime] using hordered.1
    have hpermitted := h.permitted hlate.1 htime hle hrelayed
    simpa [Server.history] using hpermitted
  | cons first before ih =>
    subst hinputs
    rw [List.cons_append, noneLate, Bool.and_eq_true, Bool.not_eq_true'] at hlate
    have hstep := h.step hlate.1 hordered.1
    have hpermitted := ih hstep hordered.2 hlate.2 rfl hrelayed
    rw [(moves_step hlate.1 h.pending last).config] at hpermitted
    simpa only [Server.history, List.append_assoc] using hpermitted

end

/-! ## Ends of allocations -/

/-- An event that does not continue an allocation is behind the allocation in force, or is it. -/
theorem split_of_not_continues {older older' recent recent' : List Event} {event event' : Event}
    (hcontinues : ∀ event ∈ recent, event.continues = true) (hevent : event'.continues = false)
    (h : older ++ event :: recent = older' ++ event' :: recent') :
    (event = event' ∧ recent = recent') ∨ event ∈ recent' := by
  rcases List.append_eq_append_iff.mp h with ⟨between, rfl, hrest⟩ | ⟨between, rfl, hrest⟩
  · cases between with
    | nil => exact .inl (List.cons.inj hrest)
    | cons first between =>
      have hmem : event' ∈ recent := by
        rw [(List.cons.inj hrest).2]
        simp
      rw [hcontinues event' hmem] at hevent
      cases hevent
  · cases between with
    | nil =>
      obtain ⟨hhead, htail⟩ := List.cons.inj hrest
      exact .inl ⟨hhead.symm, htail.symm⟩
    | cons first between =>
      right
      rw [(List.cons.inj hrest).2]
      simp

theorem not_authorised_of_ended {older recent : List Event}
    (hnone : ∀ username created, .allocated username created ∉ recent) (ip : IpAddr) (now : ℕ) :
    ¬Authorised (older ++ .ended :: recent) ip now := by
  rintro ⟨older', username, created, recent', h, hcontinues, -⟩
  rcases split_of_not_continues hcontinues rfl h.symm with ⟨hevent, -⟩ | hmem
  · cases hevent
  · exact hnone username created hmem

theorem unexpired_of_authorised {older recent : List Event} {username : String} {created : ℕ}
    (hnone : ∀ username created, .allocated username created ∉ recent) {ip : IpAddr} {now : ℕ}
    (h : Authorised (older ++ .allocated username created :: recent) ip now) :
    Unexpired (created + defaultAllocationLifetime) recent now := by
  obtain ⟨older', username', created', recent', heq, hcontinues, hunexpired, -⟩ := h
  rcases split_of_not_continues hcontinues rfl heq.symm with ⟨hevent, rfl⟩ | hmem
  · cases hevent
    exact hunexpired
  · exact absurd hmem (hnone username' created')

/-- The client that a datagram is relayed for. -/
def Relayed.owner : Relayed → ClientKey
  | .toPeer client _ _ => client
  | .toClient client _ _ _ => client

theorem Relayed.Permitted.authorised {config : ServerConfig} {history : ClientKey → List Event}
    {relayed : Relayed} (h : relayed.Permitted config history now) :
    ∃ ip, Authorised (history relayed.owner) ip now := by
  cases relayed with
  | toPeer client peer data => exact ⟨_, h.2⟩
  | toClient client peer route data => exact ⟨_, h⟩

/-- In every run of the handlers at times that do not decrease, by any clients and in any order of
the lock sections: if no datagram and no refresh meets an allocation whose lifetime has ended, then
every datagram sent to a peer goes to a safe address, and the address of every datagram sent to a
peer or passed to a client is authorised by what the client has been granted before.  So nothing is
relayed for a client after the end of its allocation, or of its lifetime, until the next ALLOCATE. -/
theorem relayed_authorised (config : ServerConfig) (credentials : Credentials) {inputs : List Input}
    (hordered : Ordered 0 inputs) (hlate : noneLate inputs (start config credentials) = true)
    {before after : List Input} {input : Input} (hinputs : inputs = before ++ input :: after)
    {now : ℕ} (htime : input.time = some now) :
    let s := runInputs before (start config credentials)
    let past := fun client => history client before (start config credentials)
    (∀ client peer data, .toPeer client peer data ∈ input.relayed s →
      safePeer config peer = true ∧ Authorised (past client) peer.ip now) ∧
    (∀ client peer route data, .toClient client peer route data ∈ input.relayed s →
      Authorised (past client) peer.ip now) ∧
    (∀ client older recent, past client = older ++ .ended :: recent →
      (∀ username created, .allocated username created ∉ recent) →
        ∀ relayed ∈ input.relayed s, relayed.owner ≠ client) ∧
    ∀ client older username created recent,
      past client = older ++ .allocated username created :: recent →
      (∀ username created, .allocated username created ∉ recent) →
      ¬Unexpired (created + defaultAllocationLifetime) recent now →
        ∀ relayed ∈ input.relayed s, relayed.owner ≠ client := by
  intro s past
  have hpermitted : ∀ relayed ∈ input.relayed s, relayed.Permitted config past now := by
    intro relayed hrelayed
    exact (explained_start config credentials 0).run hordered hlate hinputs htime hrelayed
  refine ⟨fun client peer data hrelayed => hpermitted _ hrelayed,
    fun client peer route data hrelayed => hpermitted _ hrelayed, ?_, ?_⟩
  · rintro client older recent hpast hnone relayed hrelayed rfl
    obtain ⟨ip, hip⟩ := (hpermitted relayed hrelayed).authorised
    rw [hpast] at hip
    exact not_authorised_of_ended hnone ip now hip
  · rintro client older username created recent hpast hnone hexpired relayed hrelayed rfl
    obtain ⟨ip, hip⟩ := (hpermitted relayed hrelayed).authorised
    rw [hpast] at hip
    exact hexpired (unexpired_of_authorised hnone hip)

namespace Sample

def peer : SocketAddr := .new (ip 20) 40000

/-- An allocation at time 0 and a permission for the peer. -/
def setUp (permittedAt : ℕ) : List Input :=
  [.request 0 0 0 (Sample.client 0) allocate, .allocateBind 0 0 (some 50000), .allocateInsert 0,
    .request 1 permittedAt 0 (Sample.client 0) (request .createPermission [] [peer])]

/-- A Send indication to the peer. -/
def send (now : ℕ) : Input :=
  .sendIndication now (Sample.client 0) (request .other [(attributeData, [1])] [peer])

/-- A run up to the last sweep that finds the allocation. -/
def swept : List Input := setUp (480 * second) ++ [.removeExpired (599 * second + second / 2)]

/-- A quarter of a second after the end of the lifetime. -/
def lapsedAt : ℕ := 600 * second + second / 4

end Sample

/-- Nine minutes after the ALLOCATE the peer that was permitted a minute ago is authorised, by the
theorem. -/
theorem sample_relayed_authorised :
    (Sample.send (540 * second)).relayed
        (runInputs (Sample.setUp (480 * second)) (start Sample.config Sample.credentials)) =
      [.toPeer (Sample.client 0) Sample.peer [1]] ∧
    safePeer Sample.config Sample.peer = true ∧
    Authorised (history (Sample.client 0) (Sample.setUp (480 * second))
      (start Sample.config Sample.credentials)) Sample.peer.ip (540 * second) := by
  have hrelayed : (Sample.send (540 * second)).relayed
      (runInputs (Sample.setUp (480 * second)) (start Sample.config Sample.credentials)) =
        [.toPeer (Sample.client 0) Sample.peer [1]] := by
    decide +kernel
  have hordered : Ordered 0 (Sample.setUp (480 * second) ++ [Sample.send (540 * second)]) := by
    simp [Sample.setUp, Sample.send, Ordered, Input.time, second]
  have hauthorised := relayed_authorised Sample.config Sample.credentials hordered
    (by decide +kernel) rfl rfl
  refine ⟨hrelayed, hauthorised.1 _ _ [1] ?_⟩
  rw [hrelayed]
  exact List.mem_singleton_self _

/-- Ten minutes and a quarter of a second after the ALLOCATE, between two sweeps, the datagram of a
client that has not refreshed is still relayed, although it is not authorised. -/
theorem lapsed_allocation_relays :
    Ordered 0 (Sample.swept ++ [Sample.send Sample.lapsedAt]) ∧
      (Sample.send Sample.lapsedAt).relayed
          (runInputs Sample.swept (start Sample.config Sample.credentials)) =
        [.toPeer (Sample.client 0) Sample.peer [1]] ∧
      ¬Authorised (history (Sample.client 0) Sample.swept (start Sample.config Sample.credentials))
        Sample.peer.ip Sample.lapsedAt := by
  refine ⟨?_, by decide +kernel, fun h => ?_⟩
  · simp [Sample.swept, Sample.lapsedAt, Sample.setUp, Sample.send, Ordered, Input.time, second]
  · have hhistory : history (Sample.client 0) Sample.swept
        (start Sample.config Sample.credentials) =
          [.allocated "user" 0, .permitted "user" (480 * second) [Sample.ip 20]] := by
      decide
    rw [hhistory] at h
    have hunexpired := @unexpired_of_authorised []
      [.permitted "user" (480 * second) [Sample.ip 20]] "user" 0 (by simp) _ _ h
    revert hunexpired
    simp [Sample.lapsedAt, Unexpired, defaultAllocationLifetime, second]

end Fluvora.TurnServer.Server
