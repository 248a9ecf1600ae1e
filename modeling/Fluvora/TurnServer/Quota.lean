import Fluvora.TurnServer.Server

/-!
# Allocation quotas

`handleAllocate` checks the quotas in one lock section and inserts the allocation in another, and
looks in the second one only whether the client has got an allocation in the meantime.  Whatever the
order of the sections of all requests, the quotas hold in every state of a run exactly if every
insertion still finds room; two requests that pass the check before either inserts can exceed them.
-/

open Std (ExtTreeMap)

namespace Fluvora.TurnServer.Server

open Turn

variable {s t : Server}

/-- The quotas hold, for all clients together and for the clients of each address. -/
def Within (s : Server) : Prop :=
  s.allocations.size ≤ s.config.maximumAllocations ∧
    ∀ ip, s.fromIp ip ≤ s.config.maximumAllocationsPerIp

/-- The client whose allocation a step inserts. -/
def Input.inserts (input : Input) (s : Server) : Option ClientKey :=
  match input with
  | .allocateInsert call =>
      match s.pending[call]? with
      | some ⟨client, _, _, some _⟩ => if client ∈ s.allocations then none else some client
      | _ => none
  | _ => none

/-- Every insertion of a run finds room, in the state before it. -/
def allFit : List Input → Server → Bool
  | [], _ => true
  | input :: rest, s => (input.inserts s).all s.hasRoom && allFit rest (s.step input)

/-! ## Counting clients -/

theorem fromIp_le (h : ∀ client ∈ t.allocations, client ∈ s.allocations) (ip : IpAddr) :
    t.fromIp ip ≤ s.fromIp ip := by
  unfold fromIp
  refine (((Maps.nodup_keys t.allocations).filter _).subperm fun client hclient => ?_).length_le
  rw [List.mem_filter, ExtTreeMap.mem_keys] at hclient ⊢
  exact ⟨h client hclient.1, hclient.2⟩

theorem keys_insert_perm {client : ClientKey} (h : client ∉ s.allocations)
    (entry : ManagedAllocation) :
    (s.allocations.insert client entry).keys.Perm (client :: s.allocations.keys) := by
  rw [List.perm_ext_iff_of_nodup (Maps.nodup_keys _)]
  · intro k
    rw [ExtTreeMap.mem_keys, Maps.mem_insert_iff, List.mem_cons, ExtTreeMap.mem_keys, eq_comm]
  · refine List.nodup_cons.mpr ⟨?_, Maps.nodup_keys _⟩
    rw [ExtTreeMap.mem_keys]
    exact h

theorem fromIp_insert {client : ClientKey} (h : client ∉ s.allocations) {entry : ManagedAllocation}
    (ht : t.allocations = s.allocations.insert client entry) (ip : IpAddr) :
    t.fromIp ip = s.fromIp ip + if client.address.ip = ip then 1 else 0 := by
  unfold fromIp
  rw [ht, ((keys_insert_perm h entry).filter _).length_eq]
  by_cases hip : client.address.ip = ip
  · rw [List.filter_cons_of_pos (by simpa using hip), List.length_cons, if_pos hip]
  · rw [List.filter_cons_of_neg (by simpa using hip), if_neg hip, Nat.add_zero]

/-! ## What a step does to the table -/

/-- A state of the same server whose clients are all clients of the old state. -/
structure NoNewClient (s t : Server) : Prop where
  config : t.config = s.config
  mem : ∀ client ∈ t.allocations, client ∈ s.allocations

theorem NoNewClient.refl (s : Server) : NoNewClient s s := ⟨rfl, fun _ h => h⟩

/-- An entry of a client is replaced. -/
theorem noNewClient_insert {client : ClientKey} {existing : ManagedAllocation}
    (h : s.allocations[client]? = some existing) (entry : ManagedAllocation) :
    NoNewClient s { s with allocations := s.allocations.insert client entry } := by
  refine ⟨rfl, fun k hk => ?_⟩
  rcases Maps.mem_insert_iff.mp hk with rfl | hk
  · exact Maps.mem_of_getElem? h
  · exact hk

theorem noNewClient_erase (s : Server) (client : ClientKey) :
    NoNewClient s { s with allocations := s.allocations.erase client } :=
  ⟨rfl, fun _ hk => ExtTreeMap.mem_of_mem_erase hk⟩

theorem owned_eq_ok {client : ClientKey} {authentication : Authentication}
    {existing : ManagedAllocation} (h : s.owned client authentication = .ok existing) :
    s.allocations[client]? = some existing ∧
      existing.allocation.username = authentication.username := by
  unfold owned at h
  split at h
  · cases h
  next found hfound =>
    split_ifs at h with hname
    cases h
    exact ⟨hfound, by simpa using hname⟩

theorem noNewClient_operate (client : ClientKey) (authentication : Authentication)
    (operation : Operation Unit) (respond : Except TurnError Unit → Except ServerError Response)
    (s : Server) : NoNewClient s (s.operate client authentication operation respond).2 := by
  unfold operate
  split
  · exact .refl s
  next existing howned => exact noNewClient_insert (owned_eq_ok howned).1 _

theorem noNewClient_handleRefresh (now : ℕ) (client : ClientKey) (message : Message)
    (authentication : Authentication) (s : Server) :
    NoNewClient s (s.handleRefresh now client message authentication).2 := by
  unfold handleRefresh
  split
  · exact .refl s
  split
  · exact .refl s
  next existing howned =>
    split_ifs
    · exact noNewClient_erase s client
    · exact noNewClient_insert (owned_eq_ok howned).1 _

theorem noNewClient_handleCreatePermission (now : ℕ) (client : ClientKey) (message : Message)
    (authentication : Authentication) (s : Server) :
    NoNewClient s (s.handleCreatePermission now client message authentication).2 := by
  unfold handleCreatePermission
  split
  · exact .refl s
  split_ifs
  · exact .refl s
  · exact noNewClient_operate client authentication _ _ s

theorem noNewClient_handleChannelBind (now : ℕ) (client : ClientKey) (message : Message)
    (authentication : Authentication) (s : Server) :
    NoNewClient s (s.handleChannelBind now client message authentication).2 := by
  unfold handleChannelBind
  split
  · exact .refl s
  · exact .refl s
  · split_ifs
    · exact .refl s
    · exact noNewClient_operate client authentication _ _ s
  · exact .refl s

theorem noNewClient_allocateCheck (call : ℕ) (client : ClientKey) (message : Message)
    (authentication : Authentication) (s : Server) :
    NoNewClient s (s.allocateCheck call client message authentication).2 := by
  unfold allocateCheck
  split
  · exact .refl s
  split
  · exact .refl s
  split
  · split <;> exact .refl s
  · split
    · exact .refl s
    · exact ⟨rfl, fun _ h => h⟩

theorem noNewClient_request (call now unixSeconds : ℕ) (client : ClientKey) (message : Message)
    (s : Server) :
    NoNewClient s (s.handleAuthenticatedRequest call now unixSeconds client message).2 := by
  unfold handleAuthenticatedRequest
  split
  · exact .refl s
  · exact .refl s
  split_ifs
  · exact .refl s
  split
  · exact noNewClient_allocateCheck call client message _ s
  · exact noNewClient_handleRefresh now client message _ s
  · exact noNewClient_handleCreatePermission now client message _ s
  · exact noNewClient_handleChannelBind now client message _ s
  · exact .refl s

theorem noNewClient_allocateBind (call now : ℕ) (port : Option UInt16) (s : Server) :
    NoNewClient s (s.allocateBind call now port) := by
  unfold allocateBind
  split
  · exact ⟨rfl, fun _ h => h⟩
  · exact ⟨rfl, fun _ h => h⟩
  · exact .refl s

theorem noNewClient_handleSendIndication (now : ℕ) (client : ClientKey) (message : Message)
    (s : Server) : NoNewClient s (s.handleSendIndication now client message).2 := by
  unfold handleSendIndication
  split
  · split_ifs
    · exact .refl s
    split
    · exact .refl s
    next existing hexisting =>
      dsimp only
      split_ifs
      · exact noNewClient_insert hexisting _
      · exact noNewClient_insert hexisting _
  · exact .refl s

theorem noNewClient_handleChannelData (now : ℕ) (client : ClientKey) (channel : UInt16)
    (data : Bytes) (s : Server) :
    NoNewClient s (s.handleChannelData now client channel data).2 := by
  unfold handleChannelData
  split_ifs
  · exact .refl s
  split
  · exact .refl s
  next existing hexisting =>
    dsimp only
    split
    · exact noNewClient_insert hexisting _
    · exact noNewClient_insert hexisting _

theorem noNewClient_relayPeerDatagram (now : ℕ) (client : ClientKey) (peer : SocketAddr)
    (data : Bytes) (s : Server) :
    NoNewClient s (s.relayPeerDatagram now client peer data).2 := by
  unfold relayPeerDatagram
  split_ifs
  · exact .refl s
  split
  · exact .refl s
  next existing hexisting =>
    dsimp only
    split
    · exact noNewClient_insert hexisting _
    · exact noNewClient_insert hexisting _

/-- Outside of the insertion of an ALLOCATE no client gets into the table. -/
theorem noNewClient_step {input : Input} (h : input.inserts s = none) :
    NoNewClient s (s.step input) := by
  cases input with
  | request call now unixSeconds client message =>
    exact noNewClient_request call now unixSeconds client message s
  | allocateBind call now port => exact noNewClient_allocateBind call now port s
  | allocateInsert call =>
    rw [Input.inserts] at h
    show NoNewClient s (s.allocateInsert call).2
    unfold allocateInsert
    split
    next client transactionId username allocation now hpending =>
      rw [hpending] at h
      dsimp only at h
      split_ifs at h with hmem
      rw [if_pos hmem]
      exact ⟨rfl, fun _ h => h⟩
    next => exact .refl s
  | sendIndication now client message => exact noNewClient_handleSendIndication now client message s
  | channelData now client channel data =>
    exact noNewClient_handleChannelData now client channel data s
  | peerDatagram now client peer data => exact noNewClient_relayPeerDatagram now client peer data s
  | removeExpired now => exact ⟨rfl, fun _ hk => ExtTreeMap.mem_of_mem_filter hk⟩
  | disconnect client => exact noNewClient_erase s client

/-- The insertion of an ALLOCATE. -/
theorem step_of_inserts {input : Input} {client : ClientKey} (h : input.inserts s = some client) :
    client ∉ s.allocations ∧ (s.step input).config = s.config ∧
      ∃ entry, (s.step input).allocations = s.allocations.insert client entry := by
  cases input with
  | allocateInsert call =>
    rw [Input.inserts] at h
    rw [step, allocateInsert]
    split at h
    next client' transactionId username allocation hpending =>
      split_ifs at h with hmem
      cases h
      rw [hpending]
      dsimp only
      rw [if_neg hmem]
      exact ⟨hmem, rfl, _, rfl⟩
    next => cases h
  | _ => cases h

/-! ## Runs -/

theorem NoNewClient.within (h : NoNewClient s t) (hs : Within s) : Within t := by
  refine ⟨?_, fun ip => ?_⟩
  · rw [h.config]
    exact (Maps.size_le_of_subset h.mem).trans hs.1
  · rw [h.config]
    exact (fromIp_le h.mem ip).trans (hs.2 ip)

/-- An insertion keeps the quotas exactly if there was room. -/
theorem within_insert_iff {input : Input} {client : ClientKey} (h : input.inserts s = some client)
    (hs : Within s) : Within (s.step input) ↔ s.hasRoom client = true := by
  obtain ⟨hfresh, hconfig, entry, htable⟩ := step_of_inserts h
  have hsize : (s.step input).allocations.size = s.allocations.size + 1 := by
    rw [htable, ExtTreeMap.size_insert, if_neg (by rwa [ExtTreeMap.contains_iff_mem])]
  rw [Within, hconfig, hsize, hasRoom, Bool.and_eq_true, decide_eq_true_eq, decide_eq_true_eq]
  constructor
  · rintro ⟨hall, hip⟩
    have hclient := hip client.address.ip
    rw [fromIp_insert hfresh htable, if_pos rfl] at hclient
    exact ⟨hall, hclient⟩
  · rintro ⟨hall, hclient⟩
    refine ⟨hall, fun ip => ?_⟩
    rw [fromIp_insert hfresh htable]
    by_cases hip : client.address.ip = ip
    · subst hip
      rw [if_pos rfl]
      exact hclient
    · rw [if_neg hip]
      exact hs.2 ip

theorem within_step_iff (input : Input) (hs : Within s) :
    Within (s.step input) ↔ (input.inserts s).all s.hasRoom = true := by
  cases h : input.inserts s with
  | none => simp [(noNewClient_step h).within hs]
  | some client =>
    rw [within_insert_iff h hs]
    rfl

theorem within_run_iff (inputs : List Input) (hs : Within s) :
    (∀ before, before <+: inputs → Within (runInputs before s)) ↔ allFit inputs s = true := by
  induction inputs generalizing s with
  | nil =>
    simp only [List.prefix_nil, forall_eq, allFit, iff_true]
    exact hs
  | cons input rest ih =>
    rw [allFit, Bool.and_eq_true, ← within_step_iff input hs]
    constructor
    · intro hall
      have hstep : Within (s.step input) := hall [input] ⟨rest, rfl⟩
      refine ⟨hstep, (ih hstep).mp fun before hbefore => ?_⟩
      exact hall (input :: before) (List.cons_prefix_cons.mpr ⟨rfl, hbefore⟩)
    · rintro ⟨hstep, hrest⟩ before hbefore
      cases before with
      | nil => exact hs
      | cons first before =>
        obtain ⟨rfl, hinner⟩ := List.cons_prefix_cons.mp hbefore
        exact (ih hstep).mpr hrest before hinner

namespace Sample

def ip (last : UInt8) : IpAddr := .v4 #v[203, 0, 114, last]

/-- A server with room for one allocation. -/
def config : ServerConfig where
  controlBind := .new (ip 1) 3478
  statusBind := .new (ip 1) 9000
  advertisedIp := ip 1
  relayBindIp := ip 1
  relayPortMin := 50000
  relayPortMax := 50100
  allowPrivatePeers := false
  maximumRelayBytesPerSecond := 1000000
  realm := "realm"
  maximumAllocations := 1
  maximumAllocationsPerIp := 1
  tlsBind := none

def credentials : Credentials where
  credentialKey _ _ := some []
  validateNonce _ _ _ := .ok ()

/-- A request of an authenticated user. -/
def request (method : Method) (attributes : List (UInt16 × Bytes)) (peers : List SocketAddr) :
    Message where
  method := method
  transactionId := [1]
  attributeValue kind := attributes.lookup kind
  xorAddress _ := .ok peers.head?
  xorAddresses _ := .ok peers
  username := .ok (some "user")
  realm := .ok (some "realm")
  nonce := .ok (some "nonce")
  verifyMessageIntegritySha1 _ := true
  verifyFingerprint := true
  unknownRequiredAttributes := []

def allocate : Message := request .allocate [(attributeRequestedTransport, [17, 0, 0, 0])] []

/-- A client with a TCP connection. -/
def client (connectionId : UInt64) : ClientKey := .tcp connectionId (.new (ip 9) 40000)

/-- Two clients allocate, both checks before both insertions. -/
def interleaved : List Input :=
  [.request 0 0 0 (client 0) allocate, .request 1 0 0 (client 1) allocate,
    .allocateBind 0 0 (some 50000), .allocateBind 1 0 (some 50001), .allocateInsert 0,
    .allocateInsert 1]

end Sample

end Fluvora.TurnServer.Server
