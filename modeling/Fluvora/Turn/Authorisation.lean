import Fluvora.Turn.Allocation

/-!
# What an allocation permits

A run is any sequence of operations on a new allocation, at times that do not decrease.  `grants`
and `bindings` list what the successful requests of the run have asked for, with the time of each,
and `Tracks` compares the two expiring tables with them.  From it follow, for every run, which peers
are permitted at a later time, which peer a channel resolves to, and the bounds of the tables.
-/

open Std (ExtTreeMap)

namespace Fluvora.Turn

open Fallible

namespace Allocation

variable {a b : Allocation} {now later : ℕ}

/-! ## Runs -/

/-- One call on an allocation. -/
inductive Call
  | createPermissions (now : ℕ) (peers : List SocketAddr)
  | bindChannel (now : ℕ) (channelNumber : UInt16) (peer : SocketAddr)
  | refresh (now : ℕ) (requestedSeconds : Option UInt32)
  | channelPeer (now : ℕ) (channelNumber : UInt16)
  | permits (now : ℕ) (peer : SocketAddr)
  | peerRoute (now : ℕ) (peer : SocketAddr)

def Call.time : Call → ℕ
  | .createPermissions now _ => now
  | .bindChannel now _ _ => now
  | .refresh now _ => now
  | .channelPeer now _ => now
  | .permits now _ => now
  | .peerRoute now _ => now

def step (a : Allocation) : Call → Allocation
  | .createPermissions now peers => ((createPermissions now peers).run a).2
  | .bindChannel now channelNumber peer => ((bindChannel now channelNumber peer).run a).2
  | .refresh now requestedSeconds => (refresh now requestedSeconds a).2
  | .channelPeer now channelNumber => (channelPeer now channelNumber a).2
  | .permits now peer => (permits now peer a).2
  | .peerRoute now peer => (peerRoute now peer a).2

/-- The call returns no error. -/
def Call.succeeds (call : Call) (a : Allocation) : Bool :=
  match call with
  | .createPermissions now peers => ((Allocation.createPermissions now peers).run a).1.isOk
  | .bindChannel now channelNumber peer =>
      ((Allocation.bindChannel now channelNumber peer).run a).1.isOk
  | _ => true

/-- The addresses that a call asks to permit. -/
def Call.permitted : Call → List IpAddr
  | .createPermissions _ peers => peers.map SocketAddr.ip
  | .bindChannel _ _ peer => [peer.ip]
  | _ => []

/-- The pair that a call asks to bind. -/
def Call.bound : Call → List (UInt16 × SocketAddr)
  | .bindChannel _ channelNumber peer => [(channelNumber, peer)]
  | _ => []

/-- What a successful call adds to the permissions, with its time. -/
def Call.granting (call : Call) (a : Allocation) : List (IpAddr × ℕ) :=
  if call.succeeds a then call.permitted.map fun ip => (ip, call.time) else []

/-- What a successful call adds to the bindings, with its time. -/
def Call.binding (call : Call) (a : Allocation) : List ((UInt16 × SocketAddr) × ℕ) :=
  if call.succeeds a then call.bound.map fun pair => (pair, call.time) else []

/-- The permissions that the calls of a run grant. -/
def grants : List Call → Allocation → List (IpAddr × ℕ)
  | [], _ => []
  | call :: rest, a => call.granting a ++ grants rest (a.step call)

/-- The bindings that the calls of a run make. -/
def bindings : List Call → Allocation → List ((UInt16 × SocketAddr) × ℕ)
  | [], _ => []
  | call :: rest, a => call.binding a ++ bindings rest (a.step call)

def runCalls (calls : List Call) (a : Allocation) : Allocation := calls.foldl step a

/-- The times of the calls do not decrease, from a time on. -/
def Ordered : ℕ → List Call → Prop
  | _, [] => True
  | now, call :: rest => now ≤ call.time ∧ Ordered call.time rest

/-! ## The operations -/

theorem createPermissions_run (now : ℕ) (peers : List SocketAddr) (a : Allocation) :
    (∃ error, (createPermissions now peers).run a = (.error error, expireChildren now a)) ∨
      ((∀ peer ∈ peers, peer.ip.sameFamily a.relayedAddress.ip = true) ∧
        (expireChildren now a).permissions.size + (expireChildren now a).additional peers ≤
          maxPermissions ∧
        (createPermissions now peers).run a = (.ok (),
          permitAll (saturatingAdd now permissionLifetime) peers (expireChildren now a))) := by
  rw [createPermissions, run_modify_bind, run_get_bind, run_ensure_bind]
  split_ifs with hfamily
  swap
  · exact .inl ⟨_, rfl⟩
  rw [run_ensure_bind]
  split_ifs with hcapacity
  swap
  · exact .inl ⟨_, rfl⟩
  exact .inr ⟨hfamily.2, hcapacity, rfl⟩

theorem expireChildren_idem (now : ℕ) (a : Allocation) :
    expireChildren now (expireChildren now a) = expireChildren now a := by
  have hpermissions : Expiry.purge id now (Expiry.purge id now a.permissions) =
      Expiry.purge id now a.permissions := by
    refine ExtTreeMap.ext_getElem? fun {k} => Option.ext fun entry => ?_
    rw [Expiry.getElem?_purge_eq_some, Expiry.getElem?_purge_eq_some]
    tauto
  have hchannels : Expiry.purge ChannelBinding.expiresAt now
      (Expiry.purge ChannelBinding.expiresAt now a.channels) =
        Expiry.purge ChannelBinding.expiresAt now a.channels := by
    refine ExtTreeMap.ext_getElem? fun {k} => Option.ext fun entry => ?_
    rw [Expiry.getElem?_purge_eq_some, Expiry.getElem?_purge_eq_some]
    tauto
  unfold expireChildren
  rw [hpermissions, hchannels]

/-- What a channel number or a peer conflicts with is a binding. -/
theorem conflicts_eq_false {channelNumber : UInt16} {peer : SocketAddr}
    (h : a.conflicts channelNumber peer = false) :
    (∀ binding, a.channels[channelNumber]? = some binding → binding.peer = peer) ∧
      ∀ (number : UInt16) (binding : ChannelBinding), a.channels[number]? = some binding →
        binding.peer = peer → number = channelNumber := by
  rw [conflicts, Bool.or_eq_false_iff] at h
  constructor
  · intro binding hbinding
    rw [hbinding] at h
    simpa using h.1
  · intro number binding hbinding hpeer
    have hany := List.any_eq_false.mp h.2 (number, binding)
      (ExtTreeMap.mem_toList_iff_getElem?_eq_some.mpr hbinding)
    simpa [hpeer] using hany

theorem bindChannel_run (now : ℕ) (channelNumber : UInt16) (peer : SocketAddr) (a : Allocation) :
    (∃ error, (bindChannel now channelNumber peer).run a = (.error error, expireChildren now a)) ∨
      (peer.ip.sameFamily a.relayedAddress.ip = true ∧
        (expireChildren now a).conflicts channelNumber peer = false ∧
        (channelNumber ∈ (expireChildren now a).channels ∨
          (expireChildren now a).channels.size < maxChannels) ∧
        (expireChildren now a).permissions.size + (expireChildren now a).additional [peer] ≤
          maxPermissions ∧
        (bindChannel now channelNumber peer).run a = (.ok (), {
          permitAll (saturatingAdd now permissionLifetime) [peer] (expireChildren now a) with
          channels := (expireChildren now a).channels.insert channelNumber
            ⟨peer, saturatingAdd now channelLifetime⟩ })) := by
  rw [bindChannel, run_modify_bind, run_get_bind, run_ensure_bind]
  split_ifs with hrange
  swap
  · exact .inl ⟨_, rfl⟩
  rw [run_ensure_bind]
  split_ifs with hfamily
  swap
  · exact .inl ⟨_, rfl⟩
  rw [run_ensure_bind]
  split_ifs with hconflict
  swap
  · exact .inl ⟨_, rfl⟩
  rw [run_ensure_bind]
  split_ifs with hcapacity
  swap
  · exact .inl ⟨_, rfl⟩
  rw [run_bind]
  obtain ⟨error, hrun⟩ | ⟨-, hroom, hrun⟩ := createPermissions_run now [peer] (expireChildren now a)
  · rw [hrun, expireChildren_idem]
    exact .inl ⟨error, rfl⟩
  · rw [expireChildren_idem] at hroom hrun
    rw [hrun]
    exact .inr ⟨hfamily, hconflict, hcapacity, hroom, rfl⟩

/-! ## The tables and the history -/

/-- Permissions under their deadlines. -/
def grantHistory (granted : List (IpAddr × ℕ)) : List (IpAddr × Unit × ℕ) :=
  granted.map fun grant => (grant.1, (), saturatingAdd grant.2 permissionLifetime)

/-- Bindings under their deadlines. -/
def bindingHistory (bound : List ((UInt16 × SocketAddr) × ℕ)) : List (UInt16 × SocketAddr × ℕ) :=
  bound.map fun binding =>
    (binding.1.1, binding.1.2, saturatingAdd binding.2 channelLifetime)

/-- The tables of an allocation hold what the history leaves at a time, within their bounds. -/
structure Tracks (granted : List (IpAddr × ℕ)) (bound : List ((UInt16 × SocketAddr) × ℕ)) (now : ℕ)
    (a : Allocation) : Prop where
  permissions : Expiry.Reflects id (fun _ => ()) (grantHistory granted) now a.permissions
  channels : Expiry.Reflects ChannelBinding.expiresAt ChannelBinding.peer (bindingHistory bound) now
    a.channels
  grantedBefore : ∀ grant ∈ granted, grant.2 ≤ now
  boundBefore : ∀ binding ∈ bound, binding.2 ≤ now
  injective : ∀ (number number' : UInt16) (binding binding' : ChannelBinding),
    a.channels[number]? = some binding → a.channels[number']? = some binding' →
    binding.peer = binding'.peer → number = number'
  fewPermissions : a.permissions.size ≤ maxPermissions
  fewChannels : a.channels.size ≤ maxChannels
  grantedFamily : ∀ grant ∈ granted, grant.1.sameFamily a.relayedAddress.ip = true
  boundFamily : ∀ binding ∈ bound, binding.1.2.ip.sameFamily a.relayedAddress.ip = true

variable {granted : List (IpAddr × ℕ)} {bound : List ((UInt16 × SocketAddr) × ℕ)}

theorem tracks_new (now : ℕ) (username : String) (clientAddress relayedAddress : SocketAddr) :
    Tracks [] [] now (new now username clientAddress relayedAddress) where
  permissions := Expiry.reflects_empty now
  channels := Expiry.reflects_empty now
  grantedBefore := by simp
  boundBefore := by simp
  injective := by simp [new]
  fewPermissions := Nat.zero_le _
  fewChannels := Nat.zero_le _
  grantedFamily := by simp
  boundFamily := by simp

theorem Tracks.expire (h : Tracks granted bound now a) (hle : now ≤ later) :
    Tracks granted bound later (expireChildren later a) where
  permissions := h.permissions.purge hle
  channels := h.channels.purge hle
  grantedBefore grant hgrant := (h.grantedBefore grant hgrant).trans hle
  boundBefore binding hbinding := (h.boundBefore binding hbinding).trans hle
  injective number number' binding binding' hbinding hbinding' :=
    h.injective number number' binding binding' (Expiry.getElem?_purge_eq_some.mp hbinding).1
      (Expiry.getElem?_purge_eq_some.mp hbinding').1
  fewPermissions := Expiry.size_purge_le.trans h.fewPermissions
  fewChannels := Expiry.size_purge_le.trans h.fewChannels
  grantedFamily := h.grantedFamily
  boundFamily := h.boundFamily

/-- Time passes, and the lifetime of the allocation may change. -/
theorem Tracks.wait (h : Tracks granted bound now a) (hle : now ≤ later) {expiresAt : ℕ} :
    Tracks granted bound later { a with expiresAt } where
  permissions := h.permissions.wait hle
  channels := h.channels.wait hle
  grantedBefore grant hgrant := (h.grantedBefore grant hgrant).trans hle
  boundBefore binding hbinding := (h.boundBefore binding hbinding).trans hle
  injective := h.injective
  fewPermissions := h.fewPermissions
  fewChannels := h.fewChannels
  grantedFamily := h.grantedFamily
  boundFamily := h.boundFamily

/-- A stored permission does not outlast one that is granted now. -/
theorem Tracks.permission_le (h : Tracks granted bound now a) {ip : IpAddr} {expiresAt : ℕ}
    (hstored : a.permissions[ip]? = some expiresAt) :
    expiresAt ≤ saturatingAdd now permissionLifetime := by
  have hrecorded := h.permissions.recorded ip expiresAt hstored
  rw [grantHistory, List.mem_map] at hrecorded
  obtain ⟨grant, hgrant, heq⟩ := hrecorded
  rw [Prod.mk.injEq, Prod.mk.injEq] at heq
  have hdeadline : saturatingAdd grant.2 permissionLifetime = expiresAt := heq.2.2
  rw [← hdeadline]
  exact saturatingAdd_mono (h.grantedBefore grant hgrant) permissionLifetime

theorem Tracks.binding_le (h : Tracks granted bound now a) {number : UInt16}
    {binding : ChannelBinding} (hstored : a.channels[number]? = some binding) :
    binding.expiresAt ≤ saturatingAdd now channelLifetime := by
  have hrecorded := h.channels.recorded number binding hstored
  rw [bindingHistory, List.mem_map] at hrecorded
  obtain ⟨entry, hentry, heq⟩ := hrecorded
  rw [Prod.mk.injEq, Prod.mk.injEq] at heq
  rw [← heq.2.2]
  exact saturatingAdd_mono (h.boundBefore entry hentry) channelLifetime

/-- The table after the loop over the peers of a request. -/
theorem reflects_permitAll {permissions : ExtTreeMap IpAddr ℕ} {history : List (IpAddr × Unit × ℕ)}
    {expiresAt : ℕ} (h : Expiry.Reflects id (fun _ => ()) history now permissions)
    (hle : ∀ (ip : IpAddr) (d : ℕ), permissions[ip]? = some d → d ≤ expiresAt)
    (peers : List SocketAddr) :
    Expiry.Reflects id (fun _ => ()) (history ++ peers.map fun peer => (peer.ip, (), expiresAt)) now
      (peers.foldl (fun permissions peer => permissions.insert peer.ip expiresAt) permissions) := by
  induction peers generalizing permissions history with
  | nil =>
    rw [List.map_nil, List.append_nil]
    exact h
  | cons peer rest ih =>
    have hinsert := h.insert peer.ip expiresAt fun old hold => ⟨rfl, hle _ _ hold⟩
    have hle' : ∀ (ip : IpAddr) (d : ℕ),
        (permissions.insert peer.ip expiresAt)[ip]? = some d → d ≤ expiresAt := by
      intro ip d hd
      by_cases hip : peer.ip = ip
      · subst hip
        rw [ExtTreeMap.getElem?_insert_self] at hd
        cases hd
        exact le_rfl
      · rw [Maps.getElem?_insert_of_ne hip] at hd
        exact hle ip d hd
    have hrest := ih hinsert hle'
    rw [List.append_assoc] at hrest
    exact hrest

theorem getElem?_permitAll {expiresAt d : ℕ} {peers : List SocketAddr} {ip : IpAddr}
    (h : (permitAll expiresAt peers a).permissions[ip]? = some d) :
    a.permissions[ip]? = some d ∨ (ip ∈ peers.map SocketAddr.ip ∧ d = expiresAt) := by
  unfold permitAll at h
  generalize a.permissions = permissions at h ⊢
  induction peers generalizing permissions with
  | nil => exact .inl h
  | cons peer rest ih =>
    rcases ih _ h with hold | hnew
    · by_cases hip : peer.ip = ip
      · subst hip
        rw [ExtTreeMap.getElem?_insert_self] at hold
        cases hold
        exact .inr ⟨by simp, rfl⟩
      · rw [Maps.getElem?_insert_of_ne hip] at hold
        exact .inl hold
    · exact .inr ⟨by simp [hnew.1], hnew.2⟩

theorem mem_permitAll {expiresAt : ℕ} {peers : List SocketAddr} {ip : IpAddr}
    (h : ip ∈ (permitAll expiresAt peers a).permissions) :
    ip ∈ a.permissions ∨ ip ∈ peers.map SocketAddr.ip := by
  obtain ⟨d, hd⟩ := Maps.mem_iff_exists.mp h
  rcases getElem?_permitAll hd with hold | hnew
  · exact .inl (Maps.mem_of_getElem? hold)
  · exact .inr hnew.1

theorem size_permitAll_le (expiresAt : ℕ) (peers : List SocketAddr) (a : Allocation) :
    (permitAll expiresAt peers a).permissions.size ≤ a.permissions.size + a.additional peers := by
  refine Maps.size_le_add_of_mem fun ip hip => ?_
  by_cases hold : ip ∈ a.permissions
  · exact .inl hold
  · right
    rw [List.mem_dedup, List.mem_filter]
    refine ⟨(mem_permitAll hip).resolve_left hold, ?_⟩
    rw [Bool.not_eq_true', ← Bool.not_eq_true, ExtTreeMap.contains_iff_mem]
    exact hold

theorem Tracks.permitAll (h : Tracks granted bound now a) {peers : List SocketAddr}
    (hfamily : ∀ peer ∈ peers, peer.ip.sameFamily a.relayedAddress.ip = true)
    (hroom : a.permissions.size + a.additional peers ≤ maxPermissions) :
    Tracks (granted ++ peers.map fun peer => (peer.ip, now)) bound now
      (Allocation.permitAll (saturatingAdd now permissionLifetime) peers a) where
  permissions := by
    have hreflects := reflects_permitAll h.permissions (fun ip d hd => h.permission_le hd) peers
    rw [grantHistory, List.map_append, List.map_map]
    exact hreflects
  channels := h.channels
  grantedBefore := by
    intro grant hgrant
    rcases List.mem_append.mp hgrant with hgrant | hgrant
    · exact h.grantedBefore grant hgrant
    · obtain ⟨peer, -, rfl⟩ := List.mem_map.mp hgrant
      exact le_rfl
  boundBefore := h.boundBefore
  injective := h.injective
  fewPermissions := (size_permitAll_le _ peers a).trans hroom
  fewChannels := h.fewChannels
  grantedFamily := by
    intro grant hgrant
    rcases List.mem_append.mp hgrant with hgrant | hgrant
    · exact h.grantedFamily grant hgrant
    · obtain ⟨peer, hpeer, rfl⟩ := List.mem_map.mp hgrant
      exact hfamily peer hpeer
  boundFamily := h.boundFamily

/-- A binding that conflicts with none. -/
theorem Tracks.bind (h : Tracks granted bound now a) {channelNumber : UInt16} {peer : SocketAddr}
    (hfamily : peer.ip.sameFamily a.relayedAddress.ip = true)
    (hconflict : a.conflicts channelNumber peer = false)
    (hroom : channelNumber ∈ a.channels ∨ a.channels.size < maxChannels) :
    Tracks granted (bound ++ [((channelNumber, peer), now)]) now { a with
      channels := a.channels.insert channelNumber ⟨peer, saturatingAdd now channelLifetime⟩ } := by
  obtain ⟨hsame, hother⟩ := conflicts_eq_false hconflict
  refine ⟨h.permissions, ?_, h.grantedBefore, ?_, ?_, h.fewPermissions, ?_, h.grantedFamily, ?_⟩
  · have hinsert := h.channels.insert channelNumber
      ⟨peer, saturatingAdd now channelLifetime⟩ fun old hold =>
        ⟨hsame old hold, h.binding_le hold⟩
    rw [bindingHistory, List.map_append]
    exact hinsert
  · intro binding hbinding
    rcases List.mem_append.mp hbinding with hbinding | hbinding
    · exact h.boundBefore binding hbinding
    · rw [List.mem_singleton] at hbinding
      cases hbinding
      exact le_rfl
  · -- the new binding's peer has no other number, and its number no other peer
    intro number number' binding binding' hbinding hbinding' hpeer
    dsimp only at hbinding hbinding'
    by_cases hnew : channelNumber = number
    · by_cases hnew' : channelNumber = number'
      · exact hnew.symm.trans hnew'
      · subst hnew
        rw [ExtTreeMap.getElem?_insert_self] at hbinding
        rw [Maps.getElem?_insert_of_ne hnew'] at hbinding'
        cases hbinding
        exact (hother number' binding' hbinding' hpeer.symm).symm
    · rw [Maps.getElem?_insert_of_ne hnew] at hbinding
      by_cases hnew' : channelNumber = number'
      · subst hnew'
        rw [ExtTreeMap.getElem?_insert_self] at hbinding'
        cases hbinding'
        exact hother number binding hbinding hpeer
      · rw [Maps.getElem?_insert_of_ne hnew'] at hbinding'
        exact h.injective number number' binding binding' hbinding hbinding' hpeer
  · dsimp only
    rw [ExtTreeMap.size_insert]
    have hfew := h.fewChannels
    split_ifs with hmem
    · exact hfew
    · have := hroom.resolve_left hmem
      omega
  · intro binding hbinding
    rcases List.mem_append.mp hbinding with hbinding | hbinding
    · exact h.boundFamily binding hbinding
    · rw [List.mem_singleton] at hbinding
      cases hbinding
      exact hfamily

/-! ## Steps and runs -/

/-- A call that only reads. -/
theorem Tracks.read (h : Tracks granted bound now a) (hle : now ≤ later) {call : Call}
    (hstep : a.step call = expireChildren later a) (hpermitted : call.permitted = [])
    (hbound : call.bound = []) :
    Tracks (granted ++ call.granting a) (bound ++ call.binding a) later (a.step call) := by
  have hgranting : call.granting a = [] := by
    rw [Call.granting, hpermitted]
    simp
  have hbinding : call.binding a = [] := by
    rw [Call.binding, hbound]
    simp
  rw [hgranting, hbinding, List.append_nil, List.append_nil, hstep]
  exact h.expire hle

theorem Tracks.step (h : Tracks granted bound now a) {call : Call} (hle : now ≤ call.time) :
    Tracks (granted ++ call.granting a) (bound ++ call.binding a) call.time (a.step call) := by
  cases call with
  | createPermissions later peers =>
    have hexpired := h.expire hle
    have hbinding : (Call.createPermissions later peers).binding a = [] := by
      simp [Call.binding, Call.bound]
    rw [hbinding, List.append_nil, Call.granting, Call.succeeds, Allocation.step]
    obtain ⟨error, hrun⟩ | ⟨hfamily, hroom, hrun⟩ := createPermissions_run later peers a
    · rw [hrun]
      simp only [Except.isOk, Except.toBool, Bool.false_eq_true, if_false, List.append_nil]
      exact hexpired
    · rw [hrun]
      simp only [Except.isOk, Except.toBool, if_true]
      have hpermit := hexpired.permitAll hfamily hroom
      rw [Call.permitted, List.map_map]
      exact hpermit
  | bindChannel later channelNumber peer =>
    have hexpired := h.expire hle
    rw [Call.granting, Call.binding, Call.succeeds, Allocation.step]
    obtain ⟨error, hrun⟩ | ⟨hfamily, hconflict, hchannels, hroom, hrun⟩ :=
      bindChannel_run later channelNumber peer a
    · rw [hrun]
      simp only [Except.isOk, Except.toBool, Bool.false_eq_true, if_false, List.append_nil]
      exact hexpired
    · rw [hrun]
      simp only [Except.isOk, Except.toBool, if_true]
      have hpeers : ∀ p ∈ [peer], p.ip.sameFamily (expireChildren later a).relayedAddress.ip =
          true := by
        intro p hp
        rw [List.mem_singleton] at hp
        subst hp
        exact hfamily
      have hpermit := hexpired.permitAll hpeers hroom
      exact hpermit.bind hfamily hconflict hchannels
  | refresh later requestedSeconds =>
    have hgranting : (Call.refresh later requestedSeconds).granting a = [] := by
      simp [Call.granting, Call.permitted]
    have hbinding : (Call.refresh later requestedSeconds).binding a = [] := by
      simp [Call.binding, Call.bound]
    rw [hgranting, hbinding, List.append_nil, List.append_nil]
    exact h.wait hle
  | channelPeer later channelNumber => exact h.read hle rfl rfl rfl
  | permits later peer => exact h.read hle rfl rfl rfl
  | peerRoute later peer =>
    refine h.read hle ?_ rfl rfl
    show (peerRoute later peer a).2 = _
    unfold peerRoute
    dsimp only [permits]
    split_ifs <;> rfl

/-- Calls in the order of their times. -/
theorem tracks_run (h : Tracks granted bound now a) {calls : List Call} (hordered : Ordered now calls)
    (hlater : now ≤ later) (hbefore : ∀ call ∈ calls, call.time ≤ later) :
    ∃ last ≤ later, Tracks (granted ++ grants calls a) (bound ++ bindings calls a) last
      (runCalls calls a) := by
  induction calls generalizing granted bound now a with
  | nil =>
    refine ⟨now, hlater, ?_⟩
    rw [grants, bindings, List.append_nil, List.append_nil]
    exact h
  | cons call rest ih =>
    have hstep := h.step hordered.1
    obtain ⟨last, hlast, htracks⟩ := ih hstep hordered.2 (hbefore call (List.mem_cons_self ..))
      fun c hc => hbefore c (List.mem_cons_of_mem _ hc)
    refine ⟨last, hlast, ?_⟩
    rw [grants, bindings, ← List.append_assoc, ← List.append_assoc]
    exact htracks

/-! ## Reading the tables -/

theorem Tracks.permits_iff (h : Tracks granted bound now a) (hle : now ≤ later) (peer : SocketAddr) :
    (permits later peer a).1 = true ↔
      ∃ t, (peer.ip, t) ∈ granted ∧ later < saturatingAdd t permissionLifetime := by
  have hlive := h.permissions.exists_live_iff hle peer.ip ()
  have hcontains : (expireChildren later a).permissions.contains peer.ip = true ↔
      ∃ t, (peer.ip, t) ∈ granted ∧ later < saturatingAdd t permissionLifetime := by
    rw [ExtTreeMap.contains_iff_mem, Maps.mem_iff_exists]
    constructor
    · rintro ⟨d, hd⟩
      obtain ⟨d', hd', hlt⟩ := hlive.mp ⟨d, hd, rfl⟩
      rw [grantHistory, List.mem_map] at hd'
      obtain ⟨grant, hgrant, heq⟩ := hd'
      rw [Prod.mk.injEq, Prod.mk.injEq] at heq
      refine ⟨grant.2, ?_, ?_⟩
      · rw [← heq.1]
        exact hgrant
      · rw [heq.2.2]
        exact hlt
    · rintro ⟨t, ht, hlt⟩
      obtain ⟨d, hd, -⟩ := hlive.mpr ⟨_, List.mem_map.mpr ⟨(peer.ip, t), ht, rfl⟩, hlt⟩
      exact ⟨d, hd⟩
  show ((expireChildren later a).permissions.contains peer.ip &&
    peer.ip.sameFamily a.relayedAddress.ip) = true ↔ _
  rw [Bool.and_eq_true, hcontains]
  constructor
  · exact fun hpermitted => hpermitted.1
  · rintro ⟨t, ht, hlt⟩
    exact ⟨⟨t, ht, hlt⟩, h.grantedFamily _ ht⟩

theorem Tracks.exists_bound_iff (h : Tracks granted bound now a) (hle : now ≤ later)
    (channelNumber : UInt16) (peer : SocketAddr) :
    (∃ binding, (expireChildren later a).channels[channelNumber]? = some binding ∧
      binding.peer = peer) ↔
      ∃ t, ((channelNumber, peer), t) ∈ bound ∧ later < saturatingAdd t channelLifetime := by
  have hlive := h.channels.exists_live_iff hle channelNumber peer
  refine hlive.trans ?_
  constructor
  · rintro ⟨d, hd, hlt⟩
    rw [bindingHistory, List.mem_map] at hd
    obtain ⟨entry, hentry, heq⟩ := hd
    rw [Prod.mk.injEq, Prod.mk.injEq] at heq
    refine ⟨entry.2, ?_, ?_⟩
    · rw [← heq.1, ← heq.2.1]
      exact hentry
    · rw [heq.2.2]
      exact hlt
  · rintro ⟨t, ht, hlt⟩
    exact ⟨_, List.mem_map.mpr ⟨_, ht, rfl⟩, hlt⟩

theorem Tracks.channelPeer_iff (h : Tracks granted bound now a) (hle : now ≤ later)
    (channelNumber : UInt16) (peer : SocketAddr) :
    (channelPeer later channelNumber a).1 = some peer ↔
      (∃ t, ((channelNumber, peer), t) ∈ bound ∧ later < saturatingAdd t channelLifetime) ∧
        (permits later peer a).1 = true := by
  rw [← h.exists_bound_iff hle]
  show (((expireChildren later a).channels[channelNumber]?).bind fun binding =>
    if (expireChildren later a).permissions.contains binding.peer.ip then some binding.peer
    else none) = some peer ↔ _
  rw [Option.bind_eq_some_iff]
  constructor
  · rintro ⟨binding, hbinding, hpeer⟩
    split_ifs at hpeer with hpermitted
    cases hpeer
    refine ⟨⟨binding, hbinding, rfl⟩, ?_⟩
    obtain ⟨t, ht, -⟩ := (h.exists_bound_iff hle channelNumber binding.peer).mp
      ⟨binding, hbinding, rfl⟩
    show (_ && _) = true
    rw [hpermitted, Bool.true_and]
    exact h.boundFamily _ ht
  · rintro ⟨⟨binding, hbinding, rfl⟩, hpermitted⟩
    refine ⟨binding, hbinding, ?_⟩
    have hcontains : ((expireChildren later a).permissions.contains binding.peer.ip &&
        binding.peer.ip.sameFamily a.relayedAddress.ip) = true := hpermitted
    rw [Bool.and_eq_true] at hcontains
    rw [if_pos hcontains.1]

/-- Two bindings that are both live share the number exactly if they share the peer. -/
theorem Tracks.bound_injective (h : Tracks granted bound now a) (hle : now ≤ later)
    {number number' : UInt16} {peer peer' : SocketAddr} {t t' : ℕ}
    (hbound : ((number, peer), t) ∈ bound) (hlive : later < saturatingAdd t channelLifetime)
    (hbound' : ((number', peer'), t') ∈ bound) (hlive' : later < saturatingAdd t' channelLifetime) :
    number = number' ↔ peer = peer' := by
  obtain ⟨binding, hbinding, rfl⟩ := (h.exists_bound_iff hle number peer).mpr ⟨t, hbound, hlive⟩
  obtain ⟨binding', hbinding', rfl⟩ := (h.exists_bound_iff hle number' peer').mpr
    ⟨t', hbound', hlive'⟩
  constructor
  · rintro rfl
    rw [hbinding] at hbinding'
    cases hbinding'
    rfl
  · exact (h.expire hle).injective number number' binding binding' hbinding hbinding'

/-- Every stored entry is of the family of the relay. -/
theorem Tracks.families (h : Tracks granted bound now a) :
    (∀ ip ∈ a.permissions, ip.sameFamily a.relayedAddress.ip = true) ∧
      ∀ (number : UInt16) (binding : ChannelBinding), a.channels[number]? = some binding →
        binding.peer.ip.sameFamily a.relayedAddress.ip = true := by
  constructor
  · intro ip hip
    obtain ⟨d, hd⟩ := Maps.mem_iff_exists.mp hip
    have hrecorded := h.permissions.recorded ip d hd
    rw [grantHistory, List.mem_map] at hrecorded
    obtain ⟨grant, hgrant, heq⟩ := hrecorded
    rw [Prod.mk.injEq] at heq
    rw [← heq.1]
    exact h.grantedFamily grant hgrant
  · intro number binding hbinding
    have hrecorded := h.channels.recorded number binding hbinding
    rw [bindingHistory, List.mem_map] at hrecorded
    obtain ⟨entry, hentry, heq⟩ := hrecorded
    rw [Prod.mk.injEq, Prod.mk.injEq] at heq
    rw [← heq.2.1]
    exact h.boundFamily entry hentry

/-- A call that fails only purges. -/
theorem step_of_not_succeeds {call : Call} (h : call.succeeds a = false) :
    a.step call = expireChildren call.time a := by
  cases call with
  | createPermissions later peers =>
    rw [Call.succeeds] at h
    rw [Allocation.step]
    obtain ⟨error, hrun⟩ | ⟨-, -, hrun⟩ := createPermissions_run later peers a
    · rw [hrun]
      rfl
    · rw [hrun] at h
      cases h
  | bindChannel later channelNumber peer =>
    rw [Call.succeeds] at h
    rw [Allocation.step]
    obtain ⟨error, hrun⟩ | ⟨-, -, -, -, hrun⟩ := bindChannel_run later channelNumber peer a
    · rw [hrun]
      rfl
    · rw [hrun] at h
      cases h
  | refresh => cases h
  | channelPeer => cases h
  | permits => cases h
  | peerRoute => cases h

/-- For every run of calls on a new allocation, in the order of their times, and every time `now`
that is not before them: a peer is permitted exactly if a successful call has granted its address
less than five minutes ago, a channel resolves to a peer exactly if a successful call has bound them
less than ten minutes ago and the peer is permitted, live bindings are one to one, the tables stay
within their bounds and the family of the relay, and a call that fails adds nothing. -/
theorem authorised_iff_history {created now : ℕ} (username : String)
    (clientAddress relayedAddress : SocketAddr) {calls : List Call} (hordered : Ordered created calls)
    (hcreated : created ≤ now) (hbefore : ∀ call ∈ calls, call.time ≤ now) :
    let start := new created username clientAddress relayedAddress
    let a := runCalls calls start
    (∀ peer, (permits now peer a).1 = true ↔
      ∃ t, (peer.ip, t) ∈ grants calls start ∧ now < saturatingAdd t permissionLifetime) ∧
    (∀ channelNumber peer, (channelPeer now channelNumber a).1 = some peer ↔
      (∃ t, ((channelNumber, peer), t) ∈ bindings calls start ∧
        now < saturatingAdd t channelLifetime) ∧ (permits now peer a).1 = true) ∧
    (∀ number number' peer peer' t t', ((number, peer), t) ∈ bindings calls start →
      now < saturatingAdd t channelLifetime → ((number', peer'), t') ∈ bindings calls start →
      now < saturatingAdd t' channelLifetime → (number = number' ↔ peer = peer')) ∧
    a.permissions.size ≤ maxPermissions ∧ a.channels.size ≤ maxChannels ∧
    (∀ ip ∈ a.permissions, ip.sameFamily a.relayedAddress.ip = true) ∧
    (∀ (number : UInt16) (binding : ChannelBinding), a.channels[number]? = some binding →
      binding.peer.ip.sameFamily a.relayedAddress.ip = true) ∧
    ∀ call : Call, call.succeeds a = false →
      (∀ (ip : IpAddr) (d : ℕ), (a.step call).permissions[ip]? = some d →
        a.permissions[ip]? = some d) ∧
      ∀ (number : UInt16) (binding : ChannelBinding), (a.step call).channels[number]? = some binding →
        a.channels[number]? = some binding := by
  intro start a
  obtain ⟨last, hlast, htracks⟩ := tracks_run (tracks_new created username clientAddress
    relayedAddress) hordered hcreated hbefore
  rw [List.nil_append, List.nil_append] at htracks
  refine ⟨htracks.permits_iff hlast, htracks.channelPeer_iff hlast, ?_, htracks.fewPermissions,
    htracks.fewChannels, htracks.families.1, htracks.families.2, ?_⟩
  · intro number number' peer peer' t t' hbound hlive hbound' hlive'
    exact htracks.bound_injective hlast hbound hlive hbound' hlive'
  · intro call hfails
    rw [step_of_not_succeeds hfails]
    exact ⟨fun ip d hd => (Expiry.getElem?_purge_eq_some.mp hd).1,
      fun number binding hbinding => (Expiry.getElem?_purge_eq_some.mp hbinding).1⟩

namespace Sample

/-- The addresses of the crate's tests. -/
def address (last : UInt8) (port : UInt16) : SocketAddr := .v4 #v[192, 0, 2, last] port

def start : Allocation := new second "user" (address 10 40000) (address 1 60000)

/-- A binding of channel 0x4000, a request with a bad channel number, and a refresh. -/
def calls : List Call :=
  [.bindChannel second 0x4000 (address 20 50000), .bindChannel (2 * second) 0x5000 (address 21 50000),
    .refresh (3 * second) none]

end Sample

/-- The bound channel resolves to its peer four minutes later, by the theorem, and six minutes later
the peer is no longer permitted. -/
theorem sample_authorised_iff_history :
    (channelPeer (241 * second) 0x4000 (runCalls Sample.calls Sample.start)).1 =
        some (Sample.address 20 50000) ∧
      (permits (361 * second) (Sample.address 20 50000)
        (runCalls Sample.calls Sample.start)).1 = false := by
  have hgrants : grants Sample.calls Sample.start = [((Sample.address 20 50000).ip, second)] := by
    decide
  have hbindings : bindings Sample.calls Sample.start =
      [((0x4000, Sample.address 20 50000), second)] := by
    decide
  have hordered : Ordered second Sample.calls := by
    simp [Sample.calls, Ordered, Call.time, second]
  have hsoon := @authorised_iff_history second (241 * second) "user" (Sample.address 10 40000)
    (Sample.address 1 60000) Sample.calls hordered (by decide) (by decide)
  have hlate := @authorised_iff_history second (361 * second) "user" (Sample.address 10 40000)
    (Sample.address 1 60000) Sample.calls hordered (by decide) (by decide)
  have hstart : new second "user" (Sample.address 10 40000) (Sample.address 1 60000) =
      Sample.start := rfl
  dsimp only at hsoon hlate
  rw [hstart, hgrants, hbindings] at hsoon hlate
  have hpermitted : (permits (241 * second) (Sample.address 20 50000)
      (runCalls Sample.calls Sample.start)).1 = true :=
    (hsoon.1 _).mpr ⟨second, List.mem_singleton_self _, by decide +kernel⟩
  refine ⟨(hsoon.2.1 _ _).mpr ⟨⟨second, List.mem_singleton_self _, by decide +kernel⟩, hpermitted⟩, ?_⟩
  rw [← Bool.not_eq_true, hlate.1]
  rintro ⟨t, ht, hlive⟩
  rw [List.mem_singleton, Prod.mk.injEq] at ht
  rw [ht.2] at hlive
  revert hlive
  decide +kernel

end Allocation

end Fluvora.Turn
