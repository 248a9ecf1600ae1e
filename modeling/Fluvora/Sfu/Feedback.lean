import Fluvora.Sfu.Forwarding
import Fluvora.Sfu.Indices
import Fluvora.Sfu.Isolation

/-!
# Feedback of a subscriber

What `handle_rtcp` gives a subscriber and what it leaves alone.  A NACK reaches the down-track of
the subscriber with its media SSRC, if there is one, and no other.  It is answered number by number,
in the order of its expansion, by the newest packet with that number among those that are left when
packets that are too old have been dropped from the front of the cache (`Answered`).  In a run whose
times do not decrease these are the packets that are not too old (`unexpired_of_inOrder`).
-/

open Std (ExtTreeMap)

namespace Fluvora.Sfu

open Fallible

/-! ## The numbers of a NACK -/

/-- The entry names the number: it is the packet identifier, or a bit of the mask stands for it. -/
def Names (entry : Rtcp.NackEntry) (number : UInt16) : Prop :=
  number = entry.packetId ∨
    ∃ bit < 16, entry.lostPacketBitmask.toNat.testBit bit = true ∧
      number = entry.packetId + UInt16.ofNat (bit + 1)

theorem and_shiftLeft_ne_zero (mask : UInt16) {bit : ℕ} (hbit : bit < 16) :
    mask &&& (1 <<< UInt16.ofNat bit) ≠ 0 ↔ mask.toNat.testBit bit = true := by
  have hpow : 2 ^ bit < 2 ^ 16 := Nat.pow_lt_pow_right (by omega) hbit
  have hshift : (1 <<< UInt16.ofNat bit : UInt16).toNat = 2 ^ bit := by
    rw [UInt16.toNat_shiftLeft, UInt16.toNat_ofNat', Nat.mod_eq_of_lt (by omega : bit < 2 ^ 16),
      Nat.mod_eq_of_lt hbit, Nat.shiftLeft_eq, UInt16.toNat_one, Nat.one_mul, Nat.mod_eq_of_lt hpow]
  rw [ne_eq, ← UInt16.toNat_inj, UInt16.toNat_and, hshift, Nat.and_two_pow]
  cases mask.toNat.testBit bit <;> simp

theorem mem_entrySequences {entry : Rtcp.NackEntry} {number : UInt16} :
    number ∈ entrySequences entry ↔ Names entry number := by
  rw [entrySequences, List.mem_cons, List.mem_map]
  refine or_congr Iff.rfl ?_
  constructor
  · rintro ⟨bit, hmem, rfl⟩
    rw [List.mem_filter, List.mem_range, decide_eq_true_eq] at hmem
    exact ⟨bit, hmem.1, (and_shiftLeft_ne_zero _ hmem.1).mp hmem.2, rfl⟩
  · rintro ⟨bit, hlt, htest, rfl⟩
    refine ⟨bit, ?_, rfl⟩
    rw [List.mem_filter, List.mem_range, decide_eq_true_eq]
    exact ⟨hlt, (and_shiftLeft_ne_zero _ hlt).mpr htest⟩

/-- Adding numbers that are not there yet. -/
theorem foldl_insert_spec (numbers : List UInt16) (requested : List UInt16)
    (hnodup : requested.Nodup) :
    (numbers.foldl (fun requested number =>
      if number ∈ requested then requested else requested ++ [number]) requested).Nodup ∧
    ∀ number, number ∈ numbers.foldl (fun requested number =>
      if number ∈ requested then requested else requested ++ [number]) requested ↔
        number ∈ requested ∨ number ∈ numbers := by
  induction numbers generalizing requested with
  | nil => simp [hnodup]
  | cons first numbers ih =>
    rw [List.foldl_cons]
    split_ifs with hfirst
    · refine ⟨(ih requested hnodup).1, fun number => ?_⟩
      rw [(ih requested hnodup).2, List.mem_cons]
      constructor
      · tauto
      · rintro (hmem | rfl | hmem)
        · exact .inl hmem
        · exact .inl hfirst
        · exact .inr hmem
    · have hnext : (requested ++ [first]).Nodup := by
        rw [List.nodup_append]
        refine ⟨hnodup, List.nodup_singleton first, ?_⟩
        rintro number hmem other hother rfl
        rw [List.mem_singleton] at hother
        exact hfirst (hother ▸ hmem)
      refine ⟨(ih _ hnext).1, fun number => ?_⟩
      rw [(ih _ hnext).2, List.mem_append, List.mem_singleton, List.mem_cons, or_assoc]

theorem nodup_expandNack (entries : List Rtcp.NackEntry) : (expandNack entries).Nodup :=
  (foldl_insert_spec _ [] List.nodup_nil).1

theorem mem_expandNack {entries : List Rtcp.NackEntry} {number : UInt16} :
    number ∈ expandNack entries ↔ ∃ entry ∈ entries, Names entry number := by
  rw [expandNack, (foldl_insert_spec _ [] List.nodup_nil).2]
  simp only [List.not_mem_nil, false_or, List.mem_flatMap, mem_entrySequences]

namespace DownTrack

variable {d : DownTrack} {now : ℕ}

/-! ## The cache of a down-track -/

/-- The packet is not too old. -/
def Unexpired (d : DownTrack) (now : ℕ) (cached : CachedPacket) : Prop :=
  now - cached.insertedAt ≤ d.cacheAge

instance (d : DownTrack) (now : ℕ) (cached : CachedPacket) : Decidable (d.Unexpired now cached) :=
  inferInstanceAs (Decidable (_ ≤ _))

/-- The packets were cached one after the other, and the last not after `time`. -/
def Ordered (time : ℕ) (d : DownTrack) : Prop :=
  (d.cache.map CachedPacket.insertedAt).Pairwise (· ≤ ·) ∧
    ∀ cached ∈ d.cache, cached.insertedAt ≤ time

theorem Ordered.mono {time : ℕ} (h : d.Ordered time) (hle : time ≤ now) : d.Ordered now :=
  ⟨h.1, fun cached hcached => (h.2 cached hcached).trans hle⟩

theorem Ordered.sublist {time : ℕ} (h : d.Ordered time) {d' : DownTrack}
    (hsub : d'.cache.Sublist d.cache) : d'.Ordered time :=
  ⟨h.1.sublist (hsub.map _), fun cached hcached => h.2 cached (hsub.subset hcached)⟩

theorem Ordered.expireCache {time : ℕ} (h : d.Ordered time) : (d.expireCache now).Ordered time :=
  h.sublist (List.dropWhile_sublist _)

theorem Ordered.cachePacket (h : d.Ordered now) (packet : ForwardedPacket) :
    (d.cachePacket now packet).Ordered now := by
  unfold DownTrack.cachePacket
  dsimp only
  split_ifs
  · exact h.expireCache
  · have hleft : ({ d.expireCache now with
        cache := (d.expireCache now).cache.drop
          ((d.expireCache now).cache.length + 1 - d.cacheCapacity) } : DownTrack).Ordered now :=
      h.expireCache.sublist (List.drop_sublist _ _)
    refine ⟨?_, ?_⟩
    · dsimp only
      rw [List.map_append, List.pairwise_append]
      refine ⟨hleft.1, List.pairwise_singleton _ _, ?_⟩
      intro time htime last hlast
      obtain ⟨cached, hcached, rfl⟩ := List.mem_map.mp htime
      rw [List.map_singleton, List.mem_singleton] at hlast
      rw [hlast]
      exact hleft.2 cached hcached
    · intro cached hcached
      rcases List.mem_append.mp hcached with hcached | hcached
      · exact hleft.2 cached hcached
      · rw [List.mem_singleton.mp hcached]

@[simp] theorem cache_rewriteTimestamp (inputTimestamp : UInt32) (switched : Bool) :
    (d.rewriteTimestamp inputTimestamp switched).2.cache = d.cache := by
  unfold rewriteTimestamp rewriteBase
  split_ifs <;> rfl

@[simp] theorem cache_advance (parsed : Rtp.Packet) (spatialLayer : UInt8) :
    (d.advance parsed spatialLayer).cache = d.cache := by
  unfold advance
  split_ifs <;> simp

theorem Ordered.forward (h : d.Ordered now) (track : PublishedTrack) (spatialLayer : UInt8)
    (info : MediaCodec.PayloadInfo) (input : Bytes) :
    ((forward now track spatialLayer info input).run d).2.Ordered now := by
  obtain ⟨waiting, -, hrun⟩ | ⟨error, -, hrun⟩ | ⟨parsed, error, -, -, -, hrun⟩ |
    ⟨parsed, packet, -, -, -, hrun⟩ := forward_cases d now track spatialLayer info input
  · rw [hrun]
    exact h
  · rw [hrun]
    exact h
  · rw [hrun]
    exact h.sublist (by rw [cache_advance])
  · rw [hrun]
    have hadvance : (d.advance parsed spatialLayer).Ordered now := h.sublist (by rw [cache_advance])
    exact hadvance.cachePacket _

/-- In an ordered cache the packets that are too old stand in front. -/
theorem cache_expireCache {time : ℕ} (h : d.Ordered time) :
    (d.expireCache now).cache = d.cache.filter fun cached => d.Unexpired now cached := by
  have hordered := h.1
  unfold expireCache
  dsimp only
  generalize d.cache = cache at hordered ⊢
  induction cache with
  | nil => rfl
  | cons cached cache ih =>
    rw [List.map_cons, List.pairwise_cons] at hordered
    by_cases hold : d.cacheAge < now - cached.insertedAt
    · have hexpired : ¬d.Unexpired now cached := Nat.not_le.mpr hold
      rw [List.dropWhile_cons_of_pos (by simpa using hold), ih hordered.2,
        List.filter_cons_of_neg (by simpa using hexpired)]
    · rw [List.dropWhile_cons_of_neg (by simpa using hold), eq_comm, List.filter_eq_self]
      intro other hother
      rw [decide_eq_true_eq]
      unfold Unexpired
      rcases List.mem_cons.mp hother with rfl | hother
      · omega
      · have hle := hordered.1 other.insertedAt (List.mem_map_of_mem hother)
        omega

/-- What a compound drops once stays dropped. -/
theorem expireCache_expireCache : (d.expireCache now).expireCache now = d.expireCache now := by
  unfold expireCache
  dsimp only
  congr 1
  exact List.dropWhile_idempotent _ _

end DownTrack

/-- The sequence number of a cached packet. -/
def CachedPacket.number (cached : CachedPacket) : Option UInt16 :=
  (Rtp.Packet.parse cached.packet.packet).toOption.map fun parsed => parsed.header.sequenceNumber

/-- A cached packet as it is sent again. -/
def CachedPacket.marked (cached : CachedPacket) : ForwardedPacket :=
  { cached.packet with retransmission := true }

/-- The last packet of a cache that has a sequence number. -/
def newest (cache : List CachedPacket) (number : UInt16) : Option CachedPacket :=
  cache.reverse.find? fun cached => cached.number = some number

theorem DownTrack.findCached_eq (d : DownTrack) (number : UInt16) :
    d.findCached number = (newest d.cache number).map CachedPacket.marked := by
  unfold findCached newest
  induction d.cache.reverse with
  | nil => rfl
  | cons cached cache ih =>
    rw [List.findSome?_cons, List.find?_cons, ih]
    unfold CachedPacket.number
    cases Rtp.Packet.parse cached.packet.packet with
    | error error => simp [Except.toOption]
    | ok parsed =>
      by_cases hnumber : parsed.header.sequenceNumber = number
      · simp [Except.toOption, hnumber, CachedPacket.marked]
      · simp [Except.toOption, hnumber]

namespace Room

/-! ## One call -/

variable {room room' : Room} {now : ℕ} {subscriber : ParticipantId}

/-- The NACK is about this down-track, which is the subscriber's. -/
structure Concerns (room : Room) (subscriber : ParticipantId) (nack : Rtcp.GenericNack)
    (d : DownTrack) : Prop where
  stored : room.subscriptions[d.configuration.id]? = some d
  own : d.configuration.subscriber = subscriber
  ssrc : d.configuration.outputSsrc = nack.mediaSsrc

/-- The answer to a NACK: its numbers in turn, each with the newest packet that has it, out of what
is left when packets that are too old have been dropped from the front of the cache. -/
structure Answered (room : Room) (now : ℕ) (subscriber : ParticipantId) (nack : Rtcp.GenericNack)
    (answer : List ForwardedPacket) : Prop where
  own : ∀ d, Concerns room subscriber nack d →
    answer = (expandNack nack.entries).filterMap fun number =>
      (newest (d.expireCache now).cache number).map CachedPacket.marked
  other : (∀ d, ¬Concerns room subscriber nack d) → answer = []

theorem authorizedDownTrack_eq_some {id : SubscriptionId} {ssrc : UInt32} {d : DownTrack} :
    room.authorizedDownTrack subscriber ssrc = some (id, d) ↔
      room.outputSsrcIndex[ssrc]? = some id ∧ room.subscriptions[id]? = some d ∧
        d.configuration.subscriber = subscriber := by
  unfold authorizedDownTrack
  constructor
  · intro h
    obtain ⟨number, hindex, h⟩ := Option.bind_eq_some_iff.mp h
    obtain ⟨found, hstored, h⟩ := Option.bind_eq_some_iff.mp h
    split_ifs at h with hown
    cases h
    exact ⟨hindex, hstored, hown⟩
  · rintro ⟨hindex, hstored, hown⟩
    refine Option.bind_eq_some_iff.mpr ⟨id, hindex, Option.bind_eq_some_iff.mpr ⟨d, hstored, ?_⟩⟩
    rw [if_pos hown]

theorem Concerns.authorized (hroom : Consistent room) {nack : Rtcp.GenericNack} {d : DownTrack}
    (h : Concerns room subscriber nack d) :
    room.authorizedDownTrack subscriber nack.mediaSsrc = some (d.configuration.id, d) := by
  rw [authorizedDownTrack_eq_some]
  refine ⟨(hroom.output _ _).mpr ⟨d.configuration, ?_, h.ssrc⟩, h.stored, h.own⟩
  rw [subscriptionConfig, h.stored, Option.map_some]

theorem concerns_of_authorized (hroom : Consistent room) {nack : Rtcp.GenericNack}
    {id : SubscriptionId} {d : DownTrack}
    (h : room.authorizedDownTrack subscriber nack.mediaSsrc = some (id, d)) :
    Concerns room subscriber nack d := by
  obtain ⟨hindex, hstored, hown⟩ := authorizedDownTrack_eq_some.mp h
  obtain ⟨configuration, hconfig, hssrc⟩ := (hroom.output _ _).mp hindex
  have hid := (hroom.configured id configuration hconfig).1
  rw [subscriptionConfig, hstored, Option.map_some] at hconfig
  cases hconfig
  exact ⟨hid ▸ hstored, hown, hssrc⟩

theorem retransmissions_handleRtcpPacket_nack (nack : Rtcp.GenericNack) :
    (handleRtcpPacket now subscriber room (.genericNack nack)).1.retransmissions =
      match room.authorizedDownTrack subscriber nack.mediaSsrc with
      | none => []
      | some (_, d) => (expandNack nack.entries).filterMap fun number =>
          (newest (d.expireCache now).cache number).map CachedPacket.marked := by
  rw [handleRtcpPacket]
  cases room.authorizedDownTrack subscriber nack.mediaSsrc with
  | none => rfl
  | some found =>
    dsimp only [DownTrack.retransmit]
    congr 1
    funext number
    exact DownTrack.findCached_eq _ number

theorem answered_handleRtcpPacket (hroom : Consistent room) (nack : Rtcp.GenericNack) :
    Answered room now subscriber nack
      (handleRtcpPacket now subscriber room (.genericNack nack)).1.retransmissions := by
  rw [retransmissions_handleRtcpPacket_nack]
  refine ⟨fun d hconcerns => ?_, fun hnone => ?_⟩
  · rw [hconcerns.authorized hroom]
  · cases hfound : room.authorizedDownTrack subscriber nack.mediaSsrc with
    | none => rfl
    | some found => exact absurd (concerns_of_authorized hroom hfound) (hnone found.2)

/-- Only a NACK is answered with packets. -/
theorem retransmissions_handleRtcpPacket_other {packet : Rtcp.Packet}
    (hother : ∀ nack, packet ≠ .genericNack nack) :
    (handleRtcpPacket now subscriber room packet).1.retransmissions = [] := by
  cases packet with
  | genericNack nack => exact absurd rfl (hother nack)
  | pictureLossIndication pli =>
    rw [handleRtcpPacket]
    cases room.upstreamEncoding subscriber pli.mediaSsrc <;> rfl
  | transportWideFeedback feedback => rfl
  | senderReport report => rfl
  | receiverReport report => rfl
  | sourceDescription description => rfl
  | raw packet => rfl

/-- All that feedback does to down-tracks: it drops old packets from caches of the subscriber. -/
structure Trimmed (now : ℕ) (subscriber : ParticipantId) (room room' : Room) : Prop where
  outputSsrcIndex : room'.outputSsrcIndex = room.outputSsrcIndex
  subscription : ∀ id : SubscriptionId, room'.subscriptions[id]? = room.subscriptions[id]? ∨
    ∃ d, room.subscriptions[id]? = some d ∧ d.configuration.subscriber = subscriber ∧
      room'.subscriptions[id]? = some (d.expireCache now)

theorem Trimmed.refl (room : Room) : Trimmed now subscriber room room :=
  ⟨rfl, fun _ => .inl rfl⟩

theorem Trimmed.trans {room'' : Room} (h : Trimmed now subscriber room room')
    (h' : Trimmed now subscriber room' room'') : Trimmed now subscriber room room'' := by
  refine ⟨h'.outputSsrcIndex.trans h.outputSsrcIndex, fun id => ?_⟩
  rcases h.subscription id with hfirst | ⟨d, hstored, hown, hfirst⟩
  · rw [← hfirst]
    exact h'.subscription id
  · right
    refine ⟨d, hstored, hown, ?_⟩
    rcases h'.subscription id with hsecond | ⟨d', hstored', hown', hsecond⟩
    · rw [hsecond, hfirst]
    · rw [hfirst] at hstored'
      cases hstored'
      rw [hsecond, DownTrack.expireCache_expireCache]

theorem trimmed_handleRtcpPacket (packet : Rtcp.Packet) :
    Trimmed now subscriber room (handleRtcpPacket now subscriber room packet).2 := by
  cases packet with
  | genericNack nack =>
    rw [handleRtcpPacket]
    cases hfound : room.authorizedDownTrack subscriber nack.mediaSsrc with
    | none => exact .refl room
    | some found =>
      obtain ⟨id, d⟩ := found
      obtain ⟨-, hstored, hown⟩ := authorizedDownTrack_eq_some.mp hfound
      refine ⟨rfl, fun other => ?_⟩
      by_cases hother : id = other
      · subst hother
        exact .inr ⟨d, hstored, hown, ExtTreeMap.getElem?_insert_self⟩
      · exact .inl (Maps.getElem?_insert_of_ne hother)
  | pictureLossIndication pli =>
    rw [handleRtcpPacket]
    cases room.upstreamEncoding subscriber pli.mediaSsrc with
    | none => exact .refl room
    | some found =>
      dsimp only
      unfold maybePli
      split_ifs
      · exact .refl room
      · exact ⟨rfl, fun _ => .inl rfl⟩
  | transportWideFeedback feedback => exact .refl room
  | senderReport report => exact .refl room
  | receiverReport report => exact .refl room
  | sourceDescription description => exact .refl room
  | raw packet => exact .refl room

theorem trimmed_handleRtcpPackets (packets : List Rtcp.Packet) (room : Room) :
    Trimmed now subscriber room (handleRtcpPackets now subscriber packets room).2 := by
  induction packets generalizing room with
  | nil => exact .refl room
  | cons packet packets ih => exact (trimmed_handleRtcpPacket packet).trans (ih _)

/-- What an earlier packet of the compound has dropped would not have been sent again anyway. -/
theorem Trimmed.retransmissions (h : Trimmed now subscriber room room') (packet : Rtcp.Packet) :
    (handleRtcpPacket now subscriber room' packet).1.retransmissions =
      (handleRtcpPacket now subscriber room packet).1.retransmissions := by
  by_cases hnack : ∃ nack, packet = .genericNack nack
  swap
  · have hother : ∀ nack, packet ≠ .genericNack nack := fun nack heq => hnack ⟨nack, heq⟩
    rw [retransmissions_handleRtcpPacket_other hother, retransmissions_handleRtcpPacket_other hother]
  obtain ⟨nack, rfl⟩ := hnack
  rw [retransmissions_handleRtcpPacket_nack, retransmissions_handleRtcpPacket_nack]
  unfold authorizedDownTrack
  rw [h.outputSsrcIndex]
  cases room.outputSsrcIndex[nack.mediaSsrc]? with
  | none => rfl
  | some id =>
    dsimp only [Option.bind_eq_bind, Option.bind_some]
    rcases h.subscription id with hsame | ⟨d, hstored, hown, htrimmed⟩
    · rw [hsame]
    · rw [hstored, htrimmed]
      dsimp only [Option.bind_some]
      rw [DownTrack.configuration_expireCache, if_pos hown, if_pos hown]
      dsimp only
      rw [DownTrack.expireCache_expireCache]

theorem retransmissions_handleRtcpPackets (packets : List Rtcp.Packet) {room room' : Room}
    (h : Trimmed now subscriber room room') :
    (handleRtcpPackets now subscriber packets room').1.retransmissions =
      packets.flatMap fun packet =>
        (handleRtcpPacket now subscriber room packet).1.retransmissions := by
  induction packets generalizing room' with
  | nil => rfl
  | cons packet packets ih =>
    rw [List.flatMap_cons, ← h.retransmissions packet,
      ← ih (h.trans (trimmed_handleRtcpPacket packet))]
    rfl

/-! ## Whole runs -/

/-- The time at which a call is made, if it says so. -/
def Call.time : Call → Option ℕ
  | .setTargetLayer now _ _ _ => some now
  | .handleRtp now _ _ => some now
  | .handleRtcp now _ _ => some now
  | _ => none

/-- The times of the calls do not decrease, and `now` is not before them. -/
def InOrder (calls : List Call) (now : ℕ) : Prop :=
  (calls.filterMap Call.time ++ [now]).Pairwise (· ≤ ·)

instance (calls : List Call) (now : ℕ) : Decidable (InOrder calls now) :=
  inferInstanceAs (Decidable (List.Pairwise _ _))

def Every (P : DownTrack → Prop) (room : Room) : Prop :=
  ∀ (id : SubscriptionId) (d : DownTrack), room.subscriptions[id]? = some d → P d

/-- What the operations on a down-track at a time keep. -/
structure KeptAt (P : DownTrack → Prop) (now : ℕ) : Prop where
  target : ∀ d layer, P d → P (d.setTargetLayer layer).2
  forward : ∀ d track spatialLayer info input, P d →
    P ((DownTrack.forward now track spatialLayer info input).run d).2
  expire : ∀ d, P d → P (d.expireCache now)

variable {P : DownTrack → Prop}

theorem Every.of_eq (h : Every P room) (hsubscriptions : room'.subscriptions = room.subscriptions) :
    Every P room' := by
  unfold Every
  rw [hsubscriptions]
  exact h

theorem Every.insert (h : Every P room) {id : SubscriptionId} {d : DownTrack} (hd : P d)
    (hsubscriptions : room'.subscriptions = room.subscriptions.insert id d) : Every P room' := by
  intro other d' hstored
  rw [hsubscriptions] at hstored
  rcases Maps.getElem?_insert_eq_some.mp hstored with ⟨-, rfl⟩ | ⟨-, hstored⟩
  · exact hd
  · exact h other d' hstored

theorem Every.removed (h : Every P room) {ids : List SubscriptionId} (hremoved : Removed room room' ids) :
    Every P room' := by
  intro id d hstored
  rw [hremoved.subscription] at hstored
  split_ifs at hstored
  exact h id d hstored

theorem subscriptions_maybePli (trackId : TrackId) (mediaSsrc : UInt32) :
    (room.maybePli now trackId mediaSsrc).2.subscriptions = room.subscriptions := by
  unfold maybePli
  split_ifs <;> rfl

theorem Every.trimmed (hexpire : ∀ d, P d → P (d.expireCache now)) (h : Every P room)
    (htrimmed : Trimmed now subscriber room room') : Every P room' := by
  intro id d hstored
  rcases htrimmed.subscription id with hsame | ⟨d', hstored', -, hexpired⟩
  · rw [hsame] at hstored
    exact h id d hstored
  · rw [hexpired] at hstored
    cases hstored
    exact hexpire d' (h id d' hstored')

theorem Every.setTargetLayer (hkept : KeptAt P now) (h : Every P room) (id : SubscriptionId)
    (layer : Layer) : Every P ((setTargetLayer now subscriber id layer).run room).2 := by
  rw [Room.setTargetLayer, run_get_bind, run_ofOption_bind]
  cases hstored : room.subscriptions[id]? with
  | none => exact h
  | some d =>
    refine run_ensure_bind_invariant h fun _ => ?_
    have hset : Every P { room with
        subscriptions := room.subscriptions.insert id (d.setTargetLayer layer).2 } :=
      h.insert (hkept.target d layer (h id d hstored)) rfl
    dsimp only
    rw [run_set_bind, run_ofOption_bind]
    cases room.tracks[d.configuration.trackId]? with
    | none => exact hset
    | some track =>
      dsimp only
      rw [run_ofOption_bind]
      cases track.encoding layer.spatial with
      | none => exact hset
      | some encoding =>
        dsimp only
        split_ifs
        · exact hset.of_eq (subscriptions_maybePli _ _)
        · exact hset

section

variable (hforward : ∀ d track spatialLayer info input, P d →
  P ((DownTrack.forward now track spatialLayer info input).run d).2)

include hforward

theorem Every.forwardAll (track : PublishedTrack) (spatialLayer : UInt8)
    (info : MediaCodec.PayloadInfo) (input : Bytes) (ids : List SubscriptionId) {room : Room}
    (h : Every P room) :
    Every P ((forwardAll now track spatialLayer info input ids).run room).2 := by
  induction ids generalizing room with
  | nil => exact h
  | cons id ids ih =>
    rw [Room.forwardAll, run_get_bind]
    cases hstored : room.subscriptions[id]? with
    | none => exact ih h
    | some d =>
      have hfirst : Every P
          ((forwardTo now track spatialLayer info input id d).run room).2 :=
        h.insert (hforward d track spatialLayer info input (h id d hstored)) rfl
      refine run_bind_invariant hfirst fun decision room' _ hroom' => ?_
      rw [state_run_bind_pure]
      exact ih hroom'

theorem Every.handleRtp {visit : ExtTreeMap SubscriptionId DownTrack → List DownTrack}
    (h : Every P room) (publisher : ParticipantId) (input : Bytes) :
    Every P ((handleRtp visit now publisher input).run room).2 := by
  rw [Room.handleRtp, run_get_bind]
  refine run_ofExcept_bind_invariant h fun source _ => ?_
  refine run_bind_invariant (h.forwardAll hforward _ _ _ _ _) ?_
  rintro ⟨output, needsPli⟩ room' - hroom'
  dsimp only
  rw [state_run_bind_pure, requestWaiting, run_get_bind]
  split
  · exact hroom'.of_eq (subscriptions_maybePli _ _)
  · exact hroom'

end

theorem Every.subscribe (h : Every P room) (configuration : SubscriptionConfig)
    (hnew : ∀ track capacity age, P (DownTrack.new configuration track capacity age)) :
    Every P ((subscribe configuration).run room).2 := by
  rw [Room.subscribe, run_get_bind]
  refine run_ensure_bind_invariant h fun _ => ?_
  refine run_ensure_bind_invariant h fun _ => ?_
  refine run_ensure_bind_invariant h fun _ => ?_
  refine run_ensure_bind_invariant h fun _ => ?_
  rw [run_ofOption_bind]
  cases room.tracks[configuration.trackId]? with
  | none => exact h
  | some track =>
    refine run_ensure_bind_invariant h fun _ => ?_
    exact h.insert (hnew track _ _) rfl

theorem Every.publish (h : Every P room) (track : PublishedTrack) :
    Every P ((publish track).run room).2 := by
  rw [Room.publish]
  refine run_ofExcept_bind_invariant h fun _ _ => ?_
  rw [run_get_bind]
  refine run_ensure_bind_invariant h fun _ => ?_
  refine run_ensure_bind_invariant h fun _ => ?_
  refine run_ensure_bind_invariant h fun _ => ?_
  exact h.of_eq rfl

theorem Every.unpublish (h : Every P room) (trackId : TrackId) :
    Every P (room.unpublish trackId).2 := by
  unfold Room.unpublish
  cases room.tracks[trackId]? with
  | none => exact h
  | some track =>
    have hwithout : Every P (room.withoutTrack trackId track) := h.of_eq rfl
    exact hwithout.removed (removed_foldl _ _)

theorem Every.handleRtcp (hexpire : ∀ d, P d → P (d.expireCache now)) (h : Every P room)
    (input : Bytes) :
    Every P ((handleRtcp now subscriber input).run room).2 := by
  rw [Room.handleRtcp]
  refine run_ofExcept_bind_invariant h fun packets _ => ?_
  exact h.trimmed hexpire (trimmed_handleRtcpPackets packets room)

/-- What new down-tracks have and their operations keep, the down-tracks of a room have after a
call. -/
theorem Every.step {visit : ExtTreeMap SubscriptionId DownTrack → List DownTrack}
    (h : Every P room) (call : Call)
    (hnew : ∀ configuration track capacity age, P (DownTrack.new configuration track capacity age))
    (hkept : ∀ now, call.time = some now → KeptAt P now) : Every P (step visit room call) := by
  cases call with
  | publish track => exact h.publish track
  | unpublish trackId => exact h.unpublish trackId
  | subscribe configuration => exact h.subscribe configuration (hnew configuration)
  | unsubscribe id => exact h.removed (removed_removeSubscription room id)
  | setTargetLayer now subscriber id layer => exact h.setTargetLayer (hkept now rfl) id layer
  | handleRtp now publisher input => exact h.handleRtp (hkept now rfl).forward publisher input
  | handleRtcp now subscriber input => exact h.handleRtcp (hkept now rfl).expire input

theorem keptAt_ordered (now : ℕ) : KeptAt (DownTrack.Ordered now) now where
  target d layer h := by
    refine h.sublist ?_
    unfold DownTrack.setTargetLayer
    split_ifs <;> exact List.Sublist.refl _
  forward d track spatialLayer info input h := h.forward track spatialLayer info input
  expire d h := h.expireCache

theorem ordered_runCalls {visit : ExtTreeMap SubscriptionId DownTrack → List DownTrack}
    {calls : List Call} {room : Room} {time : ℕ} (h : Every (DownTrack.Ordered time) room)
    (htime : ∀ earlier ∈ calls.filterMap Call.time, time ≤ earlier) (horder : InOrder calls now)
    (hnow : time ≤ now) : Every (DownTrack.Ordered now) (runCalls visit room calls) := by
  induction calls generalizing room time with
  | nil => exact fun id d hstored => (h id d hstored).mono hnow
  | cons call calls ih =>
    have hnew : ∀ (time : ℕ) configuration track capacity age,
        (DownTrack.new configuration track capacity age).Ordered time :=
      fun _ _ _ _ _ => ⟨List.Pairwise.nil, by simp [DownTrack.new]⟩
    cases hcall : call.time with
    | none =>
      rw [InOrder, List.filterMap_cons_none hcall] at horder
      rw [List.filterMap_cons_none hcall] at htime
      have hstep : Every (DownTrack.Ordered time) (step visit room call) :=
        h.step call (hnew time) (by simp [hcall])
      exact ih hstep htime horder hnow
    | some next =>
      rw [InOrder, List.filterMap_cons_some hcall, List.cons_append, List.pairwise_cons] at horder
      rw [List.filterMap_cons_some hcall] at htime
      have hle : time ≤ next := htime next List.mem_cons_self
      have hstep : Every (DownTrack.Ordered next) (step visit room call) := by
        refine Every.step (fun id d hstored => (h id d hstored).mono hle) call (hnew next) ?_
        intro other hother
        rw [hcall] at hother
        cases hother
        exact keptAt_ordered next
      refine ih hstep ?_ horder.2 (horder.1 now (by simp))
      exact fun later hlater => horder.1 later (by simp [hlater])

/-- If time does not go back, what is left of a cache is what is not too old. -/
theorem unexpired_of_inOrder {visit : ExtTreeMap SubscriptionId DownTrack → List DownTrack}
    {configuration : RoomConfig} {calls : List Call} (horder : InOrder calls now) :
    Every (fun d => (d.expireCache now).cache = d.cache.filter fun cached => d.Unexpired now cached)
      (runCalls visit (new configuration) calls) := by
  have hempty : Every (DownTrack.Ordered 0) (new configuration) := by
    intro id d hstored
    simp [new] at hstored
  intro id d hstored
  exact DownTrack.cache_expireCache
    (ordered_runCalls hempty (fun _ _ => Nat.zero_le _) horder (Nat.zero_le now) id d hstored)

/-- Feedback of a subscriber, after any run of calls: its packets are handled in turn; down-tracks of
others stay as they are; what is sent again answers the NACKs one after the other, each out of the
cache of the own down-track that it is about; a NACK asks for the numbers that its entries name, each
once; and in a run whose times do not decrease it finds the packets that are not too old. -/
theorem handleRtcp_feedback (visit : ExtTreeMap SubscriptionId DownTrack → List DownTrack)
    (configuration : RoomConfig) (calls : List Call) (now : ℕ) (subscriber : ParticipantId)
    (packets : List Rtcp.Packet) :
    (∀ input, Rtcp.parseCompound input = .ok packets →
      (handleRtcp now subscriber input).run (runCalls visit (new configuration) calls) =
        (.ok (handleRtcpPackets now subscriber packets
          (runCalls visit (new configuration) calls)).1,
        (handleRtcpPackets now subscriber packets (runCalls visit (new configuration) calls)).2)) ∧
    (∀ id : SubscriptionId,
      (∀ d, (runCalls visit (new configuration) calls).subscriptions[id]? = some d →
        d.configuration.subscriber ≠ subscriber) →
      (handleRtcpPackets now subscriber packets
        (runCalls visit (new configuration) calls)).2.subscriptions[id]? =
          (runCalls visit (new configuration) calls).subscriptions[id]?) ∧
    (∃ answers : Rtcp.Packet → List ForwardedPacket,
      (handleRtcpPackets now subscriber packets
        (runCalls visit (new configuration) calls)).1.retransmissions = packets.flatMap answers ∧
      (∀ nack, Answered (runCalls visit (new configuration) calls) now subscriber nack
        (answers (.genericNack nack))) ∧
      ∀ packet, (∀ nack, packet ≠ .genericNack nack) → answers packet = []) ∧
    (∀ entries, (expandNack entries).Nodup ∧
      ∀ number, number ∈ expandNack entries ↔ ∃ entry ∈ entries, Names entry number) ∧
    (InOrder calls now →
      Every (fun d => (d.expireCache now).cache =
          d.cache.filter fun cached => d.Unexpired now cached)
        (runCalls visit (new configuration) calls)) := by
  have hroom : Consistent (runCalls visit (new configuration) calls) :=
    consistent_runCalls (consistent_new configuration) calls
  refine ⟨?_, ?_, ?_, ?_, unexpired_of_inOrder⟩
  · intro input hparse
    rw [handleRtcp, run_ofExcept_bind, hparse]
    rfl
  · intro id hother
    rcases (trimmed_handleRtcpPackets packets _).subscription id with hsame | ⟨d, hstored, hown, -⟩
    · exact hsame
    · exact absurd hown (hother d hstored)
  · exact ⟨_, retransmissions_handleRtcpPackets packets (.refl _),
      fun nack => answered_handleRtcpPacket hroom nack,
      fun packet hother => retransmissions_handleRtcpPacket_other hother⟩
  · exact fun entries => ⟨nodup_expandNack entries, fun number => mem_expandNack⟩

/-! ## Two packets with one number, and time that goes back -/

/-- The packets in the cache that are not too old and whose number is asked for. -/
def unexpiredAsked (room : Room) (now : ℕ) (subscriber : ParticipantId) :
    Rtcp.Packet → List ForwardedPacket
  | .genericNack nack =>
      match room.authorizedDownTrack subscriber nack.mediaSsrc with
      | none => []
      | some (_, d) =>
          (d.cache.filter fun cached => d.Unexpired now cached ∧
            ∃ number ∈ expandNack nack.entries, cached.number = some number).map
              CachedPacket.marked
  | _ => []

/-- What is sent again is every such packet. -/
def SendsUnexpired (room : Room) (now : ℕ) (subscriber : ParticipantId)
    (packets : List Rtcp.Packet) : Prop :=
  ∀ packet, packet ∈ (handleRtcpPackets now subscriber packets room).1.retransmissions ↔
    packet ∈ packets.flatMap (room.unexpiredAsked now subscriber)

/-- A packet with a header extension that the subscriber renumbers. -/
def Sample.extended (value : UInt8) : Bytes :=
  [0x90, 111, 0, 1, 0, 0, 0, 0, 0, 0, 0, 7, 0xBE, 0xDE, 0, 1, 0x10, value, 0, 0, 42]

/-- The subscriber of `Sample.room` that cannot rewrite a packet without header extensions. -/
def Sample.renumbering : SubscriptionConfig := Sample.subscription 1 [⟨1, some 2, none⟩]

/-- Its down-track after the first packet, when `number` comes next. -/
def Sample.downTrack (number : UInt16) : DownTrack where
  configuration := Sample.renumbering
  targetLayer := ⟨0, 0⟩
  selectedSpatial := some 0
  currentInputSsrc := some 7
  inputTimestampBase := 0
  outputTimestampBase := 0
  lastOutputTimestamp := some 0
  timestampStep := 960
  nextSequenceNumber := number
  cache := [⟨0, ⟨2, 1, [0x90, 111, 3, 232, 0, 0, 0, 0, 0, 0, 0, 101, 0xBE, 0xDE, 0, 1, 0x20, 1, 0, 0,
    42], ⟨0, 0⟩, true, false⟩⟩]
  cacheCapacity := 2048
  cacheAge := 2000000000

/-- The room of that subscriber. -/
def Sample.served (number : UInt16) : Room where
  configuration := {}
  tracks := (∅ : ExtTreeMap TrackId PublishedTrack).insert 1 Sample.track
  ssrcIndex := (∅ : ExtTreeMap UInt32 (TrackId × UInt8)).insert 7 (1, 0)
  subscriptions := (∅ : ExtTreeMap SubscriptionId DownTrack).insert 1 (Sample.downTrack number)
  trackSubscriptions := (∅ : ExtTreeMap TrackId (List SubscriptionId)).insert 1 [1]
  outputSsrcIndex := (∅ : ExtTreeMap UInt32 SubscriptionId).insert 101 1
  lastPli := ∅


theorem served_of_first :
    runCalls Sample.inKeyOrder (new {}) [.publish Sample.track, .subscribe Sample.renumbering,
      .handleRtp 0 1 (Sample.extended 1)] = Sample.served 1001 := by
  decide

theorem advance_downTrack {parsed : Rtp.Packet}
    (hparse : Rtp.Packet.parse Sample.packet = .ok parsed) (number : UInt16) :
    (Sample.downTrack number).advance parsed 0 = Sample.downTrack (number + 1) := by
  have hheader : (Rtp.Packet.parse Sample.packet).toOption.map
      (fun parsed => (parsed.header.ssrc, parsed.header.timestamp)) = some (7, 0) := by
    decide
  rw [hparse] at hheader
  obtain ⟨hssrc, htimestamp⟩ := Prod.mk.inj (Option.some.inj hheader)
  simp [DownTrack.advance, DownTrack.switches, DownTrack.rewriteTimestamp, DownTrack.rewriteBase,
    Sample.downTrack, hssrc, htimestamp]

/-- The packet without header extensions uses up a number and is not sent. -/
theorem forward_downTrack (number : UInt16) {info : MediaCodec.PayloadInfo}
    (hinfo : info.temporalId = none) :
    ∃ error, (DownTrack.forward 0 Sample.track 0 info Sample.packet).run (Sample.downTrack number) =
      (.error error, Sample.downTrack (number + 1)) := by
  have htakes : (Sample.downTrack number).takes Sample.track 0 info := by
    refine ⟨.inl rfl, ?_, ?_⟩
    · intro hvideo
      cases hvideo
    · simp [hinfo]
  obtain ⟨parsed, hparse⟩ : ∃ parsed, Rtp.Packet.parse Sample.packet = .ok parsed := ⟨_, rfl⟩
  have hfails : ¬∃ packet,
      (Sample.downTrack number).rewritten parsed Sample.packet = .ok packet := by
    rw [DownTrack.exists_rewritten_iff hparse (by decide : (111 : UInt8) ≤ 127)]
    rintro ⟨packet, hpacket⟩
    have herror : (Rtp.rewriteHeaderExtensions Sample.packet
        Sample.renumbering.extensionRewrites).isOk = false := by decide
    have hpacket : Rtp.rewriteHeaderExtensions Sample.packet
        Sample.renumbering.extensionRewrites = .ok packet := hpacket
    rw [hpacket] at herror
    cases herror
  rw [DownTrack.forward_of_takes htakes, DownTrack.forwardTaken_run hparse]
  cases hrewritten : (Sample.downTrack number).rewritten parsed Sample.packet with
  | error error => exact ⟨.rtp error, by rw [advance_downTrack hparse]⟩
  | ok packet => exact absurd ⟨packet, hrewritten⟩ hfails


theorem step_served (number : UInt16) :
    step Sample.inKeyOrder (Sample.served number) (.handleRtp 0 1 Sample.packet) =
      Sample.served (number + 1) := by
  have hfields : ((Sample.served number).identify 1 Sample.packet).toOption.map
      (fun source => (source.trackId, source.track, source.spatialLayer, source.info.temporalId)) =
        some (1, Sample.track, 0, none) := by
    show ((Sample.served 0).identify 1 Sample.packet).toOption.map _ = _
    decide
  cases hidentify : (Sample.served number).identify 1 Sample.packet with
  | error error =>
    rw [hidentify] at hfields
    cases hfields
  | ok source =>
    rw [hidentify] at hfields
    simp only [Except.toOption, Option.map_some, Option.some.injEq, Prod.mk.injEq] at hfields
    obtain ⟨htrackId, htrack, hlayer, htemporal⟩ := hfields
    obtain ⟨error, hforward⟩ := forward_downTrack number htemporal
    have hsubscribers : (Sample.served number).trackSubscriptions[source.trackId]? = some [1] := by
      rw [htrackId]
      rfl
    have hstored : (Sample.served number).subscriptions[(1 : SubscriptionId)]? =
        some (Sample.downTrack number) := ExtTreeMap.getElem?_insert_self
    show ((handleRtp Sample.inKeyOrder 0 1 Sample.packet).run (Sample.served number)).2 = _
    rw [handleRtp, run_get_bind, run_ofExcept_bind, hidentify]
    dsimp only
    rw [hsubscribers, htrack, hlayer, Option.getD_some, forwardAll, run_bind, run_get_bind, hstored]
    dsimp only
    have hrefused : (forwardTo 0 Sample.track 0 source.info Sample.packet 1
        (Sample.downTrack number)).run (Sample.served number) =
          (.error error, Sample.served (number + 1)) := by
      rw [forwardTo, hforward]
      rfl
    rw [run_bind, hrefused]

theorem run_served (count : ℕ) (number : UInt16) :
    runCalls Sample.inKeyOrder (Sample.served number)
      (List.replicate count (.handleRtp 0 1 Sample.packet)) =
        Sample.served (number + UInt16.ofNat count) := by
  induction count generalizing number with
  | zero => simp [runCalls]
  | succ count ih =>
    rw [List.replicate_succ, runCalls, List.foldl_cons, step_served, ← runCalls, ih]
    congr 1
    rw [UInt16.ofNat_add, UInt16.add_comm (UInt16.ofNat count), ← UInt16.add_assoc]
    rfl

/-- A packet is cached under number 1000, then so many packets that cannot be rewritten use up numbers
that 1000 comes again. -/
def Sample.wrappedCalls : List Call :=
  [.publish Sample.track, .subscribe Sample.renumbering, .handleRtp 0 1 (Sample.extended 1)] ++
    List.replicate 65535 (.handleRtp 0 1 Sample.packet) ++ [.handleRtp 0 1 (Sample.extended 2)]

/-- A second packet is cached at an earlier time than the first. -/
def Sample.backwardCalls : List Call :=
  [.publish Sample.track, .subscribe Sample.renumbering,
    .handleRtp 10000000000 1 (Sample.extended 1), .handleRtp 0 1 (Sample.extended 2)]

theorem runCalls_wrappedCalls :
    runCalls Sample.inKeyOrder (new {}) Sample.wrappedCalls =
      step Sample.inKeyOrder (Sample.served 1000) (.handleRtp 0 1 (Sample.extended 2)) := by
  have hfirst := served_of_first
  rw [runCalls] at hfirst
  have hmiddle := run_served 65535 1001
  rw [runCalls] at hmiddle
  rw [runCalls, Sample.wrappedCalls, List.foldl_append, List.foldl_append, hfirst, hmiddle]
  rfl

/-- Of two cached packets with one number only the newer is sent again, and a packet that is too old
is sent if a younger one stands before it. -/
theorem not_sendsUnexpired :
    ¬SendsUnexpired (runCalls Sample.inKeyOrder (new {}) Sample.wrappedCalls) 0 2
      [.genericNack ⟨0, 101, [⟨1000, 0⟩]⟩] ∧
    ¬SendsUnexpired (runCalls Sample.inKeyOrder (new {}) Sample.backwardCalls) 5000000000 2
      [.genericNack ⟨0, 101, [⟨1001, 0⟩]⟩] := by
  constructor
  · intro hsends
    rw [runCalls_wrappedCalls] at hsends
    have hcached := hsends ⟨2, 1, [0x90, 111, 3, 232, 0, 0, 0, 0, 0, 0, 0, 101, 0xBE, 0xDE, 0, 1, 0x20,
      1, 0, 0, 42], ⟨0, 0⟩, true, true⟩
    revert hcached
    decide +kernel
  · intro hsends
    have hcached := hsends ⟨2, 1, [0x90, 111, 3, 233, 0, 0, 0, 0, 0, 0, 0, 101, 0xBE, 0xDE, 0, 1, 0x20,
      2, 0, 0, 42], ⟨0, 0⟩, true, true⟩
    revert hcached
    decide +kernel

end Room

end Fluvora.Sfu
