import Fluvora.Domain.Room

/-!
# Runs of the room aggregate

`Room.run` executes a list of requests one after the other and collects the events they emit.
`execute_cases` says once what a request can do: find its command known, be refused, or apply one
event.  From it, `Room.WellFormed` (one host, publishers among the members and within their
rights, the policy's maxima, aligned histories) is shown to hold after every run from a freshly
created room.
-/

open Std (ExtTreeMap ExtTreeSet)

namespace Fluvora.Domain

/-- One call of `Room::execute`. -/
structure Request where
  commandId : CommandId
  timestampMillis : UInt64
  command : RoomCommand

namespace Room

/-- What a request returns. -/
def outcome (room : Room) (request : Request) : Except RoomError CommandOutcome :=
  ((execute request.commandId request.timestampMillis request.command).run room).1

/-- The room a request leaves. -/
def step (room : Room) (request : Request) : Room :=
  ((execute request.commandId request.timestampMillis request.command).run room).2

/-- The event a request applied, if it applied one. -/
def emitted (room : Room) (request : Request) : List RoomEvent :=
  match room.outcome request with
  | .ok (.applied event) => [event]
  | .ok .duplicate | .error _ => []

/-- The room after a list of requests. -/
def run (room : Room) (requests : List Request) : Room := requests.foldl step room

/-- What a list of requests returns, in order. -/
def outcomes (room : Room) : List Request → List (Except RoomError CommandOutcome)
  | [] => []
  | request :: requests => room.outcome request :: (room.step request).outcomes requests

/-- The events a list of requests emits, in order. -/
def emittedAll (room : Room) : List Request → List RoomEvent
  | [] => []
  | request :: requests => room.emitted request ++ (room.step request).emittedAll requests

@[simp] theorem run_nil (room : Room) : room.run [] = room := rfl

@[simp] theorem run_cons (room : Room) (request : Request) (requests : List Request) :
    room.run (request :: requests) = (room.step request).run requests := rfl

/-! ## What one request can do -/

/-- The event a request applies when its command decides into `kind`. -/
def eventOf (room : Room) (request : Request) (kind : RoomEventKind) : RoomEvent where
  sequence := room.sequence + 1
  commandId := request.commandId
  timestampMillis := request.timestampMillis
  kind := kind

/-- A request passed every check of `execute` and its command decided into `kind`. -/
structure Accepts (room : Room) (request : Request) (kind : RoomEventKind) : Prop where
  fresh : request.commandId ∉ room.processedCommands
  open_ : room.ended = false
  decided : room.decide request.command = .ok kind
  room_left : room.sequence.toNat + 1 < 2 ^ 64

/-- A request is a duplicate, is refused, or applies exactly one event. -/
theorem execute_cases (room : Room) (request : Request) :
    (request.commandId ∈ room.processedCommands ∧ room.outcome request = .ok .duplicate ∧
      room.step request = room) ∨
    (∃ e, room.outcome request = .error e ∧ room.step request = room) ∨
    (∃ kind, room.Accepts request kind ∧
      room.outcome request = .ok (.applied (room.eventOf request kind)) ∧
      room.step request = room.apply (room.eventOf request kind)) := by
  unfold outcome step execute
  rw [Fallible.run_get_bind]
  by_cases known : request.commandId ∈ room.processedCommands
  · rw [if_pos known]
    exact Or.inl ⟨known, rfl, rfl⟩
  right
  rw [if_neg known, Fallible.run_ensure_bind]
  by_cases hopen : room.ended = false
  · rw [if_pos hopen, Fallible.run_ofExcept_bind]
    rcases decided : room.decide request.command with e | kind
    · exact Or.inl ⟨e, rfl, rfl⟩
    · dsimp only
      rw [Fallible.run_ofOption_bind]
      unfold checkedSucc
      by_cases hroom : room.sequence.toNat + 1 < 2 ^ 64
      · rw [if_pos hroom]
        exact Or.inr ⟨kind, ⟨known, hopen, decided, hroom⟩, rfl, rfl⟩
      · rw [if_neg hroom]
        exact Or.inl ⟨_, rfl, rfl⟩
  · rw [if_neg hopen]
    exact Or.inl ⟨_, rfl, rfl⟩

/-- A request either leaves the room alone and emits nothing, or applies the one event it emits. -/
theorem step_cases (room : Room) (request : Request) :
    (room.step request = room ∧ room.emitted request = []) ∨
    (∃ kind, room.Accepts request kind ∧
      room.step request = room.apply (room.eventOf request kind) ∧
      room.emitted request = [room.eventOf request kind]) := by
  unfold emitted
  obtain ⟨-, result, same⟩ | ⟨e, result, same⟩ | ⟨kind, accepts, result, applied⟩ :=
    execute_cases room request
  · exact Or.inl ⟨same, by rw [result]⟩
  · exact Or.inl ⟨same, by rw [result]⟩
  · exact Or.inr ⟨kind, accepts, applied, by rw [result]⟩

theorem toNat_sequence_succ {room : Room} {request : Request} {kind : RoomEventKind}
    (accepts : room.Accepts request kind) :
    (room.eventOf request kind).sequence.toNat = room.sequence.toNat + 1 := by
  have bound := accepts.room_left
  simp only [eventOf, UInt64.toNat_add]
  exact Nat.mod_eq_of_lt bound

/-! ## What a command can decide into -/

theorem requireMember_bind_eq_ok {β : Type} {room : Room} {user : UserId}
    {f : MemberRole → Except RoomError β} {b : β} :
    (room.requireMember user >>= f) = .ok b ↔
      ∃ role, room.members[user]? = some role ∧ f role = .ok b := by
  unfold requireMember
  rcases room.members[user]? with _ | role
  · simp [bind, Except.bind]
  · simp [bind, Except.bind]

/-- What the room has checked about an event before applying it. -/
def Checked (room : Room) : RoomEventKind → Prop
  | .created .. => False
  | .memberJoined user role =>
      user ∉ room.members ∧ room.members.size < room.policy.maxMembers ∧ role = .audience
  | .memberLeft user => ∃ role, room.members[user]? = some role ∧ role ≠ .host
  | .roleChanged user role =>
      (∃ current, room.members[user]? = some current ∧ current ≠ .host) ∧ role ≠ .host
  | .publishingStarted user =>
      (∃ role, room.members[user]? = some role ∧ role.canPublish = true) ∧ room.mode ≠ .vod ∧
        user ∉ room.publishers ∧ room.publishers.size < room.policy.maxPublishers
  | .publishingStopped user => user ∈ room.publishers
  | .giftRecorded _ receipt _ =>
      validGiftText receipt.transactionId maxGiftTransactionIdBytes = true ∧
        receipt.transactionId ∉ room.giftTransactions
  | .chatSent .. | .customDataSent .. => True
  | .ended actor => room.members[actor]? = some .host

theorem decide_checked {room : Room} {command : RoomCommand} {kind : RoomEventKind}
    (h : room.decide command = .ok kind) : room.Checked kind := by
  cases command with
  | join user =>
    simp only [decide, decideJoin] at h
    split_ifs at h with member full
    cases h
    exact ⟨member, Nat.not_le.1 full, rfl⟩
  | leave user =>
    obtain ⟨role, found, h⟩ := requireMember_bind_eq_ok.1 h
    cases role <;> cases h <;> exact ⟨_, found, by decide⟩
  | setRole actor user role =>
    obtain ⟨actorRole, -, h⟩ := requireMember_bind_eq_ok.1 h
    obtain ⟨current, found, h⟩ := requireMember_bind_eq_ok.1 h
    split_ifs at h with denied
    cases h
    simp only [Bool.or_eq_true, beq_iff_eq, not_or] at denied
    exact ⟨⟨current, found, denied.1.2⟩, denied.2⟩
  | startPublishing user =>
    obtain ⟨role, found, h⟩ := requireMember_bind_eq_ok.1 h
    split_ifs at h with denied already full
    cases h
    simp only [Bool.or_eq_true, beq_iff_eq, not_or, Bool.not_eq_true, Bool.not_eq_false'] at denied
    exact ⟨⟨role, found, denied.2⟩, denied.1, already, Nat.not_le.1 full⟩
  | stopPublishing user =>
    obtain ⟨role, -, h⟩ := requireMember_bind_eq_ok.1 h
    split_ifs at h with publishing
    cases h
    exact publishing
  | sendChat user messageId text =>
    obtain ⟨role, -, h⟩ := requireMember_bind_eq_ok.1 h
    split_ifs at h
    cases h
    trivial
  | recordVerifiedGift sender receipt =>
    obtain ⟨role, -, h⟩ := requireMember_bind_eq_ok.1 h
    obtain ⟨role', -, h⟩ := requireMember_bind_eq_ok.1 h
    split_ifs at h with malformed known
    rcases value : checkedMul receipt.unitValue receipt.quantity.toUInt64 with _ | total
    · rw [value] at h
      cases h
    · rw [value] at h
      cases h
      simp only [Bool.or_eq_true, not_or, Bool.not_eq_true, Bool.not_eq_false'] at malformed
      exact ⟨malformed.1.1.1.1, known⟩
  | sendCustomData user data =>
    obtain ⟨role, -, h⟩ := requireMember_bind_eq_ok.1 h
    split_ifs at h
    cases h
    trivial
  | «end» actor =>
    obtain ⟨role, found, h⟩ := requireMember_bind_eq_ok.1 h
    split_ifs at h with denied
    cases h
    simp only [bne_iff_ne, ne_eq, not_not] at denied
    rw [denied] at found
    exact found

/-! ## The invariant -/

/-- Who is in the room and who publishes. -/
structure Staffed (host : UserId) (room : Room) : Prop where
  /-- Exactly one member is a host, and it is the creator. -/
  host_iff : ∀ user, room.members[user]? = some .host ↔ user = host
  /-- Publishers are members whose role allows publishing. -/
  publishers_allowed : ∀ user ∈ room.publishers,
    ∃ role, room.members[user]? = some role ∧ role.canPublish = true
  members_le : room.members.size ≤ room.policy.maxMembers
  publishers_le : room.publishers.size ≤ room.policy.maxPublishers
  /-- A stored-playback room has no publisher. -/
  vod_silent : room.mode = .vod → room.publishers = ∅
  /-- An ended room has no publisher. -/
  ended_silent : room.ended = true → room.publishers = ∅

/-- What the room remembers of the commands and gifts it has applied. -/
structure Remembers (room : Room) : Prop where
  commands : History.Tracks commandHistoryLimit room.processedCommands room.commandOrder
  gifts : History.Tracks giftTransactionHistoryLimit room.giftTransactions
    room.giftTransactionOrder
  gifts_valid : ∀ transaction ∈ room.giftTransactionOrder,
    validGiftText transaction maxGiftTransactionIdBytes = true

/-- What holds of every room reached from its creation by `host`. -/
structure WellFormed (host : UserId) (room : Room) : Prop
    extends Staffed host room, Remembers room where
  sequence_ne_zero : room.sequence ≠ 0
  commands_ne_nil : room.commandOrder ≠ []

/-- Giving a non-host another role that is not host keeps the host unique. -/
theorem host_iff_insert {host user : UserId} {room : Room} {role : MemberRole}
    (h : ∀ other, room.members[other]? = some .host ↔ other = host)
    (current : room.members[user]? ≠ some .host) (new : role ≠ .host) (other : UserId) :
    (room.members.insert user role)[other]? = some .host ↔ other = host := by
  rw [ExtTreeMap.getElem?_insert]
  split_ifs with same
  · rw [Std.compare_eq_iff_eq] at same
    subst same
    have ne : user ≠ host := fun e => current ((h user).2 e)
    simp [new, ne]
  · exact h other

/-- Publishers keep their rights when one member's role changes and that member stops publishing
unless the new role allows it. -/
theorem publishers_allowed_insert {room : Room} {user : UserId} {role : MemberRole}
    (h : ∀ other ∈ room.publishers,
      ∃ role, room.members[other]? = some role ∧ role.canPublish = true)
    {other : UserId}
    (publishing : other ∈ if role.canPublish then room.publishers else room.publishers.erase user) :
    ∃ role', (room.members.insert user role)[other]? = some role' ∧ role'.canPublish = true := by
  rw [ExtTreeMap.getElem?_insert]
  split_ifs with same
  · refine ⟨role, rfl, ?_⟩
    by_contra silent
    rw [if_neg silent, ExtTreeSet.mem_erase] at publishing
    exact publishing.1 same
  · apply h
    split_ifs at publishing
    · exact publishing
    · exact (ExtTreeSet.mem_erase.1 publishing).2

theorem erase_eq_empty {publishers : ExtTreeSet UserId} {user : UserId} (h : publishers = ∅) :
    publishers.erase user = ∅ := by
  subst h
  simp

/-- Setting a role other than host, for somebody who is not the host, keeps the room staffed. -/
theorem staffed_setRole {host user : UserId} {room : Room} {role : MemberRole}
    (h : room.Staffed host) (current : room.members[user]? ≠ some .host) (new : role ≠ .host)
    (fits : (room.members.insert user role).size ≤ room.policy.maxMembers) :
    (room.applyKind (.roleChanged user role)).Staffed host := by
  have silent (quiet : room.publishers = ∅) :
      (if role.canPublish then room.publishers else room.publishers.erase user) = ∅ := by
    split_ifs
    · exact quiet
    · exact erase_eq_empty quiet
  refine ⟨host_iff_insert h.host_iff current new,
    fun other publishing => publishers_allowed_insert h.publishers_allowed publishing, fits, ?_,
    fun vod => silent (h.vod_silent vod), fun ended => silent (h.ended_silent ended)⟩
  refine le_trans ?_ h.publishers_le
  show (if role.canPublish then room.publishers else room.publishers.erase user).size ≤ _
  split_ifs
  · exact le_rfl
  · exact ExtTreeSet.size_erase_le

/-- Every checked event keeps an open room staffed. -/
theorem staffed_applyKind {host : UserId} {room : Room} {kind : RoomEventKind}
    (h : room.Staffed host) (open_ : room.ended = false) (checked : room.Checked kind) :
    (room.applyKind kind).Staffed host := by
  cases kind with
  | created => exact checked.elim
  | memberJoined user role =>
    obtain ⟨absent, below, rfl⟩ := checked
    apply staffed_setRole h _ (by decide) (ExtTreeMap.size_insert_le.trans below)
    rw [ExtTreeMap.getElem?_eq_none absent]
    simp
  | memberLeft user =>
    obtain ⟨role, found, guest⟩ := checked
    have ne : user ≠ host := fun e => guest (by
      rw [(h.host_iff user).2 e] at found
      exact (Option.some.inj found).symm)
    refine ⟨fun other => ?_, fun other publishing => ?_, ExtTreeMap.size_erase_le.trans
      h.members_le, ExtTreeSet.size_erase_le.trans h.publishers_le,
      fun vod => erase_eq_empty (h.vod_silent vod),
      fun ended => erase_eq_empty (h.ended_silent ended)⟩
    · show (room.members.erase user)[other]? = some .host ↔ other = host
      rw [ExtTreeMap.getElem?_erase]
      split_ifs with same
      · rw [Std.compare_eq_iff_eq] at same
        subst same
        simp [ne]
      · exact h.host_iff other
    · obtain ⟨different, publishing⟩ := ExtTreeSet.mem_erase.1 publishing
      show ∃ role, (room.members.erase user)[other]? = some role ∧ role.canPublish = true
      rw [ExtTreeMap.getElem?_erase, if_neg different]
      exact h.publishers_allowed other publishing
  | roleChanged user role =>
    obtain ⟨⟨current, found, guest⟩, new⟩ := checked
    apply staffed_setRole h _ new
    · have member : room.members.contains user = true := by
        rw [ExtTreeMap.contains_eq_isSome_getElem?, found]
        rfl
      rw [ExtTreeMap.size_insert, if_pos member]
      exact h.members_le
    · rw [found]
      exact fun e => guest (Option.some.inj e)
  | publishingStarted user =>
    obtain ⟨allowed, notVod, absent, below⟩ := checked
    refine ⟨h.host_iff, fun other publishing => ?_, h.members_le, ?_,
      fun vod => absurd vod notVod, fun ended => ?_⟩
    · rcases ExtTreeSet.mem_insert.1 publishing with same | publishing
      · rw [Std.compare_eq_iff_eq] at same
        exact same ▸ allowed
      · exact h.publishers_allowed other publishing
    · exact ExtTreeSet.size_insert_le.trans below
    · exact absurd (open_.symm.trans ended) (by decide)
  | publishingStopped user =>
    exact ⟨h.host_iff, fun other publishing =>
      h.publishers_allowed other (ExtTreeSet.mem_erase.1 publishing).2, h.members_le,
      ExtTreeSet.size_erase_le.trans h.publishers_le,
      fun vod => erase_eq_empty (h.vod_silent vod),
      fun ended => erase_eq_empty (h.ended_silent ended)⟩
  | ended actor =>
    exact ⟨h.host_iff, fun other publishing => absurd publishing ExtTreeSet.not_mem_empty,
      h.members_le, Nat.zero_le _, fun _ => rfl, fun _ => rfl⟩
  | giftRecorded sender receipt total =>
    exact ⟨h.host_iff, h.publishers_allowed, h.members_le, h.publishers_le, h.vod_silent,
      h.ended_silent⟩
  | chatSent => exact h
  | customDataSent => exact h

theorem commandOrder_applyKind (room : Room) (kind : RoomEventKind) :
    (room.applyKind kind).commandOrder = room.commandOrder := by
  cases kind <;> rfl

/-- Every checked event keeps the histories. -/
theorem remembers_applyKind {room : Room} {kind : RoomEventKind} (h : room.Remembers)
    (checked : room.Checked kind) : (room.applyKind kind).Remembers := by
  cases kind with
  | giftRecorded sender receipt total =>
    refine ⟨h.commands, History.tracks_remember h.gifts _, fun transaction known => ?_⟩
    rcases History.mem_of_mem_remember known with known | rfl
    · exact h.gifts_valid transaction known
    · exact checked.1
  | created | memberJoined | memberLeft | roleChanged | publishingStarted | publishingStopped
  | ended | chatSent | customDataSent => exact ⟨h.commands, h.gifts, h.gifts_valid⟩

/-- An accepted request keeps the room well formed. -/
theorem wellFormed_apply {host : UserId} {room : Room} {request : Request}
    {kind : RoomEventKind} (h : room.WellFormed host) (accepts : room.Accepts request kind) :
    (room.apply (room.eventOf request kind)).WellFormed host := by
  have checked := decide_checked accepts.decided
  have staffed := staffed_applyKind h.toStaffed accepts.open_ checked
  have remembers := remembers_applyKind h.toRemembers checked
  refine ⟨⟨staffed.host_iff, staffed.publishers_allowed, staffed.members_le,
    staffed.publishers_le, staffed.vod_silent, staffed.ended_silent⟩,
    ⟨History.tracks_remember remembers.commands _, remembers.gifts, remembers.gifts_valid⟩,
    fun zero => ?_, History.remember_ne_nil (by decide) _ fun _ => ?_⟩
  swap
  · rw [commandOrder_applyKind]
    exact h.commands_ne_nil
  have succ := toNat_sequence_succ accepts
  have none : (room.eventOf request kind).sequence = 0 := zero
  rw [none] at succ
  exact absurd succ (by simp)

theorem wellFormed_step {host : UserId} {room : Room} (h : room.WellFormed host)
    (request : Request) : (room.step request).WellFormed host := by
  obtain ⟨same, -⟩ | ⟨kind, accepts, applied, -⟩ := step_cases room request
  · rw [same]
    exact h
  · rw [applied]
    exact wellFormed_apply h accepts

theorem wellFormed_run {host : UserId} {room : Room} (h : room.WellFormed host)
    (requests : List Request) : (room.run requests).WellFormed host := by
  induction requests generalizing room with
  | nil => exact h
  | cons request requests ih => exact ih (wellFormed_step h request)

/-- A fresh room is well formed as soon as its policy admits one member. -/
theorem wellFormed_create (id : RoomId) (mode : RoomMode) (host : UserId) {policy : RoomPolicy}
    (fits : 1 ≤ policy.maxMembers) (commandId : CommandId) (timestampMillis : UInt64) :
    (create id mode host policy commandId timestampMillis).1.WellFormed host := by
  refine ⟨⟨fun user => ?_, fun user publishing => absurd publishing ExtTreeSet.not_mem_empty, ?_,
    Nat.zero_le _, fun _ => rfl, fun _ => rfl⟩,
    ⟨History.tracks_remember (History.tracks_empty _) _, History.tracks_empty _, ?_⟩,
    ?_, History.remember_ne_nil (by decide) _ ?_⟩
  · show ((∅ : ExtTreeMap UserId MemberRole).insert host .host)[user]? = _ ↔ _
    rw [ExtTreeMap.getElem?_insert]
    split_ifs with same
    · rw [Std.compare_eq_iff_eq] at same
      simp [same]
    · rw [Std.compare_eq_iff_eq] at same
      simp [Ne.symm same]
  · exact ExtTreeMap.size_insert_le.trans fits
  · exact fun transaction known => absurd known List.not_mem_nil
  · show (1 : UInt64) ≠ 0
    decide
  · exact fun known => absurd known ExtTreeSet.not_mem_empty

/-! ## Identity, ended rooms and sequence numbers -/

/-- Two rooms with the same identity: no event changes the id, the mode or the policy. -/
def SameIdentity (room other : Room) : Prop :=
  other.id = room.id ∧ other.mode = room.mode ∧ other.policy = room.policy

theorem sameIdentity_apply (room : Room) (event : RoomEvent) :
    room.SameIdentity (room.apply event) := by
  obtain ⟨sequence, commandId, timestampMillis, kind⟩ := event
  cases kind <;> exact ⟨rfl, rfl, rfl⟩

theorem sameIdentity_run (room : Room) (requests : List Request) :
    room.SameIdentity (room.run requests) := by
  induction requests generalizing room with
  | nil => exact ⟨rfl, rfl, rfl⟩
  | cons request requests ih =>
    obtain ⟨id, mode, policy⟩ := ih (room.step request)
    obtain ⟨same, -⟩ | ⟨kind, -, applied, -⟩ := step_cases room request
    · rw [same] at id mode policy
      exact ⟨by rw [run_cons, same, id], by rw [run_cons, same, mode],
        by rw [run_cons, same, policy]⟩
    · obtain ⟨id', mode', policy'⟩ := sameIdentity_apply room (room.eventOf request kind)
      rw [applied] at id mode policy
      exact ⟨by rw [run_cons, applied, id, id'], by rw [run_cons, applied, mode, mode'],
        by rw [run_cons, applied, policy, policy']⟩

/-- An ended room ignores every request. -/
theorem step_of_ended {room : Room} (ended : room.ended = true) (request : Request) :
    room.step request = room ∧ room.emitted request = [] := by
  obtain same | ⟨kind, accepts, -⟩ := step_cases room request
  · exact same
  · exact absurd (accepts.open_.symm.trans ended) (by decide)

theorem run_of_ended {room : Room} (ended : room.ended = true) (requests : List Request) :
    room.run requests = room ∧ room.emittedAll requests = [] := by
  induction requests with
  | nil => exact ⟨rfl, rfl⟩
  | cons request requests ih =>
    obtain ⟨same, silent⟩ := step_of_ended ended request
    rw [run_cons, emittedAll, same, silent]
    exact ih

/-- A request numbers the event it applies one above the room's sequence, and leaves the room
unchanged when it applies none. -/
def Numbered (room : Room) (request : Request) : Prop :=
  match room.outcome request with
  | .ok (.applied event) =>
      event.sequence = (room.step request).sequence ∧
        (room.step request).sequence.toNat = room.sequence.toNat + 1
  | .ok .duplicate | .error _ => room.step request = room

theorem numbered (room : Room) (request : Request) : room.Numbered request := by
  unfold Numbered
  obtain ⟨-, result, same⟩ | ⟨e, result, same⟩ | ⟨kind, accepts, result, applied⟩ :=
    execute_cases room request
  · rw [result]
    exact same
  · rw [result]
    exact same
  · rw [result, applied]
    exact ⟨rfl, toNat_sequence_succ accepts⟩

theorem one_le_maxMembers {policy : RoomPolicy} (valid : policy.valid = true) :
    1 ≤ policy.maxMembers := by
  simp only [RoomPolicy.valid, Bool.and_eq_true, decide_eq_true_eq] at valid
  omega

/-- After every run of requests against a freshly created room with a valid policy: one host, the
creator; publishers among the members, within their rights and none in a stored-playback room; the
policy's maxima; aligned histories; no event once ended; and sequence numbers that count the
applied events. -/
theorem wellFormed_of_run_create (id : RoomId) (mode : RoomMode) (host : UserId)
    (policy : RoomPolicy) (valid : policy.valid = true) (commandId : CommandId)
    (timestampMillis : UInt64) (requests : List Request) :
    let created := (create id mode host policy commandId timestampMillis).1
    let room := created.run requests
    room.WellFormed host ∧ created.SameIdentity room ∧
      (∀ request, room.Numbered request) ∧
      (room.ended = true → ∀ more, room.run more = room ∧ room.emittedAll more = []) := by
  intro created room
  exact ⟨wellFormed_run (wellFormed_create id mode host (one_le_maxMembers valid) _ _) requests,
    sameIdentity_run created requests, numbered room, fun ended more => run_of_ended ended more⟩

/-- The default policy is valid, so a room with the default policy stays well formed. -/
theorem wellFormed_of_run_create_default :
    RoomPolicy.default.valid = true ∧
      ((create 1 .live 10 .default 1 100).1.run [⟨2, 101, .join 20⟩]).WellFormed 10 :=
  ⟨by decide, (wellFormed_of_run_create 1 .live 10 .default (by decide) 1 100 _).1⟩

end Room

end Fluvora.Domain
