import Fluvora.ControlStore.Outbox
import Fluvora.Lib.Runs

/-!
# Dispatchers of the outbox

Any number of event dispatchers, each under its own owner identifier, that claim rows of the outbox,
publish their envelopes, and acknowledge the rows or release them for a retry.  A dispatcher works on
one message at a time.  It may crash anywhere, and a statement may fail before or after the database
executes it.

`each_sound` says what holds in every run of them, with the table's own pruning, insertions and time.
-/

namespace Fluvora.EventDispatcher

open ControlStore Fallible LeaseLog

structure Config where
  batchSize : ℕ
  claimTtl : ℕ
  outboxRetention : ℕ
  outboxCleanupBatch : ℕ

structure EventEnvelope (α : Type) where
  schemaVersion : UInt16
  eventId : String
  outboxId : ℤ
  aggregateType : String
  aggregateId : String
  aggregateSequence : UInt64
  eventType : String
  payload : α

variable {α : Type}

def EventEnvelope.ofMessage (message : OutboxMessage α) : EventEnvelope α where
  schemaVersion := 1
  eventId := s!"outbox-{message.id}"
  outboxId := message.id
  aggregateType := message.aggregateType
  aggregateId := message.aggregateId
  aggregateSequence := message.aggregateSequence
  eventType := message.eventType
  payload := message.payload

/-- In nanoseconds. -/
def retryDelay (attempts : UInt32) : ℕ := 2 ^ min (attempts.toNat - 1) 6 * 1000000000

/-- The longest beginning of some bytes that does not break a character. -/
def takeBytes : ℕ → List Char → List Char
  | _, [] => []
  | maximum, c :: text => if c.utf8Size ≤ maximum then c :: takeBytes (maximum - c.utf8Size) text else []

def truncateError (value : String) (maximum : ℕ) : String :=
  String.ofList (takeBytes maximum value.toList)

/-! ## Dispatchers -/

/-- Where the publication of an event fails. -/
inductive PublishFailure
  | serialize
  | publish
  | awaitAcknowledgement

def PublishFailure.display : PublishFailure → String
  | .serialize => "serialize event envelope"
  | .publish => "publish event"
  | .awaitAcknowledgement => "await JetStream acknowledgement"

def leaseLost : String := "outbox lease ownership was lost"

def acknowledgeFailed : String := "acknowledge PostgreSQL outbox row"

/-- What a dispatcher is about to do with its message. -/
inductive Phase
  | publishing
  | acknowledging
  | retrying (error : String)

structure Dispatcher (α : Type) where
  batch : List (OutboxMessage α)
  current : Option (OutboxMessage α × Phase)

/-- A statement is not executed, or its answer is lost. -/
inductive Fault
  | unreached
  | unanswered

inductive Action (α : Type)
  | elapse (millis : ℕ)
  | insert (id : ℤ) (aggregateType aggregateId : String) (aggregateSequence : ℤ) (eventType : String)
      (payload : α)
  | prune (owner : String)
  | claim (owner : String) (locked : List ℤ) (fault : Option Fault)
  | begin (owner : String) (position : ℕ)
  | publish (owner : String) (failure : Option PublishFailure)
  | acknowledge (owner : String) (fault : Option Fault)
  | retry (owner : String) (fault : Option Fault)
  | crash (owner : String)

/-- The database with its clock, the dispatchers, and the envelopes that the broker has acknowledged. -/
structure System (α : Type) where
  outbox : Outbox α
  now : ℕ
  dispatchers : String → Dispatcher α
  acknowledged : List (EventEnvelope α)

def connectionLost : StoreError := .database "error communicating with database"

def execute {β : Type} (fault : Option Fault) (statement : Fallible (Outbox α) StoreError β) :
    Fallible (Outbox α) StoreError β :=
  match fault with
  | none => statement
  | some .unreached => fail connectionLost
  | some .unanswered => fun outbox => (.error connectionLost, (statement.run outbox).2)

namespace System

/-- Another state of one dispatcher. -/
def withDispatcher (s : System α) (owner : String) (dispatcher : Dispatcher α) : System α :=
  { s with dispatchers := Function.update s.dispatchers owner dispatcher }

/-- The dispatcher goes on to another phase, or is done with its message. -/
def withPhase (s : System α) (owner : String) (message : OutboxMessage α) (phase : Option Phase) :
    System α :=
  s.withDispatcher owner
    { s.dispatchers owner with current := phase.map fun phase => (message, phase) }

variable (config : String → Config)

/-- A dispatcher claims messages when it has none. -/
def claim (s : System α) (owner : String) (locked : List ℤ) (fault : Option Fault) : System α :=
  if (s.dispatchers owner).batch.isEmpty && (s.dispatchers owner).current.isNone then
    let (result, outbox) := (execute fault (Outbox.claimOutbox owner (config owner).batchSize
      (config owner).claimTtl s.now locked)).run s.outbox
    match result with
    | .ok messages => { s with outbox }.withDispatcher owner ⟨messages, none⟩
    | .error _ => { s with outbox }
  else s

/-- A dispatcher takes the next message of its batch; the order of a batch is not specified. -/
def begin (s : System α) (owner : String) (position : ℕ) : System α :=
  match (s.dispatchers owner).current, (s.dispatchers owner).batch[position]? with
  | none, some message => s.withDispatcher owner
      ⟨(s.dispatchers owner).batch.eraseIdx position, some (message, .publishing)⟩
  | _, _ => s

def publish (s : System α) (owner : String) (failure : Option PublishFailure) : System α :=
  match (s.dispatchers owner).current, failure with
  | some (message, .publishing), none =>
      { s with acknowledged := .ofMessage message :: s.acknowledged }.withPhase owner message
        (some .acknowledging)
  | some (message, .publishing), some failure =>
      s.withPhase owner message (some (.retrying failure.display))
  | _, _ => s

def acknowledge (s : System α) (owner : String) (fault : Option Fault) : System α :=
  match (s.dispatchers owner).current with
  | some (message, .acknowledging) =>
      let (result, outbox) :=
        (execute fault (Outbox.acknowledgeOutbox owner message.id s.now)).run s.outbox
      { s with outbox }.withPhase owner message (match result with
        | .ok true => none
        | .ok false => some (.retrying leaseLost)
        | .error _ => some (.retrying acknowledgeFailed))
  | _ => s

def retry (s : System α) (owner : String) (fault : Option Fault) : System α :=
  match (s.dispatchers owner).current with
  | some (message, .retrying error) =>
      { s with outbox := ((execute fault (Outbox.retryOutbox owner message.id
          (retryDelay message.attempts) (truncateError error 2048) s.now)).run s.outbox).2 }.withPhase
        owner message none
  | _ => s

def step (s : System α) : Action α → System α
  | .elapse millis => { s with now := s.now + millis }
  | .insert id aggregateType aggregateId aggregateSequence eventType payload =>
      { s with outbox := ((Outbox.insertOutbox id aggregateType aggregateId aggregateSequence eventType
          payload s.now).run s.outbox).2 }
  | .prune owner =>
      { s with outbox := ((Outbox.pruneDeliveredOutbox (config owner).outboxRetention
          (config owner).outboxCleanupBatch s.now).run s.outbox).2 }
  | .claim owner locked fault => s.claim config owner locked fault
  | .begin owner position => s.begin owner position
  | .publish owner failure => s.publish owner failure
  | .acknowledge owner fault => s.acknowledge owner fault
  | .retry owner fault => s.retry owner fault
  | .crash owner => s.withDispatcher owner ⟨[], none⟩

def initial (now : ℕ) : System α := ⟨⟨[], [], []⟩, now, fun _ => ⟨[], none⟩, []⟩

end System

/-! ## What is promised -/

/-- The envelope is the row's own. -/
structure Belongs (envelope : EventEnvelope α) (row : OutboxRow α) : Prop where
  outboxId : envelope.outboxId = row.id
  aggregateType : envelope.aggregateType = row.aggregateType
  aggregateId : envelope.aggregateId = row.aggregateId
  aggregateSequence : (envelope.aggregateSequence.toNat : ℤ) = row.aggregateSequence
  eventType : envelope.eventType = row.eventType
  payload : envelope.payload = row.payload

/-- What is promised of a state: of two leases of a row one has expired, and whoever does not hold a
row, since another has claimed it or it was settled, changes nothing with a statement about it. -/
structure Safe (s : System α) : Prop where
  exclusive : Exclusive s.now s.outbox.log
  acknowledge : ∀ owner id, holder id s.outbox.log ≠ some owner →
    ((Outbox.acknowledgeOutbox owner id s.now).run s.outbox).2.rows = s.outbox.rows
  retry : ∀ owner id, holder id s.outbox.log ≠ some owner → ∀ delay error,
    ((Outbox.retryOutbox owner id delay error s.now).run s.outbox).2.rows = s.outbox.rows

/-- What is promised of a step. -/
structure Delivers (config : String → Config) (s : System α) (action : Action α) : Prop where
  acknowledged : ∀ row ∈ (s.step config action).outbox.rows, row.deliveredAt ≠ none →
    (∃ row' ∈ s.outbox.rows, row'.id = row.id ∧ row'.deliveredAt = row.deliveredAt) ∨
      ∃ envelope ∈ s.acknowledged, Belongs envelope row
  stays : ∀ row ∈ s.outbox.rows, row.deliveredAt ≠ none →
    ∀ row' ∈ (s.step config action).outbox.rows, row'.id = row.id → row'.deliveredAt = row.deliveredAt
  kept : ∀ row ∈ s.outbox.rows, row.deliveredAt = none →
    ∃ row' ∈ (s.step config action).outbox.rows, Outbox.SameEvent row row'

/-! ## Messages and their rows -/

/-- Whatever row the message's identifier names is the one that the message was made of. -/
structure Carried (outbox : Outbox α) (message : OutboxMessage α) : Prop where
  issued : message.id ∈ outbox.issued
  belongs : ∀ row ∈ outbox.rows, row.id = message.id → Belongs (.ofMessage message) row

theorem Belongs.sameEvent {envelope : EventEnvelope α} {row other : OutboxRow α}
    (h : Belongs envelope row) (hsame : Outbox.SameEvent row other) : Belongs envelope other where
  outboxId := h.outboxId.trans hsame.id.symm
  aggregateType := h.aggregateType.trans hsame.aggregateType.symm
  aggregateId := h.aggregateId.trans hsame.aggregateId.symm
  aggregateSequence := h.aggregateSequence.trans hsame.aggregateSequence.symm
  eventType := h.eventType.trans hsame.eventType.symm
  payload := h.payload.trans hsame.payload.symm

theorem toNat_of_toU64 {value : ℤ} {field : String} {number : UInt64}
    (h : toU64 value field = .ok number) : (number.toNat : ℤ) = value := by
  unfold toU64 at h
  split_ifs at h with hrange
  cases h
  rw [UInt64.toNat_ofNat', Nat.mod_eq_of_lt]
  · exact Int.toNat_of_nonneg hrange.1
  · omega

theorem belongs_of_ofRow {row : OutboxRow α} {message : OutboxMessage α}
    (h : OutboxMessage.ofRow row = .ok message) :
    message.id = row.id ∧ Belongs (.ofMessage message) row := by
  unfold OutboxMessage.ofRow at h
  obtain ⟨sequence, hsequence, h⟩ := Results.bind_eq_ok.mp h
  split_ifs at h
  cases h
  exact ⟨rfl, rfl, rfl, rfl, toNat_of_toU64 hsequence, rfl, rfl⟩

theorem Carried.of_row {now : ℕ} {outbox : Outbox α} (h : outbox.Sound now) {row : OutboxRow α}
    {message : OutboxMessage α} (hrow : row ∈ outbox.rows)
    (hmessage : OutboxMessage.ofRow row = .ok message) : Carried outbox message := by
  obtain ⟨hid, hbelongs⟩ := belongs_of_ofRow hmessage
  refine ⟨hid ▸ h.issued row hrow, fun other hother hsame => ?_⟩
  rw [h.eq_of_id hother hrow (hsame.trans hid)]
  exact hbelongs

theorem Carried.follows {delivers : OutboxRow α → Prop} {before after : Outbox α}
    {message : OutboxMessage α} (h : Carried before message)
    (hfollows : Outbox.Follows delivers before after) : Carried after message := by
  refine ⟨hfollows.issued _ h.issued, fun row hrow hid => ?_⟩
  rcases hfollows.old row hrow with ⟨old, hold, hsame, -⟩ | ⟨hfresh, -⟩
  · exact (h.belongs old hold (hsame.id.symm.trans hid)).sameEvent hsame
  · exact absurd (hid ▸ h.issued) hfresh

/-- The rows whose envelopes the broker has acknowledged. -/
def Acknowledged (s : System α) (row : OutboxRow α) : Prop :=
  ∃ envelope ∈ s.acknowledged, Belongs envelope row

/-- What a dispatcher works on. -/
structure Working (outbox : Outbox α) (acknowledged : List (EventEnvelope α))
    (dispatcher : Dispatcher α) : Prop where
  batch : ∀ message ∈ dispatcher.batch, Carried outbox message
  current : ∀ message phase, dispatcher.current = some (message, phase) → Carried outbox message
  acknowledging : ∀ message, dispatcher.current = some (message, .acknowledging) →
    .ofMessage message ∈ acknowledged

structure Invariant (s : System α) : Prop where
  sound : s.outbox.Sound s.now
  working : ∀ owner, Working s.outbox s.acknowledged (s.dispatchers owner)

/-- The database goes on to another state of the table. -/
structure Moves (s : System α) (after : Outbox α) : Prop where
  sound : after.Sound s.now
  follows : Outbox.Follows (Acknowledged s) s.outbox after

section

variable {s : System α}

theorem Moves.refl (h : Invariant s) : Moves s s.outbox := ⟨h.sound, .refl _ _⟩

theorem Invariant.withOutbox (h : Invariant s) {after : Outbox α} (hmoves : Moves s after) :
    Invariant { s with outbox := after } where
  sound := hmoves.sound
  working owner :=
    { batch := fun message hmessage => ((h.working owner).batch message hmessage).follows hmoves.follows
      current := fun message phase hcurrent =>
        ((h.working owner).current message phase hcurrent).follows hmoves.follows
      acknowledging := (h.working owner).acknowledging }

theorem Invariant.withDispatcher (h : Invariant s) {owner : String} {dispatcher : Dispatcher α}
    (hworking : Working s.outbox s.acknowledged dispatcher) : Invariant (s.withDispatcher owner dispatcher) where
  sound := h.sound
  working other := by
    change Working s.outbox s.acknowledged (Function.update s.dispatchers owner dispatcher other)
    by_cases hother : other = owner
    · rw [hother, Function.update_self]
      exact hworking
    · rw [Function.update_of_ne hother]
      exact h.working other

/-- The dispatcher keeps its batch and goes on with its message. -/
theorem Invariant.withPhase (h : Invariant s) {owner : String} {message : OutboxMessage α}
    {phase : Option Phase} (hcarried : Carried s.outbox message)
    (hphase : phase = some .acknowledging → .ofMessage message ∈ s.acknowledged) :
    Invariant (s.withPhase owner message phase) := by
  refine h.withDispatcher ⟨(h.working owner).batch, fun other phase' hcurrent => ?_,
    fun other hcurrent => ?_⟩
  · obtain ⟨phase', -, hpair⟩ := Option.map_eq_some_iff.mp hcurrent
    cases hpair
    exact hcarried
  · obtain ⟨phase', hsome, hpair⟩ := Option.map_eq_some_iff.mp hcurrent
    cases hpair
    exact hphase hsome

/-! ## The statements -/

theorem execute_run {β : Type} (fault : Option Fault)
    (statement : Fallible (Outbox α) StoreError β) (outbox : Outbox α) :
    (execute fault statement).run outbox = statement.run outbox ∨
      ∃ error, (execute fault statement).run outbox = (.error error, outbox) ∨
        (execute fault statement).run outbox = (.error error, (statement.run outbox).2) := by
  cases fault with
  | none => exact .inl rfl
  | some fault =>
    cases fault with
    | unreached => exact .inr ⟨_, .inl rfl⟩
    | unanswered => exact .inr ⟨_, .inr rfl⟩

/-- A statement that may not be executed, or not be answered. -/
theorem Moves.execute {β : Type} (h : Invariant s) {statement : Fallible (Outbox α) StoreError β}
    (hmoves : Moves s (statement.run s.outbox).2) (fault : Option Fault) :
    Moves s ((EventDispatcher.execute fault statement).run s.outbox).2 := by
  rcases execute_run fault statement s.outbox with hrun | ⟨error, hrun | hrun⟩
  · rw [hrun]
    exact hmoves
  · rw [hrun]
    exact .refl h
  · rw [hrun]
    exact hmoves

theorem moves_claimOutbox (h : Invariant s) (owner : String) (maximumMessages leaseTtl : ℕ)
    (locked : List ℤ) :
    Moves s ((Outbox.claimOutbox owner maximumMessages leaseTtl s.now locked).run s.outbox).2 := by
  rcases Outbox.claimOutbox_run s.outbox owner maximumMessages leaseTtl s.now locked with
    ⟨error, hrun⟩ | ⟨expires, result, hrun, -⟩
  · rw [hrun]
    exact .refl h
  · rw [hrun]
    exact ⟨Outbox.sound_claimed h.sound maximumMessages locked owner expires,
      Outbox.follows_claimed _ s.outbox _ owner expires⟩

/-- The messages that are handed out are of rows of the table. -/
theorem carried_claimOutbox (h : Invariant s) {owner : String} {maximumMessages leaseTtl : ℕ}
    {locked : List ℤ} {messages : List (OutboxMessage α)} {after : Outbox α}
    (hrun : (Outbox.claimOutbox owner maximumMessages leaseTtl s.now locked).run s.outbox =
      (.ok messages, after)) {message : OutboxMessage α} (hmessage : message ∈ messages) :
    Carried after message := by
  have hmoves := moves_claimOutbox h owner maximumMessages leaseTtl locked
  rcases Outbox.claimOutbox_run s.outbox owner maximumMessages leaseTtl s.now locked with
    ⟨error, hfailed⟩ | ⟨expires, result, hclaimed, hmessages⟩
  · rw [hfailed] at hrun
    cases hrun
  · rw [hrun] at hclaimed hmoves
    cases hclaimed
    obtain ⟨row, hrow, hof⟩ := hmessages messages rfl message hmessage
    exact .of_row hmoves.sound hrow hof

theorem moves_acknowledgeOutbox (h : Invariant s) {owner : String} {message : OutboxMessage α}
    (hcarried : Carried s.outbox message) (hacknowledged : .ofMessage message ∈ s.acknowledged) :
    Moves s ((Outbox.acknowledgeOutbox owner message.id s.now).run s.outbox).2 := by
  rcases Outbox.updateHeld_run s.outbox owner message.id (Outbox.deliverRow s.now) with
    ⟨error, hrun⟩ | hrun
  · unfold Outbox.acknowledgeOutbox
    rw [hrun]
    exact .refl h
  · unfold Outbox.acknowledgeOutbox
    rw [hrun]
    refine ⟨Outbox.sound_settled h.sound (Outbox.settles_deliverRow s.now) message.id owner,
      Outbox.follows_settled (Outbox.settles_deliverRow s.now) s.outbox message.id owner ?_⟩
    intro row hrow hheld
    obtain ⟨hid, -, hpending⟩ := Outbox.isHeld_iff.mp hheld
    exact .inr ⟨hpending, _, hacknowledged, hcarried.belongs row hrow hid⟩

theorem moves_retryOutbox (h : Invariant s) (owner : String) (messageId : ℤ) (delay : ℕ)
    (error : String) :
    Moves s ((Outbox.retryOutbox owner messageId delay error s.now).run s.outbox).2 := by
  rcases Outbox.retryOutbox_run s.outbox owner messageId delay error s.now with ⟨e, hrun⟩ | hrun
  · rw [hrun]
    exact .refl h
  · rw [hrun]
    have hchange := Outbox.settles_releaseRow (α := α) (s.now + delay / 1000000) error
    exact ⟨Outbox.sound_settled h.sound hchange messageId owner,
      Outbox.follows_settled hchange s.outbox messageId owner fun _ _ _ => .inl rfl⟩

/-! ## Steps -/

variable (config : String → Config)

/-- A step keeps the invariant, and its statement is a move of the table. -/
theorem invariant_step (h : Invariant s) (action : Action α) :
    Invariant (s.step config action) ∧
      Outbox.Follows (Acknowledged s) s.outbox (s.step config action).outbox := by
  cases action with
  | elapse millis =>
    exact ⟨⟨h.sound.later (Nat.le_add_right _ _), h.working⟩, .refl _ _⟩
  | insert id aggregateType aggregateId aggregateSequence eventType payload =>
    obtain ⟨hsound, hfollows⟩ := Outbox.sound_insertOutbox h.sound id aggregateType aggregateId
      aggregateSequence eventType payload s.now (Acknowledged s)
    exact ⟨h.withOutbox ⟨hsound, hfollows⟩, hfollows⟩
  | prune owner =>
    obtain ⟨hsound, hfollows⟩ := Outbox.sound_pruneDeliveredOutbox h.sound
      (config owner).outboxRetention (config owner).outboxCleanupBatch s.now (Acknowledged s)
    exact ⟨h.withOutbox ⟨hsound, hfollows⟩, hfollows⟩
  | claim owner locked fault =>
    unfold System.step System.claim
    dsimp only
    split_ifs
    swap
    · exact ⟨h, .refl _ _⟩
    have hmoves := Moves.execute h (moves_claimOutbox h owner (config owner).batchSize
      (config owner).claimTtl locked) fault
    have hanswer := execute_run fault (Outbox.claimOutbox owner (config owner).batchSize
      (config owner).claimTtl s.now locked) s.outbox
    generalize hrun : (execute fault (Outbox.claimOutbox owner (config owner).batchSize
      (config owner).claimTtl s.now locked)).run s.outbox = answer at hmoves hanswer
    obtain ⟨result, after⟩ := answer
    cases result with
    | error error => exact ⟨h.withOutbox hmoves, hmoves.follows⟩
    | ok messages =>
      refine ⟨(h.withOutbox hmoves).withDispatcher ⟨fun message hmessage => ?_, nofun, nofun⟩,
        hmoves.follows⟩
      rcases hanswer with hclaimed | ⟨error, hfailed | hfailed⟩
      · exact carried_claimOutbox h hclaimed.symm hmessage
      · cases hfailed
      · cases hfailed
  | begin owner position =>
    unfold System.step System.begin
    dsimp only
    cases hcurrent : (s.dispatchers owner).current with
    | some working => exact ⟨h, .refl _ _⟩
    | none =>
      cases hmessage : (s.dispatchers owner).batch[position]? with
      | none => exact ⟨h, .refl _ _⟩
      | some message =>
        have hcarried := (h.working owner).batch message (List.mem_of_getElem? hmessage)
        refine ⟨h.withDispatcher ⟨fun other hother => ?_, fun other phase hother => ?_, nofun⟩,
          .refl _ _⟩
        · exact (h.working owner).batch other (List.mem_of_mem_eraseIdx hother)
        · cases hother
          exact hcarried
  | publish owner failure =>
    unfold System.step System.publish
    dsimp only
    match hcurrent : (s.dispatchers owner).current with
    | none => exact ⟨h, .refl _ _⟩
    | some (message, .acknowledging) => exact ⟨h, .refl _ _⟩
    | some (message, .retrying error) => exact ⟨h, .refl _ _⟩
    | some (message, .publishing) =>
      have hcarried := (h.working owner).current message _ hcurrent
      cases failure with
      | some failure => exact ⟨h.withPhase hcarried nofun, .refl _ _⟩
      | none =>
        have hpublished : Invariant { s with
            acknowledged := .ofMessage message :: s.acknowledged } :=
          ⟨h.sound, fun other => ⟨(h.working other).batch, (h.working other).current,
            fun message hcurrent => List.mem_cons_of_mem _
              ((h.working other).acknowledging message hcurrent)⟩⟩
        exact ⟨hpublished.withPhase hcarried fun _ => List.mem_cons_self, .refl _ _⟩
  | acknowledge owner fault =>
    unfold System.step System.acknowledge
    dsimp only
    match hcurrent : (s.dispatchers owner).current with
    | none => exact ⟨h, .refl _ _⟩
    | some (message, .publishing) => exact ⟨h, .refl _ _⟩
    | some (message, .retrying error) => exact ⟨h, .refl _ _⟩
    | some (message, .acknowledging) =>
      have hcarried := (h.working owner).current message _ hcurrent
      have hacknowledged := (h.working owner).acknowledging message hcurrent
      have hacknowledge := @moves_acknowledgeOutbox _ _ h owner _ hcarried hacknowledged
      have hmoves := Moves.execute h hacknowledge fault
      refine ⟨(h.withOutbox hmoves).withPhase (hcarried.follows hmoves.follows) fun _ =>
        hacknowledged, hmoves.follows⟩
  | retry owner fault =>
    unfold System.step System.retry
    dsimp only
    match hcurrent : (s.dispatchers owner).current with
    | none => exact ⟨h, .refl _ _⟩
    | some (message, .publishing) => exact ⟨h, .refl _ _⟩
    | some (message, .acknowledging) => exact ⟨h, .refl _ _⟩
    | some (message, .retrying error) =>
      have hcarried := (h.working owner).current message _ hcurrent
      have hmoves := Moves.execute h (moves_retryOutbox h owner message.id
        (retryDelay message.attempts) (truncateError error 2048)) fault
      exact ⟨(h.withOutbox hmoves).withPhase (hcarried.follows hmoves.follows) nofun, hmoves.follows⟩
  | crash owner =>
    exact ⟨h.withDispatcher ⟨nofun, nofun, nofun⟩, .refl _ _⟩

theorem safe_of_invariant (h : Invariant s) : Safe s where
  exclusive := h.sound.exclusive
  acknowledge owner id hholder := by
    unfold Outbox.acknowledgeOutbox
    rcases Outbox.updateHeld_run s.outbox owner id (Outbox.deliverRow s.now) with ⟨error, hrun⟩ | hrun
    · rw [hrun]
    · rw [hrun]
      exact Outbox.settled_rows h.sound hholder _
  retry owner id hholder delay error := by
    rcases Outbox.retryOutbox_run s.outbox owner id delay error s.now with ⟨e, hrun⟩ | hrun
    · rw [hrun]
    · rw [hrun]
      exact Outbox.settled_rows h.sound hholder _

theorem delivers_of_invariant (h : Invariant s) (action : Action α) : Delivers config s action := by
  obtain ⟨-, hfollows⟩ := invariant_step config h action
  refine ⟨fun row hrow hdelivered => ?_, fun row hrow hdelivered other hother hid => ?_, hfollows.kept⟩
  · rcases hfollows.old row hrow with ⟨old, hold, hsame, hstays | ⟨-, hacknowledged⟩⟩ | ⟨-, hpending⟩
    · exact .inl ⟨old, hold, hsame.id.symm, hstays.symm⟩
    · obtain ⟨envelope, henvelope, hbelongs⟩ := hacknowledged
      exact .inr ⟨envelope, henvelope, hbelongs.sameEvent hsame⟩
    · exact absurd hpending hdelivered
  · rcases hfollows.old other hother with ⟨old, hold, hsame, hstays⟩ | ⟨hfresh, -⟩
    · have hrowold := h.sound.eq_of_id hold hrow (hsame.id.symm.trans hid)
      rw [hrowold] at hstays
      rcases hstays with hstays | ⟨hpending, -⟩
      · exact hstays
      · exact absurd hpending hdelivered
    · exact absurd (hid ▸ h.sound.issued row hrow) hfresh

theorem invariant_initial (now : ℕ) : Invariant (System.initial (α := α) now) where
  sound := ⟨List.nodup_nil, nofun, nofun, nofun, fun _ _ => ⟨rfl, nofun⟩, List.Pairwise.nil⟩
  working _ := ⟨nofun, nofun, nofun⟩

/-- In every run a row is delivered only after its own envelope was acknowledged and stays so, what is
pending is never deleted, leases of a row exclude each other, and a statement of an owner that does not
hold the row changes nothing. -/
theorem each_delivers (now : ℕ) (actions : List (Action α)) :
    Runs.Always (System.step config) Safe (System.initial now) actions ∧
      Runs.Each (System.step config) (Delivers config) (System.initial now) actions := by
  have halways : Runs.Always (System.step config) Invariant (System.initial now) actions :=
    Runs.always_of_step (I := Invariant) (s := System.initial now)
      (fun s action h => (invariant_step config h action).1) (invariant_initial now) actions
  have hany : Runs.Each (System.step config) (fun _ _ => True) (System.initial now) actions :=
    Runs.each_of_forall (fun _ _ => trivial) _
  exact ⟨halways.imp fun s => safe_of_invariant, Runs.Each.of_always
    (fun s action h _ => delivers_of_invariant config h action) halways hany⟩

end

/-- A row that is published and acknowledged is delivered. -/
example : (([.insert 1 "room" "lobby" 1 "chat.sent" (), .claim "a" [] none, .begin "a" 0,
    .publish "a" none, .acknowledge "a" none].foldl
      (System.step fun _ => ⟨100, 30000000000, 604800000000000, 10000⟩)
      (System.initial 1000)).outbox.rows.map (·.deliveredAt)) = [some 1000] := by
  decide +kernel

end Fluvora.EventDispatcher
