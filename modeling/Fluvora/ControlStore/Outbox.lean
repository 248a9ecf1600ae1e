import Fluvora.ControlStore.Validation
import Fluvora.Lib.Fallible
import Fluvora.Lib.Leases
import Fluvora.Lib.Results

/-!
# The outbox

The table `fluvora_outbox` of the control store and the statements on it: `claim_outbox`,
`acknowledge_outbox`, `retry_outbox`, `prune_delivered_outbox` and the insertion of a row.  A statement
is executed as one step; the database's clock, in milliseconds, and the rows that other transactions
have locked are inputs.  What the statements do is also written to a log, which none of them reads.
-/

namespace Fluvora.ControlStore

open Fallible LeaseLog

structure OutboxRow (α : Type) where
  id : ℤ
  aggregateType : String
  aggregateId : String
  aggregateSequence : ℤ
  eventType : String
  payload : α
  availableAt : ℕ
  leaseOwner : Option String
  leaseUntil : Option ℕ
  deliveredAt : Option ℕ
  attempts : ℕ
  lastError : Option String

structure OutboxMessage (α : Type) where
  id : ℤ
  aggregateType : String
  aggregateId : String
  aggregateSequence : UInt64
  eventType : String
  payload : α
  attempts : UInt32

/-- The table, the identifiers that its sequence has given out, and the log of its leases. -/
structure Outbox (α : Type) where
  rows : List (OutboxRow α)
  issued : List ℤ
  log : List (LeaseLog.Event ℤ String)

/-- The bound of an `integer` column. -/
def integerBound : ℕ := 2 ^ 31

def toU64 (value : ℤ) (field : String) : Except StoreError UInt64 :=
  if 0 ≤ value ∧ value < 2 ^ 64 then .ok (UInt64.ofNat value.toNat) else .error (.numericRange field)

variable {α : Type}

def OutboxMessage.ofRow (row : OutboxRow α) : Except StoreError (OutboxMessage α) := do
  let aggregateSequence ← toU64 row.aggregateSequence "aggregate sequence"
  if row.attempts < integerBound then
    return { id := row.id, aggregateType := row.aggregateType, aggregateId := row.aggregateId,
             aggregateSequence, eventType := row.eventType, payload := row.payload,
             attempts := UInt32.ofNat row.attempts }
  else .error (.numericRange "outbox attempts")

namespace Outbox

/-! ## Claims -/

/-- The rows that may be leased. -/
def isPending (now : ℕ) (row : OutboxRow α) : Bool :=
  row.deliveredAt.isNone && decide (row.availableAt ≤ now) && row.leaseUntil.all (· ≤ now)

/-- The first of some rows by their identifiers. -/
def firstIds (limit : ℕ) (rows : List (OutboxRow α)) : List ℤ :=
  ((rows.map (·.id)).mergeSort (· ≤ ·)).take limit

def selectPending (now limit : ℕ) (locked : List ℤ) (rows : List (OutboxRow α)) : List ℤ :=
  firstIds limit (rows.filter fun row => isPending now row && !locked.contains row.id)

def claimRow (owner : String) (expires : ℕ) (row : OutboxRow α) : OutboxRow α :=
  { row with leaseOwner := some owner, leaseUntil := some expires, attempts := row.attempts + 1 }

def claimOutbox (owner : String) (maximumMessages leaseTtl now : ℕ) (locked : List ℤ) :
    Fallible (Outbox α) StoreError (List (OutboxMessage α)) := do
  ofExcept (validateBoundedText owner "outbox owner" 256)
  ensure (1 ≤ maximumMessages ∧ maximumMessages ≤ 1000) (.invalidBatchSize maximumMessages)
  ensure (1000 ≤ leaseTtl / 1000000 ∧ leaseTtl / 1000000 ≤ 300000)
    (.invalidLeaseTtl (leaseTtl / 1000000))
  let outbox ← get
  let selected := selectPending now maximumMessages locked outbox.rows
  let expires := now + leaseTtl / 1000000
  ensure (∀ row ∈ outbox.rows, row.id ∈ selected → row.attempts + 1 < integerBound)
    (.database "error returned from database: integer out of range")
  let rows := outbox.rows.map fun row =>
    if row.id ∈ selected then claimRow owner expires row else row
  set { outbox with rows, log := claimAll selected owner expires outbox.log }
  ofExcept ((rows.filter fun row => row.id ∈ selected).mapM OutboxMessage.ofRow)

/-! ## Acknowledgements and retries -/

/-- The condition of both statements. -/
def isHeld (owner : String) (messageId : ℤ) (row : OutboxRow α) : Bool :=
  decide (row.id = messageId) && decide (row.leaseOwner = some owner) && row.deliveredAt.isNone

/-- An update of the row that the owner holds; it tells whether it has found that row. -/
def updateHeld (owner : String) (messageId : ℤ) (change : OutboxRow α → OutboxRow α) :
    Fallible (Outbox α) StoreError Bool := do
  ofExcept (validateBoundedText owner "outbox owner" 256)
  ensure (0 < messageId) (.invalidOutboxId messageId)
  let outbox ← get
  set { outbox with
    rows := outbox.rows.map fun row => if isHeld owner messageId row then change row else row
    log := .settled messageId owner :: outbox.log }
  return outbox.rows.countP (isHeld owner messageId) = 1

def deliverRow (now : ℕ) (row : OutboxRow α) : OutboxRow α :=
  { row with deliveredAt := some now, leaseOwner := none, leaseUntil := none, lastError := none }

def acknowledgeOutbox (owner : String) (messageId : ℤ) (now : ℕ) :
    Fallible (Outbox α) StoreError Bool :=
  updateHeld owner messageId (deliverRow now)

def releaseRow (availableAt : ℕ) (error : String) (row : OutboxRow α) : OutboxRow α :=
  { row with availableAt, leaseOwner := none, leaseUntil := none, lastError := some error }

def retryOutbox (owner : String) (messageId : ℤ) (delay : ℕ) (error : String) (now : ℕ) :
    Fallible (Outbox α) StoreError Bool := do
  ofExcept (validateBoundedText owner "outbox owner" 256)
  ofExcept (validateBoundedText error "outbox error" 2048)
  ensure (0 < messageId) (.invalidOutboxId messageId)
  ensure (delay / 1000000 ≤ 3600000) (.invalidRetryDelay (delay / 1000000))
  updateHeld owner messageId (releaseRow (now + delay / 1000000) error)

/-! ## Pruning and insertion -/

def isPrunable (retentionMillis now : ℕ) (row : OutboxRow α) : Bool :=
  row.deliveredAt.any fun deliveredAt => deliveredAt + retentionMillis < now

def pruneDeliveredOutbox (retention maximumMessages now : ℕ) :
    Fallible (Outbox α) StoreError ℕ := do
  ensure (3600000 ≤ retention / 1000000 ∧ retention / 1000000 ≤ 31536000000)
    (.invalidOutboxRetention (retention / 1000000))
  ensure (1 ≤ maximumMessages ∧ maximumMessages ≤ 10000) (.invalidBatchSize maximumMessages)
  let outbox ← get
  let expired := firstIds maximumMessages
    (outbox.rows.filter (isPrunable (retention / 1000000) now))
  set { outbox with rows := outbox.rows.filter fun row => row.id ∉ expired }
  return expired.length

/-- A row is inserted with an identifier that the sequence has not given out before. -/
def insertOutbox (id : ℤ) (aggregateType aggregateId : String) (aggregateSequence : ℤ)
    (eventType : String) (payload : α) (now : ℕ) : Fallible (Outbox α) StoreError Unit := do
  let outbox ← get
  ensure (id ∉ outbox.issued) (.database "error returned from database: duplicate key value")
  ensure (∀ row ∈ outbox.rows, ¬ (row.aggregateType = aggregateType ∧ row.aggregateId = aggregateId ∧
      row.aggregateSequence = aggregateSequence ∧ row.eventType = eventType))
    (.database "error returned from database: duplicate key value")
  set { outbox with
    rows := outbox.rows ++ [{ id, aggregateType, aggregateId, aggregateSequence, eventType, payload,
                              availableAt := now, leaseOwner := none, leaseUntil := none,
                              deliveredAt := none, attempts := 0, lastError := none }]
    issued := id :: outbox.issued }

/-! ## What a statement does to the rows -/

/-- The two rows are of one event. -/
structure SameEvent (row other : OutboxRow α) : Prop where
  id : other.id = row.id
  aggregateType : other.aggregateType = row.aggregateType
  aggregateId : other.aggregateId = row.aggregateId
  aggregateSequence : other.aggregateSequence = row.aggregateSequence
  eventType : other.eventType = row.eventType
  payload : other.payload = row.payload

theorem SameEvent.refl (row : OutboxRow α) : SameEvent row row := ⟨rfl, rfl, rfl, rfl, rfl, rfl⟩

/-- Rows keep their events, only some rows become delivered, only delivered rows are deleted, and new
rows are pending. -/
structure Follows (delivers : OutboxRow α → Prop) (before after : Outbox α) : Prop where
  issued : ∀ id ∈ before.issued, id ∈ after.issued
  old : ∀ row ∈ after.rows, (∃ row' ∈ before.rows, SameEvent row' row ∧
    (row.deliveredAt = row'.deliveredAt ∨ row'.deliveredAt = none ∧ delivers row')) ∨
      row.id ∉ before.issued ∧ row.deliveredAt = none
  kept : ∀ row ∈ before.rows, row.deliveredAt = none → ∃ row' ∈ after.rows, SameEvent row row'

theorem Follows.refl (delivers : OutboxRow α → Prop) (outbox : Outbox α) :
    Follows delivers outbox outbox where
  issued _ hid := hid
  old row hrow := .inl ⟨row, hrow, .refl row, .inl rfl⟩
  kept row hrow _ := ⟨row, hrow, .refl row⟩

/-- An update of the rows where they are. -/
theorem follows_map {delivers : OutboxRow α → Prop} {before after : Outbox α}
    {change : OutboxRow α → OutboxRow α} (hrows : after.rows = before.rows.map change)
    (hissued : after.issued = before.issued) (hsame : ∀ row ∈ before.rows, SameEvent row (change row))
    (hdelivers : ∀ row ∈ before.rows, (change row).deliveredAt = row.deliveredAt ∨
      row.deliveredAt = none ∧ delivers row) :
    Follows delivers before after where
  issued id hid := hissued ▸ hid
  old row hrow := by
    rw [hrows] at hrow
    obtain ⟨row', hrow', rfl⟩ := List.mem_map.mp hrow
    exact .inl ⟨row', hrow', hsame row' hrow', hdelivers row' hrow'⟩
  kept row hrow _ := ⟨change row, hrows ▸ List.mem_map_of_mem hrow, hsame row hrow⟩

/-- What holds of the table at any time of the database's clock. -/
structure Sound (now : ℕ) (outbox : Outbox α) : Prop where
  distinct : (outbox.rows.map (·.id)).Nodup
  issued : ∀ row ∈ outbox.rows, row.id ∈ outbox.issued
  agrees : ∀ row ∈ outbox.rows, Agrees now outbox.log row.id row.leaseOwner row.leaseUntil
  delivered : ∀ row ∈ outbox.rows, row.deliveredAt ≠ none → row.leaseOwner = none
  unclaimed : ∀ id, id ∉ outbox.issued → Unclaimed outbox.log id
  exclusive : Exclusive now outbox.log

section

variable {now : ℕ} {outbox : Outbox α}

theorem Sound.later {time : ℕ} (h : Sound now outbox) (hlater : now ≤ time) : Sound time outbox :=
  ⟨h.distinct, h.issued, fun row hrow => (h.agrees row hrow).later hlater, h.delivered,
    h.unclaimed, h.exclusive.later hlater⟩

theorem Sound.eq_of_id (h : Sound now outbox) {row other : OutboxRow α} (hrow : row ∈ outbox.rows)
    (hother : other ∈ outbox.rows) (hid : row.id = other.id) : row = other :=
  List.inj_on_of_nodup_map h.distinct hrow hother hid

/-! ### Claims -/

theorem mem_firstIds {limit : ℕ} {rows : List (OutboxRow α)} {id : ℤ} (h : id ∈ firstIds limit rows) :
    ∃ row ∈ rows, row.id = id :=
  List.mem_map.mp (List.mem_mergeSort.mp (List.mem_of_mem_take h))

theorem nodup_firstIds (limit : ℕ) {rows : List (OutboxRow α)} (h : (rows.map (·.id)).Nodup) :
    (firstIds limit rows).Nodup :=
  ((List.mergeSort_perm _ _).nodup_iff.mpr h).sublist (List.take_sublist _ _)

theorem nodup_selectPending (h : Sound now outbox) (limit : ℕ) (locked : List ℤ) :
    (selectPending now limit locked outbox.rows).Nodup :=
  nodup_firstIds limit (h.distinct.sublist (List.filter_sublist.map _))

theorem isPending_of_mem (h : Sound now outbox) {limit : ℕ} {locked : List ℤ} {row : OutboxRow α}
    (hrow : row ∈ outbox.rows) (hmem : row.id ∈ selectPending now limit locked outbox.rows) :
    isPending now row = true := by
  obtain ⟨other, hother, hid⟩ := mem_firstIds hmem
  obtain ⟨hother, hpending⟩ := List.mem_filter.mp hother
  rw [← h.eq_of_id hother hrow hid]
  exact (Bool.and_eq_true_iff.mp hpending).1

/-- The table after a claim. -/
def claimed (outbox : Outbox α) (selected : List ℤ) (owner : String) (expires : ℕ) : Outbox α :=
  { outbox with
    rows := outbox.rows.map fun row => if row.id ∈ selected then claimRow owner expires row else row
    log := claimAll selected owner expires outbox.log }

theorem mem_of_mapM {rows : List (OutboxRow α)} {messages : List (OutboxMessage α)}
    (h : rows.mapM OutboxMessage.ofRow = .ok messages) {message : OutboxMessage α}
    (hmessage : message ∈ messages) : ∃ row ∈ rows, OutboxMessage.ofRow row = .ok message := by
  induction rows generalizing messages with
  | nil =>
    cases h
    cases hmessage
  | cons first rows ih =>
    rw [List.mapM_cons] at h
    obtain ⟨head, hhead, h⟩ := Results.bind_eq_ok.mp h
    obtain ⟨tail, htail, h⟩ := Results.bind_eq_ok.mp h
    cases h
    rcases List.mem_cons.mp hmessage with rfl | hmem
    · exact ⟨first, List.mem_cons_self, hhead⟩
    · obtain ⟨row, hrow, hof⟩ := ih htail hmem
      exact ⟨row, List.mem_cons_of_mem _ hrow, hof⟩

/-- A claim fails, or leases rows and hands them out. -/
theorem claimOutbox_run (outbox : Outbox α) (owner : String) (maximumMessages leaseTtl now : ℕ)
    (locked : List ℤ) :
    (∃ error, (claimOutbox owner maximumMessages leaseTtl now locked).run outbox =
        (.error error, outbox)) ∨
      ∃ expires result, (claimOutbox owner maximumMessages leaseTtl now locked).run outbox =
          (result, claimed outbox (selectPending now maximumMessages locked outbox.rows) owner expires) ∧
        ∀ messages, result = .ok messages → ∀ message ∈ messages,
          ∃ row ∈ (claimed outbox (selectPending now maximumMessages locked outbox.rows) owner
            expires).rows, OutboxMessage.ofRow row = .ok message := by
  unfold claimOutbox
  rw [run_ofExcept_bind]
  cases validateBoundedText owner "outbox owner" 256 with
  | error error => exact .inl ⟨error, rfl⟩
  | ok =>
  dsimp only
  rw [run_ensure_bind]
  split_ifs
  swap
  · exact .inl ⟨_, rfl⟩
  rw [run_ensure_bind]
  split_ifs
  swap
  · exact .inl ⟨_, rfl⟩
  rw [run_get_bind, run_ensure_bind]
  split_ifs
  swap
  · exact .inl ⟨_, rfl⟩
  rw [run_set_bind, run_ofExcept]
  refine .inr ⟨_, _, rfl, fun messages hmessages message hmem => ?_⟩
  obtain ⟨row, hrow, hof⟩ := mem_of_mapM hmessages hmem
  exact ⟨row, (List.mem_filter.mp hrow).1, hof⟩

theorem sameEvent_claimed (selected : List ℤ) (owner : String) (expires : ℕ) (row : OutboxRow α) :
    SameEvent row (if row.id ∈ selected then claimRow owner expires row else row) := by
  split_ifs
  · exact ⟨rfl, rfl, rfl, rfl, rfl, rfl⟩
  · exact .refl row

theorem follows_claimed (delivers : OutboxRow α → Prop) (outbox : Outbox α) (selected : List ℤ)
    (owner : String) (expires : ℕ) :
    Follows delivers outbox (claimed outbox selected owner expires) :=
  follows_map rfl rfl (fun row _ => sameEvent_claimed selected owner expires row) fun row _ => by
    split_ifs
    · exact .inl rfl
    · exact .inl rfl

theorem map_id_claimed (outbox : Outbox α) (selected : List ℤ) (owner : String) (expires : ℕ) :
    (claimed outbox selected owner expires).rows.map (·.id) = outbox.rows.map (·.id) := by
  unfold claimed
  rw [List.map_map]
  exact List.map_congr_left fun row _ => (sameEvent_claimed selected owner expires row).id

theorem sound_claimed (h : Sound now outbox) (limit : ℕ) (locked : List ℤ) (owner : String)
    (expires : ℕ) :
    Sound now (claimed outbox (selectPending now limit locked outbox.rows) owner expires) := by
  have hpassed : ∀ row ∈ outbox.rows, row.id ∈ selectPending now limit locked outbox.rows →
      ∀ time ∈ row.leaseUntil, time ≤ now := by
    intro row hrow hmem time htime
    have hpending := (Bool.and_eq_true_iff.mp (isPending_of_mem h hrow hmem)).2
    rw [Option.mem_def.mp htime] at hpending
    exact of_decide_eq_true hpending
  refine ⟨by rw [map_id_claimed]; exact h.distinct, ?_, ?_, ?_, ?_, ?_⟩
  · intro row hrow
    obtain ⟨old, hold, rfl⟩ := List.mem_map.mp hrow
    rw [(sameEvent_claimed _ owner expires old).id]
    exact h.issued old hold
  · intro row hrow
    obtain ⟨old, hold, rfl⟩ := List.mem_map.mp hrow
    by_cases hmem : old.id ∈ selectPending now limit locked outbox.rows
    · rw [if_pos hmem]
      exact (h.agrees old hold).claimed (hpassed old hold hmem) hmem
    · rw [if_neg hmem]
      exact (h.agrees old hold).claimed_other hmem
  · intro row hrow hdelivered
    obtain ⟨old, hold, rfl⟩ := List.mem_map.mp hrow
    split_ifs at hdelivered ⊢ with hmem
    · have hpending := (Bool.and_eq_true_iff.mp (isPending_of_mem h hold hmem)).1
      have hnone := Option.isNone_iff_eq_none.mp (Bool.and_eq_true_iff.mp hpending).1
      exact absurd hnone hdelivered
    · exact h.delivered old hold hdelivered
  · intro id hid
    refine (h.unclaimed id hid).claimed fun hmem => hid ?_
    obtain ⟨row, hrow, rfl⟩ := mem_firstIds hmem
    exact h.issued row (List.mem_filter.mp hrow).1
  · refine h.exclusive.claimed (nodup_selectPending h limit locked) fun id hmem lease hlease hitem => ?_
    obtain ⟨row, hrow, rfl⟩ := mem_firstIds hmem
    have hrow := (List.mem_filter.mp hrow).1
    exact (h.agrees row hrow).expired (hpassed row hrow hmem) hlease hitem

/-! ### Acknowledgements and retries -/

/-- The table after an acknowledgement or a retry. -/
def settled (outbox : Outbox α) (messageId : ℤ) (owner : String)
    (change : OutboxRow α → OutboxRow α) : Outbox α :=
  { outbox with
    rows := outbox.rows.map fun row => if isHeld owner messageId row then change row else row
    log := .settled messageId owner :: outbox.log }

theorem updateHeld_run (outbox : Outbox α) (owner : String) (messageId : ℤ)
    (change : OutboxRow α → OutboxRow α) :
    (∃ error, (updateHeld owner messageId change).run outbox = (.error error, outbox)) ∨
      (updateHeld owner messageId change).run outbox =
        (.ok (outbox.rows.countP (isHeld owner messageId) = 1),
          settled outbox messageId owner change) := by
  unfold updateHeld
  rw [run_ofExcept_bind]
  cases validateBoundedText owner "outbox owner" 256 with
  | error error => exact .inl ⟨error, rfl⟩
  | ok =>
  dsimp only
  rw [run_ensure_bind]
  split_ifs
  · exact .inr rfl
  · exact .inl ⟨_, rfl⟩

theorem retryOutbox_run (outbox : Outbox α) (owner : String) (messageId : ℤ) (delay : ℕ)
    (error : String) (now : ℕ) :
    (∃ e, (retryOutbox owner messageId delay error now).run outbox = (.error e, outbox)) ∨
      (retryOutbox owner messageId delay error now).run outbox =
        (.ok (outbox.rows.countP (isHeld owner messageId) = 1),
          settled outbox messageId owner (releaseRow (now + delay / 1000000) error)) := by
  unfold retryOutbox
  rw [run_ofExcept_bind]
  cases validateBoundedText owner "outbox owner" 256 with
  | error error => exact .inl ⟨error, rfl⟩
  | ok =>
  dsimp only
  rw [run_ofExcept_bind]
  cases validateBoundedText error "outbox error" 2048 with
  | error error => exact .inl ⟨error, rfl⟩
  | ok =>
  dsimp only
  rw [run_ensure_bind]
  split_ifs
  swap
  · exact .inl ⟨_, rfl⟩
  rw [run_ensure_bind]
  split_ifs
  · exact updateHeld_run outbox owner messageId _
  · exact .inl ⟨_, rfl⟩

theorem isHeld_iff {owner : String} {messageId : ℤ} {row : OutboxRow α} :
    isHeld owner messageId row = true ↔
      row.id = messageId ∧ row.leaseOwner = some owner ∧ row.deliveredAt = none := by
  unfold isHeld
  rw [Bool.and_eq_true_iff, Bool.and_eq_true_iff, decide_eq_true_iff, decide_eq_true_iff,
    Option.isNone_iff_eq_none, and_assoc]

/-- A change of a row that is settled: the event stays, and the lease is gone. -/
structure Settles (change : OutboxRow α → OutboxRow α) : Prop where
  same : ∀ row, SameEvent row (change row)
  owner : ∀ row, (change row).leaseOwner = none
  expires : ∀ row, (change row).leaseUntil = none

theorem settles_deliverRow (now : ℕ) : Settles (deliverRow (α := α) now) :=
  ⟨fun _ => ⟨rfl, rfl, rfl, rfl, rfl, rfl⟩, fun _ => rfl, fun _ => rfl⟩

theorem settles_releaseRow (availableAt : ℕ) (error : String) :
    Settles (releaseRow (α := α) availableAt error) :=
  ⟨fun _ => ⟨rfl, rfl, rfl, rfl, rfl, rfl⟩, fun _ => rfl, fun _ => rfl⟩

theorem Settles.sameEvent {change : OutboxRow α → OutboxRow α} (hchange : Settles change)
    (owner : String) (messageId : ℤ) (row : OutboxRow α) :
    SameEvent row (if isHeld owner messageId row then change row else row) := by
  split_ifs
  · exact hchange.same row
  · exact .refl row

theorem sound_settled (h : Sound now outbox) {change : OutboxRow α → OutboxRow α}
    (hchange : Settles change) (messageId : ℤ) (owner : String) :
    Sound now (settled outbox messageId owner change) := by
  have hsame := hchange.sameEvent owner messageId
  have hids : (settled outbox messageId owner change).rows.map (·.id) = outbox.rows.map (·.id) := by
    unfold settled
    rw [List.map_map]
    exact List.map_congr_left fun row _ => (hsame row).id
  refine ⟨by rw [hids]; exact h.distinct, ?_, ?_, ?_, fun id hid => (h.unclaimed id hid).settled,
    h.exclusive.settled⟩
  · intro row hrow
    obtain ⟨old, hold, rfl⟩ := List.mem_map.mp hrow
    rw [(hsame old).id]
    exact h.issued old hold
  · intro row hrow
    obtain ⟨old, hold, rfl⟩ := List.mem_map.mp hrow
    have hagrees := h.agrees old hold
    by_cases hheld : isHeld owner messageId old = true
    · obtain ⟨rfl, howner, -⟩ := isHeld_iff.mp hheld
      rw [if_pos hheld, hchange.owner, hchange.expires, (hchange.same old).id]
      rw [howner] at hagrees
      exact hagrees.settled
    · rw [if_neg hheld]
      refine hagrees.settled_other fun hid howner => hheld (isHeld_iff.mpr ⟨hid.symm, howner, ?_⟩)
      by_contra hdelivered
      have hnone := h.delivered old hold hdelivered
      rw [howner] at hnone
      cases hnone
  · intro row hrow hdelivered
    obtain ⟨old, hold, rfl⟩ := List.mem_map.mp hrow
    split_ifs at hdelivered ⊢
    · exact hchange.owner old
    · exact h.delivered old hold hdelivered

theorem follows_settled {change : OutboxRow α → OutboxRow α} (hchange : Settles change)
    {delivers : OutboxRow α → Prop} (outbox : Outbox α) (messageId : ℤ) (owner : String)
    (hdelivers : ∀ row ∈ outbox.rows, isHeld owner messageId row = true →
      (change row).deliveredAt = row.deliveredAt ∨ row.deliveredAt = none ∧ delivers row) :
    Follows delivers outbox (settled outbox messageId owner change) :=
  follows_map rfl rfl (fun row _ => hchange.sameEvent owner messageId row) fun row hrow => by
    split_ifs with hheld
    · exact hdelivers row hrow hheld
    · exact .inl rfl

/-- Whoever does not hold a row finds none. -/
theorem isHeld_eq_false (h : Sound now outbox) {messageId : ℤ} {owner : String}
    (hholder : holder messageId outbox.log ≠ some owner) {row : OutboxRow α}
    (hrow : row ∈ outbox.rows) : isHeld owner messageId row = false := by
  by_contra hheld
  obtain ⟨rfl, howner, -⟩ := isHeld_iff.mp (Bool.not_eq_false _ ▸ hheld)
  exact hholder ((h.agrees row hrow).holder_eq.symm.trans howner)

theorem settled_rows (h : Sound now outbox) {messageId : ℤ} {owner : String}
    (hholder : holder messageId outbox.log ≠ some owner) (change : OutboxRow α → OutboxRow α) :
    (settled outbox messageId owner change).rows = outbox.rows := by
  refine (List.map_congr_left fun row hrow => ?_).trans (List.map_id _)
  rw [isHeld_eq_false h hholder hrow]
  rfl

/-! ### Pruning and insertion -/

theorem pruneDeliveredOutbox_run (outbox : Outbox α) (retention maximumMessages now : ℕ) :
    (∃ error, (pruneDeliveredOutbox retention maximumMessages now).run outbox =
        (.error error, outbox)) ∨
      ∃ expired : List ℤ, (∀ id ∈ expired, ∃ row ∈ outbox.rows, row.deliveredAt ≠ none ∧ row.id = id) ∧
        (pruneDeliveredOutbox retention maximumMessages now).run outbox =
          (.ok expired.length, { outbox with rows := outbox.rows.filter fun row => row.id ∉ expired }) := by
  unfold pruneDeliveredOutbox
  rw [run_ensure_bind]
  split_ifs
  swap
  · exact .inl ⟨_, rfl⟩
  rw [run_ensure_bind]
  split_ifs
  swap
  · exact .inl ⟨_, rfl⟩
  refine .inr ⟨_, fun id hid => ?_, rfl⟩
  obtain ⟨row, hrow, hsame⟩ := mem_firstIds hid
  obtain ⟨hrow, hprunable⟩ := List.mem_filter.mp hrow
  refine ⟨row, hrow, ?_, hsame⟩
  rintro hnone
  unfold isPrunable at hprunable
  rw [hnone] at hprunable
  cases hprunable

theorem sound_filter (h : Sound now outbox) (keeps : OutboxRow α → Bool) :
    Sound now { outbox with rows := outbox.rows.filter keeps } :=
  ⟨h.distinct.sublist (List.filter_sublist.map _),
    fun row hrow => h.issued row (List.mem_filter.mp hrow).1,
    fun row hrow => h.agrees row (List.mem_filter.mp hrow).1,
    fun row hrow => h.delivered row (List.mem_filter.mp hrow).1, h.unclaimed, h.exclusive⟩

theorem follows_filter (delivers : OutboxRow α → Prop) (outbox : Outbox α) {keeps : OutboxRow α → Bool}
    (hkeeps : ∀ row ∈ outbox.rows, row.deliveredAt = none → keeps row = true) :
    Follows delivers outbox { outbox with rows := outbox.rows.filter keeps } where
  issued _ hid := hid
  old row hrow := .inl ⟨row, (List.mem_filter.mp hrow).1, .refl row, .inl rfl⟩
  kept row hrow hpending :=
    ⟨row, List.mem_filter.mpr ⟨hrow, hkeeps row hrow hpending⟩, .refl row⟩

theorem sound_pruneDeliveredOutbox (h : Sound now outbox) (retention maximumMessages time : ℕ)
    (delivers : OutboxRow α → Prop) :
    Sound now ((pruneDeliveredOutbox retention maximumMessages time).run outbox).2 ∧
      Follows delivers outbox ((pruneDeliveredOutbox retention maximumMessages time).run outbox).2 := by
  rcases pruneDeliveredOutbox_run outbox retention maximumMessages time with
    ⟨error, hrun⟩ | ⟨expired, hexpired, hrun⟩
  · rw [hrun]
    exact ⟨h, .refl delivers outbox⟩
  · rw [hrun]
    refine ⟨sound_filter h _, follows_filter delivers outbox fun row hrow hpending => ?_⟩
    refine decide_eq_true fun hmem => ?_
    obtain ⟨other, hother, hdelivered, hid⟩ := hexpired row.id hmem
    rw [h.eq_of_id hother hrow hid] at hdelivered
    exact hdelivered hpending

theorem sound_insertOutbox (h : Sound now outbox) (id : ℤ) (aggregateType aggregateId : String)
    (aggregateSequence : ℤ) (eventType : String) (payload : α) (time : ℕ)
    (delivers : OutboxRow α → Prop) :
    Sound now ((insertOutbox id aggregateType aggregateId aggregateSequence eventType payload time).run
        outbox).2 ∧
      Follows delivers outbox ((insertOutbox id aggregateType aggregateId aggregateSequence eventType
        payload time).run outbox).2 := by
  unfold insertOutbox
  rw [run_get_bind, run_ensure_bind]
  by_cases hid : id ∉ outbox.issued
  swap
  · rw [if_neg hid]
    exact ⟨h, .refl delivers outbox⟩
  rw [if_pos hid, run_ensure_bind]
  split_ifs
  swap
  · exact ⟨h, .refl delivers outbox⟩
  rw [run_set]
  have hclaim := h.unclaimed id hid
  constructor
  · refine ⟨?_, ?_, ?_, ?_, ?_, h.exclusive⟩
    · rw [List.map_append]
      refine List.Nodup.append h.distinct (List.nodup_singleton _) ?_
      rintro id' hold hnew
      obtain ⟨row, hrow, rfl⟩ := List.mem_map.mp hold
      rw [List.map_singleton, List.mem_singleton] at hnew
      have hsame : row.id = id := hnew
      exact hid (hsame ▸ h.issued row hrow)
    · intro row hrow
      rcases List.mem_append.mp hrow with hold | hnew
      · exact List.mem_cons_of_mem _ (h.issued row hold)
      · rw [List.mem_singleton.mp hnew]
        exact List.mem_cons_self
    · intro row hrow
      rcases List.mem_append.mp hrow with hold | hnew
      · exact h.agrees row hold
      · rw [List.mem_singleton.mp hnew]
        exact hclaim.agrees
    · intro row hrow hdelivered
      rcases List.mem_append.mp hrow with hold | hnew
      · exact h.delivered row hold hdelivered
      · rw [List.mem_singleton.mp hnew]
    · exact fun id' hid' => h.unclaimed id' fun hmem => hid' (List.mem_cons_of_mem _ hmem)
  · refine ⟨fun id' hid' => List.mem_cons_of_mem _ hid', fun row hrow => ?_,
      fun row hrow _ => ⟨row, List.mem_append_left _ hrow, .refl row⟩⟩
    rcases List.mem_append.mp hrow with hold | hnew
    · exact .inl ⟨row, hold, .refl row, .inl rfl⟩
    · rw [List.mem_singleton.mp hnew]
      exact .inr ⟨hid, rfl⟩

end

end Outbox

end Fluvora.ControlStore
