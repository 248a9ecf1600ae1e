import Fluvora.Domain.Room

/-!
# Checks of the control store

What the operations of `crates/control-plane/control-store` check before they go to the database,
and the errors that they return.
-/

namespace Fluvora.ControlStore

structure ResourceKey where
  resourceKind : String
  resourceId : String
deriving DecidableEq

/-- The errors of the operations that are modelled. -/
inductive StoreError
  | invalidTextField (field : String) (maximum : ℕ)
  | lostDatabaseLock
  | numericRange (field : String)
  | invalidLeaseTtl (millis : ℕ)
  | invalidStaleWindow (millis : ℕ)
  | noServiceNodeCapacity
  | roomNotFound
  | signalPayloadTooLarge (bytes : ℕ)
  | invalidBatchSize (size : ℕ)
  | invalidOutboxId (id : ℤ)
  | invalidRetryDelay (millis : ℕ)
  | invalidOutboxRetention (millis : ℕ)
  | invalidJson (text : String)
  | database (text : String)
deriving DecidableEq

def StoreError.display : StoreError → String
  | .invalidTextField field maximum =>
      s!"{field} must contain 1..={maximum} non-control UTF-8 bytes"
  | .lostDatabaseLock => "PostgreSQL row lock was lost"
  | .numericRange field => s!"{field} exceeds the PostgreSQL numeric range"
  | .invalidLeaseTtl millis => s!"invalid lease TTL {millis} milliseconds"
  | .invalidStaleWindow millis => s!"invalid media-node stale window {millis} milliseconds"
  | .noServiceNodeCapacity => "no healthy service node has placement capacity"
  | .roomNotFound => "durable room does not exist"
  | .signalPayloadTooLarge bytes =>
      s!"signal payload contains {bytes} bytes; maximum is 65536"
  | .invalidBatchSize size => s!"invalid outbox batch size {size}"
  | .invalidOutboxId id => s!"invalid outbox message id {id}"
  | .invalidRetryDelay millis => s!"invalid outbox retry delay {millis} milliseconds"
  | .invalidOutboxRetention millis =>
      s!"invalid delivered outbox retention {millis} milliseconds"
  | .invalidJson text => s!"invalid JSON metadata: {text}"
  | .database text => s!"PostgreSQL error: {text}"

/-- A `BIGINT` column holds what is below this bound. -/
def bigintBound : ℕ := 2 ^ 63

def bigintOutOfRange : StoreError :=
  .database "error returned from database: bigint out of range"

def validateBoundedText (value field : String) (maximum : ℕ) : Except StoreError Unit :=
  if value.isEmpty || maximum < value.utf8ByteSize || value.toList.any Domain.isControl then
    .error (.invalidTextField field maximum)
  else .ok ()

def toI64 (value : UInt64) (field : String) : Except StoreError ℕ :=
  if value.toNat < bigintBound then .ok value.toNat else .error (.numericRange field)

/-- A window in milliseconds, rounded down; durations are in nanoseconds. -/
def checkedStaleMillis (staleAfter : ℕ) : Except StoreError ℕ :=
  let staleMillis := staleAfter / 1000000
  if 1000 ≤ staleMillis ∧ staleMillis ≤ 300000 then .ok staleMillis
  else .error (.invalidStaleWindow staleMillis)

theorem toNat_of_toI64 {value : UInt64} {field : String} {number : ℕ}
    (h : toI64 value field = .ok number) : value.toNat = number := by
  unfold toI64 at h
  split_ifs at h
  exact Except.ok.inj h

end Fluvora.ControlStore
