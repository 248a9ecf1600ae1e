import Fluvora.Lib.Fencing
import Fluvora.Lib.Results
import Fluvora.Lib.Runs
import Fluvora.ControlStore.Validation

/-!
# Leases

`acquire_lease` and `release_lease` of `crates/control-plane/control-store`, over the table
`fluvora_service_leases`.  An owner keeps its generation when it renews, and another owner takes over
with the next one once the lease has expired.  A release deletes the row and with it the generation,
so that the next owner begins at 1: `each_fenced_iff_continues` tells that this is the only way in
which two periods of ownership get the same generation.
-/

namespace Fluvora.ControlStore

open Fencing

variable {Value : Type}

/-- A row of `fluvora_service_leases`; times are in milliseconds.  `period` counts the changes of
ownership that were made before. -/
structure LeaseRow (Value : Type) where
  ownerId : String
  generation : ℕ
  leaseUntil : ℕ
  metadata : Value
  period : ℕ
  check : 0 < generation ∧ generation < bigintBound

structure LeaseTable (Value : Type) where
  rows : ResourceKey → Option (LeaseRow Value)
  periods : ℕ

structure Lease (Value : Type) where
  key : ResourceKey
  ownerId : String
  generation : UInt64
  metadata : Value

/-- A call to acquire a lease, with the times at which the statement computes the end of the lease
and at which it looks at the end of another one. -/
structure LeaseRequest (Value : Type) where
  key : ResourceKey
  ownerId : String
  ttl : ℕ
  metadata : Value
  now : ℕ
  later : ℕ

/-- The checks of a call, which give its time to live in milliseconds. -/
def LeaseRequest.validate (request : LeaseRequest Value) : Except StoreError ℕ := do
  validateBoundedText request.key.resourceKind "resource kind" 64
  validateBoundedText request.key.resourceId "resource id" 256
  validateBoundedText request.ownerId "owner id" 256
  let ttlMillis := request.ttl / 1000000
  if 1000 ≤ ttlMillis ∧ ttlMillis ≤ 300000 then return ttlMillis
  else throw (.invalidLeaseTtl ttlMillis)

def LeaseRow.lease (row : LeaseRow Value) (key : ResourceKey) : Lease Value :=
  ⟨key, row.ownerId, UInt64.ofNat row.generation, row.metadata⟩

namespace LeaseTable

variable (table : LeaseTable Value)

/-- Writes the row of a new owner with the next generation, 1 if there was no row. -/
def takeOver (request : LeaseRequest Value) (ttlMillis : ℕ) :
    Except StoreError (LeaseRow Value × LeaseTable Value) :=
  let generation := ((table.rows request.key).map (·.generation)).getD 0 + 1
  if h : generation < bigintBound then
    let row : LeaseRow Value := ⟨request.ownerId, generation, request.now + ttlMillis,
      request.metadata, table.periods, Nat.succ_pos _, h⟩
    .ok (row, ⟨Function.update table.rows request.key (some row), table.periods + 1⟩)
  else .error bigintOutOfRange

def renew (request : LeaseRequest Value) (ttlMillis : ℕ) (row : LeaseRow Value) :
    LeaseRow Value × LeaseTable Value :=
  let renewed := { row with
    leaseUntil := request.now + ttlMillis
    metadata := request.metadata }
  (renewed, { table with rows := Function.update table.rows request.key (some renewed) })

def acquireLease (request : LeaseRequest Value) :
    Except StoreError (Option (Lease Value) × LeaseTable Value) := do
  let ttlMillis ← request.validate
  match table.rows request.key with
  | none =>
      let (row, inserted) ← table.takeOver request ttlMillis
      return (row.lease request.key, inserted)
  | some row =>
      if row.ownerId = request.ownerId then
        let (row, renewed) := table.renew request ttlMillis row
        return (row.lease request.key, renewed)
      else if row.leaseUntil ≤ request.later then
        let (row, taken) ← table.takeOver request ttlMillis
        return (row.lease request.key, taken)
      else return (none, table)

def releaseLease (lease : Lease Value) : Except StoreError (Bool × LeaseTable Value) := do
  validateBoundedText lease.key.resourceKind "resource kind" 64
  validateBoundedText lease.key.resourceId "resource id" 256
  validateBoundedText lease.ownerId "owner id" 256
  let generation ← toI64 lease.generation "lease generation"
  let deletes (row : LeaseRow Value) : Bool :=
    row.ownerId = lease.ownerId && row.generation = generation
  match (table.rows lease.key).filter deletes with
  | some _ => return (true, { table with rows := Function.update table.rows lease.key none })
  | none => return (false, table)

end LeaseTable

/-! ## Runs -/

/-- The table of leases, and the leases that were handed out. -/
structure LeaseControl (Value : Type) where
  table : LeaseTable Value
  handed : ResourceKey → List Assignment

inductive LeaseAction (Value : Type)
  | acquire (request : LeaseRequest Value)
  | release (lease : Lease Value)

def LeaseRow.assignment (row : LeaseRow Value) : Assignment := ⟨row.generation, row.period⟩

namespace LeaseControl

def hand (system : LeaseControl Value) (key : ResourceKey) : LeaseControl Value :=
  let row := system.table.rows key
  { system with
    handed := Function.update system.handed key
      (system.handed key ++ (row.map (·.assignment)).toList) }

def step (system : LeaseControl Value) : LeaseAction Value → LeaseControl Value
  | .acquire request =>
      match system.table.acquireLease request with
      | .ok (some _, table) => { system with table }.hand request.key
      | .ok (none, table) => { system with table }
      | .error _ => system
  | .release lease =>
      match system.table.releaseLease lease with
      | .ok (_, table) => { system with table }
      | .error _ => system

def initial : LeaseControl Value := ⟨⟨fun _ => none, 0⟩, fun _ => []⟩

def ledger (system : LeaseControl Value) : Ledger ResourceKey :=
  ⟨fun key => (system.table.rows key).map (·.assignment), system.handed, system.table.periods⟩

/-- The action acquires a resource that nobody holds. -/
def Begins (system : LeaseControl Value) (action : LeaseAction Value) (key : ResourceKey) : Prop :=
  ∃ request, action = .acquire request ∧ request.key = key ∧
    system.table.rows key = none ∧ ∃ ttlMillis, request.validate = .ok ttlMillis

/-- No resource is acquired anew after a lease of it was handed out. -/
def Continues (system : LeaseControl Value) (action : LeaseAction Value) : Prop :=
  ∀ key, system.Begins action key → system.handed key = []

/-- What the generations are for.  When a resource gets an owner, or another one, the generation is
above all that were handed out for it, so that no two periods of ownership have the same. -/
structure Fenced (system : LeaseControl Value) (action : LeaseAction Value) : Prop where
  newer : ∀ key row, (system.step action).table.rows key = some row →
    (system.table.rows key).map (·.ownerId) ≠ some row.ownerId →
      ∀ earlier ∈ system.handed key, earlier.generation < row.generation
  distinct : ∀ key, ∀ first ∈ (system.step action).handed key,
    ∀ second ∈ (system.step action).handed key,
      first.generation = second.generation → first.number = second.number

end LeaseControl

/-! ## What a call does -/

/-- What a call to acquire a lease does to the table: nothing, a renewal, which changes neither the
owner nor the generation, or a change of ownership. -/
inductive LeaseTable.Acquires (table : LeaseTable Value) (request : LeaseRequest Value) :
    Option (Lease Value) → LeaseTable Value → Prop
  | held : Acquires table request none table
  | renewed {old row : LeaseRow Value} (hold : table.rows request.key = some old)
      (howner : row.ownerId = old.ownerId) (hassignment : row.assignment = old.assignment) :
      Acquires table request (some (row.lease request.key))
        ⟨Function.update table.rows request.key (some row), table.periods⟩
  | taken {row : LeaseRow Value}
      (hgeneration : row.generation =
        ((table.rows request.key).map (·.generation)).getD 0 + 1)
      (hperiod : row.period = table.periods)
      (hvalid : ∃ ttlMillis, request.validate = .ok ttlMillis) :
      Acquires table request (some (row.lease request.key))
        ⟨Function.update table.rows request.key (some row), table.periods + 1⟩

theorem LeaseTable.acquires {table after : LeaseTable Value} {request : LeaseRequest Value}
    {lease : Option (Lease Value)} (h : table.acquireLease request = .ok (lease, after)) :
    table.Acquires request lease after := by
  obtain ⟨ttlMillis, hvalid, h⟩ := Results.bind_eq_ok.mp h
  have htaken {row : LeaseRow Value} {written : LeaseTable Value}
      (htake : table.takeOver request ttlMillis = .ok (row, written)) :
      table.Acquires request (some (row.lease request.key)) written := by
    unfold takeOver at htake
    dsimp only at htake
    split_ifs at htake with hbound
    cases htake
    exact .taken rfl rfl ⟨ttlMillis, hvalid⟩
  cases hrow : table.rows request.key with
  | none =>
    rw [hrow] at h
    obtain ⟨⟨row, written⟩, htake, h⟩ := Results.bind_eq_ok.mp h
    cases h
    exact htaken htake
  | some row =>
    rw [hrow] at h
    dsimp only at h
    split_ifs at h with howner hexpired
    · cases h
      exact .renewed hrow rfl rfl
    · obtain ⟨⟨taken, written⟩, htake, h⟩ := Results.bind_eq_ok.mp h
      cases h
      exact htaken htake
    · cases h
      exact .held

theorem LeaseTable.releases {table after : LeaseTable Value} {lease : Lease Value} {deleted : Bool}
    (h : table.releaseLease lease = .ok (deleted, after)) :
    after = table ∨ after = { table with rows := Function.update table.rows lease.key none } := by
  obtain ⟨-, -, h⟩ := Results.bind_eq_ok.mp h
  obtain ⟨-, -, h⟩ := Results.bind_eq_ok.mp h
  obtain ⟨-, -, h⟩ := Results.bind_eq_ok.mp h
  obtain ⟨generation, -, h⟩ := Results.bind_eq_ok.mp h
  dsimp only at h
  split at h
  · cases h
    exact .inr rfl
  · cases h
    exact .inl rfl

/-- A call that passes its checks and finds nobody holding the resource acquires it. -/
theorem LeaseTable.acquire_of_none {table : LeaseTable Value} {request : LeaseRequest Value}
    (hnone : table.rows request.key = none) {ttlMillis : ℕ}
    (hvalid : request.validate = .ok ttlMillis) :
    ∃ (row : LeaseRow Value) (after : LeaseTable Value),
      table.acquireLease request = .ok (some (row.lease request.key), after) ∧
        row.generation = 1 ∧ after.rows = Function.update table.rows request.key (some row) := by
  have htake : ∃ row after, table.takeOver request ttlMillis = .ok (row, after) ∧
      row.generation = 1 ∧ after.rows = Function.update table.rows request.key (some row) := by
    simp [takeOver, hnone, bigintBound]
  obtain ⟨row, after, htake, hgeneration, hrows⟩ := htake
  refine ⟨row, after, ?_, hgeneration, hrows⟩
  rw [acquireLease, hvalid]
  simp only [Results.bind_ok, hnone, htake]
  rfl

namespace LeaseControl

theorem ledger_current_eq_none {system : LeaseControl Value} {key : ResourceKey} :
    system.ledger.current key = none ↔ system.table.rows key = none := Option.map_eq_none_iff

theorem ledger_current_eq_some {system : LeaseControl Value} {key : ResourceKey}
    {row : LeaseRow Value} (h : system.table.rows key = some row) :
    system.ledger.current key = some row.assignment := Option.map_eq_some_iff.mpr ⟨row, h, rfl⟩

theorem ledger_of_renewed {system : LeaseControl Value} {key : ResourceKey}
    {old row : LeaseRow Value} (hold : system.table.rows key = some old)
    (hassignment : row.assignment = old.assignment) :
    (LeaseControl.mk ⟨Function.update system.table.rows key (some row), system.table.periods⟩
      system.handed).ledger = system.ledger := by
  unfold ledger
  congr 1
  funext other
  by_cases hother : other = key
  · subst hother
    simp [hold, hassignment]
  · simp [Function.update_of_ne hother]

theorem ledger_of_released {system : LeaseControl Value} {key : ResourceKey} :
    (LeaseControl.mk { system.table with rows := Function.update system.table.rows key none }
      system.handed).ledger = system.ledger.apply (.remove key) := by
  unfold ledger Ledger.apply
  congr 1
  funext other
  by_cases hother : other = key
  · simp [hother]
  · simp [Function.update_of_ne hother]

theorem ledger_hand (system : LeaseControl Value) (key : ResourceKey) :
    (system.hand key).ledger = system.ledger.apply (.hand key) := rfl

theorem ledger_of_taken {system : LeaseControl Value} {key : ResourceKey} {row : LeaseRow Value}
    (hgeneration : row.generation = ((system.table.rows key).map (·.generation)).getD 0 + 1)
    (hperiod : row.period = system.table.periods) :
    (LeaseControl.mk ⟨Function.update system.table.rows key (some row), system.table.periods + 1⟩
      system.handed).ledger = system.ledger.apply (.assign key) := by
  unfold ledger Ledger.apply
  congr 1
  funext other
  by_cases hother : other = key
  · subst hother
    simp [LeaseRow.assignment, Ledger.next, hgeneration, hperiod, Function.comp_def]
  · simp [Function.update_of_ne hother]

theorem moves_step (system : LeaseControl Value) (action : LeaseAction Value) :
    system.ledger.Moves (system.Begins action)
      (fun key => ∃ lease, action = .release lease ∧ lease.key = key)
      (system.step action).ledger := by
  cases action with
  | acquire request =>
    unfold step
    dsimp only
    cases hacquire : system.table.acquireLease request with
    | error error => exact .same
    | ok result =>
      obtain ⟨lease, after⟩ := result
      have hacquires := LeaseTable.acquires hacquire
      cases hacquires with
      | held => exact .same
      | renewed hold howner hassignment =>
        dsimp only
        rw [ledger_hand, ledger_of_renewed hold hassignment]
        exact .handed request.key
      | taken hgeneration hperiod hvalid =>
        dsimp only
        rw [ledger_hand, ledger_of_taken hgeneration hperiod]
        exact .assignedHanded fun hnone =>
          ⟨request, rfl, rfl, ledger_current_eq_none.mp hnone, hvalid⟩
  | release lease =>
    unfold step
    dsimp only
    cases hrelease : system.table.releaseLease lease with
    | error error => exact .same
    | ok result =>
      obtain ⟨deleted, after⟩ := result
      rcases LeaseTable.releases hrelease with rfl | rfl
      · exact .same
      · dsimp only
        rw [ledger_of_released]
        exact .removed ⟨lease, rfl, rfl⟩

theorem sound_step {system : LeaseControl Value} (h : system.ledger.Sound)
    {action : LeaseAction Value} (hcontinues : system.Continues action) :
    (system.step action).ledger.Sound := h.moves (moves_step system action) hcontinues

/-- A step that gives a resource another owner gives it another generation. -/
theorem owner_eq_of_assignment_eq {system : LeaseControl Value} (h : system.ledger.Sound)
    {action : LeaseAction Value} {key : ResourceKey} {row : LeaseRow Value}
    (hrow : (system.step action).table.rows key = some row)
    (hsame : system.ledger.current key = some row.assignment) :
    (system.table.rows key).map (·.ownerId) = some row.ownerId := by
  obtain ⟨old, hold, hassignment⟩ := Option.map_eq_some_iff.mp hsame
  have hunchanged (hrow : system.table.rows key = some row) :
      (system.table.rows key).map (·.ownerId) = some row.ownerId := by
    rw [hrow]
    rfl
  cases action with
  | acquire request =>
    unfold step at hrow
    dsimp only at hrow
    cases hacquire : system.table.acquireLease request with
    | error error =>
      rw [hacquire] at hrow
      exact hunchanged hrow
    | ok result =>
      obtain ⟨lease, after⟩ := result
      rw [hacquire] at hrow
      have hacquires := LeaseTable.acquires hacquire
      by_cases hkey : key = request.key
      · subst hkey
        cases hacquires with
        | held => exact hunchanged hrow
        | renewed hfound howner =>
          simp only [hand, Function.update_self, Option.some.injEq] at hrow
          subst hrow
          rw [hfound, howner]
          rfl
        | taken hgeneration hperiod =>
          simp only [hand, Function.update_self, Option.some.injEq] at hrow
          subst hrow
          have hlt : _ < system.table.periods := (h.current hsame).2
          exact absurd hperiod hlt.ne
      · cases hacquires with
        | held => exact hunchanged hrow
        | renewed hfound howner =>
          simp only [hand, Function.update_of_ne hkey] at hrow
          exact hunchanged hrow
        | taken hgeneration hperiod =>
          simp only [hand, Function.update_of_ne hkey] at hrow
          exact hunchanged hrow
  | release lease =>
    unfold step at hrow
    dsimp only at hrow
    cases hrelease : system.table.releaseLease lease with
    | error error =>
      rw [hrelease] at hrow
      exact hunchanged hrow
    | ok result =>
      obtain ⟨deleted, after⟩ := result
      rw [hrelease] at hrow
      rcases LeaseTable.releases hrelease with rfl | rfl
      · exact hunchanged hrow
      · dsimp only at hrow
        by_cases hkey : key = lease.key
        · simp [hkey] at hrow
        · rw [Function.update_of_ne hkey] at hrow
          exact hunchanged hrow

/-- What is acquired while nobody holds it begins at generation 1. -/
theorem generation_of_begins {system : LeaseControl Value} {action : LeaseAction Value}
    {key : ResourceKey} (h : system.Begins action key) :
    system.table.rows key = none ∧
      ∃ row, (system.step action).table.rows key = some row ∧ row.generation = 1 := by
  obtain ⟨request, rfl, rfl, hnone, ttlMillis, hvalid⟩ := h
  obtain ⟨row, after, hacquire, hgeneration, hrows⟩ := LeaseTable.acquire_of_none hnone hvalid
  refine ⟨hnone, row, ?_, hgeneration⟩
  simp [step, hacquire, hand, hrows]

theorem fenced_of_continues {system : LeaseControl Value} (h : system.ledger.Sound)
    {action : LeaseAction Value} (hcontinues : system.Continues action) :
    system.Fenced action := by
  refine ⟨?_, ?_⟩
  · intro key row hrow howner
    rcases (moves_step system action).current (ledger_current_eq_some hrow) with
      hsame | ⟨hgeneration, hbegins⟩
    · exact absurd (owner_eq_of_assignment_eq h hrow hsame) howner
    · have hnext := (h.forall_handed_lt_next_iff key).mpr fun hnone =>
        hcontinues key (hbegins hnone)
      rw [← hgeneration] at hnext
      exact hnext
  · intro key first hfirst second hsecond hgeneration
    rw [(sound_step h hcontinues).distinct hfirst hsecond hgeneration]

/-- The generations of leases are a fence in the runs where nothing is acquired anew after a lease
of it was handed out, and in no others. -/
theorem each_fenced_iff_continues (actions : List (LeaseAction Value)) :
    Runs.Each step Fenced initial actions ↔ Runs.Each step Continues initial actions := by
  refine Runs.each_iff_each (I := fun system => system.ledger.Sound)
    (fun _ _ h hcontinues => sound_step h hcontinues) ?_ Ledger.sound_empty actions
  intro system action h
  refine ⟨?_, fenced_of_continues h⟩
  intro hfenced key hbegins
  obtain ⟨hnone, row, hrow, hgeneration⟩ := generation_of_begins hbegins
  have hbelow := hfenced.newer key row hrow (by rw [hnone]; exact nofun)
  refine List.eq_nil_iff_forall_not_mem.mpr fun earlier hearlier => ?_
  have hpositive := (h.handed hearlier).1
  have hlt := hbelow earlier hearlier
  omega

/-! An owner releases its lease, and the next owner gets the generation that it had. -/

namespace Release

def key : ResourceKey := ⟨"worker_job", "job-1"⟩

def acquire (ownerId : String) : LeaseAction Unit := .acquire ⟨key, ownerId, 30000000000, (), 0, 0⟩

def actions : List (LeaseAction Unit) :=
  [acquire "node-a", .release ⟨key, "node-a", 1, ()⟩, acquire "node-b"]

theorem handed : (actions.foldl step initial).handed key = [⟨1, 0⟩, ⟨1, 1⟩] := by decide

end Release

open Release in
theorem not_fenced_of_release : ¬ Runs.Each step Fenced initial actions := by
  intro h
  have hmem (number : ℕ) (hnumber : number < 2) :
      (⟨1, number⟩ : Assignment) ∈ (actions.foldl step initial).handed key := by
    rw [handed]
    interval_cases number <;> decide
  have hlast : Fenced (actions.dropLast.foldl step initial) (acquire "node-b") := h.last
  have hsame := hlast.distinct key ⟨1, 0⟩ (hmem 0 (by decide)) ⟨1, 1⟩ (hmem 1 (by decide)) rfl
  cases hsame

end LeaseControl

end Fluvora.ControlStore
