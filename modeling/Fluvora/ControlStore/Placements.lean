import Fluvora.Lib.Fencing
import Fluvora.Lib.Results
import Fluvora.Lib.Runs
import Fluvora.ControlStore.Validation
import Fluvora.MediaWorker.Assignments

/-!
# Placements of service resources

`place_service_resource`, `advance_service_placement` and the two ways to remove a placement of
`crates/control-plane/control-store`, with the tables `fluvora_service_nodes` and
`fluvora_service_resource_placements`.  A transaction either returns new tables or rolls back.
Advancing a placement is two transactions, and other callers may come between them.

The generation of a placement is a column of its row, and goes when the row is deleted: what is
placed again begins at 1.  `each_fenced_iff` tells that the generations are a fence in exactly the
runs where no resource is placed anew after something was handed out for it.
-/

namespace Fluvora.ControlStore

open Fencing

/-- A row of `fluvora_service_nodes`; times are in milliseconds. -/
structure ServiceNodeRow where
  serviceKind : String
  region : String
  endpoint : String
  healthy : Bool
  draining : Bool
  jobsUsed : ℕ
  jobsLimit : ℕ
  heartbeatAt : ℕ
  check : 0 < jobsLimit ∧ jobsUsed ≤ jobsLimit

/-- A row of `fluvora_service_resource_placements`.  In place of the time, `assignedAt` counts the
assignments that were made before. -/
structure PlacementRow where
  nodeId : String
  generation : ℕ
  assignedAt : ℕ
  check : 0 < generation ∧ generation < bigintBound
deriving DecidableEq

structure Tables where
  nodes : String → Option ServiceNodeRow
  placements : ResourceKey → Option PlacementRow
  assignments : ℕ

/-- `ServicePlacement`, with the two fields of the key as one. -/
structure ServicePlacement where
  key : ResourceKey
  nodeId : String
  endpoint : String
  generation : UInt64
deriving DecidableEq

/-- A call to place a resource, with what the database finds while it runs: the times of its two
queries, and the node that the scheduler would take, unless it is no longer eligible or all are
locked. -/
structure PlacementRequest where
  key : ResourceKey
  serviceKind : String
  region : String
  staleAfter : ℕ
  now : ℕ
  later : ℕ
  selected : Option String

/-- The checks of a call, which give the time after which a node is stale. -/
def PlacementRequest.validate (request : PlacementRequest) : Except StoreError ℕ := do
  validateBoundedText request.key.resourceKind "resource kind" 64
  validateBoundedText request.key.resourceId "resource id" 256
  validateBoundedText request.serviceKind "service kind" 64
  validateBoundedText request.region "region" 128
  checkedStaleMillis request.staleAfter

def ServiceNodeRow.usable (node : ServiceNodeRow) (request : PlacementRequest)
    (staleMillis now : ℕ) : Bool :=
  node.serviceKind = request.serviceKind && node.region = request.region && node.healthy &&
    !node.draining && now ≤ node.heartbeatAt + staleMillis

def ServiceNodeRow.reserve (node : ServiceNodeRow) : ServiceNodeRow :=
  { node with
    jobsUsed := min node.jobsLimit (node.jobsUsed + 1)
    check := ⟨node.check.1, min_le_left _ _⟩ }

def ServiceNodeRow.release (node : ServiceNodeRow) : ServiceNodeRow :=
  { node with
    jobsUsed := node.jobsUsed - 1
    check := ⟨node.check.1, (Nat.sub_le _ _).trans node.check.2⟩ }

def PlacementRow.servicePlacement (row : PlacementRow) (key : ResourceKey) (endpoint : String) :
    ServicePlacement :=
  ⟨key, row.nodeId, endpoint, UInt64.ofNat row.generation⟩

namespace Tables

variable (tables : Tables)

/-- The placement of a resource on a node that can be used. -/
def healthyPlacement (request : PlacementRequest) (staleMillis : ℕ) : Option ServicePlacement := do
  let row ← tables.placements request.key
  let node ← tables.nodes row.nodeId
  if node.usable request staleMillis request.now then
    some (row.servicePlacement request.key node.endpoint)
  else none

def selectServiceNode (request : PlacementRequest) (staleMillis : ℕ) :
    Except StoreError (String × ServiceNodeRow) :=
  match request.selected.bind fun nodeId => (tables.nodes nodeId).map (nodeId, ·) with
  | some (nodeId, node) =>
      if node.usable request staleMillis request.later && node.jobsUsed < node.jobsLimit then
        .ok (nodeId, node)
      else .error .noServiceNodeCapacity
  | none => .error .noServiceNodeCapacity

/-- Writes a row with the next generation, 1 if there was no row. -/
def assign (key : ResourceKey) (nodeId : String) : Except StoreError (PlacementRow × Tables) :=
  let generation := ((tables.placements key).map (·.generation)).getD 0 + 1
  if h : generation < bigintBound then
    let row : PlacementRow := ⟨nodeId, generation, tables.assignments, Nat.succ_pos _, h⟩
    .ok (row, { tables with
      placements := Function.update tables.placements key (some row)
      assignments := tables.assignments + 1 })
  else .error bigintOutOfRange

def updateNode (nodeId : String) (update : ServiceNodeRow → ServiceNodeRow) : Tables :=
  { tables with nodes := Function.update tables.nodes nodeId ((tables.nodes nodeId).map update) }

def placeServiceResource (request : PlacementRequest) :
    Except StoreError (ServicePlacement × Tables) := do
  let staleMillis ← request.validate
  match tables.healthyPlacement request staleMillis with
  | some healthy => return (healthy, tables)
  | none =>
      let (nodeId, node) ← tables.selectServiceNode request staleMillis
      let (row, assigned) ← tables.assign request.key nodeId
      let reserved := assigned.updateNode nodeId ServiceNodeRow.reserve
      let released := match tables.placements request.key with
        | some current =>
            if current.nodeId ≠ nodeId then
              reserved.updateNode current.nodeId ServiceNodeRow.release
            else reserved
        | none => reserved
      return (row.servicePlacement request.key node.endpoint, released)

/-- The second transaction of `advance_service_placement`: the resource must still be placed on the
node that the first one has found. -/
def advanceGeneration (placement : ServicePlacement) :
    Except StoreError (ServicePlacement × Tables) := do
  match tables.placements placement.key with
  | some row =>
      if row.nodeId = placement.nodeId then
        let (row, advanced) ← tables.assign placement.key row.nodeId
        return (row.servicePlacement placement.key placement.endpoint, advanced)
      else throw .lostDatabaseLock
  | none => throw .lostDatabaseLock

/-- Deletes the row if there is one that may be deleted, and releases its reservation. -/
def removeWhere (key : ResourceKey) (deletes : PlacementRow → Bool) : Bool × Tables :=
  match (tables.placements key).filter deletes with
  | some row =>
      (true, ({ tables with placements := Function.update tables.placements key none }).updateNode
        row.nodeId ServiceNodeRow.release)
  | none => (false, tables)

def removeServicePlacement (key : ResourceKey) : Except StoreError (Bool × Tables) := do
  validateBoundedText key.resourceKind "resource kind" 64
  validateBoundedText key.resourceId "resource id" 256
  return tables.removeWhere key fun _ => true

def removeServicePlacementGeneration (key : ResourceKey) (generation : UInt64) :
    Except StoreError (Bool × Tables) := do
  validateBoundedText key.resourceKind "resource kind" 64
  validateBoundedText key.resourceId "resource id" 256
  let generation ← toI64 generation "service placement generation"
  return tables.removeWhere key fun row => row.generation = generation

end Tables

/-- The call finds no placement of the resource, and a node to place it on. -/
def PlacementRequest.Begins (request : PlacementRequest) (tables : Tables) : Prop :=
  tables.placements request.key = none ∧ ∃ staleMillis selected,
    request.validate = .ok staleMillis ∧
      tables.selectServiceNode request staleMillis = .ok selected

/-! ## Runs -/

/-- The tables, what has been handed out to the callers, and the calls of
`advance_service_placement` between their two transactions. -/
structure ControlPlane where
  tables : Tables
  handed : ResourceKey → List Assignment
  advancing : List ServicePlacement

inductive Action
  | place (request : PlacementRequest)
  | beginAdvance (request : PlacementRequest)
  | finishAdvance (call : ℕ)
  | remove (key : ResourceKey)
  | removeGeneration (key : ResourceKey) (generation : UInt64)
  | upsertNode (nodeId : String) (node : ServiceNodeRow)

def PlacementRow.assignment (row : PlacementRow) : Assignment := ⟨row.generation, row.assignedAt⟩

namespace ControlPlane

/-- The placement of a resource is returned to a caller. -/
def hand (system : ControlPlane) (key : ResourceKey) : ControlPlane :=
  let row := system.tables.placements key
  { system with
    handed := Function.update system.handed key
      (system.handed key ++ (row.map (·.assignment)).toList) }

def step (system : ControlPlane) : Action → ControlPlane
  | .place request =>
      match system.tables.placeServiceResource request with
      | .ok (_, tables) => { system with tables }.hand request.key
      | .error _ => system
  | .beginAdvance request =>
      match system.tables.placeServiceResource request with
      | .ok (placement, tables) =>
          { system with tables, advancing := system.advancing ++ [placement] }
      | .error _ => system
  | .finishAdvance call =>
      match system.advancing[call]? with
      | some placement =>
          let ended := { system with advancing := system.advancing.eraseIdx call }
          match system.tables.advanceGeneration placement with
          | .ok (_, tables) => { ended with tables }.hand placement.key
          | .error _ => ended
      | none => system
  | .remove key =>
      match system.tables.removeServicePlacement key with
      | .ok (_, tables) => { system with tables }
      | .error _ => system
  | .removeGeneration key generation =>
      match system.tables.removeServicePlacementGeneration key generation with
      | .ok (_, tables) => { system with tables }
      | .error _ => system
  | .upsertNode nodeId node =>
      { system with tables := { system.tables with
          nodes := Function.update system.tables.nodes nodeId (some node) } }

def initial : ControlPlane := ⟨⟨fun _ => none, fun _ => none, 0⟩, fun _ => [], []⟩

/-- The ledger of a system: the current placements and what was handed out. -/
def ledger (system : ControlPlane) : Ledger ResourceKey :=
  ⟨fun key => (system.tables.placements key).map (·.assignment), system.handed,
    system.tables.assignments⟩

end ControlPlane

/-! ## What a step does to the ledger -/

namespace Tables

/-- A row was written for a resource, with the next generation. -/
def Assigned (tables after : Tables) (key : ResourceKey) : Prop :=
  ∃ row, row.generation = ((tables.placements key).map (·.generation)).getD 0 + 1 ∧
    row.assignedAt = tables.assignments ∧
    after.placements = Function.update tables.placements key (some row) ∧
    after.assignments = tables.assignments + 1

variable {tables : Tables}

theorem assigned_of_assign {key : ResourceKey} {nodeId : String} {row : PlacementRow}
    {after : Tables} (h : tables.assign key nodeId = .ok (row, after)) :
    Assigned tables after key := by
  unfold assign at h
  dsimp only at h
  split_ifs at h with hbound
  cases h
  exact ⟨_, rfl, rfl, rfl, rfl⟩

theorem placements_of_healthyPlacement {request : PlacementRequest} {staleMillis : ℕ}
    {placement : ServicePlacement} (h : tables.healthyPlacement request staleMillis = some placement) :
    ∃ row, tables.placements request.key = some row := by
  obtain ⟨row, hrow, -⟩ := Option.bind_eq_some_iff.mp h
  exact ⟨row, hrow⟩

/-- A call that returns has found a placement, or has written one. -/
theorem assigned_of_place {request : PlacementRequest} {placement : ServicePlacement}
    {after : Tables} (h : tables.placeServiceResource request = .ok (placement, after)) :
    (after = tables ∧ ∃ row, tables.placements request.key = some row) ∨
      Assigned tables after request.key ∧
        (tables.placements request.key = none → request.Begins tables) := by
  obtain ⟨staleMillis, hvalid, h⟩ := Results.bind_eq_ok.mp h
  cases hhealthy : tables.healthyPlacement request staleMillis with
  | some healthy =>
    rw [hhealthy] at h
    cases h
    exact .inl ⟨rfl, placements_of_healthyPlacement hhealthy⟩
  | none =>
    rw [hhealthy] at h
    obtain ⟨selected, hselected, h⟩ := Results.bind_eq_ok.mp h
    obtain ⟨⟨row, assigned⟩, hassign, h⟩ := Results.bind_eq_ok.mp h
    refine .inr ⟨?_, fun hnone => ⟨hnone, staleMillis, selected, hvalid, hselected⟩⟩
    have hassigned := assigned_of_assign hassign
    cases h
    split
    · split_ifs
      · exact hassigned
      · exact hassigned
    · exact hassigned

/-- A call that finds no placement and a node to place the resource on returns. -/
theorem place_of_begins {request : PlacementRequest} (h : request.Begins tables) :
    ∃ placement after, tables.placeServiceResource request = .ok (placement, after) ∧
      Assigned tables after request.key := by
  obtain ⟨hnone, staleMillis, ⟨nodeId, node⟩, hvalid, hselected⟩ := h
  have hhealthy : tables.healthyPlacement request staleMillis = none := by
    simp [healthyPlacement, hnone]
  have hassign : ∃ row after, tables.assign request.key nodeId = .ok (row, after) := by
    simp [assign, hnone, bigintBound]
  obtain ⟨row, assigned, hassign⟩ := hassign
  have hplace : ∃ result, tables.placeServiceResource request = .ok result := by
    rw [placeServiceResource, hvalid]
    simp only [Results.bind_ok, hhealthy, hselected, hassign]
    exact ⟨_, rfl⟩
  obtain ⟨⟨placement, after⟩, hplace⟩ := hplace
  refine ⟨placement, after, hplace, ?_⟩
  rcases assigned_of_place hplace with ⟨-, row, hrow⟩ | ⟨hassigned, -⟩
  · rw [hnone] at hrow
    cases hrow
  · exact hassigned

theorem assigned_of_advance {placement after' : ServicePlacement} {after : Tables}
    (h : tables.advanceGeneration placement = .ok (after', after)) :
    (∃ row, tables.placements placement.key = some row) ∧ Assigned tables after placement.key := by
  unfold advanceGeneration at h
  cases hrow : tables.placements placement.key with
  | none =>
    rw [hrow] at h
    cases h
  | some row =>
    rw [hrow] at h
    dsimp only at h
    split_ifs at h with hnode
    obtain ⟨⟨row', advanced⟩, hassign, h⟩ := Results.bind_eq_ok.mp h
    cases h
    exact ⟨⟨row, rfl⟩, assigned_of_assign hassign⟩

end Tables

namespace ControlPlane

/-- The action is a call that finds no placement of the resource, and a node to place it on. -/
def Begins (system : ControlPlane) (action : Action) (key : ResourceKey) : Prop :=
  ∃ request : PlacementRequest, (action = .place request ∨ action = .beginAdvance request) ∧
    request.key = key ∧ request.Begins system.tables

/-- No resource is placed anew after something was handed out for it. -/
def Continues (system : ControlPlane) (action : Action) : Prop :=
  ∀ key, system.Begins action key → system.handed key = []

/-- The action deletes the placement of the resource. -/
def Deletes (system : ControlPlane) (action : Action) (key : ResourceKey) : Prop :=
  action = .remove key ∨ ∃ generation row, action = .removeGeneration key generation ∧
    system.tables.placements key = some row ∧ row.generation = generation.toNat

theorem ledger_of_assigned {system : ControlPlane} {tables : Tables} {key : ResourceKey}
    (h : system.tables.Assigned tables key) (advancing : List ServicePlacement) :
    (ControlPlane.mk tables system.handed advancing).ledger = system.ledger.apply (.assign key) := by
  obtain ⟨row, hgeneration, hnumber, hplacements, hcount⟩ := h
  unfold ledger Ledger.apply
  dsimp only
  rw [hplacements, hcount]
  congr 1
  funext other
  by_cases hother : other = key
  · subst hother
    simp [PlacementRow.assignment, Ledger.next, hgeneration, hnumber, Function.comp_def]
  · simp [Function.update_of_ne hother]

theorem ledger_hand (system : ControlPlane) (key : ResourceKey) :
    (system.hand key).ledger = system.ledger.apply (.hand key) := rfl

theorem ledger_of_removeWhere {system : ControlPlane} {key : ResourceKey} {deletes : PlacementRow → Bool} :
    ({ system with tables := (system.tables.removeWhere key deletes).2 } : ControlPlane).ledger =
        system.ledger ∨
      ({ system with tables := (system.tables.removeWhere key deletes).2 } : ControlPlane).ledger =
          system.ledger.apply (.remove key) ∧
        ∃ row, system.tables.placements key = some row ∧ deletes row = true := by
  unfold Tables.removeWhere
  cases hrow : (system.tables.placements key).filter deletes with
  | none => exact .inl rfl
  | some row =>
    refine .inr ⟨?_, row, Option.filter_eq_some_iff.mp hrow⟩
    unfold ledger Ledger.apply Tables.updateNode
    congr 1
    funext other
    by_cases hother : other = key
    · simp [hother]
    · simp [Function.update_of_ne hother]

theorem ledger_current_eq_none {system : ControlPlane} {key : ResourceKey} :
    system.ledger.current key = none ↔ system.tables.placements key = none := Option.map_eq_none_iff

theorem ledger_current_eq_some {system : ControlPlane} {key : ResourceKey} {row : PlacementRow}
    (h : system.tables.placements key = some row) :
    system.ledger.current key = some row.assignment := Option.map_eq_some_iff.mpr ⟨row, h, rfl⟩

/-- Only a call that finds no placement begins one anew, and a generation is deleted by its own
number. -/
theorem moves_step (system : ControlPlane) (action : Action) :
    system.ledger.Moves (system.Begins action) (system.Deletes action)
      (system.step action).ledger := by
  cases action with
  | place request =>
    unfold step
    dsimp only
    cases hplace : system.tables.placeServiceResource request with
    | error error => exact .same
    | ok result =>
      obtain ⟨placement, tables⟩ := result
      dsimp only
      rw [ledger_hand]
      rcases Tables.assigned_of_place hplace with ⟨rfl, -⟩ | ⟨hassigned, hbegins⟩
      · exact .handed request.key
      · rw [ledger_of_assigned hassigned]
        exact .assignedHanded fun hnone =>
          ⟨request, .inl rfl, rfl, hbegins (ledger_current_eq_none.mp hnone)⟩
  | beginAdvance request =>
    unfold step
    dsimp only
    cases hplace : system.tables.placeServiceResource request with
    | error error => exact .same
    | ok result =>
      obtain ⟨placement, tables⟩ := result
      dsimp only
      rcases Tables.assigned_of_place hplace with ⟨rfl, -⟩ | ⟨hassigned, hbegins⟩
      · exact .same
      · rw [ledger_of_assigned hassigned]
        exact .assigned fun hnone =>
          ⟨request, .inr rfl, rfl, hbegins (ledger_current_eq_none.mp hnone)⟩
  | finishAdvance call =>
    unfold step
    dsimp only
    cases hcall : system.advancing[call]? with
    | none => exact .same
    | some placement =>
      dsimp only
      cases hadvance : system.tables.advanceGeneration placement with
      | error error => exact .same
      | ok result =>
        obtain ⟨advanced, tables⟩ := result
        obtain ⟨⟨row, hrow⟩, hassigned⟩ := Tables.assigned_of_advance hadvance
        dsimp only
        rw [ledger_hand, ledger_of_assigned hassigned]
        refine .assignedHanded fun hnone => ?_
        rw [ledger_current_eq_some hrow] at hnone
        cases hnone
  | remove key =>
    unfold step
    dsimp only
    cases hremove : system.tables.removeServicePlacement key with
    | error error => exact .same
    | ok result =>
      obtain ⟨-, -, h⟩ := Results.bind_eq_ok.mp hremove
      obtain ⟨-, -, h⟩ := Results.bind_eq_ok.mp h
      cases h
      rcases ledger_of_removeWhere with hsame | ⟨hremoved, -⟩
      · rw [hsame]
        exact .same
      · rw [hremoved]
        exact .removed (.inl rfl)
  | removeGeneration key generation =>
    unfold step
    dsimp only
    cases hremove : system.tables.removeServicePlacementGeneration key generation with
    | error error => exact .same
    | ok result =>
      obtain ⟨-, -, h⟩ := Results.bind_eq_ok.mp hremove
      obtain ⟨-, -, h⟩ := Results.bind_eq_ok.mp h
      obtain ⟨number, hnumber, h⟩ := Results.bind_eq_ok.mp h
      have heq := toNat_of_toI64 hnumber
      cases h
      rcases ledger_of_removeWhere with hsame | ⟨hremoved, row, hrow, hdeletes⟩
      · rw [hsame]
        exact .same
      · rw [hremoved]
        rw [decide_eq_true_eq, ← heq] at hdeletes
        exact .removed (.inr ⟨generation, row, rfl, hrow, hdeletes⟩)
  | upsertNode nodeId node => exact .same

theorem sound_step {system : ControlPlane} (h : system.ledger.Sound) {action : Action}
    (hcontinues : system.Continues action) : (system.step action).ledger.Sound :=
  h.moves (moves_step system action) hcontinues

end ControlPlane

/-! ## Fencing -/

section

open MediaWorker

variable (toVec : FenceSnapshot → List UInt8) (fromSlice : List UInt8 → Option FenceSnapshot)

/-- The kinds of resources under which the services place the jobs of a worker. -/
def resourceKind : AssignmentKind → String
  | .vod => "vod_transcode"
  | .live => "live_package"
  | .realtime => "realtime_job"

def jobKey (request : AssignmentRequest) : ResourceKey :=
  ⟨resourceKind request.kind, request.resourceId⟩

/-- All that a worker has accepted for the resource of a request was handed out as one of these. -/
def Knows (registry : AssignmentRegistry) (request : AssignmentRequest)
    (handed : Assignment → Prop) : Prop :=
  (∀ current, registry.active[request.assignmentId]? = some current →
    ∃ assignment, handed assignment ∧ assignment.generation = current.generation.toNat) ∧
  ∀ fence, registry.snapshot.records[request.assignmentId]? = some fence →
    ∃ assignment, handed assignment ∧ assignment.generation = fence.generation.toNat

/-- What the generations are for.  A newly assigned one is above all that were handed out for the
resource.  Whoever deletes a placement by its generation was handed out this very placement.  A
worker does not find the current placement stale, and it finds nothing in the way of it (neither
another job nor a consumed generation) if it knows only of other placements of the resource. -/
structure Fenced (system : ControlPlane) (action : Action) : Prop where
  newer : ∀ key row, (system.step action).tables.placements key = some row →
    (system.tables.placements key).map (·.generation) ≠ some row.generation →
      ∀ earlier ∈ system.handed key, earlier.generation < row.generation
  keepsNewer : ∀ key generation row, action = .removeGeneration key generation →
    system.tables.placements key = some row → (system.step action).tables.placements key = none →
      ∀ attempt ∈ system.handed key, attempt.generation = generation.toNat →
        attempt = row.assignment
  notStale : ∀ io registry request row,
    (system.step action).tables.placements (jobKey request) = some row →
      request.generation.toNat = row.generation →
        Knows registry request (· ∈ (system.step action).handed (jobKey request)) →
          ∀ generation, ((commitAssignment toVec fromSlice io request).run registry).1 ≠
            .error (staleGeneration generation)
  notConsumed : ∀ io registry request row,
    (system.step action).tables.placements (jobKey request) = some row →
      request.generation.toNat = row.generation →
        Knows registry request (fun assignment =>
          assignment ∈ (system.step action).handed (jobKey request) ∧
            assignment ≠ row.assignment) →
          (commitAssignment toVec fromSlice io request).run registry =
            (installAssignment toVec fromSlice io request).run registry

variable {system : ControlPlane} {action : Action}

theorem not_stale_of_sound (h : system.ledger.Sound) (io : Snapshots.Io)
    {registry : AssignmentRegistry} {request : AssignmentRequest} {row : PlacementRow}
    (hrow : system.tables.placements (jobKey request) = some row)
    (hgeneration : request.generation.toNat = row.generation)
    (hknows : Knows registry request (· ∈ system.handed (jobKey request))) (generation : UInt64) :
    ((commitAssignment toVec fromSlice io request).run registry).1 ≠
      .error (staleGeneration generation) := by
  have hle (known : UInt64) (hknown : ∃ assignment, assignment ∈ system.handed (jobKey request) ∧
      assignment.generation = known.toNat) : known ≤ request.generation := by
    obtain ⟨assignment, hhanded, heq⟩ := hknown
    rw [UInt64.le_iff_toNat_le, hgeneration, ← heq]
    exact h.generation_le (ControlPlane.ledger_current_eq_some hrow) hhanded
  refine commitAssignment_ne_stale toVec fromSlice io ?_ ?_ generation
  · exact fun current hcurrent => hle _ (hknows.1 current hcurrent)
  · exact fun fence hfence => hle _ (hknows.2 fence hfence)

theorem not_consumed_of_sound (h : system.ledger.Sound) (io : Snapshots.Io)
    {registry : AssignmentRegistry} {request : AssignmentRequest} {row : PlacementRow}
    (hrow : system.tables.placements (jobKey request) = some row)
    (hgeneration : request.generation.toNat = row.generation)
    (hknows : Knows registry request fun assignment =>
      assignment ∈ system.handed (jobKey request) ∧ assignment ≠ row.assignment) :
    (commitAssignment toVec fromSlice io request).run registry =
      (installAssignment toVec fromSlice io request).run registry := by
  have hlt (known : UInt64) (hknown : ∃ assignment, (assignment ∈ system.handed (jobKey request) ∧
      assignment ≠ row.assignment) ∧ assignment.generation = known.toNat) :
      known < request.generation := by
    obtain ⟨assignment, ⟨hhanded, hother⟩, heq⟩ := hknown
    rw [UInt64.lt_iff_toNat_lt, hgeneration, ← heq]
    rcases h.newest (ControlPlane.ledger_current_eq_some hrow) assignment hhanded with hsame | hlt
    · exact absurd hsame hother
    · exact hlt
  refine commitAssignment_of_newer toVec fromSlice ⟨?_, ?_⟩
  · exact fun current hcurrent => hlt _ (hknows.1 current hcurrent)
  · exact fun fence hfence => hlt _ (hknows.2 fence hfence)

/-- A step that continues what was handed out is fenced. -/
theorem fenced_of_continues (h : system.ledger.Sound) (hcontinues : system.Continues action) :
    Fenced toVec fromSlice system action := by
  have hsound := ControlPlane.sound_step h hcontinues
  refine ⟨?_, ?_, ?_, ?_⟩
  · intro key row hrow hnew
    rcases (ControlPlane.moves_step system action).current
      (ControlPlane.ledger_current_eq_some hrow) with hsame | ⟨hgeneration, hbegins⟩
    · obtain ⟨old, hold, heq⟩ := Option.map_eq_some_iff.mp hsame
      have hgenerations : old.generation = row.generation := congrArg Assignment.generation heq
      simp [hold, hgenerations] at hnew
    · have hnext := (h.forall_handed_lt_next_iff key).mpr fun hnone =>
        hcontinues key (hbegins hnone)
      rw [← hgeneration] at hnext
      exact hnext
  · rintro key generation row rfl hrow hnone attempt hattempt hgeneration
    have hcurrent := ControlPlane.ledger_current_eq_some hrow
    refine h.eq_current hcurrent hattempt ?_
    rcases (ControlPlane.moves_step system _).removes_of_none hcurrent
      (ControlPlane.ledger_current_eq_none.mpr hnone) with hcalled | ⟨deleted, found, hcalled, hfound, heq⟩
    · cases hcalled
    · cases hcalled
      rw [hrow, Option.some.injEq] at hfound
      rw [hgeneration, ← heq, ← hfound]
      rfl
  · intro io registry request row hrow hgeneration hknows generation
    exact not_stale_of_sound toVec fromSlice hsound io hrow hgeneration hknows generation
  · intro io registry request row hrow hgeneration hknows
    exact not_consumed_of_sound toVec fromSlice hsound io hrow hgeneration hknows

/-- What is placed anew begins at generation 1. -/
theorem generation_of_begins {key : ResourceKey} (h : system.Begins action key) :
    system.tables.placements key = none ∧
      ∃ row, (system.step action).tables.placements key = some row ∧ row.generation = 1 := by
  obtain ⟨request, haction, rfl, hbegins⟩ := h
  obtain ⟨placement, after, hplace, row, hgeneration, -, hplacements, -⟩ :=
    Tables.place_of_begins hbegins
  refine ⟨hbegins.1, row, ?_, ?_⟩
  · rcases haction with rfl | rfl
    · simp [ControlPlane.step, hplace, ControlPlane.hand, hplacements]
    · simp [ControlPlane.step, hplace, hplacements]
  · rw [hgeneration, hbegins.1]
    rfl

/-- The generations are a fence in the runs where nothing is placed anew after it was handed out,
and in no others. -/
theorem each_fenced_iff (actions : List Action) :
    Runs.Each ControlPlane.step (Fenced toVec fromSlice) .initial actions ↔
      Runs.Each ControlPlane.step ControlPlane.Continues .initial actions := by
  refine Runs.each_iff_each (I := fun system => system.ledger.Sound)
    (fun _ _ h hcontinues => ControlPlane.sound_step h hcontinues) ?_ Ledger.sound_empty actions
  intro system action h
  refine ⟨?_, fenced_of_continues toVec fromSlice h⟩
  intro hfenced key hbegins
  obtain ⟨hnone, row, hrow, hgeneration⟩ := generation_of_begins hbegins
  have hbelow := hfenced.newer key row hrow (by rw [hnone]; exact nofun)
  refine List.eq_nil_iff_forall_not_mem.mpr fun earlier hearlier => ?_
  have hpositive := (h.handed hearlier).1
  have hlt := hbelow earlier hearlier
  omega

/-! A resource is placed, removed and placed again: the second placement has the generation of the
first, and the first attempt deletes it when it cleans up. -/

namespace Replacement

def key : ResourceKey := ⟨"realtime_job", "room-1"⟩

def node : ServiceNodeRow :=
  ⟨"media_worker", "eu", "http://worker-1", true, false, 0, 4, 1000, by decide⟩

def request : PlacementRequest :=
  ⟨key, "media_worker", "eu", 15000000000, 1000, 1000, some "worker-1"⟩

def actions : List Action :=
  [.upsertNode "worker-1" node, .place request, .remove key, .place request]

def replaced : ControlPlane := actions.foldl ControlPlane.step .initial

theorem handed_replaced : replaced.handed key = [⟨1, 0⟩, ⟨1, 1⟩] := by decide

theorem placement_replaced :
    (replaced.tables.placements key).map (·.assignment) = some ⟨1, 1⟩ := by decide

theorem removed_replaced :
    (replaced.step (.removeGeneration key 1)).tables.placements key = none := by decide

end Replacement

open Replacement in
theorem not_fenced_of_replacement :
    ¬ Runs.Each ControlPlane.step (Fenced (fun _ => []) fun _ => none) .initial
      (actions ++ [.removeGeneration key 1]) := by
  intro h
  obtain ⟨row, hrow, hassignment⟩ := Option.map_eq_some_iff.mp placement_replaced
  have hattempt : (⟨1, 0⟩ : Assignment) ∈ replaced.handed key := by
    rw [handed_replaced]
    exact List.mem_cons_self
  have hsame := h.last.keepsNewer key 1 row rfl hrow removed_replaced _ hattempt rfl
  rw [hassignment] at hsame
  cases hsame

end

end Fluvora.ControlStore
