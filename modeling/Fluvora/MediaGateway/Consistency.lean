import Fluvora.Lib.Runs
import Fluvora.MediaGateway.LiveSections

/-!
# What is in memory and what would be restored

The assets and the live streams of a gateway, any number of handlers at once, and restarts.
`always_consistent_of_each` says that every record in memory is the one that a restart would restore, as
long as no section fails after its first change and the clock does not go back behind a creation.
-/

namespace Fluvora.MediaGateway

open MediaStore (Crates)

structure Gateway where
  assets : String → AssetSlot
  streams : String → LiveSlot

inductive GatewayAction
  | asset (assetId : String) (part : AssetSection)
  | live (streamId : String) (part : LiveSection)
  | restart

namespace Gateway

def empty : Gateway := ⟨fun _ => ⟨none, [], []⟩, fun _ => ⟨none, [], fun _ => none⟩⟩

variable (normalizeHttpOrigin : String → Option String) (sumMillis : List String → Option UInt64)
  (crates : Crates) (formatSeconds : ℕ → String)

def step (gateway : Gateway) : GatewayAction → Gateway
  | .asset assetId part =>
      let slot := ((part.run sumMillis assetId).run (gateway.assets assetId)).2
      { gateway with assets := Function.update gateway.assets assetId slot }
  | .live streamId part =>
      let slot := ((part.run crates formatSeconds streamId).run (gateway.streams streamId)).2
      { gateway with streams := Function.update gateway.streams streamId slot }
  | .restart =>
      ⟨fun assetId =>
        let slot := gateway.assets assetId
        { slot with memory := restoreAsset normalizeHttpOrigin slot.snapshots },
      fun streamId =>
        let slot := gateway.streams streamId
        { slot with memory := restoreLive normalizeHttpOrigin streamId slot.snapshots }⟩

/-- Every record in memory is the one that would be restored. -/
structure Consistent (gateway : Gateway) : Prop where
  asset : ∀ assetId, (gateway.assets assetId).memory =
    restoreAsset normalizeHttpOrigin (gateway.assets assetId).snapshots
  live : ∀ streamId, (gateway.streams streamId).memory =
    restoreLive normalizeHttpOrigin streamId (gateway.streams streamId).snapshots

/-- A section that changes its record completes. -/
def InStep (gateway : Gateway) : GatewayAction → Prop
  | .asset assetId part => part.InStep normalizeHttpOrigin sumMillis (gateway.assets assetId)
  | .live streamId part =>
      part.InStep crates streamId normalizeHttpOrigin (gateway.streams streamId)
  | .restart => True

/-- What every section that is in step keeps. -/
structure Synced (gateway : Gateway) : Prop where
  asset : ∀ assetId, (gateway.assets assetId).Synced normalizeHttpOrigin
  live : ∀ streamId, (gateway.streams streamId).Synced normalizeHttpOrigin streamId

variable {normalizeHttpOrigin sumMillis crates formatSeconds} {gateway : Gateway}

theorem synced_empty : empty.Synced normalizeHttpOrigin :=
  ⟨fun _ => RecordStore.inSync_nil, fun _ => RecordStore.inSync_nil⟩

theorem Synced.consistent (h : gateway.Synced normalizeHttpOrigin) :
    gateway.Consistent normalizeHttpOrigin :=
  ⟨fun assetId => (h.asset assetId).restored, fun streamId => (h.live streamId).restored⟩

/-- A restart in a consistent state changes nothing. -/
theorem Synced.restart (h : gateway.Synced normalizeHttpOrigin) :
    (step normalizeHttpOrigin sumMillis crates formatSeconds gateway .restart).Synced
      normalizeHttpOrigin := by
  constructor
  · intro assetId
    have hasset := h.asset assetId
    have hrestored : restoreAsset normalizeHttpOrigin (gateway.assets assetId).snapshots =
        (gateway.assets assetId).memory := hasset.restored.symm
    change RecordStore.InSync _ _ (restoreAsset normalizeHttpOrigin (gateway.assets assetId).snapshots) _
    rw [hrestored]
    exact hasset
  · intro streamId
    have hlive := h.live streamId
    have hrestored : restoreLive normalizeHttpOrigin streamId (gateway.streams streamId).snapshots =
        (gateway.streams streamId).memory := hlive.restored.symm
    change RecordStore.InSync _ _
      (restoreLive normalizeHttpOrigin streamId (gateway.streams streamId).snapshots) _
    rw [hrestored]
    exact hlive

theorem synced_step (h : gateway.Synced normalizeHttpOrigin) {action : GatewayAction}
    (hstep : gateway.InStep normalizeHttpOrigin sumMillis crates action) :
    (step normalizeHttpOrigin sumMillis crates formatSeconds gateway action).Synced
      normalizeHttpOrigin := by
  cases action with
  | asset assetId part =>
    refine ⟨fun other => ?_, h.live⟩
    unfold step
    by_cases hother : other = assetId
    · subst hother
      dsimp only
      rw [Function.update_self]
      exact (h.asset other).recorded
        (AssetSlot.records_section (h.asset other) other part hstep)
    · dsimp only
      rw [Function.update_of_ne hother]
      exact h.asset other
  | live streamId part =>
    refine ⟨h.asset, fun other => ?_⟩
    unfold step
    by_cases hother : other = streamId
    · subst hother
      dsimp only
      rw [Function.update_self]
      exact (h.live other).recorded (LiveSlot.records_section (h.live other) part hstep)
    · dsimp only
      rw [Function.update_of_ne hother]
      exact h.live other
  | restart => exact h.restart

/-- In every run of the handlers, in any order and with restarts, in which every section that changes
a record completes, memory is what would be restored in every state. -/
theorem always_consistent_of_each (normalizeHttpOrigin : String → Option String)
    (sumMillis : List String → Option UInt64) (crates : Crates) (formatSeconds : ℕ → String)
    (actions : List GatewayAction)
    (heach : Runs.Each (step normalizeHttpOrigin sumMillis crates formatSeconds)
      (InStep normalizeHttpOrigin sumMillis crates) empty actions) :
    Runs.Always (step normalizeHttpOrigin sumMillis crates formatSeconds)
      (Consistent normalizeHttpOrigin) empty actions := by
  have hsynced := Runs.always_of_each (I := Synced normalizeHttpOrigin)
    (fun _ _ h hstep => synced_step h hstep) synced_empty heach
  exact hsynced.imp fun _ h => h.consistent

end Gateway

/-! ## An upload whose revision cannot be stored -/

namespace MovieUpload

def crates : Crates := ⟨fun _ => true, fun bytes => bytes⟩

def step : Gateway → GatewayAction → Gateway :=
  Gateway.step some MovieJob.sumMillis crates fun _ => "1.000"

/-- An asset is created, and two bytes are uploaded. -/
def actions (stores : Bool) : List GatewayAction :=
  [.asset "movie" (.create "tenant" true 1000 ⟨true, 0⟩),
    .asset "movie" (.uploadSourceChunk 0 [1, 2] 1001 ⟨true, none, true, ⟨stores, 0⟩⟩), .restart]

theorem always_consistent :
    Runs.Always step (Gateway.Consistent some) Gateway.empty (actions true) := by
  refine Gateway.always_consistent_of_each some MovieJob.sumMillis crates (fun _ => "1.000")
    (actions true) ⟨?_, ?_, trivial, trivial⟩
  · exact fun managed hmanaged => nofun
  · intro managed hmanaged _
    have hfields : ((step Gateway.empty (.asset "movie" (.create "tenant" true 1000 ⟨true, 0⟩))).assets
        "movie").memory.map (fun managed => (managed.revision, managed.createdAtMillis)) =
          some (1, 1000) := by decide
    have hsome := (congrArg (Option.map fun managed =>
      (managed.revision, managed.createdAtMillis)) hmanaged).symm.trans hfields
    obtain ⟨hrevision, hcreated⟩ := Prod.mk.inj (Option.some.inj hsome)
    refine ⟨?_, ?_, rfl⟩
    · rw [hrevision]
      decide
    · rw [hcreated]
      decide

/-- The upload has failed, its bytes are counted in memory, and a restart takes them back. -/
theorem not_always_consistent :
    ¬ Runs.Always step (Gateway.Consistent some) Gateway.empty (actions false) := by
  intro h
  have hasset := h.2.2.1.asset "movie"
  have hdiffers : ((step (step Gateway.empty (.asset "movie" (.create "tenant" true 1000 ⟨true, 0⟩)))
      (.asset "movie" (.uploadSourceChunk 0 [1, 2] 1001 ⟨true, none, true, ⟨false, 0⟩⟩))).assets
        "movie").memory.map (·.revision) ≠
      (restoreAsset some ((step (step Gateway.empty (.asset "movie" (.create "tenant" true 1000
        ⟨true, 0⟩))) (.asset "movie" (.uploadSourceChunk 0 [1, 2] 1001
          ⟨true, none, true, ⟨false, 0⟩⟩))).assets "movie").snapshots).map (·.revision) := by
    decide
  exact hdiffers (congrArg (Option.map (·.revision)) hasset)

end MovieUpload

end Fluvora.MediaGateway
