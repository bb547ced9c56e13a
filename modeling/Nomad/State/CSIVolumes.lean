import Nomad.State.StateStore

/-!
# CSI volume claims in the state store

`nomad/state/state_store.go`: `CSIVolumeClaim` reads the volume's row, looks up the claiming
allocation, refreshes the plugin health (`CSIVolumeDenormalizePlugins`) and the readers' and
writers' allocations (`CSIVolumeDenormalize`), applies the claim and writes the row back. A
writer whose allocation is no longer in the `allocs` table keeps the allocation stored for it,
which is `nil` for a writer added by `ClaimWrite`.

A run interleaves claims with allocation upserts and deletions; a claim that fails aborts its
transaction and leaves the store as it was, and a panic ends the run.
-/

namespace Nomad.State

open Go Container Structs

namespace StateStore

variable (s : StateStore)

def csiVolumeRow (ns id : String) : Option CSIVolume :=
  s.csiVolumes.find? fun v => v.Namespace = ns ∧ v.ID = id

def CSIVolumeDenormalizePlugins (vol : CSIVolume) : CSIVolume :=
  match s.csiPlugins.lookup vol.PluginID with
  | none => { vol with ControllersHealthy := 0, NodesHealthy := 0, Schedulable := false }
  | some plug =>
    let vol := { vol with
      ControllerRequired := plug.ControllerRequired
      ControllersHealthy := plug.ControllersHealthy
      NodesHealthy := plug.NodesHealthy }
    { vol with Schedulable :=
        if vol.ControllerRequired then decide (0 < vol.ControllersHealthy) && decide (0 < vol.NodesHealthy)
        else decide (0 < vol.NodesHealthy) }

/-- Each reader and writer that is still an allocation gets that allocation; the others keep
what the volume held for them. -/
def refreshAllocs (m : Map String (Option Allocation)) : Map String (Option Allocation) :=
  m.mapWithKey fun id old => match s.AllocByID id with
    | some a => some a
    | none => old

def CSIVolumeDenormalize (vol : CSIVolume) : CSIVolume :=
  { vol with ReadAllocs := s.refreshAllocs vol.ReadAllocs, WriteAllocs := s.refreshAllocs vol.WriteAllocs }

/-- `CSIVolumeByID` reads the `id_prefix` index: the first volume of the namespace whose ID
starts with `id`, with its plugin's health. -/
def CSIVolumeByID (ns id : String) : Option CSIVolume :=
  (s.csiVolumes.find? fun v => v.Namespace = ns ∧ strings.HasPrefix v.ID id).map s.CSIVolumeDenormalizePlugins

/-- The volume IDs, with their namespace, of the CSI volumes that the allocations on a node
which run or are to run ask for; a later allocation's namespace replaces an earlier one's. -/
def csiVolumeIDsOnNode : List Allocation → Map String String → Outcome (Map String String)
  | [], ids => .ok ids
  | a :: rest, ids =>
    if !(a.DesiredStatus = .run ∨ a.ClientStatus = .running) then csiVolumeIDsOnNode rest ids
    else match a.Job.LookupTaskGroup a.TaskGroup with
      -- `len(tg.Volumes)` on a missing group dereferences `nil`
      | none => .panic
      | some tg =>
        csiVolumeIDsOnNode rest ((tg.Volumes.vals.filter (·.«Type» = VolumeTypeCSI)).foldl
          (fun ids v => ids.insert v.Source a.Namespace) ids)

/-- `CSIVolumesByNodeID`: the rows of those volumes, `nil` where a volume has no row. -/
def CSIVolumesByNodeID (nodeID : String) : Outcome (List (Option CSIVolume)) :=
  (csiVolumeIDsOnNode (s.AllocsByNode nodeID) ∅).map fun ids =>
    ids.entries.map fun e => s.csiVolumeRow e.2 e.1

def putVolume (vol : CSIVolume) : StateStore :=
  { s with csiVolumes := s.csiVolumes.map fun v =>
      if v.Namespace = vol.Namespace ∧ v.ID = vol.ID then vol else v }

def CSIVolumeClaim (index : Nat) (ns id : String) (claim : CSIVolumeClaim) :
    Outcome StateStore :=
  match s.csiVolumeRow ns id with
  | none => .err ("volume not found: " ++ id)
  | some orig =>
    -- a missing allocation is only logged; `Claim` then reports it
    let alloc := if claim.Mode ≠ .release then s.AllocByID claim.AllocationID else none
    let volume := s.CSIVolumeDenormalize (s.CSIVolumeDenormalizePlugins orig)
    (volume.Claim claim alloc).bind fun volume => .ok (s.putVolume { volume with ModifyIndex := index })

/-- The allocation part of `UpsertAllocs`: each allocation is stored under its ID. -/
def UpsertAllocs (allocs : List Allocation) : StateStore :=
  { s with allocs := allocs.foldl (fun m a => m.insert a.ID a) s.allocs }

/-- The allocation part of `DeleteEval`: the allocations are removed. -/
def DeleteAllocs (ids : List String) : StateStore :=
  { s with allocs := ids.foldl (fun m id => m.erase id) s.allocs }

end StateStore

inductive CSIOp where
  | claim (index : Nat) (ns id : String) (claim : CSIVolumeClaim)
  | upsertAllocs (allocs : List Allocation)
  | deleteAllocs (ids : List String)

/-- One write: a failed claim leaves the store as it was. -/
def CSIOp.apply (s : StateStore) : CSIOp → Outcome StateStore
  | .claim index ns id c =>
    match s.CSIVolumeClaim index ns id c with
    | .err _ => .ok s
    | r => r
  | .upsertAllocs allocs => .ok (s.UpsertAllocs allocs)
  | .deleteAllocs ids => .ok (s.DeleteAllocs ids)

def runCSI : StateStore → List CSIOp → Outcome StateStore
  | s, [] => .ok s
  | s, op :: ops => (op.apply s).bind fun s => runCSI s ops

-- ---------------------------------------------------------------------------
-- A writer whose allocation was collected
-- ---------------------------------------------------------------------------

def claimJob (id : String) : Job :=
  { ID := id, Namespace := "default", «Type» := "service", Priority := 50, Stop := false,
    Version := 0, CreateIndex := 1, ModifyIndex := 1, JobModifyIndex := 1, TaskGroups := [] }

def claimAlloc (id job : String) : Allocation :=
  { ID := id, Name := 0, JobID := job, Job := claimJob job, TaskGroup := "web", NodeID := "n1",
    DesiredStatus := .run, DesiredTransition := ⟨none, none, none⟩, ClientStatus := .running,
    DeploymentID := "", DeploymentStatus := none, TaskStates := [], RescheduleTracker := none,
    NextAllocation := "", FollowupEvalID := "", ModifyTime := 0 }

def writeClaim (id : String) : CSIVolumeClaim := ⟨id, "n1", .write, .taken⟩

def pluginVolume (id : String) (mode : CSIVolumeAccessMode) : CSIVolume :=
  { ID := id, Namespace := "default", AccessMode := mode, PluginID := "p" }

def claimStore (vol : CSIVolume) (allocs : List Allocation) : StateStore :=
  ({ csiVolumes := [vol], csiPlugins := (∅ : Map String CSIPlugin).insert "p" ⟨false, 0, 1⟩ } :
    StateStore).UpsertAllocs allocs

/-- `a1` claims the single-writer volume `data` and is collected; `a2` of the same job then
claims it: `ClaimWrite` meets the `nil` stored for `a1` and panics. On the multi-writer volume
`shared`, a writer of job `j1` makes the write claim of `a2` of job `j2` fail, though the volume
may be written by many. -/
theorem csiVolumeClaim_collected_writer_panics :
    runCSI (claimStore (pluginVolume "data" .singleNodeWriter) [claimAlloc "a1" "j1"])
      [.claim 10 "default" "data" (writeClaim "a1"), .deleteAllocs ["a1"],
        .upsertAllocs [claimAlloc "a2" "j1"], .claim 11 "default" "data" (writeClaim "a2")] = .panic ∧
    (runCSI (claimStore (pluginVolume "shared" .multiNodeMultiWriter)
        [claimAlloc "a1" "j1", claimAlloc "a2" "j2"])
      [.claim 10 "default" "shared" (writeClaim "a1")]).bind
        (fun s => s.CSIVolumeClaim 11 "default" "shared" (writeClaim "a2")) =
      .err "volume max claim reached" := by
  decide

end Nomad.State
