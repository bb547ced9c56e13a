import Nomad.State.CSIVolumes

/-!
# The CSI volume feasibility check

`CSIVolumeChecker` of `scheduler/feasible.go`: for the CSI volumes a task group asks for, a node
is feasible if it runs a healthy node plugin for each volume's plugin with room for one more
volume, and each volume can be read, or written: by a free write claim, or because all its
writers belong to the placing job. `hasPlugins` returns from inside its loop over the requests as
soon as one request may be written through a free claim, so the requests the loop has not yet
visited are never checked; Go visits the map of requests in no fixed order, and the model in the
order of its entries.
-/

namespace Nomad.Scheduler

open Go Container Structs State

def FilterConstraintCSIPluginTemplate (plugin node : String) : String :=
  "CSI plugin " ++ plugin ++ " is missing from client " ++ node
def FilterConstraintCSIPluginUnhealthyTemplate (plugin node : String) : String :=
  "CSI plugin " ++ plugin ++ " is unhealthy on client " ++ node
def FilterConstraintCSIPluginMaxVolumesTemplate (plugin node : String) : String :=
  "CSI plugin " ++ plugin ++ " has the maximum number of volumes on client " ++ node
def FilterConstraintCSIVolumeNotFoundTemplate (source : String) : String :=
  "missing CSI Volume " ++ source
def FilterConstraintCSIVolumeNoReadTemplate (vol : String) : String :=
  "CSI volume " ++ vol ++ " is unschedulable or has exhausted its available reader claims"
def FilterConstraintCSIVolumeNoWriteTemplate (vol : String) : String :=
  "CSI volume " ++ vol ++ " is unschedulable or is read-only"
def FilterConstraintCSIVolumeInUseTemplate (vol : String) : String :=
  "CSI volume " ++ vol ++ " has exhausted its available writer claims"

structure CSIVolumeChecker where
  «namespace» : String
  jobID : String
  volumes : Map String VolumeRequest

namespace CSIVolumeChecker

variable (c : CSIVolumeChecker)

/-- `SetVolumes`: only the CSI requests are kept. -/
def SetVolumes (volumes : Map String VolumeRequest) : CSIVolumeChecker :=
  { c with volumes := volumes.filter fun _ req => req.«Type» = VolumeTypeCSI }

/-- The count per plugin of the volumes on the node, read until the iterator's first `nil`. -/
def pluginCounts : List (Option CSIVolume) → Map String Int → Map String Int
  | [], counts => counts
  | none :: _, counts => counts
  | some vol :: rest, counts =>
    pluginCounts rest (counts.insert vol.PluginID (((counts.lookup vol.PluginID).getD 0) + 1))

def writersOfJob (s : StateStore) (writers : List String) : Bool :=
  writers.all fun id => match s.AllocByID id with
    | some a => a.Namespace = c.«namespace» && a.JobID = c.jobID
    | none => false

def checkRequests (s : StateStore) (n : Node) (pluginCount : Map String Int) :
    List (Σ _ : String, VolumeRequest) → Bool × String
  | [] => (true, "")
  | ⟨_, req⟩ :: rest =>
    match s.CSIVolumeByID c.«namespace» req.Source with
    | none => (false, FilterConstraintCSIVolumeNotFoundTemplate req.Source)
    | some vol =>
      match n.CSINodePlugins.lookup vol.PluginID with
      | none => (false, FilterConstraintCSIPluginTemplate vol.PluginID n.ID)
      | some plugin =>
        if !plugin.Healthy then (false, FilterConstraintCSIPluginUnhealthyTemplate vol.PluginID n.ID)
        else if plugin.NodeInfo.MaxVolumes ≤ (pluginCount.lookup vol.PluginID).getD 0 then
          (false, FilterConstraintCSIPluginMaxVolumesTemplate vol.PluginID n.ID)
        else if req.ReadOnly then
          if !vol.ReadSchedulable then (false, FilterConstraintCSIVolumeNoReadTemplate vol.ID)
          else checkRequests s n pluginCount rest
        else if !vol.WriteSchedulable then (false, FilterConstraintCSIVolumeNoWriteTemplate vol.ID)
        -- a free write claim ends the whole check
        else if vol.WriteFreeClaims then (true, "")
        else if !c.writersOfJob s vol.WriteAllocs.keys then
          (false, FilterConstraintCSIVolumeInUseTemplate vol.ID)
        else checkRequests s n pluginCount rest

def hasPlugins (s : StateStore) (n : Node) : Outcome (Bool × String) :=
  if c.volumes.entries.length = 0 then .ok (true, "")
  else (s.CSIVolumesByNodeID n.ID).map fun vols =>
    c.checkRequests s n (pluginCounts vols ∅) c.volumes.entries

def Feasible (s : StateStore) (n : Node) : Outcome Bool := (c.hasPlugins s n).map (·.1)

end CSIVolumeChecker

-- ---------------------------------------------------------------------------
-- Two volumes, one of them missing
-- ---------------------------------------------------------------------------

def pluginNode : Node :=
  { Status := .ready, ID := "n1", CSINodePlugins := (∅ : Map String CSIInfo).insert "p" ⟨true, ⟨10⟩⟩ }

def twoRequests (first second : String) : Map String VolumeRequest :=
  ((∅ : Map String VolumeRequest).insert second ⟨second, VolumeTypeCSI, second, false⟩).insert first
    ⟨first, VolumeTypeCSI, first, false⟩

def dataStore : StateStore :=
  { csiVolumes := [pluginVolume "data" .singleNodeWriter],
    csiPlugins := (∅ : Map String CSIPlugin).insert "p" ⟨false, 0, 1⟩ }

def jobChecker : CSIVolumeChecker := ⟨"default", "j1", ∅⟩

/-- The free write claim of `data` ends the check before the missing `logs` is looked up; in the
other order of the requests the node is rejected. -/
theorem csiVolumeChecker_skips_later_requests :
    (jobChecker.SetVolumes (twoRequests "data" "logs")).Feasible dataStore pluginNode = .ok true ∧
      dataStore.CSIVolumeByID "default" "logs" = none ∧
      (jobChecker.SetVolumes (twoRequests "logs" "data")).Feasible dataStore pluginNode = .ok false := by
  decide

end Nomad.Scheduler
