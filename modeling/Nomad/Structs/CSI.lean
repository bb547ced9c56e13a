import Nomad.Go.Outcome
import Nomad.Structs.Alloc

/-!
# CSI volumes and their claims

`nomad/structs/csi.go`: a volume records its readers and writers by allocation ID, each with the
allocation that `CSIVolumeDenormalize` looked up for it, or `nil` where none was found, and the
claims behind them. `ClaimRead`, `ClaimWrite` and `ClaimRelease` move an allocation between the
readers, the writers and the past claims. `ClaimWrite` checks the writers it finds against the
claiming allocation's job by dereferencing each writer's allocation, so a writer that was never
looked up panics there; its result is an `Outcome`.
-/

namespace Nomad.Structs

open Go Container

inductive CSIVolumeAccessMode where
  | unknown
  | singleNodeReader
  | singleNodeWriter
  | multiNodeReader
  | multiNodeSingleWriter
  | multiNodeMultiWriter
  deriving DecidableEq, Repr

inductive CSIVolumeClaimMode where
  | read | write | release
  deriving DecidableEq, Repr

inductive CSIVolumeClaimState where
  | taken | nodeDetached | controllerDetached | readyToFree
  deriving DecidableEq, Repr

structure CSIVolumeClaim where
  AllocationID : String
  NodeID : String
  Mode : CSIVolumeClaimMode
  State : CSIVolumeClaimState
  deriving DecidableEq, Repr

/-- `structs.CSIVolume`, with the fields the claims and the scheduler's checker read. -/
structure CSIVolume where
  ID : String
  Namespace : String
  AccessMode : CSIVolumeAccessMode
  ReadAllocs : Map String (Option Allocation) := ∅
  WriteAllocs : Map String (Option Allocation) := ∅
  ReadClaims : Map String CSIVolumeClaim := ∅
  WriteClaims : Map String CSIVolumeClaim := ∅
  PastClaims : Map String CSIVolumeClaim := ∅
  Schedulable : Bool := false
  PluginID : String
  ControllerRequired : Bool := false
  ControllersHealthy : Int := 0
  NodesHealthy : Int := 0
  ResourceExhausted : Time := ⟨0⟩
  ModifyIndex : Nat := 0
  deriving DecidableEq, Repr

namespace CSIVolume

variable (v : CSIVolume)

def WriterMode : CSIVolumeAccessMode → Bool
  | .singleNodeWriter | .multiNodeSingleWriter | .multiNodeMultiWriter => true
  | _ => false

def ReadSchedulable : Bool := v.Schedulable && v.ResourceExhausted.IsZero

def WriteSchedulable : Bool := v.Schedulable && WriterMode v.AccessMode && v.ResourceExhausted.IsZero

def WriteFreeClaims : Bool := WriterMode v.AccessMode && v.WriteAllocs.entries.length == 0

def InUse : Bool := v.ReadAllocs.entries.length ≠ 0 || v.WriteAllocs.entries.length ≠ 0

/-- The loop of `ClaimWrite` over the writers: every one must belong to the job of `alloc`. -/
def checkWriters (alloc : Allocation) : List (Σ _ : String, Option Allocation) → Outcome Unit
  | [] => .ok ()
  | ⟨_, none⟩ :: _ => .panic
  | ⟨_, some a⟩ :: rest =>
    if a.Namespace ≠ alloc.Namespace ∨ a.JobID ≠ alloc.JobID then .err "volume max claim reached"
    else checkWriters alloc rest

def ClaimRead (claim : CSIVolumeClaim) (alloc : Option Allocation) : Outcome CSIVolume :=
  if claim.AllocationID ∈ v.ReadAllocs then .ok v
  else match alloc with
    | none => .err ("allocation missing: " ++ claim.AllocationID)
    | some _ =>
      if !v.ReadSchedulable then .err "unschedulable"
      else .ok { v with
        ReadAllocs := v.ReadAllocs.insert claim.AllocationID none
        WriteAllocs := v.WriteAllocs.erase claim.AllocationID
        ReadClaims := v.ReadClaims.insert claim.AllocationID claim
        WriteClaims := v.WriteClaims.erase claim.AllocationID
        PastClaims := v.PastClaims.erase claim.AllocationID }

def ClaimWrite (claim : CSIVolumeClaim) (alloc : Option Allocation) : Outcome CSIVolume :=
  if claim.AllocationID ∈ v.WriteAllocs then .ok v
  else match alloc with
    | none => .err ("allocation missing: " ++ claim.AllocationID)
    | some alloc =>
      if !v.WriteSchedulable then .err "unschedulable"
      else
        let check := if !v.WriteFreeClaims then checkWriters alloc v.WriteAllocs.entries else .ok ()
        check.bind fun _ => .ok { v with
          WriteAllocs := v.WriteAllocs.insert alloc.ID none
          ReadAllocs := v.ReadAllocs.erase alloc.ID
          WriteClaims := v.WriteClaims.insert alloc.ID claim
          ReadClaims := v.ReadClaims.erase alloc.ID
          PastClaims := v.PastClaims.erase alloc.ID }

def ClaimRelease (claim : CSIVolumeClaim) : CSIVolume :=
  { v with
    ReadAllocs := v.ReadAllocs.erase claim.AllocationID
    WriteAllocs := v.WriteAllocs.erase claim.AllocationID
    ReadClaims := v.ReadClaims.erase claim.AllocationID
    WriteClaims := v.WriteClaims.erase claim.AllocationID
    PastClaims := if claim.State = .readyToFree then v.PastClaims.erase claim.AllocationID
      else v.PastClaims.insert claim.AllocationID claim }

def Claim (claim : CSIVolumeClaim) (alloc : Option Allocation) : Outcome CSIVolume :=
  match claim.Mode with
  | .read => v.ClaimRead claim alloc
  | .write => v.ClaimWrite claim alloc
  | .release => .ok (v.ClaimRelease claim)

end CSIVolume

end Nomad.Structs
