import Nomad.Scheduler.Reconcile

/-!
# Applying a reconcile result

`GenericScheduler.computeJobAllocs` turns the reconciler's result into a plan: every
`stop` entry and every destructive update stops its allocation, every `place` entry and every
destructive update places a new one, and in-place and attribute updates rewrite an allocation
under its own ID. `applyResults` is the job's allocations once that plan is applied. A new
allocation is known by its name and group, since the node it lands on is chosen later.

The three results after the definitions are inputs on which the reconciler's result breaks
what it should keep: a placement made twice for one failed allocation, so that two new
allocations share a name, and a failed allocation that is given a delayed follow-up
evaluation and is destructively replaced in the same result.
-/

namespace Nomad.Scheduler

open Go Structs Container

/-- An allocation of the job after the plan is applied. -/
inductive planned where
  | kept (alloc : Allocation)
  | placed (name : Nat) (group : String)
  deriving DecidableEq, Repr

namespace planned

def name : planned → Nat
  | kept a => a.Name
  | placed n _ => n

def group : planned → String
  | kept a => a.TaskGroup
  | placed _ g => g

def live : planned → Bool
  | kept a => !a.TerminalStatus
  | placed _ _ => true

end planned

namespace reconcileResults

variable (r : reconcileResults)

def stoppedIDs : List String :=
  r.stop.map (·.alloc.ID) ++ r.destructiveUpdate.map (·.stopAlloc.ID)

def replaced : List Allocation :=
  r.place.filterMap (·.previousAlloc) ++ r.destructiveUpdate.map (·.stopAlloc)

end reconcileResults

/-- The job's allocations after the plan made from `r` is applied to `existing`. -/
def applyResults (r : reconcileResults) (existing : List Allocation) : List planned :=
  (existing.filter fun x => x.ID ∉ r.stoppedIDs).map .kept ++
    r.place.map (fun p => .placed p.name p.taskGroup.Name) ++
    r.destructiveUpdate.map fun d => .placed d.placeName d.placeTaskGroup.Name

def liveIn (r : reconcileResults) (existing : List Allocation) (g : String) : List planned :=
  (applyResults r existing).filter fun p => p.live && p.group == g

-- ---------------------------------------------------------------------------
-- A paused deployment with a lost and a failed allocation
-- ---------------------------------------------------------------------------

def immediateReschedule : ReschedulePolicy := ⟨1, 3600000000000, 0, "constant", 0, false⟩

def webGroup : TaskGroup :=
  { Name := "web", Count := 2, Update := none, ReschedulePolicy := some immediateReschedule }

def webJob : Job :=
  { ID := "example", Namespace := "default", «Type» := "service", Priority := 50, Stop := false,
    Version := 0, CreateIndex := 10, ModifyIndex := 10, JobModifyIndex := 10,
    TaskGroups := [webGroup] }

def webAlloc (id : String) (idx : Nat) (node : String) (client : AllocClientStatus) :
    Allocation :=
  { ID := id, Name := idx, JobID := "example", Job := webJob, TaskGroup := "web", NodeID := node,
    DesiredStatus := .run, DesiredTransition := ⟨none, none, none⟩, ClientStatus := client,
    DeploymentID := "", DeploymentStatus := none, TaskStates := [], RescheduleTracker := none,
    NextAllocation := "", FollowupEvalID := "", ModifyTime := 0 }

/-- `web[0]` runs on the down node `n1`; `web[1]` failed on `n2` and may be rescheduled now. -/
def lostAndFailed : List Allocation :=
  [webAlloc "a0" 0 "n1" .running, webAlloc "a1" 1 "n2" .failed]

def downN1 : Map String (Option Node) := (∅ : Map String (Option Node)).insert "n1" (some { Status := .down })

def pausedReconciler : allocReconciler :=
  NewAllocReconciler (fun x _ _ => (true, false, x)) false "example" (some webJob)
    (some { NewDeployment webJob "d1" with Status := .paused }) lostAndFailed downN1 "eval1"
    (Time.Unix 0 0) fun _ => "uuid"

/-- The placement for the lost allocation is taken from the front of `place`, where the
rescheduling placement of the failed one stands, and the rescheduling loop adds it again. -/
theorem pausedDeployment_replaces_failed_twice :
    pausedReconciler.Compute.replaced = [webAlloc "a1" 1 "n2" .failed, webAlloc "a1" 1 "n2" .failed] ∧
      ¬ pausedReconciler.Compute.replaced.Nodup := by
  decide

/-- Both new allocations of `lostAndFailed` are named `web[1]`; before, the live allocation
`web[0]` had its name to itself. -/
theorem pausedDeployment_duplicates_name :
    ((lostAndFailed.filter fun x => !x.TerminalStatus).map (·.Name)).Nodup ∧
      (liveIn pausedReconciler.Compute lostAndFailed "web").map planned.name = [1, 1] := by
  decide

-- ---------------------------------------------------------------------------
-- A delayed reschedule under a destructive job update
-- ---------------------------------------------------------------------------

def delayedReschedule : ReschedulePolicy := ⟨1, 3600000000000, 30000000000, "constant", 0, false⟩

def apiGroup : TaskGroup :=
  { Name := "api", Count := 1, Update := none, ReschedulePolicy := some delayedReschedule }

def apiJob (v : Nat) : Job :=
  { ID := "example", Namespace := "default", «Type» := "service", Priority := 50, Stop := false,
    Version := v, CreateIndex := 10, ModifyIndex := v, JobModifyIndex := v,
    TaskGroups := [apiGroup] }

def failedApi : Allocation :=
  { ID := "f0", Name := 0, JobID := "example", Job := apiJob 10, TaskGroup := "api",
    NodeID := "n1", DesiredStatus := .run, DesiredTransition := ⟨none, none, none⟩,
    ClientStatus := .failed, DeploymentID := "", DeploymentStatus := none, TaskStates := [],
    RescheduleTracker := none, NextAllocation := "", FollowupEvalID := "", ModifyTime := 0 }

/-- The reconciler of version 20 of the job, without a deployment, for an update whose tasks
changed. -/
def updateReconciler : allocReconciler :=
  NewAllocReconciler (genericAllocUpdateFn (fun _ _ _ => true) fun x _ _ => (false, false, x))
    false "example" (some (apiJob 20)) none [failedApi] ∅
    "eval1" (Time.Unix 0 0) fun _ => "uuid"

/-- `failedApi` is due in 30 seconds: it gets a follow-up evaluation and an attribute update,
stays in the untainted set, and `computeUpdates` then replaces it destructively. -/
theorem delayedReschedule_destructively_replaced :
    updateReconciler.Compute.destructiveUpdate.map (·.stopAlloc.ID) = ["f0"] ∧
      "f0" ∈ updateReconciler.Compute.attributeUpdates := by
  decide

end Nomad.Scheduler
