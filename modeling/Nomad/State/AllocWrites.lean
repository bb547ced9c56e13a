import Nomad.State.JobWrites
import Nomad.Go.Except

/-!
# Writing allocations and deployments

`nomad/state/state_store.go`: `upsertAllocsImpl`, through which the scheduler's allocations
reach the store, `nestedUpdateAllocFromClient`, through which the clients' do, and the two
counters every allocation write keeps up to date: the deployment state of its group
(`updateDeploymentWithAlloc`) and the summary of its job (`updateSummaryWithAlloc`); with the
deployment writes they use (`upsertDeploymentImpl`, `updateDeploymentStatusImpl`).

A request's allocation may come without its job (the plan sends the job once): `AllocInput` keeps
`Job` beside the allocation as an `Option`. Each allocation write also returns what the two
counters saw, as an `AllocWrite`: the tables before it, the allocation it replaces and the one it
stores. The statements about whole runs are about these writes; the code keeps no such record.
The `ModifyIndex` of an allocation's deployment status, `AllocModifyIndex` and the enterprise hook
`updateEntWithAlloc`, which does nothing in the open-source build, are not modelled.
-/

namespace Nomad.State

open Go Container Structs AllocDeploymentStatus

/-- An allocation of a write request; `job` is its `Job`, `none` where the request left it out. -/
structure AllocInput where
  alloc : Allocation
  job : Option Job
  deriving DecidableEq, Repr

def AllocInput.ofAlloc (a : Allocation) : AllocInput := ⟨a, some a.Job⟩

structure AllocWrite where
  before : StateStore
  existing : Option Allocation
  alloc : Allocation

structure DeploymentStatusUpdate where
  DeploymentID : String
  Status : DeploymentStatus
  StatusDescription : String
  deriving DecidableEq, Repr

/-- The placed, healthy and unhealthy deltas `updateDeploymentWithAlloc` applies for an
allocation replacing `existing`. -/
def deploymentDelta (alloc : Allocation) : Option Allocation → Int × Int × Int
  | none => (1, 0, 0)
  | some existing =>
    if existing.DeploymentID ≠ alloc.DeploymentID then (1, 0, 0)
    else
      match existing.DeploymentStatus.bind (·.Healthy), alloc.DeploymentStatus.bind (·.Healthy) with
      | none, some healthy => if healthy then (0, 1, 0) else (0, 0, 1)
      -- gone from healthy to unhealthy
      | some true, some false => (0, -1, 1)
      | _, _ => (0, 0, 0)

section deploymentDelta

variable {alloc e : Allocation}

theorem deploymentDelta_of_ne (h : e.DeploymentID ≠ alloc.DeploymentID) :
    deploymentDelta alloc (some e) = (1, 0, 0) := by
  simp [deploymentDelta, h]

theorem deploymentDelta_of_set (h : e.DeploymentID = alloc.DeploymentID)
    (he : e.DeploymentStatus.bind (·.Healthy) = none) {healthy : Bool}
    (ha : alloc.DeploymentStatus.bind (·.Healthy) = some healthy) :
    deploymentDelta alloc (some e) = if healthy then (0, 1, 0) else (0, 0, 1) := by
  simp [deploymentDelta, h, he, ha]

theorem deploymentDelta_of_unhealthy (h : e.DeploymentID = alloc.DeploymentID)
    (he : e.DeploymentStatus.bind (·.Healthy) = some true)
    (ha : alloc.DeploymentStatus.bind (·.Healthy) = some false) :
    deploymentDelta alloc (some e) = (0, -1, 1) := by
  simp [deploymentDelta, h, he, ha]

theorem deploymentDelta_of_same (h : e.DeploymentID = alloc.DeploymentID)
    (hh : alloc.DeploymentStatus.bind (·.Healthy) = e.DeploymentStatus.bind (·.Healthy)) :
    deploymentDelta alloc (some e) = (0, 0, 0) := by
  rcases he : e.DeploymentStatus.bind (·.Healthy) with _ | _ | _ <;> simp [deploymentDelta, h, he, hh ▸ he]

end deploymentDelta

/-- A deployment state after `updateDeploymentWithAlloc`'s deltas: the counters, the canary list
and the progress deadline. -/
def DeploymentState.withAlloc (state : DeploymentState) (alloc : Allocation)
    (delta : Int × Int × Int) : DeploymentState :=
  let (placed, healthy, unhealthy) := delta
  let state := { state with
    PlacedAllocs := state.PlacedAllocs + placed
    HealthyAllocs := state.HealthyAllocs + healthy
    UnhealthyAllocs := state.UnhealthyAllocs + unhealthy }
  let state :=
    if IsCanary alloc.DeploymentStatus ∧ alloc.ID ∉ state.PlacedCanaries then
      { state with PlacedCanaries := state.PlacedCanaries ++ [alloc.ID] }
    else state
  let pd := state.ProgressDeadline
  if pd ≠ 0 then
    -- the first placement starts the deadline; modify time, since an allocation may be updated
    -- in place into a new deployment
    if placed ≠ 0 ∧ state.RequireProgressBy.IsZero then
      { state with RequireProgressBy := (Time.Unix 0 alloc.ModifyTime).Add pd }
    else if healthy ≠ 0 then
      let d := ((alloc.DeploymentStatus.map fun (d : AllocDeploymentStatus) => d.Timestamp).getD ⟨0⟩).Add pd
      if d.After state.RequireProgressBy then { state with RequireProgressBy := d } else state
    else state
  else state

section withAlloc

variable (state : DeploymentState) (alloc : Allocation) (delta : Int × Int × Int)

@[simp] theorem DeploymentState.withAlloc_PlacedAllocs :
    (DeploymentState.withAlloc state alloc delta).PlacedAllocs = state.PlacedAllocs + delta.1 := by
  obtain ⟨placed, healthy, unhealthy⟩ := delta
  unfold DeploymentState.withAlloc
  dsimp only
  split_ifs <;> rfl

@[simp] theorem DeploymentState.withAlloc_HealthyAllocs :
    (DeploymentState.withAlloc state alloc delta).HealthyAllocs = state.HealthyAllocs + delta.2.1 := by
  obtain ⟨placed, healthy, unhealthy⟩ := delta
  unfold DeploymentState.withAlloc
  dsimp only
  split_ifs <;> rfl

@[simp] theorem DeploymentState.withAlloc_UnhealthyAllocs :
    (DeploymentState.withAlloc state alloc delta).UnhealthyAllocs = state.UnhealthyAllocs + delta.2.2 := by
  obtain ⟨placed, healthy, unhealthy⟩ := delta
  unfold DeploymentState.withAlloc
  dsimp only
  split_ifs <;> rfl

@[simp] theorem DeploymentState.withAlloc_PlacedCanaries :
    (DeploymentState.withAlloc state alloc delta).PlacedCanaries =
      if IsCanary alloc.DeploymentStatus ∧ alloc.ID ∉ state.PlacedCanaries then
        state.PlacedCanaries ++ [alloc.ID]
      else state.PlacedCanaries := by
  obtain ⟨placed, healthy, unhealthy⟩ := delta
  unfold DeploymentState.withAlloc
  dsimp only
  split_ifs <;> rfl

end withAlloc

/-- The bin of `status` one allocation less, never below zero; the failed and complete bins are
never decremented. -/
def TaskGroupSummary.decr (t : TaskGroupSummary) : AllocClientStatus → TaskGroupSummary
  | .running => if 0 < t.Running then { t with Running := t.Running - 1 } else t
  | .pending => if 0 < t.Starting then { t with Starting := t.Starting - 1 } else t
  | .lost => if 0 < t.Lost then { t with Lost := t.Lost - 1 } else t
  | .failed | .complete => t

/-- A task group summary after an allocation replacing `existing`, and whether it changed: the
two cases of `updateSummaryWithAlloc`. A new allocation counts only when it is pending. -/
def TaskGroupSummary.withAlloc (t : TaskGroupSummary) (alloc : Allocation) :
    Option Allocation → TaskGroupSummary × Bool
  | none =>
    match alloc.ClientStatus with
    | .pending =>
      ({ t with Starting := t.Starting + 1, Queued := if 0 < t.Queued then t.Queued - 1 else t.Queued },
        true)
    | _ => (t, false)
  | some existing =>
    if existing.ClientStatus ≠ alloc.ClientStatus then
      ((t.incr alloc.ClientStatus).decr existing.ClientStatus, true)
    else (t, false)

/-- The allocation `upsertAllocsImpl` stores for a request, given the one stored under its ID. -/
def upsertedAlloc (index : Nat) (input : AllocInput) : Option Allocation → Except String Allocation
  | none =>
    match input.job with
    | none => .error ("attempting to upsert allocation " ++ strconv.Quote input.alloc.ID ++
        " without a job")
    | some job => .ok { input.alloc with Job := job, CreateIndex := index, ModifyIndex := index }
  | some exist =>
    let alloc := { input.alloc with
      CreateIndex := exist.CreateIndex, ModifyIndex := index, TaskStates := exist.TaskStates
      Job := input.job.getD exist.Job }
    -- a scheduler marking the allocation lost overrides the client; otherwise the client's
    -- status stays
    .ok (if alloc.ClientStatus ≠ .lost then
        { alloc with ClientStatus := exist.ClientStatus, ClientDescription := exist.ClientDescription }
      else alloc)

/-- What a client may change of the deployment status: health and its timestamp when the client
reports a new health, or all of it when the server has none. -/
def mergeDeploymentStatus (old new : Option AllocDeploymentStatus) : Option AllocDeploymentStatus :=
  match old, new with
  | some o, some n =>
    match n.Healthy with
    | some h => if o.Healthy ≠ some h then some { o with Healthy := some h, Timestamp := n.Timestamp }
      else some o
    | none => some o
  | none, some n => some n
  | old, none => old

namespace StateStore

variable (s : StateStore)

-- ---------------------------------------------------------------------------
-- Deployments
-- ---------------------------------------------------------------------------

def upsertDeploymentImpl (index : Nat) (deployment : Deployment) : Except String StateStore :=
  let deployment := match s.deployments.lookup deployment.ID with
    | some existing => { deployment with CreateIndex := existing.CreateIndex, ModifyIndex := index }
    | none => { deployment with CreateIndex := index, ModifyIndex := index }
  let s := s.insertDeployment deployment
  if deployment.Status = .successful then
    (s.updateJobStabilityImpl index deployment.Namespace deployment.JobID deployment.JobVersion
      true).mapError ("failed to update job stability: " ++ ·)
  else .ok s

def terminalDeploymentError (deployment : Deployment) : String :=
  "Deployment " ++ strconv.Quote deployment.ID ++ " has terminal status " ++
    strconv.Quote deployment.Status.toString ++ ":"

def missingDeploymentError (id : String) : String :=
  "Deployment ID " ++ strconv.Quote id ++ " couldn't be updated as it does not exist"

/-- The tables after the update, and its error if it failed. What the update wrote before a failed
stability update stays in the transaction: `UpsertPlanResults` ignores the error and commits. -/
def updateDeploymentStatusImpl (index : Nat) (u : DeploymentStatusUpdate) :
    StateStore × Option String :=
  match s.deployments.lookup u.DeploymentID with
  | none => (s, some (missingDeploymentError u.DeploymentID))
  | some deployment =>
    if !deployment.Active then (s, some (terminalDeploymentError deployment))
    else
      let copy := { deployment with
        Status := u.Status, StatusDescription := u.StatusDescription, ModifyIndex := index }
      let s := s.insertDeployment copy
      if copy.Status = .successful then
        match s.updateJobStabilityImpl index copy.Namespace copy.JobID copy.JobVersion true with
        | .ok s => (s, none)
        | .error e => (s, some ("failed to update job stability: " ++ e))
      else (s, none)

def upsertDeploymentUpdates (t : StateStore) (index : Nat) :
    List DeploymentStatusUpdate → StateStore × Option String
  | [] => (t, none)
  | u :: us =>
    match t.updateDeploymentStatusImpl index u with
    | (t, none) => t.upsertDeploymentUpdates index us
    | r => r

-- ---------------------------------------------------------------------------
-- The counters of an allocation write
-- ---------------------------------------------------------------------------

def updateDeploymentWithAlloc (index : Nat) (alloc : Allocation) (existing : Option Allocation) :
    Except String StateStore :=
  if alloc.DeploymentID = "" then .ok s
  else
    match s.deployments.lookup alloc.DeploymentID with
    | none => .ok s
    | some deployment =>
      -- a group outside the deployment is not part of the rolling update
      match deployment.TaskGroups.lookup alloc.TaskGroup with
      | none => .ok s
      | some state =>
        let delta := deploymentDelta alloc existing
        if delta = (0, 0, 0) then .ok s
        else
          s.upsertDeploymentImpl index { deployment with
            ModifyIndex := index
            TaskGroups := deployment.TaskGroups.insert alloc.TaskGroup
              (DeploymentState.withAlloc state alloc delta) }

def updateSummaryWithAlloc (index : Nat) (alloc : Allocation) (existingAlloc : Option Allocation) :
    Except String StateStore :=
  match s.jobSummaries.lookup (alloc.Namespace, alloc.JobID) with
  | none =>
    -- no summary: the job is gone, or the summary is missing
    match s.JobByID alloc.Namespace alloc.JobID with
    | none => .ok s
    | some _ => .error ("job summary for job " ++ strconv.Quote alloc.JobID ++ " in namespace " ++
        strconv.Quote alloc.Namespace ++ " is not present")
  | some jobSummary =>
    -- an allocation of an earlier job with this ID
    if jobSummary.CreateIndex ≠ alloc.Job.CreateIndex then .ok s
    else
      match jobSummary.Summary.lookup alloc.TaskGroup with
      | none => .error ("unable to find task group in the job summary: " ++ alloc.TaskGroup)
      | some tgSummary =>
        let (tgSummary, summaryChanged) := tgSummary.withAlloc alloc existingAlloc
        if summaryChanged then
          .ok (s.insertSummary { jobSummary with
            Summary := jobSummary.Summary.insert alloc.TaskGroup tgSummary, ModifyIndex := index })
        else .ok s

-- ---------------------------------------------------------------------------
-- Allocation writes
-- ---------------------------------------------------------------------------

def linkPrevious (index : Nat) (alloc : Allocation) : StateStore :=
  if alloc.PreviousAllocation = "" then s
  else
    match s.allocs.lookup alloc.PreviousAllocation with
    | none => s
    | some prev => s.insertAlloc { prev with NextAllocation := alloc.ID, ModifyIndex := index }

/-- The job status `upsertAllocsImpl` and `nestedUpdateAllocFromClient` force: running while the
allocation is. -/
def forceStatusOf (alloc : Allocation) : String := if !alloc.TerminalStatus then JobStatusRunning else ""

def upsertAlloc (index : Nat) (acc : StateStore × Map NamespacedID String × List AllocWrite)
    (input : AllocInput) : Except String (StateStore × Map NamespacedID String × List AllocWrite) := do
  let (s, jobs, log) := acc
  let exist := s.allocs.lookup input.alloc.ID
  let alloc ← upsertedAlloc index input exist
  let t ← (s.updateDeploymentWithAlloc index alloc exist).mapError ("error updating deployment: " ++ ·)
  let t ← (t.updateSummaryWithAlloc index alloc exist).mapError ("error updating job summary: " ++ ·)
  let t := (t.insertAlloc alloc).linkPrevious index alloc
  pure (t, jobs.insert ⟨alloc.JobID, alloc.Namespace⟩ (forceStatusOf alloc), log ++ [⟨s, exist, alloc⟩])

def upsertAllocsImpl (index : Nat) (allocs : List AllocInput) :
    Except String (StateStore × List AllocWrite) := do
  let (s, jobs, log) ← allocs.foldlM (upsertAlloc index) (s, ∅, [])
  let s ← (s.setJobStatuses index jobs false).mapError ("setting job status failed: " ++ ·)
  pure (s, log)

def nestedUpdateAllocFromClient (index : Nat) (alloc : Allocation) :
    Except String (StateStore × List AllocWrite) :=
  match s.allocs.lookup alloc.ID with
  | none => .ok (s, [])
  | some exist => do
    let copyAlloc := { exist with
      ClientStatus := alloc.ClientStatus, ClientDescription := alloc.ClientDescription
      TaskStates := alloc.TaskStates
      DeploymentStatus := mergeDeploymentStatus exist.DeploymentStatus alloc.DeploymentStatus
      ModifyIndex := index, ModifyTime := alloc.ModifyTime }
    let t ← (s.updateDeploymentWithAlloc index copyAlloc (some exist)).mapError
      ("error updating deployment: " ++ ·)
    let t ← (t.updateSummaryWithAlloc index copyAlloc (some exist)).mapError
      ("error updating job summary: " ++ ·)
    let t := t.insertAlloc copyAlloc
    let jobs : Map NamespacedID String :=
      (∅ : Map NamespacedID String).insert ⟨exist.JobID, exist.Namespace⟩ (forceStatusOf copyAlloc)
    let t ← (t.setJobStatuses index jobs false).mapError ("setting job status failed: " ++ ·)
    pure (t, [⟨s, some exist, copyAlloc⟩])

def updateAllocFromClientStep (index : Nat) (acc : StateStore × List AllocWrite) (alloc : Allocation) :
    Except String (StateStore × List AllocWrite) := do
  let (t, w) ← acc.1.nestedUpdateAllocFromClient index alloc
  pure (t, acc.2 ++ w)

def UpdateAllocsFromClient (index : Nat) (allocs : List Allocation) :
    Except String (StateStore × List AllocWrite) :=
  allocs.foldlM (updateAllocFromClientStep index) (s, [])

-- ---------------------------------------------------------------------------
-- What each write does
-- ---------------------------------------------------------------------------

section spec

variable {s t : StateStore} {index : Nat}

theorem upsertDeploymentImpl_ok {deployment : Deployment}
    (h : s.upsertDeploymentImpl index deployment = .ok t) :
    ∃ ci, t = s.insertDeployment { deployment with CreateIndex := ci, ModifyIndex := index } ∨
      deployment.Status = .successful ∧
        (s.insertDeployment { deployment with CreateIndex := ci, ModifyIndex := index }).updateJobStabilityImpl
          index deployment.Namespace deployment.JobID deployment.JobVersion true = .ok t := by
  unfold upsertDeploymentImpl at h
  dsimp only at h
  -- the create index is the stored deployment's, or this write's for a new one
  cases hl : s.deployments.lookup deployment.ID with
  | none =>
    rw [hl] at h
    dsimp only at h
    refine ⟨index, ?_⟩
    split_ifs at h with hs
    · exact .inr ⟨hs, mapError_eq_ok.mp h⟩
    · exact .inl (Except.ok.inj h).symm
  | some existing =>
    rw [hl] at h
    dsimp only at h
    refine ⟨existing.CreateIndex, ?_⟩
    split_ifs at h with hs
    · exact .inr ⟨hs, mapError_eq_ok.mp h⟩
    · exact .inl (Except.ok.inj h).symm

theorem upsertDeploymentImpl_frame {deployment : Deployment}
    (h : s.upsertDeploymentImpl index deployment = .ok t) :
    ∃ ci, JobWriteFrame (s.insertDeployment { deployment with CreateIndex := ci, ModifyIndex := index }) t := by
  obtain ⟨ci, rfl | ⟨-, hj⟩⟩ := upsertDeploymentImpl_ok h
  · exact ⟨ci, .refl _⟩
  · exact ⟨ci, updateJobStabilityImpl_frame hj⟩

/-- The tables `updateDeploymentStatusImpl` leaves, whether it fails or not: as they were, or with
the deployment's new status, and then its job version marked stable. -/
theorem updateDeploymentStatusImpl_fst (s : StateStore) (index : Nat) (u : DeploymentStatusUpdate) :
    (s.updateDeploymentStatusImpl index u).1 = s ∨
      ∃ deployment, s.deployments.lookup u.DeploymentID = some deployment ∧ deployment.Active = true ∧
        ((s.updateDeploymentStatusImpl index u).1 = s.insertDeployment { deployment with
            Status := u.Status, StatusDescription := u.StatusDescription, ModifyIndex := index } ∨
          u.Status = .successful ∧ (s.insertDeployment { deployment with
            Status := u.Status, StatusDescription := u.StatusDescription, ModifyIndex := index
          }).updateJobStabilityImpl index deployment.Namespace deployment.JobID deployment.JobVersion
            true = .ok (s.updateDeploymentStatusImpl index u).1) := by
  unfold updateDeploymentStatusImpl
  cases hl : s.deployments.lookup u.DeploymentID with
  | none => exact .inl rfl
  | some deployment =>
    dsimp only
    cases ha : deployment.Active
    · exact .inl rfl
    · refine .inr ⟨deployment, rfl, ha, ?_⟩
      simp only [Bool.not_true, Bool.false_eq_true, if_false]
      split_ifs with hs
      · split
        · rename_i t' ht
          exact .inr ⟨hs, ht⟩
        · exact .inl rfl
      · exact .inl rfl

/-- `updateDeploymentWithAlloc` writes only the deployment of the allocation, and only when the
allocation's group is part of it and the allocation moves a counter. -/
theorem updateDeploymentWithAlloc_ok {alloc : Allocation} {existing : Option Allocation}
    (h : s.updateDeploymentWithAlloc index alloc existing = .ok t) :
    t = s ∨ ∃ deployment state, alloc.DeploymentID ≠ "" ∧
      s.deployments.lookup alloc.DeploymentID = some deployment ∧
      deployment.TaskGroups.lookup alloc.TaskGroup = some state ∧
      deploymentDelta alloc existing ≠ (0, 0, 0) ∧
      s.upsertDeploymentImpl index { deployment with
        ModifyIndex := index
        TaskGroups := deployment.TaskGroups.insert alloc.TaskGroup
          (DeploymentState.withAlloc state alloc (deploymentDelta alloc existing)) } = .ok t := by
  unfold updateDeploymentWithAlloc at h
  split_ifs at h with hid
  · exact .inl (Except.ok.inj h).symm
  split at h
  · exact .inl (Except.ok.inj h).symm
  rename_i deployment hd
  split at h
  · exact .inl (Except.ok.inj h).symm
  rename_i state hs
  dsimp only at h
  split_ifs at h with hdelta
  · exact .inl (Except.ok.inj h).symm
  · exact .inr ⟨deployment, state, hid, hd, hs, hdelta, h⟩

theorem updateDeploymentWithAlloc_of_delta {alloc : Allocation} {existing : Option Allocation}
    {deployment : Deployment} {state : DeploymentState} (hid : alloc.DeploymentID ≠ "")
    (hd : s.deployments.lookup alloc.DeploymentID = some deployment)
    (hs : deployment.TaskGroups.lookup alloc.TaskGroup = some state)
    (hdelta : deploymentDelta alloc existing ≠ (0, 0, 0)) :
    s.updateDeploymentWithAlloc index alloc existing = s.upsertDeploymentImpl index { deployment with
      ModifyIndex := index
      TaskGroups := deployment.TaskGroups.insert alloc.TaskGroup
        (DeploymentState.withAlloc state alloc (deploymentDelta alloc existing)) } := by
  unfold updateDeploymentWithAlloc
  rw [if_neg hid, hd]
  dsimp only
  rw [hs]
  dsimp only
  rw [if_neg hdelta]

theorem updateDeploymentWithAlloc_kept {alloc : Allocation} {existing : Option Allocation}
    (h : s.updateDeploymentWithAlloc index alloc existing = .ok t) :
    t.allocs = s.allocs ∧ ∀ ns id, (s.JobByID ns id).isSome → (t.JobByID ns id).isSome := by
  rcases updateDeploymentWithAlloc_ok h with rfl | ⟨_, _, -, -, -, -, hd⟩
  · exact ⟨rfl, fun _ _ h => h⟩
  · obtain ⟨_, hf⟩ := upsertDeploymentImpl_frame hd
    exact ⟨hf.allocs, hf.jobs_kept⟩

theorem updateSummaryWithAlloc_ok {alloc : Allocation} {existing : Option Allocation}
    (h : s.updateSummaryWithAlloc index alloc existing = .ok t) :
    (s.jobSummaries.lookup (alloc.Namespace, alloc.JobID) = none ∧
        s.JobByID alloc.Namespace alloc.JobID = none ∧ t = s) ∨
      ∃ js, s.jobSummaries.lookup (alloc.Namespace, alloc.JobID) = some js ∧
        (js.CreateIndex ≠ alloc.Job.CreateIndex ∧ t = s ∨
          js.CreateIndex = alloc.Job.CreateIndex ∧ ∃ tgs, js.Summary.lookup alloc.TaskGroup = some tgs ∧
            ((tgs.withAlloc alloc existing).2 = false ∧ t = s ∨
              (tgs.withAlloc alloc existing).2 = true ∧ t = s.insertSummary { js with
                Summary := js.Summary.insert alloc.TaskGroup (tgs.withAlloc alloc existing).1
                ModifyIndex := index })) := by
  unfold updateSummaryWithAlloc at h
  split at h
  · rename_i hjs
    split at h
    · exact .inl ⟨hjs, ‹_›, (Except.ok.inj h).symm⟩
    · cases h
  rename_i js hjs
  refine .inr ⟨js, hjs, ?_⟩
  split_ifs at h with hci
  · exact .inl ⟨hci, (Except.ok.inj h).symm⟩
  refine .inr ⟨not_not.mp hci, ?_⟩
  split at h
  · cases h
  rename_i tgs htgs
  refine ⟨tgs, htgs, ?_⟩
  dsimp only at h
  rcases hw : tgs.withAlloc alloc existing with ⟨tgs', changed⟩
  rw [hw] at h
  dsimp only at h
  cases changed
  · simp only [Bool.false_eq_true, ↓reduceIte] at h
    exact .inl ⟨rfl, (Except.ok.inj h).symm⟩
  · simp only [↓reduceIte] at h
    exact .inr ⟨rfl, (Except.ok.inj h).symm⟩

theorem updateSummaryWithAlloc_eq {alloc : Allocation} {existing : Option Allocation}
    (h : s.updateSummaryWithAlloc index alloc existing = .ok t) : t = s ∨ ∃ js, t = s.insertSummary js := by
  rcases updateSummaryWithAlloc_ok h with ⟨-, -, rfl⟩ | ⟨_, -, ⟨-, rfl⟩ | ⟨-, _, -, ⟨-, rfl⟩ | ⟨-, rfl⟩⟩⟩
  · exact .inl rfl
  · exact .inl rfl
  · exact .inl rfl
  · exact .inr ⟨_, rfl⟩

theorem linkPrevious_cases (s : StateStore) (index : Nat) (alloc : Allocation) :
    s.linkPrevious index alloc = s ∨ ∃ prev, s.allocs.lookup alloc.PreviousAllocation = some prev ∧
      s.linkPrevious index alloc = s.insertAlloc { prev with NextAllocation := alloc.ID, ModifyIndex := index } := by
  unfold linkPrevious
  split_ifs
  · exact .inl rfl
  · split
    · exact .inl rfl
    · exact .inr ⟨_, ‹_›, rfl⟩

theorem upsertedAlloc_ID {input : AllocInput} {exist : Option Allocation} {alloc : Allocation}
    (h : upsertedAlloc index input exist = .ok alloc) : alloc.ID = input.alloc.ID := by
  unfold upsertedAlloc at h
  split at h
  · split at h
    · cases h
    · cases h
      rfl
  · cases h
    split_ifs <;> rfl

/-- The stored allocation carries the request's job, else the one stored before it. A new
allocation without a job is refused, so the store never holds an allocation whose `Job` is `nil`,
and a record with a job is all the model needs of a stored allocation. -/
theorem upsertedAlloc_Job {input : AllocInput} {exist : Option Allocation} {alloc : Allocation}
    (h : upsertedAlloc index input exist = .ok alloc) :
    input.job.or (exist.map (·.Job)) = some alloc.Job := by
  unfold upsertedAlloc at h
  split at h
  · split at h
    · cases h
    · next job hjob =>
      cases h
      simp [hjob]
  · cases h
    split_ifs <;> cases input.job <;> rfl

theorem upsertAlloc_ok {acc acc' : StateStore × Map NamespacedID String × List AllocWrite}
    {input : AllocInput} (h : upsertAlloc index acc input = .ok acc') :
    ∃ alloc t₁ t₂, upsertedAlloc index input (acc.1.allocs.lookup input.alloc.ID) = .ok alloc ∧
      alloc.ID = input.alloc.ID ∧
      acc.1.updateDeploymentWithAlloc index alloc (acc.1.allocs.lookup input.alloc.ID) = .ok t₁ ∧
      t₁.updateSummaryWithAlloc index alloc (acc.1.allocs.lookup input.alloc.ID) = .ok t₂ ∧
      acc'.1 = (t₂.insertAlloc alloc).linkPrevious index alloc ∧
      acc'.2.2 = acc.2.2 ++ [⟨acc.1, acc.1.allocs.lookup input.alloc.ID, alloc⟩] := by
  obtain ⟨s, jobs, log⟩ := acc
  unfold upsertAlloc at h
  obtain ⟨alloc, ha, h⟩ := bind_eq_ok h
  obtain ⟨t₁, h₁, h⟩ := bind_eq_ok h
  obtain ⟨t₂, h₂, h⟩ := bind_eq_ok h
  cases pure_eq_ok.mp h
  exact ⟨alloc, t₁, t₂, ha, upsertedAlloc_ID ha, mapError_eq_ok.mp h₁, mapError_eq_ok.mp h₂, rfl, rfl⟩

theorem upsertAllocsImpl_ok {allocs : List AllocInput} {ws : List AllocWrite}
    (h : s.upsertAllocsImpl index allocs = .ok (t, ws)) :
    ∃ t₁ jobs, allocs.foldlM (upsertAlloc index) (s, ∅, []) = .ok (t₁, jobs, ws) ∧
      t₁.setJobStatuses index jobs false = .ok t := by
  unfold upsertAllocsImpl at h
  obtain ⟨⟨t₁, jobs, log⟩, h₁, h⟩ := bind_eq_ok h
  obtain ⟨t₂, h₂, h⟩ := bind_eq_ok h
  obtain ⟨rfl, rfl⟩ := Prod.mk.inj (pure_eq_ok.mp h)
  exact ⟨t₁, jobs, h₁, mapError_eq_ok.mp h₂⟩

theorem nestedUpdateAllocFromClient_ok {alloc : Allocation} {ws : List AllocWrite}
    (h : s.nestedUpdateAllocFromClient index alloc = .ok (t, ws)) :
    (s.allocs.lookup alloc.ID = none ∧ t = s ∧ ws = []) ∨
      ∃ exist t₁ t₂, s.allocs.lookup alloc.ID = some exist ∧
        let copyAlloc := { exist with
          ClientStatus := alloc.ClientStatus, ClientDescription := alloc.ClientDescription
          TaskStates := alloc.TaskStates
          DeploymentStatus := mergeDeploymentStatus exist.DeploymentStatus alloc.DeploymentStatus
          ModifyIndex := index, ModifyTime := alloc.ModifyTime }
        s.updateDeploymentWithAlloc index copyAlloc (some exist) = .ok t₁ ∧
        t₁.updateSummaryWithAlloc index copyAlloc (some exist) = .ok t₂ ∧
        (t₂.insertAlloc copyAlloc).setJobStatuses index
          ((∅ : Map NamespacedID String).insert ⟨exist.JobID, exist.Namespace⟩ (forceStatusOf copyAlloc))
          false = .ok t ∧
        ws = [⟨s, some exist, copyAlloc⟩] := by
  unfold nestedUpdateAllocFromClient at h
  split at h
  · obtain ⟨rfl, rfl⟩ := Prod.mk.inj (Except.ok.inj h)
    exact .inl ⟨‹_›, rfl, rfl⟩
  rename_i exist hex
  obtain ⟨t₁, h₁, h⟩ := bind_eq_ok h
  obtain ⟨t₂, h₂, h⟩ := bind_eq_ok h
  obtain ⟨t₃, h₃, h⟩ := bind_eq_ok h
  obtain ⟨rfl, rfl⟩ := Prod.mk.inj (pure_eq_ok.mp h)
  exact .inr ⟨exist, t₁, t₂, hex, mapError_eq_ok.mp h₁, mapError_eq_ok.mp h₂, mapError_eq_ok.mp h₃, rfl⟩

theorem updateAllocFromClientStep_ok {acc acc' : StateStore × List AllocWrite} {alloc : Allocation}
    (h : updateAllocFromClientStep index acc alloc = .ok acc') :
    ∃ ws, acc.1.nestedUpdateAllocFromClient index alloc = .ok (acc'.1, ws) ∧ acc'.2 = acc.2 ++ ws := by
  unfold updateAllocFromClientStep at h
  obtain ⟨⟨t, ws⟩, h₁, h₂⟩ := bind_eq_ok h
  cases pure_eq_ok.mp h₂
  exact ⟨ws, h₁, rfl⟩

end spec

end StateStore

end Nomad.State
