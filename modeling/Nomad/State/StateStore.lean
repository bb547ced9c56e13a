import Nomad.Go.Strings
import Nomad.Structs.CSI
import Nomad.Container.Table

/-!
# The state store's tables

`nomad/state/state_store.go` and `schema.go`: the tables that the modelled readers and writers
use, each with the index lookups the code makes. Allocations, deployments and job summaries are
kept by their key; the `jobs`, `job_version`, `evals` and `csi_volumes` tables are lists in the
order of their `id` index, and a lookup by a secondary index is a filter of that list, which keeps
the order the index iterates in for the lookups modelled here. Writes go through `Table.insert`
on the key of the table's `id` index.
-/

namespace Nomad.State

open Go Container Structs

/-- `structs.CSIPlugin`, the health fields `CSIVolumeDenormalizePlugins` copies. -/
structure CSIPlugin where
  ControllerRequired : Bool
  ControllersHealthy : Int
  NodesHealthy : Int
  deriving DecidableEq, Repr

-- ---------------------------------------------------------------------------
-- Job summaries (`structs.JobSummary`)
-- ---------------------------------------------------------------------------

/-- `structs.TaskGroupSummary`: allocations of a task group by client status, and the count of
allocations the scheduler could not place yet. -/
structure TaskGroupSummary where
  Queued : Int := 0
  Complete : Int := 0
  Failed : Int := 0
  Running : Int := 0
  Starting : Int := 0
  Lost : Int := 0
  deriving DecidableEq, Repr

structure JobChildrenSummary where
  Pending : Int := 0
  Running : Int := 0
  Dead : Int := 0
  deriving DecidableEq, Repr

structure JobSummary where
  JobID : String
  Namespace : String
  Summary : Map String TaskGroupSummary
  Children : Option JobChildrenSummary
  CreateIndex : Nat
  ModifyIndex : Nat
  deriving DecidableEq, Repr

-- ---------------------------------------------------------------------------
-- The tables
-- ---------------------------------------------------------------------------

def jobKey (j : Job) : String × String := (j.Namespace, j.ID)

def jobVersionKey (j : Job) : String × String × Nat := (j.Namespace, j.ID, j.Version)

/-- The order memdb keeps a compound index in: its parts in turn. -/
def pairLt {β : Type} [LT β] [DecidableRel (α := β) (· < ·)] (a b : String × β) : Bool :=
  decide (a.1 < b.1) || (a.1 == b.1 && decide (a.2 < b.2))

def versionLt (a b : String × String × Nat) : Bool :=
  decide (a.1 < b.1) || (a.1 == b.1 && pairLt a.2 b.2)

def idLt (a b : String) : Bool := decide (a < b)

structure StateStore where
  allocs : Map String Allocation := ∅
  /-- The `csi_volumes` table, in the order of its `(Namespace, ID)` index. -/
  csiVolumes : List CSIVolume := []
  csiPlugins : Map String CSIPlugin := ∅
  /-- The `jobs` table, in the order of its `(Namespace, ID)` index. -/
  jobs : List Job := []
  evals : List Evaluation := []
  nodes : Map String Node := ∅
  deployments : Map String Deployment := ∅
  jobSummaries : Map (String × String) JobSummary := ∅
  jobVersions : List Job := []
  deriving DecidableEq, Repr

/-- `jobIsGCable`, the indexer of the `gc` index of `jobs`. -/
def jobIsGCable (j : Job) : Bool :=
  let periodic := j.Periodic.any (·.Enabled)
  let parameterized := j.IsParameterized
  if periodic || parameterized then j.Stop
  else if j.Status ≠ JobStatusDead then false
  else if j.Stop then true
  else j.«Type» == JobTypeBatch

namespace StateStore

variable (s : StateStore)

def AllocByID (id : String) : Option Allocation := s.allocs.lookup id

def AllocsByNode (node : String) : List Allocation :=
  s.allocs.vals.filter fun a => strings.HasPrefix a.NodeID node

def AllocsByEval (evalID : String) : List Allocation :=
  s.allocs.vals.filter (·.EvalID == evalID)

@[simp] theorem mem_allocsByEval {evalID : String} {a : Allocation} :
    a ∈ s.AllocsByEval evalID ↔ a ∈ s.allocs.vals ∧ a.EvalID = evalID := by
  simp [AllocsByEval]

def JobByID (ns id : String) : Option Job :=
  s.jobs.find? fun j => j.Namespace == ns && j.ID == id

theorem jobByID_eq_lookup (ns id : String) : s.JobByID ns id = Table.lookup jobKey (ns, id) s.jobs := by
  simp only [JobByID, Table.lookup, jobKey, Prod.mk.injEq]
  congr 1
  funext j
  rw [Bool.eq_iff_iff]
  simp

def NodeByID (nodeID : String) : Option Node := s.nodes.lookup nodeID

/-- `AllocsByJob`: the allocations of the `job` index, without those of another incarnation of
the registered job unless `anyCreateIndex` is set. -/
def AllocsByJob (ns jobID : String) (anyCreateIndex : Bool) : List Allocation :=
  let job := s.JobByID ns jobID
  (s.allocs.vals.filter fun a => a.Namespace == ns && a.JobID == jobID).filter fun alloc =>
    anyCreateIndex || job.all (alloc.Job.CreateIndex == ·.CreateIndex)

def JobsByGC (gc : Bool) : List Job :=
  s.jobs.filter (jobIsGCable · == gc)

/-- `EvalsByJob` reads the `job_prefix` index and keeps the evaluations of exactly this job. -/
def EvalsByJob (ns jobID : String) : List Evaluation :=
  (s.evals.filter fun e => e.Namespace == ns && strings.HasPrefix e.JobID jobID).filter
    (·.JobID == jobID)

-- ---------------------------------------------------------------------------
-- Writes
-- ---------------------------------------------------------------------------

def insertAlloc (a : Allocation) : StateStore := { s with allocs := s.allocs.insert a.ID a }

def insertJob (j : Job) : StateStore := { s with jobs := Table.insert jobKey pairLt j s.jobs }

def insertEval (e : Evaluation) : StateStore :=
  { s with evals := Table.insert (·.ID) idLt e s.evals }

def insertDeployment (d : Deployment) : StateStore :=
  { s with deployments := s.deployments.insert d.ID d }

def insertSummary (js : JobSummary) : StateStore :=
  { s with jobSummaries := s.jobSummaries.insert (js.Namespace, js.JobID) js }

section fields

variable (a : Allocation) (j : Job) (e : Evaluation) (d : Deployment) (js : JobSummary)

@[simp] theorem insertAlloc_allocs : (s.insertAlloc a).allocs = s.allocs.insert a.ID a := rfl
@[simp] theorem insertAlloc_jobs : (s.insertAlloc a).jobs = s.jobs := rfl
@[simp] theorem insertAlloc_evals : (s.insertAlloc a).evals = s.evals := rfl
@[simp] theorem insertAlloc_deployments : (s.insertAlloc a).deployments = s.deployments := rfl
@[simp] theorem insertAlloc_jobSummaries : (s.insertAlloc a).jobSummaries = s.jobSummaries := rfl
@[simp] theorem insertAlloc_jobVersions : (s.insertAlloc a).jobVersions = s.jobVersions := rfl

@[simp] theorem insertJob_allocs : (s.insertJob j).allocs = s.allocs := rfl
@[simp] theorem insertJob_jobs : (s.insertJob j).jobs = Table.insert jobKey pairLt j s.jobs := rfl
@[simp] theorem insertJob_evals : (s.insertJob j).evals = s.evals := rfl
@[simp] theorem insertJob_deployments : (s.insertJob j).deployments = s.deployments := rfl
@[simp] theorem insertJob_jobSummaries : (s.insertJob j).jobSummaries = s.jobSummaries := rfl
@[simp] theorem insertJob_jobVersions : (s.insertJob j).jobVersions = s.jobVersions := rfl

@[simp] theorem insertEval_allocs : (s.insertEval e).allocs = s.allocs := rfl
@[simp] theorem insertEval_jobs : (s.insertEval e).jobs = s.jobs := rfl
@[simp] theorem insertEval_evals : (s.insertEval e).evals = Table.insert (·.ID) idLt e s.evals := rfl
@[simp] theorem insertEval_deployments : (s.insertEval e).deployments = s.deployments := rfl
@[simp] theorem insertEval_jobSummaries : (s.insertEval e).jobSummaries = s.jobSummaries := rfl
@[simp] theorem insertEval_jobVersions : (s.insertEval e).jobVersions = s.jobVersions := rfl

@[simp] theorem insertDeployment_allocs : (s.insertDeployment d).allocs = s.allocs := rfl
@[simp] theorem insertDeployment_jobs : (s.insertDeployment d).jobs = s.jobs := rfl
@[simp] theorem insertDeployment_evals : (s.insertDeployment d).evals = s.evals := rfl
@[simp] theorem insertDeployment_deployments :
    (s.insertDeployment d).deployments = s.deployments.insert d.ID d := rfl
@[simp] theorem insertDeployment_jobSummaries :
    (s.insertDeployment d).jobSummaries = s.jobSummaries := rfl
@[simp] theorem insertDeployment_jobVersions :
    (s.insertDeployment d).jobVersions = s.jobVersions := rfl

@[simp] theorem insertSummary_allocs : (s.insertSummary js).allocs = s.allocs := rfl
@[simp] theorem insertSummary_jobs : (s.insertSummary js).jobs = s.jobs := rfl
@[simp] theorem insertSummary_evals : (s.insertSummary js).evals = s.evals := rfl
@[simp] theorem insertSummary_deployments : (s.insertSummary js).deployments = s.deployments := rfl
@[simp] theorem insertSummary_jobSummaries :
    (s.insertSummary js).jobSummaries = s.jobSummaries.insert (js.Namespace, js.JobID) js := rfl
@[simp] theorem insertSummary_jobVersions : (s.insertSummary js).jobVersions = s.jobVersions := rfl

@[simp] theorem jobByID_insertSummary (ns id : String) :
    (s.insertSummary js).JobByID ns id = s.JobByID ns id := rfl
@[simp] theorem jobByID_insertAlloc (ns id : String) : (s.insertAlloc a).JobByID ns id = s.JobByID ns id := rfl
@[simp] theorem jobByID_insertEval (ns id : String) : (s.insertEval e).JobByID ns id = s.JobByID ns id := rfl
@[simp] theorem jobByID_insertDeployment (ns id : String) :
    (s.insertDeployment d).JobByID ns id = s.JobByID ns id := rfl

theorem jobByID_insertJob (ns id : String) :
    (s.insertJob j).JobByID ns id = if (j.Namespace, j.ID) = (ns, id) then some j else s.JobByID ns id := by
  rw [jobByID_eq_lookup, jobByID_eq_lookup, insertJob_jobs, Table.lookup_insert]
  rfl

end fields

end StateStore

end Nomad.State
