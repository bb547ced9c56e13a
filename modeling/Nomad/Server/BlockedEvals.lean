import Nomad.Structs.Alloc
import Nomad.Go.Outcome

/-!
# The blocked-evaluations tracker

`nomad/blocked_evals.go` and `nomad/blocked_evals_system.go`. An evaluation that failed to place
is blocked: it waits in `captured` (the computed node classes capture its constraints) or in
`escaped` (they do not), `jobs` keeps one blocked evaluation per job, and a system evaluation is
indexed a second time by node in `system`. Capacity changes unblock evaluations: `Unblock`,
`UnblockQuota` and `UnblockClassAndQuota` record the index and queue an update that the watcher
goroutine hands to `unblock`; `UnblockNode` releases the system evaluations of a node and
`UnblockFailed` those that hit the plan limit. Whatever an operation releases is handed to the
eval broker (`EnqueueAll`): here it is the list the operation returns, in the order the code
collects it.

The lock makes each exported call atomic, so the tracker is a state machine over `Event`. The
channel between `Unblock` and the watcher is a list, and the watcher's turn is its own event.
-/

namespace Nomad.Server

open Nomad.Structs Container Go

-- ---------------------------------------------------------------------------
-- State
-- ---------------------------------------------------------------------------

/-- An evaluation and the token it was reblocked with (empty for `Block`). -/
structure wrappedEval where
  eval : Evaluation
  token : String
  deriving DecidableEq, Repr

structure BlockedStats where
  TotalEscaped : Int := 0
  TotalBlocked : Int := 0
  TotalQuotaLimit : Int := 0
  deriving DecidableEq, Repr

/-- What `Unblock*` sends the watcher. The index it also carries is read by nobody. -/
structure capacityUpdate where
  computedClass : String := ""
  quotaChange : String := ""
  deriving DecidableEq, Repr

structure systemEvals where
  byJob : Map NamespacedID (Map String String) := ∅
  byNode : Map String (Map String Bool) := ∅
  evals : Map String wrappedEval := ∅
  deriving DecidableEq, Repr

structure BlockedEvals where
  enabled : Bool := false
  stats : BlockedStats := {}
  captured : Map String wrappedEval := ∅
  escaped : Map String wrappedEval := ∅
  system : systemEvals := {}
  capacityChangeCh : List capacityUpdate := []
  jobs : Map NamespacedID String := ∅
  unblockIndexes : Map String Nat := ∅
  duplicates : List Evaluation := []
  deriving DecidableEq, Repr

def NewBlockedEvals : BlockedEvals := {}

def latestEvalIndex (eval : Evaluation) : Nat := max eval.CreateIndex eval.SnapshotIndex

def quotaLimited (e : Evaluation) : Bool := e.QuotaLimitReached != ""

def quotaCount (ws : List wrappedEval) : Int := (ws.filter fun w => quotaLimited w.eval).length

/-- The `delete(b.jobs, ...)` an unblock loop makes for each evaluation it releases. -/
def releaseJobs (jobs : Map NamespacedID String) (ws : List wrappedEval) : Map NamespacedID String :=
  ws.foldl (fun j w => j.erase w.eval.namespacedID) jobs

-- ---------------------------------------------------------------------------
-- The system index
-- ---------------------------------------------------------------------------

namespace systemEvals

variable (s : systemEvals)

/-- `s.byJob[jobID]`, the nodes a job has a blocked system evaluation on; absent reads as empty. -/
def jobNodes (jobID : NamespacedID) : Map String String := (s.byJob.lookup jobID).getD ∅

def nodeEvalIDs (nodeID : String) : Map String Bool := (s.byNode.lookup nodeID).getD ∅

def Get (evalID : String) : Option wrappedEval := s.evals.lookup evalID

def Remove (eval : Evaluation) : systemEvals :=
  let jobID := eval.namespacedID
  -- the job index loses the node only if it lists this evaluation there
  let byJob := if (s.jobNodes jobID).lookup eval.NodeID = some eval.ID then
      s.byJob.insert jobID ((s.jobNodes jobID).erase eval.NodeID)
    else s.byJob
  -- the node's set loses the evaluation, and goes when it is empty
  let node := (s.nodeEvalIDs eval.NodeID).erase eval.ID
  let byNode := if node.entries.length = 0 then s.byNode.erase eval.NodeID
    else s.byNode.insert eval.NodeID node
  { byJob, byNode, evals := s.evals.erase eval.ID }

def Add (eval : Evaluation) (token : String) : Outcome systemEvals :=
  let s : systemEvals := { s with
    byNode := s.byNode.insert eval.NodeID ((s.nodeEvalIDs eval.NodeID).insert eval.ID true)
    evals := s.evals.insert eval.ID ⟨eval, token⟩ }
  let jobID := eval.namespacedID
  let s : systemEvals :=
    if (s.byJob.lookup jobID).isNone then { s with byJob := s.byJob.insert jobID ∅ } else s
  -- the old blocked ID for this job and node is displaced; `prev` is `nil` when the index no
  -- longer holds that ID, and `prev.eval` then dereferences it
  let displaced : Outcome systemEvals :=
    match (s.jobNodes jobID).lookup eval.NodeID with
    | none => .ok s
    | some prevID =>
      match s.Get prevID with
      | some prev => .ok (s.Remove prev.eval)
      | none => .panic
  displaced.map fun s =>
    { s with byJob := s.byJob.insert jobID ((s.jobNodes jobID).insert eval.NodeID eval.ID) }

def NodeEvals (nodeID : String) : List (Evaluation × String) × Bool :=
  let out := (s.nodeEvalIDs nodeID).keys.filterMap fun eID =>
    (s.Get eID).map fun w => (w.eval, w.token)
  (out, 0 < out.length)

/-- The evaluations the job index lists for a job; `ok` says the job has an index at all. -/
def JobEvals (jobID : NamespacedID) : List Evaluation × Bool :=
  let out := (Map.vals (s.jobNodes jobID)).filterMap fun eID => (s.Get eID).map (·.eval)
  (out, (s.byJob.lookup jobID).isSome)

end systemEvals

-- ---------------------------------------------------------------------------
-- Blocking
-- ---------------------------------------------------------------------------

namespace BlockedEvals

variable (b : BlockedEvals)

/-- The new evaluation's job already has a blocked evaluation: the older of the two by
`latestEvalIndex` goes to `duplicates`; the result says whether that was the new one. -/
def processBlockJobDuplicate (eval : Evaluation) : BlockedEvals × Bool :=
  match b.jobs.lookup eval.namespacedID with
  | none => (b, false)
  | some existingID =>
    match b.captured.lookup existingID with
    | some existingW =>
      if latestEvalIndex existingW.eval ≤ latestEvalIndex eval then
        ({ b with
            captured := b.captured.erase existingID
            stats := { b.stats with TotalBlocked := b.stats.TotalBlocked - 1 }
            duplicates := b.duplicates ++ [existingW.eval] }, false)
      else ({ b with duplicates := b.duplicates ++ [eval] }, true)
    | none =>
      match b.escaped.lookup existingID with
      -- the source logs a programming error, drops the job's entry and blocks the new one
      | none => ({ b with jobs := b.jobs.erase eval.namespacedID }, false)
      | some existingW =>
        -- unlike the captured branch, `TotalBlocked` is left as it is
        if latestEvalIndex existingW.eval ≤ latestEvalIndex eval then
          ({ b with
              escaped := b.escaped.erase existingID
              stats := { b.stats with TotalEscaped := b.stats.TotalEscaped - 1 }
              duplicates := b.duplicates ++ [existingW.eval] }, false)
        else ({ b with duplicates := b.duplicates ++ [eval] }, true)

def missedUnblockLoop (eval : Evaluation) : List (Σ _ : String, Nat) → Nat → Bool
  | [], max => eval.EscapedComputedClass && decide (eval.SnapshotIndex < max)
  | ⟨id, index⟩ :: rest, max =>
    let max := if max < index then index else max
    if eval.QuotaLimitReached ≠ "" then
      -- a quota-blocked evaluation stops at its own quota's entry; the others only feed `max`
      if eval.QuotaLimitReached ≠ id then missedUnblockLoop eval rest max
      else decide (eval.SnapshotIndex < index)
    else
      match eval.ClassEligibility.lookup id with
      -- a class the scheduler never saw, unblocked after its snapshot
      | none => if eval.SnapshotIndex < index then true else missedUnblockLoop eval rest max
      | some elig =>
        if elig && decide (eval.SnapshotIndex < index) then true
        else missedUnblockLoop eval rest max

def missedUnblock (eval : Evaluation) : Bool := missedUnblockLoop eval b.unblockIndexes.entries 0

/-- The part of `processBlock` after the duplicate check: re-enqueue on a missed unblock, or
track the evaluation. -/
def trackBlocked (eval : Evaluation) (token : String) :
    Outcome (BlockedEvals × List (Evaluation × String)) :=
  if b.missedUnblock eval then .ok (b, [(eval, token)]) else
  let b : BlockedEvals := { b with
    jobs := b.jobs.insert eval.namespacedID eval.ID
    stats := { b.stats with
      TotalBlocked := b.stats.TotalBlocked + 1
      TotalQuotaLimit := b.stats.TotalQuotaLimit + if quotaLimited eval then 1 else 0 } }
  let wrapped : wrappedEval := ⟨eval, token⟩
  if eval.EscapedComputedClass then
    .ok ({ b with
      escaped := b.escaped.insert eval.ID wrapped
      stats := { b.stats with TotalEscaped := b.stats.TotalEscaped + 1 } }, [])
  else
    -- system evaluations are indexed by node as well
    let system := if eval.Type = JobTypeSystem then b.system.Add eval token else .ok b.system
    system.map fun system => ({ b with system, captured := b.captured.insert eval.ID wrapped }, [])

def processBlock (eval : Evaluation) (token : String) :
    Outcome (BlockedEvals × List (Evaluation × String)) :=
  if !b.enabled then .ok (b, []) else
  match b.processBlockJobDuplicate eval with
  | (b, true) => .ok (b, [])
  | (b, false) => b.trackBlocked eval token

def Block (eval : Evaluation) : Outcome (BlockedEvals × List (Evaluation × String)) :=
  b.processBlock eval ""

def Reblock (eval : Evaluation) (token : String) :
    Outcome (BlockedEvals × List (Evaluation × String)) :=
  b.processBlock eval token

-- ---------------------------------------------------------------------------
-- Untracking and unblocking
-- ---------------------------------------------------------------------------

def removeSystem (e : Evaluation) : BlockedEvals :=
  { b with system := b.system.Remove e, stats := { b.stats with TotalBlocked := b.stats.TotalBlocked - 1 } }

def untrackCaptured (nsID : NamespacedID) (evalID : String) : BlockedEvals :=
  match b.captured.lookup evalID with
  | some w => { b with
      jobs := b.jobs.erase nsID
      captured := b.captured.erase evalID
      stats := { b.stats with
        TotalBlocked := b.stats.TotalBlocked - 1
        TotalQuotaLimit := b.stats.TotalQuotaLimit - quotaCount [w] } }
  | none => b

/-- `Untrack`'s deletion from `escaped`, made after the one from `captured`. -/
def untrackEscaped (nsID : NamespacedID) (evalID : String) : BlockedEvals :=
  match b.escaped.lookup evalID with
  | some w => { b with
      jobs := b.jobs.erase nsID
      escaped := b.escaped.erase evalID
      stats := { b.stats with
        TotalEscaped := b.stats.TotalEscaped - 1
        TotalBlocked := b.stats.TotalBlocked - 1
        TotalQuotaLimit := b.stats.TotalQuotaLimit - quotaCount [w] } }
  | none => b

def Untrack (jobID «namespace» : String) : BlockedEvals :=
  if !b.enabled then b else
  let nsID : NamespacedID := ⟨jobID, «namespace»⟩
  match b.system.JobEvals nsID with
  -- a job with a system index is cleaned there only
  | (evals, true) => evals.foldl removeSystem b
  | (_, false) =>
    match b.jobs.lookup nsID with
    | none => b
    | some evalID => (b.untrackCaptured nsID evalID).untrackEscaped nsID evalID

/-- Record the unblock index under `keys` and queue `update` for the watcher: the common body of
`Unblock`, `UnblockQuota` and `UnblockClassAndQuota`. -/
def recordUnblock (keys : List String) (index : Nat) (update : capacityUpdate) : BlockedEvals :=
  if !b.enabled then b else
  { b with
    unblockIndexes := keys.foldl (fun m k => m.insert k index) b.unblockIndexes
    capacityChangeCh := b.capacityChangeCh ++ [update] }

def Unblock (computedClass : String) (index : Nat) : BlockedEvals :=
  b.recordUnblock [computedClass] index { computedClass }

def UnblockQuota (quota : String) (index : Nat) : BlockedEvals :=
  if quota = "" then b else b.recordUnblock [quota] index { quotaChange := quota }

def UnblockClassAndQuota («class» quota : String) (index : Nat) : BlockedEvals :=
  b.recordUnblock ((if quota ≠ "" then [quota] else []) ++ [«class»]) index
    { computedClass := «class», quotaChange := quota }

/-- A captured evaluation stays blocked on an update: it waits on another quota, or it marked
the class ineligible. -/
def staysBlocked (computedClass quota : String) (w : wrappedEval) : Bool :=
  (quota != "" && w.eval.QuotaLimitReached != quota) ||
    w.eval.ClassEligibility.lookup computedClass == some false

def unblock (computedClass quota : String) : BlockedEvals × List (Evaluation × String) :=
  if !b.enabled then (b, []) else
  -- every escaped evaluation is released on a class update, since any node could fit it
  let releaseEscaped := b.escaped.entries.length ≠ 0 ∧ computedClass ≠ ""
  let escapedOut := if releaseEscaped then Map.vals b.escaped else []
  let capturedOut := (Map.vals b.captured).filter fun w => !staysBlocked computedClass quota w
  let unblocked := escapedOut ++ capturedOut
  let b : BlockedEvals := { b with
    escaped := if releaseEscaped then ∅ else b.escaped
    captured := b.captured.filter fun _ w => staysBlocked computedClass quota w
    jobs := releaseJobs b.jobs unblocked }
  if unblocked.length ≠ 0 then
    ({ b with stats := {
        TotalEscaped := 0
        TotalBlocked := b.stats.TotalBlocked - unblocked.length
        TotalQuotaLimit := b.stats.TotalQuotaLimit - quotaCount unblocked } },
      unblocked.map fun w => (w.eval, w.token))
  else (b, [])

def watchCapacity : BlockedEvals × List (Evaluation × String) :=
  match b.capacityChangeCh with
  | [] => (b, [])
  | update :: rest => { b with capacityChangeCh := rest }.unblock update.computedClass update.quotaChange

def UnblockNode (nodeID : String) : BlockedEvals × List (Evaluation × String) :=
  match b.system.NodeEvals nodeID with
  | (evals, ok) =>
    if !b.enabled || !ok || evals.length = 0 then (b, [])
    else (evals.foldl (fun b e => b.removeSystem e.1) b, evals)

def failedOnMaxPlans (w : wrappedEval) : Bool := w.eval.TriggeredBy == EvalTriggerMaxPlans

def UnblockFailed : BlockedEvals × List (Evaluation × String) :=
  if !b.enabled then (b, []) else
  let capturedOut := (Map.vals b.captured).filter failedOnMaxPlans
  let escapedOut := (Map.vals b.escaped).filter failedOnMaxPlans
  let unblocked := capturedOut ++ escapedOut
  let b : BlockedEvals := { b with
    captured := b.captured.filter fun _ w => !failedOnMaxPlans w
    escaped := b.escaped.filter fun _ w => !failedOnMaxPlans w
    jobs := releaseJobs b.jobs unblocked
    stats := { b.stats with TotalEscaped := b.stats.TotalEscaped - escapedOut.length } }
  if 0 < unblocked.length then
    ({ b with stats := { b.stats with
        TotalBlocked := b.stats.TotalBlocked - unblocked.length
        TotalQuotaLimit := b.stats.TotalQuotaLimit - quotaCount unblocked } },
      unblocked.map fun w => (w.eval, w.token))
  else (b, [])

def GetDuplicates : BlockedEvals × List Evaluation := ({ b with duplicates := [] }, b.duplicates)

def Flush : BlockedEvals := { NewBlockedEvals with enabled := b.enabled }

def SetEnabled (enabled : Bool) : BlockedEvals :=
  if b.enabled = enabled then b
  else if enabled then { b with enabled := true }
  else BlockedEvals.Flush { b with enabled := false }

/-- `pruneUnblockIndexes`, with the index the time table gives for the cutoff. -/
def pruneUnblockIndexes (oldThreshold : Nat) : BlockedEvals :=
  { b with unblockIndexes := b.unblockIndexes.filter fun _ index => !decide (index < oldThreshold) }

end BlockedEvals

-- ---------------------------------------------------------------------------
-- Runs
-- ---------------------------------------------------------------------------

inductive Event where
  | Block (eval : Evaluation)
  | Reblock (eval : Evaluation) (token : String)
  | Untrack (jobID «namespace» : String)
  | Unblock (computedClass : String) (index : Nat)
  | UnblockQuota (quota : String) (index : Nat)
  | UnblockClassAndQuota («class» quota : String) (index : Nat)
  | watchCapacity
  | UnblockNode (nodeID : String)
  | UnblockFailed
  | GetDuplicates
  | SetEnabled (enabled : Bool)
  | prune (oldThreshold : Nat)
  deriving DecidableEq, Repr

namespace BlockedEvals

def step (b : BlockedEvals) : Event → Outcome (BlockedEvals × List (Evaluation × String))
  | .Block eval => b.Block eval
  | .Reblock eval token => b.Reblock eval token
  | .Untrack jobID ns => .ok (b.Untrack jobID ns, [])
  | .Unblock computedClass index => .ok (b.Unblock computedClass index, [])
  | .UnblockQuota quota index => .ok (b.UnblockQuota quota index, [])
  | .UnblockClassAndQuota c quota index => .ok (b.UnblockClassAndQuota c quota index, [])
  | .watchCapacity => .ok b.watchCapacity
  | .UnblockNode nodeID => .ok (b.UnblockNode nodeID)
  | .UnblockFailed => .ok b.UnblockFailed
  | .GetDuplicates => .ok (b.GetDuplicates.1, [])
  | .SetEnabled enabled => .ok (b.SetEnabled enabled, [])
  | .prune oldThreshold => .ok (b.pruneUnblockIndexes oldThreshold, [])

def run (b : BlockedEvals) : List Event → Outcome (BlockedEvals × List (Evaluation × String))
  | [] => .ok (b, [])
  | e :: es => (b.step e).bind fun r => (run r.1 es).map fun r' => (r'.1, r.2 ++ r'.2)

end BlockedEvals

-- ---------------------------------------------------------------------------
-- What `missedUnblock` decides
-- ---------------------------------------------------------------------------

namespace BlockedEvals

theorem lt_max_step_iff (s max index : Nat) :
    s < (if max < index then index else max) ↔ s < max ∨ s < index := by
  split <;> omega

/-- An evaluation blocked on class eligibility is re-enqueued on an unblock after its snapshot of
a class it can use or never saw, and an escaped one on any unblock after its snapshot. -/
theorem missedUnblockLoop_unquoted (eval : Evaluation) (hq : eval.QuotaLimitReached = "")
    (l : List (Σ _ : String, Nat)) (max : Nat) :
    missedUnblockLoop eval l max = true ↔
      (∃ x ∈ l, eval.SnapshotIndex < x.2 ∧ eval.ClassEligibility.lookup x.1 ≠ some false) ∨
        (eval.EscapedComputedClass = true ∧
          (eval.SnapshotIndex < max ∨ ∃ x ∈ l, eval.SnapshotIndex < x.2)) := by
  induction l generalizing max with
  | nil => simp [missedUnblockLoop]
  | cons x rest ih =>
    obtain ⟨id, index⟩ := x
    have hmax := lt_max_step_iff eval.SnapshotIndex max index
    simp only [missedUnblockLoop, hq, ne_eq, not_true_eq_false, if_false]
    cases hl : eval.ClassEligibility.lookup id with
    | none =>
      by_cases hs : eval.SnapshotIndex < index
      · simp only [hs, if_true, true_iff]
        exact .inl ⟨⟨id, index⟩, List.mem_cons_self .., hs, by simp [hl]⟩
      · rw [if_neg hs, ih, hmax]
        simp [hs]
    | some elig =>
      by_cases he : (elig && decide (eval.SnapshotIndex < index)) = true
      · simp only [he, if_true, true_iff]
        simp only [Bool.and_eq_true, decide_eq_true_eq] at he
        exact .inl ⟨⟨id, index⟩, List.mem_cons_self .., he.2, by simp [hl, he.1]⟩
      · dsimp only
        rw [if_neg he, ih, hmax]
        -- the head entry is a class the evaluation is ineligible for, or unblocked too early
        have hhead : eval.SnapshotIndex < index → elig = true → False :=
          fun hs he' => he (by simp [hs, he'])
        simp [hl, or_assoc]
        exact fun hs he' => (hhead hs he').elim

/-- A quota-blocked evaluation is decided by its quota's index when one is recorded; when none
is, the loop runs to its end and an escaped evaluation is re-enqueued on any later unblock. -/
theorem missedUnblockLoop_quota (eval : Evaluation) (hq : eval.QuotaLimitReached ≠ "")
    (l : List (Σ _ : String, Nat)) (max : Nat) :
    missedUnblockLoop eval l max = true ↔
      match l.dlookup eval.QuotaLimitReached with
      | some index => eval.SnapshotIndex < index
      | none => eval.EscapedComputedClass = true ∧
          (eval.SnapshotIndex < max ∨ ∃ x ∈ l, eval.SnapshotIndex < x.2) := by
  induction l generalizing max with
  | nil => simp [missedUnblockLoop]
  | cons x rest ih =>
    obtain ⟨id, index⟩ := x
    have hmax := lt_max_step_iff eval.SnapshotIndex max index
    simp only [missedUnblockLoop, hq, ne_eq, not_false_eq_true, if_true]
    by_cases hid : eval.QuotaLimitReached = id
    · subst hid
      simp
    · rw [if_pos hid, ih, List.dlookup_cons_ne _ _ hid]
      cases rest.dlookup eval.QuotaLimitReached with
      | some index' => rfl
      | none => simp [hmax, or_assoc]

theorem missedUnblock_iff_unblocked_after_snapshot (b : BlockedEvals) (eval : Evaluation) :
    b.missedUnblock eval = true ↔
      if eval.QuotaLimitReached ≠ "" then
        match b.unblockIndexes.lookup eval.QuotaLimitReached with
        | some index => eval.SnapshotIndex < index
        | none => eval.EscapedComputedClass = true ∧
            ∃ id index, b.unblockIndexes.lookup id = some index ∧ eval.SnapshotIndex < index
      else
        (∃ id index, b.unblockIndexes.lookup id = some index ∧ eval.SnapshotIndex < index ∧
            eval.ClassEligibility.lookup id ≠ some false) ∨
          (eval.EscapedComputedClass = true ∧
            ∃ id index, b.unblockIndexes.lookup id = some index ∧ eval.SnapshotIndex < index) := by
  have hmem : ∀ id index, b.unblockIndexes.lookup id = some index ↔
      (⟨id, index⟩ : Σ _ : String, Nat) ∈ b.unblockIndexes.entries := fun id index => by
    rw [← Option.mem_def, AList.mem_lookup_iff]
  unfold missedUnblock
  by_cases hq : eval.QuotaLimitReached = ""
  · rw [if_neg (by simpa using hq), missedUnblockLoop_unquoted eval hq]
    simp [hmem]
  · rw [if_pos hq, missedUnblockLoop_quota eval hq]
    show (match b.unblockIndexes.lookup eval.QuotaLimitReached with
      | some index => eval.SnapshotIndex < index
      | none => _) ↔ _
    cases b.unblockIndexes.lookup eval.QuotaLimitReached with
    | some index => rfl
    | none => simp [hmem]

end BlockedEvals

def quotaEval : Evaluation :=
  { ID := "e1", Namespace := "default", Priority := 50, «Type» := JobTypeService, JobID := "web",
    Wait := 0, WaitUntil := ⟨0⟩, CreateIndex := 10, SnapshotIndex := 10,
    QuotaLimitReached := "q1", EscapedComputedClass := true }

/-- The answer for a quota-blocked evaluation is not its quota's index alone: with no index for
its quota, an escaped one is re-enqueued on a class unblock; with an old index for its quota, a
later class unblock is ignored although the evaluation escaped. -/
theorem missedUnblock_quota_reads_class_unblocks :
    ({ NewBlockedEvals with unblockIndexes := (∅ : Map String Nat).insert "c1" 20 }).missedUnblock
        quotaEval = true ∧
      ({ NewBlockedEvals with
          unblockIndexes := ((∅ : Map String Nat).insert "c1" 20).insert "q1" 5 }).missedUnblock
        quotaEval = false := by
  decide

-- ---------------------------------------------------------------------------
-- Where the counts and the maps part
-- ---------------------------------------------------------------------------

def agentEval : Evaluation :=
  { ID := "e1", Namespace := "default", Priority := 50, «Type» := JobTypeSystem, JobID := "agent",
    Wait := 0, WaitUntil := ⟨0⟩, CreateIndex := 10, NodeID := "n1", SnapshotIndex := 10 }

def escapedEval (id : String) (createIndex : Nat) : Evaluation :=
  { ID := id, Namespace := "default", Priority := 50, «Type» := JobTypeService, JobID := "web",
    Wait := 0, WaitUntil := ⟨0⟩, CreateIndex := createIndex, EscapedComputedClass := true }

/-- `UnblockNode` hands the system evaluation to the broker but cleans only the system index: the
evaluation stays in `captured` and `jobs`, and `TotalBlocked` is 0 with it tracked. Reblocked by
the scheduler, it meets its own stale entry and goes to `duplicates`, which the leader cancels,
while it is tracked again. Without system evaluations the count drifts too: a newer escaped
evaluation displaces the older one and `TotalBlocked` counts both. -/
theorem unblockNode_leaves_eval_tracked :
    (∃ b₁ b₂, BlockedEvals.run NewBlockedEvals [.SetEnabled true, .Block agentEval, .UnblockNode "n1"] =
        .ok (b₁, [(agentEval, "")]) ∧
      b₁.captured.lookup agentEval.ID = some ⟨agentEval, ""⟩ ∧
      b₁.jobs.lookup agentEval.namespacedID = some agentEval.ID ∧ b₁.stats.TotalBlocked = 0 ∧
      b₁.Reblock agentEval "t1" = .ok (b₂, []) ∧
      agentEval ∈ b₂.duplicates ∧ b₂.captured.lookup agentEval.ID = some ⟨agentEval, "t1"⟩ ∧
      b₂.stats.TotalBlocked = 0) ∧
    ∃ b, BlockedEvals.run NewBlockedEvals
        [.SetEnabled true, .Block (escapedEval "e1" 10), .Block (escapedEval "e2" 20)] = .ok (b, []) ∧
      b.captured.entries = [] ∧ b.escaped.keys = ["e2"] ∧ b.stats.TotalBlocked = 2 := by
  refine ⟨⟨_, _, rfl, ?_, ?_, ?_, rfl, ?_, ?_, ?_⟩, _, rfl, ?_, ?_, ?_⟩ <;> decide

end Nomad.Server
