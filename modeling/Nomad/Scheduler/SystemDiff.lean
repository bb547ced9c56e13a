import Nomad.State.StateStore

/-!
# The system scheduler's diff

`scheduler/util.go`: a system job wants every allocation name that `materializeTaskGroups`
expands its groups to on every ready node. `diffSystemAllocs` groups the job's allocations by
node, adds the ready nodes without one, and diffs each node on its own:
`diffSystemAllocsForNode` sends each existing allocation to `stop`, `migrate`, `lost`, `update`
or `ignore`, and places each wanted name the node has no allocation of, unless the node is
tainted or not ready.

Names are compared whole, as Go compares the strings: an allocation's name is its `FullName`,
and `materializeTaskGroups` builds `job.group[i]` from the job's current `Name`, so allocations
named after an earlier name of the job are not wanted. A placement carries the latest terminal
allocation of its name when that one ran on the same node, and otherwise a fresh allocation
that only names the node, Go's `&structs.Allocation{NodeID: nodeID}`.
-/

namespace Nomad.Scheduler

open Go Container Structs State

/-- The zero job, the model's `nil` job of an allocation built from nothing. -/
def zeroJob : Job :=
  { ID := "", Namespace := "", «Type» := "", Priority := 0, Stop := false, Version := 0,
    CreateIndex := 0, ModifyIndex := 0, JobModifyIndex := 0, TaskGroups := [] }

def allocOnNode (nodeID : String) : Allocation :=
  { ID := "", Name := 0, JobID := "", Job := zeroJob, TaskGroup := "", NodeID := nodeID,
    DesiredStatus := .run, DesiredTransition := ⟨none, none, none⟩, ClientStatus := .pending,
    DeploymentID := "", DeploymentStatus := none, TaskStates := [], RescheduleTracker := none,
    NextAllocation := "", FollowupEvalID := "", ModifyTime := 0 }

/-- `materializeTaskGroups`: each name `job.group[i]`, `i < Count`, with its group; none for a
stopped job. -/
def materializeTaskGroups (job : Job) : Map (String × Nat) TaskGroup :=
  if job.Stop then ∅
  else job.TaskGroups.foldl (fun out tg =>
    (List.range tg.Count.toNat).foldl (fun out i => out.insert (job.Name ++ "." ++ tg.Name, i) tg) out) ∅

structure allocTuple where
  Name : String × Nat
  TaskGroup : Option TaskGroup
  Alloc : Allocation
  deriving DecidableEq, Repr

structure diffResult where
  place : List allocTuple := []
  update : List allocTuple := []
  migrate : List allocTuple := []
  stop : List allocTuple := []
  ignore : List allocTuple := []
  lost : List allocTuple := []
  deriving DecidableEq, Repr

def diffResult.Append (d other : diffResult) : diffResult :=
  { place := d.place ++ other.place, update := d.update ++ other.update,
    migrate := d.migrate ++ other.migrate, stop := d.stop ++ other.stop,
    ignore := d.ignore ++ other.ignore, lost := d.lost ++ other.lost }

inductive diffKind where
  | update | migrate | stop | ignore | lost
  deriving DecidableEq, Repr

/-- The branches of the scan over one existing allocation, `goto IGNORE` included. -/
def diffExisting (job : Job) (nodeID : String) (eligibleNodes : Map String Node)
    (taintedNodes : Map String (Option Node)) (required : Map (String × Nat) TaskGroup)
    (exist : Allocation) : diffKind :=
  if exist.FullName ∉ required then .stop
  else if !exist.TerminalStatus && exist.DesiredTransition.ShouldMigrate then .migrate
  else match taintedNodes.lookup exist.NodeID with
    | some node =>
      -- a batch allocation that finished is left alone on a tainted node
      if exist.Job.«Type» == JobTypeBatch && exist.RanSuccessfully then .ignore
      else if !exist.TerminalStatus && node.all Node.TerminalStatus then .lost
      else .ignore
    | none =>
      if nodeID ∉ eligibleNodes then .ignore
      else if job.JobModifyIndex ≠ exist.Job.JobModifyIndex then .update
      else .ignore

def diffResult.push (d : diffResult) : diffKind → allocTuple → diffResult
  | .update, t => { d with update := d.update ++ [t] }
  | .migrate, t => { d with migrate := d.migrate ++ [t] }
  | .stop, t => { d with stop := d.stop ++ [t] }
  | .ignore, t => { d with ignore := d.ignore ++ [t] }
  | .lost, t => { d with lost := d.lost ++ [t] }

def existTuple (required : Map (String × Nat) TaskGroup) (exist : Allocation) : allocTuple :=
  { Name := exist.FullName, TaskGroup := required.lookup exist.FullName, Alloc := exist }

def placeTuple (nodeID : String) (terminalAllocs : Map (String × Nat) Allocation)
    (name : String × Nat) (tg : TaskGroup) : allocTuple :=
  { Name := name, TaskGroup := some tg,
    Alloc := match terminalAllocs.lookup name with
      | some alloc => if alloc.NodeID ≠ nodeID then allocOnNode nodeID else alloc
      | none => allocOnNode nodeID }

def diffSystemAllocsForNode (job : Job) (nodeID : String) (eligibleNodes : Map String Node)
    (taintedNodes : Map String (Option Node)) (required : Map (String × Nat) TaskGroup)
    (allocs : List Allocation) (terminalAllocs : Map (String × Nat) Allocation) : diffResult :=
  -- Scan the existing updates
  let result := allocs.foldl (fun (result : diffResult) exist =>
    result.push (diffExisting job nodeID eligibleNodes taintedNodes required exist)
      (existTuple required exist)) {}
  let existing := allocs.map Allocation.FullName
  -- Scan the required groups: placements only on nodes that are neither tainted nor ineligible
  { result with
    place := required.entries.foldl (fun (place : List allocTuple) e =>
      if e.1 ∈ existing ∨ nodeID ∈ taintedNodes ∨ nodeID ∉ eligibleNodes then place
      else place ++ [placeTuple nodeID terminalAllocs e.1 e.2]) [] }

/-- The loops of `diffSystemAllocs` that map each node to its allocations, and each ready node
without one to none. -/
def nodeAllocsOf (nodes : List Node) (allocs : List Allocation) : Map String (List Allocation) :=
  let nodeAllocs : Map String (List Allocation) := allocs.foldl (fun nodeAllocs alloc =>
    nodeAllocs.insert alloc.NodeID ((nodeAllocs.lookup alloc.NodeID).getD [] ++ [alloc])) ∅
  nodes.foldl (fun nodeAllocs node =>
    if node.ID ∈ nodeAllocs then nodeAllocs else nodeAllocs.insert node.ID []) nodeAllocs

def eligibleNodesOf (nodes : List Node) : Map String Node :=
  nodes.foldl (fun eligibleNodes node => eligibleNodes.insert node.ID node) ∅

def diffSystemAllocs (job : Job) (nodes : List Node) (taintedNodes : Map String (Option Node))
    (allocs : List Allocation) (terminalAllocs : Map (String × Nat) Allocation) : diffResult :=
  let required := materializeTaskGroups job
  (nodeAllocsOf nodes allocs).entries.foldl (fun (result : diffResult) e =>
    result.Append (diffSystemAllocsForNode job e.1 (eligibleNodesOf nodes) taintedNodes required e.2
      terminalAllocs)) {}

-- ---------------------------------------------------------------------------
-- The node sets the system scheduler passes in
-- ---------------------------------------------------------------------------

def readyNodesInDCs (s : StateStore) (dcs : List String) : List Node × Map String Int :=
  let dcMap : Map String Int := dcs.foldl (fun m dc => m.insert dc 0) ∅
  s.nodes.vals.foldl (fun (out, dcMap) node =>
    if node.Status ≠ .ready ∨ node.Drain ∨ node.SchedulingEligibility ≠ NodeSchedulingEligible ∨
        node.Datacenter ∉ dcMap then (out, dcMap)
    else (out ++ [node], dcMap.insert node.Datacenter ((dcMap.lookup node.Datacenter).getD 0 + 1)))
    ([], dcMap)

/-- `taintedNodes`: the nodes of the allocations that are gone (`nil`), down or draining. -/
def taintedNodes (s : StateStore) (allocs : List Allocation) : Map String (Option Node) :=
  allocs.foldl (fun out alloc =>
    if alloc.NodeID ∈ out then out
    else match s.NodeByID alloc.NodeID with
      | none => out.insert alloc.NodeID none
      | some node => if ShouldDrainNode node.Status || node.Drain then out.insert alloc.NodeID (some node)
        else out) ∅

-- ---------------------------------------------------------------------------
-- What each loop of the diff builds
-- ---------------------------------------------------------------------------

def diffResult.listOf (d : diffResult) : diffKind → List allocTuple
  | .update => d.update
  | .migrate => d.migrate
  | .stop => d.stop
  | .ignore => d.ignore
  | .lost => d.lost

namespace diffResult

variable (d other : diffResult)

@[simp] theorem listOf_push (k k' : diffKind) (t : allocTuple) :
    (d.push k t).listOf k' = if k' = k then d.listOf k' ++ [t] else d.listOf k' := by
  cases k <;> cases k' <;> simp [push, listOf]

@[simp] theorem place_push (k : diffKind) (t : allocTuple) : (d.push k t).place = d.place := by
  cases k <;> rfl

@[simp] theorem listOf_Append (k : diffKind) :
    (d.Append other).listOf k = d.listOf k ++ other.listOf k := by
  cases k <;> rfl

@[simp] theorem place_Append : (d.Append other).place = d.place ++ other.place := rfl

@[simp] theorem listOf_empty (k : diffKind) : ({} : diffResult).listOf k = [] := by
  cases k <;> rfl

end diffResult

theorem foldl_push {α : Type} (kind : α → diffKind) (tuple : α → allocTuple) (l : List α)
    (acc : diffResult) (k : diffKind) :
    (l.foldl (fun result x => result.push (kind x) (tuple x)) acc).listOf k =
      acc.listOf k ++ (l.filter (kind · = k)).map tuple ∧
    (l.foldl (fun result x => result.push (kind x) (tuple x)) acc).place = acc.place := by
  induction l generalizing acc with
  | nil => simp
  | cons x l ih =>
    rw [List.foldl_cons, (ih _).1, (ih _).2]
    by_cases hk : kind x = k
    · simp [hk]
    · simp [Ne.symm hk, hk]

theorem foldl_Append {α : Type} (g : α → diffResult) (l : List α) (acc : diffResult) (k : diffKind) :
    (l.foldl (fun result x => result.Append (g x)) acc).listOf k =
      acc.listOf k ++ (l.flatMap fun x => (g x).listOf k) ∧
    (l.foldl (fun result x => result.Append (g x)) acc).place =
      acc.place ++ l.flatMap fun x => (g x).place := by
  induction l generalizing acc with
  | nil => simp
  | cons x l ih =>
    rw [List.foldl_cons, (ih _).1, (ih _).2]
    simp

theorem foldl_append_unless {α β : Type} (skip : α → Prop) [DecidablePred skip] (g : α → β)
    (l : List α) (acc : List β) :
    l.foldl (fun acc x => if skip x then acc else acc ++ [g x]) acc =
      acc ++ (l.filter fun x => !decide (skip x)).map g := by
  induction l generalizing acc with
  | nil => simp
  | cons x l ih =>
    rw [List.foldl_cons, ih]
    by_cases hx : skip x <;> simp [hx]

section Node

variable (job : Job) (nodeID : String) (eligibleNodes : Map String Node)
  (taintedNodes : Map String (Option Node)) (required : Map (String × Nat) TaskGroup)
  (allocs : List Allocation) (terminalAllocs : Map (String × Nat) Allocation)

theorem diffSystemAllocsForNode_listOf (k : diffKind) :
    (diffSystemAllocsForNode job nodeID eligibleNodes taintedNodes required allocs terminalAllocs).listOf k =
      (allocs.filter (diffExisting job nodeID eligibleNodes taintedNodes required · = k)).map
        (existTuple required) := by
  have h := (foldl_push (diffExisting job nodeID eligibleNodes taintedNodes required)
    (existTuple required) allocs {} k).1
  cases k <;> simpa [diffSystemAllocsForNode, diffResult.listOf] using h

theorem diffSystemAllocsForNode_place :
    (diffSystemAllocsForNode job nodeID eligibleNodes taintedNodes required allocs terminalAllocs).place =
      (required.entries.filter fun e => !decide (e.1 ∈ allocs.map Allocation.FullName ∨
          nodeID ∈ taintedNodes ∨ nodeID ∉ eligibleNodes)).map fun e =>
        placeTuple nodeID terminalAllocs e.1 e.2 := by
  simp only [diffSystemAllocsForNode]
  rw [foldl_append_unless]
  simp

end Node

theorem placeTuple_node (nodeID : String) (terminalAllocs : Map (String × Nat) Allocation)
    (name : String × Nat) (tg : TaskGroup) :
    ((placeTuple nodeID terminalAllocs name tg).Alloc.NodeID,
      (placeTuple nodeID terminalAllocs name tg).Name) = (nodeID, name) := by
  unfold placeTuple
  cases terminalAllocs.lookup name with
  | none => rfl
  | some alloc =>
    by_cases h : alloc.NodeID ≠ nodeID
    · simp [h, allocOnNode]
    · simp only [Prod.mk.injEq, and_true]
      simp only [h, if_false]
      simpa using h

-- ---------------------------------------------------------------------------
-- The maps of nodes
-- ---------------------------------------------------------------------------

theorem mem_eligibleNodesOf (nodes : List Node) (id : String) :
    id ∈ eligibleNodesOf nodes ↔ id ∈ nodes.map (·.ID) := by
  suffices h : ∀ (m : Map String Node),
      id ∈ nodes.foldl (fun eligibleNodes node => eligibleNodes.insert node.ID node) m ↔
        id ∈ m ∨ id ∈ nodes.map (·.ID) by
    simpa [eligibleNodesOf] using h ∅
  induction nodes with
  | nil => simp
  | cons node nodes ih =>
    intro m
    rw [List.foldl_cons, ih]
    simp only [AList.mem_insert, List.map_cons, List.mem_cons]
    tauto

theorem nodeAllocsOf_groupsBy (nodes : List Node) (allocs : List Allocation) :
    Map.GroupsBy (·.NodeID) allocs (nodeAllocsOf nodes allocs) ∧
      ∀ id ∈ nodes.map (·.ID), id ∈ nodeAllocsOf nodes allocs := by
  have h₀ := (Map.groupsBy_empty (·.NodeID : Allocation → String)).foldl_snoc allocs
  rw [List.nil_append] at h₀
  obtain ⟨hg, hmem⟩ := h₀.foldl_insert_nil (nodes.map (·.ID))
  rw [List.foldl_map] at hg hmem
  exact ⟨hg, fun id hid => hmem id (.inl hid)⟩

-- ---------------------------------------------------------------------------
-- The classification
-- ---------------------------------------------------------------------------

/-- The list a non-terminal allocation of the job is meant to go to: `stop` when its name is
not wanted; `migrate` when it is asked to; on a tainted node, `ignore` for a batch allocation
that finished or when its node still exists and is up, `lost` otherwise; `ignore` on a node
that is not ready; `update` when its job version differs; `ignore` otherwise. -/
def systemClass (job : Job) (ready : List String) (taintedNodes : Map String (Option Node))
    (a : Allocation) : diffKind :=
  if a.FullName ∉ materializeTaskGroups job then .stop
  else if a.DesiredTransition.ShouldMigrate then .migrate
  else if a.NodeID ∈ taintedNodes then
    if (a.Job.«Type» = JobTypeBatch ∧ a.RanSuccessfully) ∨
        (taintedNodes.lookup a.NodeID).join.any (!·.TerminalStatus) then .ignore
    else .lost
  else if a.NodeID ∉ ready then .ignore
  else if a.Job.JobModifyIndex ≠ job.JobModifyIndex then .update
  else .ignore

theorem diffExisting_eq_systemClass (job : Job) (nodes : List Node)
    (taintedNodes : Map String (Option Node)) {a : Allocation} (hterm : a.TerminalStatus = false) :
    diffExisting job a.NodeID (eligibleNodesOf nodes) taintedNodes (materializeTaskGroups job) a =
      systemClass job (nodes.map (·.ID)) taintedNodes a := by
  unfold diffExisting systemClass
  simp only [hterm, Bool.not_false, Bool.true_and, mem_eligibleNodesOf]
  cases hT : taintedNodes.lookup a.NodeID with
  | none =>
    have hnot : a.NodeID ∉ taintedNodes := by rw [← AList.lookup_eq_none]; exact hT
    simp only [hnot, if_false]
    grind
  | some node =>
    have hin : a.NodeID ∈ taintedNodes := AList.lookup_isSome.1 (by simp [hT])
    simp only [hin, if_true, Option.join_some]
    cases node with
    | none => grind [Option.all, Option.any]
    | some n => cases hn : n.TerminalStatus <;> grind [Option.all, Option.any]

-- ---------------------------------------------------------------------------
-- The diff is an exact classification
-- ---------------------------------------------------------------------------

section Diff

variable (job : Job) (nodes : List Node) (taintedNodes : Map String (Option Node))
  (allocs : List Allocation) (terminalAllocs : Map (String × Nat) Allocation)

theorem diffSystemAllocs_listOf (k : diffKind) :
    (diffSystemAllocs job nodes taintedNodes allocs terminalAllocs).listOf k =
      (nodeAllocsOf nodes allocs).entries.flatMap fun e =>
        (diffSystemAllocsForNode job e.1 (eligibleNodesOf nodes) taintedNodes
          (materializeTaskGroups job) e.2 terminalAllocs).listOf k := by
  simpa [diffSystemAllocs] using (foldl_Append _ (nodeAllocsOf nodes allocs).entries {} k).1

theorem diffSystemAllocs_place :
    (diffSystemAllocs job nodes taintedNodes allocs terminalAllocs).place =
      (nodeAllocsOf nodes allocs).entries.flatMap fun e =>
        (diffSystemAllocsForNode job e.1 (eligibleNodesOf nodes) taintedNodes
          (materializeTaskGroups job) e.2 terminalAllocs).place := by
  simpa [diffSystemAllocs] using (foldl_Append _ (nodeAllocsOf nodes allocs).entries {} .stop).2

theorem diffSystemAllocs_listOf_perm (hterm : ∀ a ∈ allocs, a.TerminalStatus = false)
    (k : diffKind) :
    List.Perm (((diffSystemAllocs job nodes taintedNodes allocs terminalAllocs).listOf k).map (·.Alloc))
      (allocs.filter (systemClass job (nodes.map (·.ID)) taintedNodes · = k)) := by
  obtain ⟨hg, -⟩ := nodeAllocsOf_groupsBy nodes allocs
  rw [diffSystemAllocs_listOf, List.map_flatMap]
  -- each node's scan classifies the allocations of that node
  have hnode : ∀ e ∈ (nodeAllocsOf nodes allocs).entries,
      ((diffSystemAllocsForNode job e.1 (eligibleNodesOf nodes) taintedNodes
        (materializeTaskGroups job) e.2 terminalAllocs).listOf k).map (·.Alloc) =
        e.2.filter (systemClass job (nodes.map (·.ID)) taintedNodes · = k) := by
    intro e he
    rw [diffSystemAllocsForNode_listOf, List.map_map]
    have hid : (fun t : allocTuple => t.Alloc) ∘ existTuple (materializeTaskGroups job) = id := rfl
    rw [hid, List.map_id]
    refine List.filter_congr fun a ha => ?_
    rw [hg.entry he, List.mem_filter, decide_eq_true_iff] at ha
    rw [← ha.2, diffExisting_eq_systemClass job nodes taintedNodes (hterm a ha.1)]
  rw [List.flatMap_congr hnode]
  exact hg.flatMap_filter_perm _

theorem diffSystemAllocs_place_pairs :
    (diffSystemAllocs job nodes taintedNodes allocs terminalAllocs).place.map
        (fun t => (t.Alloc.NodeID, t.Name)) =
      (nodeAllocsOf nodes allocs).entries.flatMap fun e =>
        ((materializeTaskGroups job).entries.filter fun x =>
          !decide (x.1 ∈ e.2.map Allocation.FullName ∨ e.1 ∈ taintedNodes ∨
            e.1 ∉ eligibleNodesOf nodes)).map fun x => (e.1, x.1) := by
  rw [diffSystemAllocs_place, List.map_flatMap]
  refine List.flatMap_congr fun e _ => ?_
  rw [diffSystemAllocsForNode_place, List.map_map]
  exact List.map_congr_left fun x _ => placeTuple_node e.1 terminalAllocs x.1 x.2

/-- The placements are exactly one per ready, untainted node and wanted name that the node has
no allocation of, each for its node. -/
theorem mem_diffSystemAllocs_place_pairs (n : String) (name : String × Nat) :
    (n, name) ∈ (diffSystemAllocs job nodes taintedNodes allocs terminalAllocs).place.map
        (fun t => (t.Alloc.NodeID, t.Name)) ↔
      n ∈ nodes.map (·.ID) ∧ n ∉ taintedNodes ∧ name ∈ materializeTaskGroups job ∧
        ¬∃ a ∈ allocs, a.NodeID = n ∧ a.FullName = name := by
  obtain ⟨hg, hready⟩ := nodeAllocsOf_groupsBy nodes allocs
  -- the allocations a node's entry holds are those on the node
  have hon : ∀ {e : Σ _ : String, List Allocation}, e ∈ (nodeAllocsOf nodes allocs).entries →
      (name ∈ e.2.map Allocation.FullName ↔ ∃ a ∈ allocs, a.NodeID = e.1 ∧ a.FullName = name) := by
    intro e he
    rw [hg.entry he]
    simp [and_assoc]
  rw [diffSystemAllocs_place_pairs, List.mem_flatMap]
  constructor
  · rintro ⟨e, he, hmem⟩
    obtain ⟨x, hx, hxe⟩ := List.mem_map.1 hmem
    rw [Prod.mk.injEq] at hxe
    obtain ⟨rfl, rfl⟩ := hxe
    obtain ⟨hx, hcond⟩ := List.mem_filter.1 hx
    simp only [not_or, not_not, Bool.not_eq_true', decide_eq_false_iff_not] at hcond
    refine ⟨(mem_eligibleNodesOf nodes e.1).1 hcond.2.2, hcond.2.1,
      AList.mem_keys.2 (List.mem_keys_of_mem hx), ?_⟩
    exact fun h => hcond.1 ((hon he).2 h)
  · rintro ⟨hn, ht, hname, hnone⟩
    obtain ⟨v, hv⟩ := Map.exists_lookup_of_mem (hready n hn)
    obtain ⟨tg, htg⟩ := Map.exists_lookup_of_mem hname
    have he : (⟨n, v⟩ : Σ _ : String, List Allocation) ∈ (nodeAllocsOf nodes allocs).entries :=
      AList.mem_lookup_iff.1 hv
    refine ⟨⟨n, v⟩, he, List.mem_map.2 ⟨⟨name, tg⟩, List.mem_filter.2 ⟨AList.mem_lookup_iff.1 htg, ?_⟩, rfl⟩⟩
    simp only [not_or, decide_eq_false_iff_not, Bool.not_eq_true', not_not]
    exact ⟨fun h => hnone ((hon he).1 h), ht, (mem_eligibleNodesOf nodes n).2 hn⟩

theorem nodup_diffSystemAllocs_place_pairs :
    ((diffSystemAllocs job nodes taintedNodes allocs terminalAllocs).place.map
      (fun t => (t.Alloc.NodeID, t.Name))).Nodup := by
  rw [diffSystemAllocs_place_pairs, List.nodup_flatMap]
  have hkeys := (nodeAllocsOf nodes allocs).nodupKeys
  constructor
  · -- within a node, the wanted names are the distinct keys of `required`
    intro e _
    have hreq := (materializeTaskGroups job).nodupKeys
    refine List.Nodup.map_on (fun x hx y hy hxy => ?_) (hreq.nodup.filter _)
    rw [Prod.mk.injEq] at hxy
    exact hreq.eq_of_fst_eq (List.mem_of_mem_filter hx) (List.mem_of_mem_filter hy) hxy.2
  · -- placements of different nodes differ in their node
    have hne : (nodeAllocsOf nodes allocs).entries.Pairwise fun e e' => e.1 ≠ e'.1 :=
      List.pairwise_map.1 hkeys
    refine hne.imp fun hee' => ?_
    intro p hp hp'
    obtain ⟨x, -, rfl⟩ := List.mem_map.1 hp
    obtain ⟨y, -, hy⟩ := List.mem_map.1 hp'
    exact hee' (Prod.mk.inj hy).1.symm

theorem materializeTaskGroups_of_stop (h : job.Stop = true) : materializeTaskGroups job = ∅ := by
  simp [materializeTaskGroups, h]

end Diff

/-- The system diff classifies exactly: each of `stop`, `migrate`, `lost`, `update` and
`ignore` holds the input allocations of its class and no other, so every allocation is in
exactly one of them, all of them stopped for a stopped job; and the placements are one per ready
node outside the tainted ones and wanted name that the node has no allocation of, each for its
node. -/
theorem diffSystemAllocs_classifies (job : Job) (nodes : List Node)
    (taintedNodes : Map String (Option Node)) (allocs : List Allocation)
    (terminalAllocs : Map (String × Nat) Allocation) (hterm : ∀ a ∈ allocs, a.TerminalStatus = false) :
    let r := diffSystemAllocs job nodes taintedNodes allocs terminalAllocs
    (∀ k, List.Perm ((r.listOf k).map (·.Alloc))
      (allocs.filter (systemClass job (nodes.map (·.ID)) taintedNodes · = k))) ∧
    (job.Stop = true → List.Perm (r.stop.map (·.Alloc)) allocs) ∧
    (∀ n name, (n, name) ∈ r.place.map (fun t => (t.Alloc.NodeID, t.Name)) ↔
      n ∈ nodes.map (·.ID) ∧ n ∉ taintedNodes ∧ name ∈ materializeTaskGroups job ∧
        ¬∃ a ∈ allocs, a.NodeID = n ∧ a.FullName = name) ∧
    (r.place.map fun t => (t.Alloc.NodeID, t.Name)).Nodup := by
  intro r
  have hclass := diffSystemAllocs_listOf_perm job nodes taintedNodes allocs terminalAllocs hterm
  refine ⟨hclass, fun hstop => ?_, mem_diffSystemAllocs_place_pairs job nodes taintedNodes allocs terminalAllocs,
    nodup_diffSystemAllocs_place_pairs job nodes taintedNodes allocs terminalAllocs⟩
  -- a stopped job wants no name, so every allocation is of class `stop`
  have hall : allocs.filter (systemClass job (nodes.map (·.ID)) taintedNodes · = .stop) = allocs := by
    refine List.filter_eq_self.2 fun a _ => ?_
    simp [systemClass, materializeTaskGroups_of_stop job hstop]
  simpa [hall, r, diffResult.listOf] using hclass .stop

def agentGroup : TaskGroup := { Name := "agent", Count := 1, Update := none, ReschedulePolicy := none }

def agentJob : Job :=
  { ID := "agent", Namespace := "default", «Type» := JobTypeSystem, Priority := 50, Stop := false,
    Version := 0, CreateIndex := 1, ModifyIndex := 1, JobModifyIndex := 1, TaskGroups := [agentGroup],
    Name := "agent" }

def agentAlloc : Allocation :=
  { ID := "a1", Name := 0, JobID := "agent", Job := agentJob, TaskGroup := "agent", NodeID := "n1",
    DesiredStatus := .run, DesiredTransition := ⟨none, none, none⟩, ClientStatus := .running,
    DeploymentID := "", DeploymentStatus := none, TaskStates := [], RescheduleTracker := none,
    NextAllocation := "", FollowupEvalID := "", ModifyTime := 0, NamePrefix := "agent.agent" }

/-- Nodes `n1` and `n2` are ready and `n1` runs the allocation: it is ignored, and `n2` gets the
one placement. -/
theorem diffSystemAllocs_classifies_twoNodes :
    (∀ a ∈ [agentAlloc], a.TerminalStatus = false) ∧
    let r := diffSystemAllocs agentJob [{ Status := .ready, ID := "n1" }, { Status := .ready, ID := "n2" }]
      ∅ [agentAlloc] ∅
    (∀ k, List.Perm ((r.listOf k).map (·.Alloc))
      ([agentAlloc].filter (systemClass agentJob (([{ Status := .ready, ID := "n1" },
        { Status := .ready, ID := "n2" }] : List Node).map (·.ID)) ∅ · = k))) ∧
    (agentJob.Stop = true → List.Perm (r.stop.map (·.Alloc)) [agentAlloc]) ∧
    (∀ n name, (n, name) ∈ r.place.map (fun t => (t.Alloc.NodeID, t.Name)) ↔
      n ∈ ([{ Status := .ready, ID := "n1" }, { Status := .ready, ID := "n2" }] : List Node).map (·.ID) ∧
        n ∉ (∅ : Map String (Option Node)) ∧ name ∈ materializeTaskGroups agentJob ∧
        ¬∃ a ∈ [agentAlloc], a.NodeID = n ∧ a.FullName = name) ∧
    (r.place.map fun t => (t.Alloc.NodeID, t.Name)).Nodup :=
  have hterm : ∀ a ∈ [agentAlloc], a.TerminalStatus = false := by decide
  ⟨hterm, diffSystemAllocs_classifies agentJob _ ∅ [agentAlloc] ∅ hterm⟩

example : (diffSystemAllocs agentJob [{ Status := .ready, ID := "n1" }, { Status := .ready, ID := "n2" }]
    ∅ [agentAlloc] ∅).place.map (fun t => (t.Alloc.NodeID, t.Name)) = [("n2", ("agent.agent", 0))] := by
  decide

-- re-registered under another name, the job wants none of the names it had: `agent.agent[0]` stops
example : ((diffSystemAllocs { agentJob with Name := "edge" } [{ Status := .ready, ID := "n1" }]
    ∅ [agentAlloc] ∅).stop.map (·.Alloc)) = [agentAlloc] := by
  decide

end Nomad.Scheduler
