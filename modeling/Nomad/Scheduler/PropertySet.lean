import Nomad.Container.SwapRemove
import Nomad.Structs.Plan
import Nomad.State.StateStore

/-!
# `distinct_property`: counting the uses of a node property

`scheduler/propertyset.go`: a property set counts, for each value of a node property, the
allocations of a job (or of one of its groups) that use it. It keeps three counters: the
allocations of the state that are not terminal (`existingValues`), those the plan places or
updates (`proposedValues`), and those the plan stops (`clearedValues`), the last lowered where
the plan also places on the value. `GetCombinedUseMap` adds the first two and takes off the
third, not below zero. `DistinctPropertyIterator` admits a node while its value is used fewer
times than the constraint allows.

The property is read from the node through `resolveTarget` of `scheduler/feasible.go`.
Counters are `Nat`: a count of allocations stays far below `2^64`.
-/

namespace Nomad.Scheduler

open Go Container Structs State

/-- `resolveTarget`: a literal target, or the node field, attribute or meta key that an
interpolation names. -/
def resolveTarget (target : String) (node : Node) : Option String :=
  if !strings.HasPrefix target "$\x7b" then some target
  else if target = "$\x7bnode.unique.id\x7d" then some node.ID
  else if target = "$\x7bnode.datacenter\x7d" then some node.Datacenter
  else if target = "$\x7bnode.unique.name\x7d" then some node.Name
  else if target = "$\x7bnode.class\x7d" then some node.NodeClass
  else if strings.HasPrefix target "$\x7battr." then
    node.Attributes.lookup (strings.TrimSuffix (strings.TrimPrefix target "$\x7battr.") "\x7d")
  else if strings.HasPrefix target "$\x7bmeta." then
    node.Meta.lookup (strings.TrimSuffix (strings.TrimPrefix target "$\x7bmeta.") "\x7d")
  else none

def getProperty (n : Option Node) (property : String) : Option String :=
  match n with
  | none => none
  | some n => if property = "" then none else resolveTarget property n

structure propertySet where
  jobID : String
  «namespace» : String
  taskGroup : String := ""
  targetAttribute : String := ""
  allowedCount : Nat := 0
  errorBuilding : Option String := none
  existingValues : Map String Nat := ∅
  proposedValues : Map String Nat := ∅
  clearedValues : Map String Nat := ∅
  deriving DecidableEq, Repr

def NewPropertySet (job : Job) : propertySet := { jobID := job.ID, «namespace» := job.Namespace }

/-- `buildNodeMap`: the node of each allocation's node ID, `nil` where the state has none. -/
def buildNodeMap (s : StateStore) (allocs : List Allocation) : Map String (Option Node) :=
  allocs.foldl (fun nodes alloc =>
    if alloc.NodeID ∈ nodes then nodes else nodes.insert alloc.NodeID (s.NodeByID alloc.NodeID)) ∅

namespace propertySet

variable (p : propertySet)

/-- `filterAllocs`: drop terminal allocations when asked, and, for a group's set, those of
other groups; the loop swaps in the last live entry. -/
def filterAllocs (allocs : List Allocation) (filterTerminal : Bool) : List Allocation :=
  swapRemove (fun alloc =>
    (filterTerminal && alloc.TerminalStatus) || (p.taskGroup != "" && alloc.TaskGroup != p.taskGroup))
    allocs

def populateProperties (allocs : List Allocation) (nodes : Map String (Option Node))
    (properties : Map String Nat) : Map String Nat :=
  Map.countBy (fun alloc => getProperty (nodes.lookup alloc.NodeID).join p.targetAttribute) allocs
    properties

def populateExisting (s : StateStore) : propertySet :=
  let allocs := p.filterAllocs (s.AllocsByJob p.«namespace» p.jobID false) true
  let nodes := buildNodeMap s allocs
  { p with existingValues := p.populateProperties allocs nodes p.existingValues }

/-- A round of the loop of `PopulateProposed` over the proposed values: a cleared count of the
value that is zero is deleted, and one above one is decremented. -/
def unclearStep (clearedValues : Map String Nat) (e : Σ _ : String, Nat) : Map String Nat :=
  match clearedValues.lookup e.1 with
  | none => clearedValues
  | some 0 => clearedValues.erase e.1
  | some current => if current > 1 then clearedValues.insert e.1 (current - 1) else clearedValues

def unclearProposed (proposedValues clearedValues : Map String Nat) : Map String Nat :=
  proposedValues.entries.foldl unclearStep clearedValues

def PopulateProposed (s : StateStore) (plan : Plan) : propertySet :=
  -- stops are counted whatever their status, placements only while not terminal
  let stopping := p.filterAllocs plan.NodeUpdate.flat false
  let proposed := p.filterAllocs plan.NodeAllocation.flat true
  let nodes := buildNodeMap s (stopping ++ proposed)
  let clearedValues := p.populateProperties stopping nodes ∅
  let proposedValues := p.populateProperties proposed nodes ∅
  { p with proposedValues, clearedValues := unclearProposed proposedValues clearedValues }

section Fields

variable (s : StateStore) (plan : Plan)

@[simp] theorem populateExisting_filterAllocs : (p.populateExisting s).filterAllocs = p.filterAllocs :=
  rfl

@[simp] theorem populateExisting_targetAttribute :
    (p.populateExisting s).targetAttribute = p.targetAttribute := rfl

@[simp] theorem populateExisting_populateProperties :
    (p.populateExisting s).populateProperties = p.populateProperties := rfl

theorem populateExisting_existingValues :
    (p.populateExisting s).existingValues =
      p.populateProperties (p.filterAllocs (s.AllocsByJob p.«namespace» p.jobID false) true)
        (buildNodeMap s (p.filterAllocs (s.AllocsByJob p.«namespace» p.jobID false) true))
        p.existingValues := rfl

@[simp] theorem PopulateProposed_existingValues : (p.PopulateProposed s plan).existingValues = p.existingValues :=
  rfl

theorem PopulateProposed_proposedValues :
    (p.PopulateProposed s plan).proposedValues =
      p.populateProperties (p.filterAllocs plan.NodeAllocation.flat true)
        (buildNodeMap s (p.filterAllocs plan.NodeUpdate.flat false ++
          p.filterAllocs plan.NodeAllocation.flat true)) ∅ := rfl

theorem PopulateProposed_clearedValues :
    (p.PopulateProposed s plan).clearedValues =
      unclearProposed (p.PopulateProposed s plan).proposedValues
        (p.populateProperties (p.filterAllocs plan.NodeUpdate.flat false)
          (buildNodeMap s (p.filterAllocs plan.NodeUpdate.flat false ++
            p.filterAllocs plan.NodeAllocation.flat true)) ∅) := rfl

end Fields

def setTargetAttributeWithCount (s : StateStore) (plan : Plan) (targetAttribute : String)
    (allowedCount : Nat) (taskGroup : String) : propertySet :=
  let p := if taskGroup ≠ "" then { p with taskGroup } else p
  let p := { p with targetAttribute, allowedCount }
  (p.populateExisting s).PopulateProposed s plan

/-- `SetTargetAttribute`: a spread's set, which allows no count. -/
def SetTargetAttribute (s : StateStore) (plan : Plan) (targetAttribute taskGroup : String) :
    propertySet :=
  p.setTargetAttributeWithCount s plan targetAttribute 0 taskGroup

@[simp] theorem targetAttribute_setTargetAttributeWithCount (s : StateStore) (plan : Plan)
    (targetAttribute : String) (allowedCount : Nat) (taskGroup : String) :
    (p.setTargetAttributeWithCount s plan targetAttribute allowedCount taskGroup).targetAttribute =
      targetAttribute := by
  unfold setTargetAttributeWithCount
  split <;> rfl

def setConstraint (s : StateStore) (plan : Plan) (constraint : Constraint) (taskGroup : String) :
    propertySet :=
  if constraint.RTarget ≠ "" then
    match strconv.ParseUint constraint.RTarget with
    | .error err =>
      { p with errorBuilding := some ("failed to convert RTarget " ++
          strconv.Quote constraint.RTarget ++ " to uint64: " ++ err) }
    | .ok c => p.setTargetAttributeWithCount s plan constraint.LTarget c taskGroup
  else p.setTargetAttributeWithCount s plan constraint.LTarget 1 taskGroup

def SetJobConstraint (s : StateStore) (plan : Plan) (constraint : Constraint) : propertySet :=
  p.setConstraint s plan constraint ""

def SetTGConstraint (s : StateStore) (plan : Plan) (constraint : Constraint) (taskGroup : String) :
    propertySet :=
  p.setConstraint s plan constraint taskGroup

def addCounts (combinedUse usedValues : Map String Nat) : Map String Nat :=
  usedValues.entries.foldl (fun combinedUse e => combinedUse.add e.1 e.2) combinedUse

/-- A round of the loop of `GetCombinedUseMap` over the cleared values: a used value loses its
cleared count, not below zero. -/
def discountStep (combinedUse : Map String Nat) (e : Σ _ : String, Nat) : Map String Nat :=
  match combinedUse.lookup e.1 with
  | none => combinedUse
  | some combined => combinedUse.insert e.1 (if combined ≥ e.2 then combined - e.2 else 0)

def discountCleared (clearedValues combinedUse : Map String Nat) : Map String Nat :=
  clearedValues.entries.foldl discountStep combinedUse

def GetCombinedUseMap : Map String Nat :=
  discountCleared p.clearedValues ([p.existingValues, p.proposedValues].foldl addCounts ∅)

def UsedCount (option : Node) (_tg : String) : String × String × Nat :=
  match p.errorBuilding with
  | some err => ("", err, 0)
  | none =>
    match getProperty (some option) p.targetAttribute with
    | none => ("", "missing property " ++ strconv.Quote p.targetAttribute, 0)
    | some nValue => (nValue, "", (p.GetCombinedUseMap.lookup nValue).getD 0)

def SatisfiesDistinctProperties (option : Node) (tg : String) : Bool × String :=
  let (nValue, errorMsg, usedCount) := p.UsedCount option tg
  if errorMsg ≠ "" then (false, errorMsg)
  else if usedCount < p.allowedCount then (true, "")
  else (false, "distinct_property: " ++ p.targetAttribute ++ "=" ++ nValue ++ " used by " ++
    toString usedCount ++ " allocs")

end propertySet

-- ---------------------------------------------------------------------------
-- The iterator
-- ---------------------------------------------------------------------------

/-- `DistinctPropertyIterator`, without its source: `Next` takes the nodes the source has left. -/
structure DistinctPropertyIterator where
  tg : Option TaskGroup := none
  job : Option Job := none
  hasDistinctPropertyConstraints : Bool := false
  jobPropertySets : List propertySet := []
  groupPropertySets : Map String (List propertySet) := ∅
  deriving DecidableEq, Repr

namespace DistinctPropertyIterator

variable (iter : DistinctPropertyIterator)

def SetJob (s : StateStore) (plan : Plan) (job : Job) : DistinctPropertyIterator :=
  { iter with
    job := some job
    jobPropertySets := iter.jobPropertySets ++
      (job.Constraints.filter (·.Operand == ConstraintDistinctProperty)).map fun c =>
        (NewPropertySet job).SetJobConstraint s plan c }

/-- `SetTaskGroup` builds the group's sets once; it reads the job set by `SetJob`, and panics
on a group constraint without one. -/
def SetTaskGroup (s : StateStore) (plan : Plan) (tg : TaskGroup) : Outcome DistinctPropertyIterator :=
  let distinct := tg.Constraints.filter (·.Operand == ConstraintDistinctProperty)
  let built : Outcome (Map String (List propertySet)) :=
    if tg.Name ∈ iter.groupPropertySets ∨ distinct = [] then .ok iter.groupPropertySets
    else match iter.job with
      | none => .panic
      | some job => .ok (iter.groupPropertySets.insert tg.Name
          (distinct.map fun c => (NewPropertySet job).SetTGConstraint s plan c tg.Name))
  built.map fun groupPropertySets =>
    { iter with
      tg := some tg
      groupPropertySets
      hasDistinctPropertyConstraints := iter.jobPropertySets.length ≠ 0 ||
        ((groupPropertySets.lookup tg.Name).getD []).length ≠ 0 }

def tgName : String := (iter.tg.map (·.Name)).getD ""

def satisfiesProperties (option : Node) (set : List propertySet) : Bool :=
  set.all fun ps => (ps.SatisfiesDistinctProperties option iter.tgName).1

def Next : List Node → Option Node × List Node
  | [] => (none, [])
  | option :: rest =>
    if !iter.hasDistinctPropertyConstraints then (some option, rest)
    else if !iter.satisfiesProperties option iter.jobPropertySets ||
        !iter.satisfiesProperties option ((iter.groupPropertySets.lookup iter.tgName).getD []) then
      Next rest
    else (some option, rest)

def Reset (s : StateStore) (plan : Plan) : DistinctPropertyIterator :=
  { iter with
    jobPropertySets := iter.jobPropertySets.map (·.PopulateProposed s plan)
    groupPropertySets := iter.groupPropertySets.mapWithKey fun _ sets =>
      sets.map (·.PopulateProposed s plan) }

end DistinctPropertyIterator

-- ---------------------------------------------------------------------------
-- What the counts are meant to be
-- ---------------------------------------------------------------------------

/-- The allocations of the job (of the group `tg`, unless it is empty) that run once the plan
is applied, each once: those of the state that are not terminal and that the plan neither stops
nor places again, and the plan's placements that are not terminal. -/
def liveAfterPlan (s : StateStore) (plan : Plan) (ns jobID tg : String) : List Allocation :=
  let inGroup := fun (a : Allocation) => tg == "" || a.TaskGroup == tg
  let placed := plan.NodeAllocation.flat.filter fun a => !a.TerminalStatus && inGroup a
  let replaced := (plan.NodeUpdate.flat ++ placed).map (·.ID)
  ((s.AllocsByJob ns jobID false).filter fun a =>
    !a.TerminalStatus && inGroup a && !replaced.contains a.ID) ++ placed

def usesOf (s : StateStore) (attr v : String) (allocs : List Allocation) : Nat :=
  allocs.countP fun a => getProperty (s.NodeByID a.NodeID) attr = some v

-- ---------------------------------------------------------------------------
-- Counts that miss and counts that repeat
-- ---------------------------------------------------------------------------

def rackNode (id rack : String) : Node :=
  { Status := .ready, ID := id, Meta := (∅ : Map String String).insert "rack" rack }

def rackConstraint : Constraint := ⟨"$\x7bmeta.rack\x7d", "", ConstraintDistinctProperty⟩

def rackGroup : TaskGroup := { Name := "web", Count := 2, Update := none, ReschedulePolicy := none }

def rackJob : Job :=
  { ID := "web", Namespace := "default", «Type» := JobTypeService, Priority := 50, Stop := false,
    Version := 0, CreateIndex := 1, ModifyIndex := 1, JobModifyIndex := 1, TaskGroups := [rackGroup],
    Constraints := [rackConstraint] }

def rackAlloc (id node : String) (client : AllocClientStatus) : Allocation :=
  { ID := id, Name := 0, JobID := "web", Job := rackJob, TaskGroup := "web", NodeID := node,
    DesiredStatus := .run, DesiredTransition := ⟨none, none, none⟩, ClientStatus := client,
    DeploymentID := "", DeploymentStatus := none, TaskStates := [], RescheduleTracker := none,
    NextAllocation := "", FollowupEvalID := "", ModifyTime := 0 }

def rackStore (allocs : List Allocation) : StateStore :=
  { allocs := allocs.foldl (fun m a => m.insert a.ID a) ∅, jobs := [rackJob],
    nodes := ((∅ : Map String Node).insert "n1" (rackNode "n1" "1")).insert "n2" (rackNode "n2" "1")
      |>.insert "n3" (rackNode "n3" "1") }

/-- The plan updates `a1` in place: the state and the plan each count it, so its rack is used
twice. The plan stops `a2`, which failed and is being rescheduled: the stop is counted against
the rack though the failed `a2` was never counted for it, so the rack of the running `a1` counts
as unused and the iterator admits `n3` of the same rack. -/
theorem propertySet_miscounts_rack :
    ((((NewPropertySet rackJob).SetJobConstraint (rackStore [rackAlloc "a1" "n1" .running])
          (({} : Plan).AppendAlloc (rackAlloc "a1" "n1" .running)) rackConstraint).GetCombinedUseMap.lookup
        "1").getD 0 = 2 ∧
      usesOf (rackStore [rackAlloc "a1" "n1" .running]) rackConstraint.LTarget "1"
        (liveAfterPlan (rackStore [rackAlloc "a1" "n1" .running])
          (({} : Plan).AppendAlloc (rackAlloc "a1" "n1" .running)) "default" "web" "") = 1) ∧
    (((({} : DistinctPropertyIterator).SetJob
          (rackStore [rackAlloc "a1" "n1" .running, rackAlloc "a2" "n2" .failed])
          (({} : Plan).AppendStoppedAlloc (rackAlloc "a2" "n2" .failed) "alloc is being rescheduled" none)
          rackJob).SetTaskGroup
          (rackStore [rackAlloc "a1" "n1" .running, rackAlloc "a2" "n2" .failed])
          (({} : Plan).AppendStoppedAlloc (rackAlloc "a2" "n2" .failed) "alloc is being rescheduled" none)
          rackGroup).map (·.Next [rackNode "n3" "1"]) = .ok (some (rackNode "n3" "1"), []) ∧
      usesOf (rackStore [rackAlloc "a1" "n1" .running, rackAlloc "a2" "n2" .failed]) rackConstraint.LTarget "1"
        (liveAfterPlan (rackStore [rackAlloc "a1" "n1" .running, rackAlloc "a2" "n2" .failed])
          (({} : Plan).AppendStoppedAlloc (rackAlloc "a2" "n2" .failed) "alloc is being rescheduled" none)
          "default" "web" "") = 1) := by
  decide

-- ---------------------------------------------------------------------------
-- What the counters hold
-- ---------------------------------------------------------------------------

section Counts

variable {s : StateStore}

theorem foldl_buildNodeMap (l : List Allocation) (nodes : Map String (Option Node))
    (h : ∀ id n, nodes.lookup id = some n → n = s.NodeByID id) :
    let nodes' := l.foldl (fun nodes alloc =>
      if alloc.NodeID ∈ nodes then nodes else nodes.insert alloc.NodeID (s.NodeByID alloc.NodeID)) nodes
    (∀ id n, nodes'.lookup id = some n → n = s.NodeByID id) ∧
      ∀ id, id ∈ nodes ∨ (∃ a ∈ l, a.NodeID = id) → id ∈ nodes' := by
  induction l generalizing nodes with
  | nil => exact ⟨h, fun id hid => hid.resolve_right (by simp)⟩
  | cons a l ih =>
    simp only [List.foldl_cons]
    by_cases ha : a.NodeID ∈ nodes
    · rw [if_pos ha]
      refine ⟨(ih nodes h).1, fun id hid => (ih nodes h).2 id ?_⟩
      rcases hid with hid | ⟨b, hb, rfl⟩
      · exact .inl hid
      · rcases List.mem_cons.1 hb with rfl | hb
        · exact .inl ha
        · exact .inr ⟨b, hb, rfl⟩
    · rw [if_neg ha]
      have h' : ∀ id n, (nodes.insert a.NodeID (s.NodeByID a.NodeID)).lookup id = some n →
          n = s.NodeByID id := by
        intro id n hn
        by_cases hid : id = a.NodeID
        · subst hid
          rw [AList.lookup_insert, Option.some.injEq] at hn
          exact hn.symm
        · rw [AList.lookup_insert_ne hid] at hn
          exact h id n hn
      refine ⟨(ih _ h').1, fun id hid => (ih _ h').2 id ?_⟩
      rcases hid with hid | ⟨b, hb, rfl⟩
      · exact .inl ((AList.mem_insert _).2 (.inr hid))
      · rcases List.mem_cons.1 hb with rfl | hb
        · exact .inl ((AList.mem_insert _).2 (.inl rfl))
        · exact .inr ⟨b, hb, rfl⟩

theorem buildNodeMap_lookup (allocs : List Allocation) {a : Allocation} (ha : a ∈ allocs) :
    ((buildNodeMap s allocs).lookup a.NodeID).join = s.NodeByID a.NodeID := by
  have h := foldl_buildNodeMap (s := s) allocs ∅ (by simp)
  obtain ⟨n, hn⟩ := Map.exists_lookup_of_mem (h.2 a.NodeID (.inr ⟨a, ha, rfl⟩))
  rw [buildNodeMap, hn, h.1 _ _ hn, Option.join_some]

namespace propertySet

variable (p : propertySet)

/-- Whatever order the swap loop leaves, it counts the allocations of the `filter`. -/
theorem countP_filterAllocs (allocs : List Allocation) (filterTerminal : Bool)
    (q : Allocation → Bool) :
    (p.filterAllocs allocs filterTerminal).countP q =
      (allocs.filter fun alloc => !((filterTerminal && alloc.TerminalStatus) ||
        (p.taskGroup != "" && alloc.TaskGroup != p.taskGroup))).countP q :=
  (swapRemove_perm allocs).countP_eq q

theorem populateProperties_getD (allocs : List Allocation) (nodes : Map String (Option Node))
    (properties : Map String Nat) (v : String) :
    ((p.populateProperties allocs nodes properties).lookup v).getD 0 =
      (properties.lookup v).getD 0 +
        allocs.countP fun a => getProperty (nodes.lookup a.NodeID).join p.targetAttribute = some v :=
  Map.getD_countBy _ allocs properties v

theorem countP_buildNodeMap (l allocs : List Allocation) (hl : ∀ a ∈ l, a ∈ allocs) (v : String) :
    l.countP (fun a => getProperty ((buildNodeMap s allocs).lookup a.NodeID).join p.targetAttribute = some v) =
      l.countP fun a => getProperty (s.NodeByID a.NodeID) p.targetAttribute = some v := by
  refine List.countP_congr fun a ha => ?_
  rw [buildNodeMap_lookup allocs (hl a ha)]

end propertySet

theorem unclearStep_local :
    Map.LocalStep (fun _ o => match o with
      | none => none
      | some 0 => none
      | some current => if current > 1 then some (current - 1) else some current)
      propertySet.unclearStep := by
  intro acc e k
  by_cases hk : k = e.1
  · subst hk
    rw [if_pos rfl, propertySet.unclearStep]
    cases h : acc.lookup e.1 with
    | none => simp [h]
    | some current =>
      rcases current with _ | current
      · simp
      · by_cases hc : current + 1 > 1 <;> simp [hc, h]
  · rw [if_neg hk, propertySet.unclearStep]
    cases h : acc.lookup e.1 with
    | none => rfl
    | some current =>
      rcases current with _ | current
      · exact AList.lookup_erase_ne hk
      · by_cases hc : current + 1 > 1
        · simp [hc, AList.lookup_insert_ne hk]
        · simp [hc]

theorem unclearProposed_getD (proposedValues clearedValues : Map String Nat) (v : String) :
    ((propertySet.unclearProposed proposedValues clearedValues).lookup v).getD 0 =
      if v ∈ proposedValues ∧ 1 < (clearedValues.lookup v).getD 0 then
        (clearedValues.lookup v).getD 0 - 1
      else (clearedValues.lookup v).getD 0 := by
  rw [propertySet.unclearProposed, Map.lookup_foldl_entries unclearStep_local]
  cases hp : proposedValues.lookup v with
  | none =>
    have : v ∉ proposedValues := by rw [← AList.lookup_eq_none]; exact hp
    simp [this]
  | some c =>
    have : v ∈ proposedValues := AList.lookup_isSome.1 (by simp [hp])
    cases hc : clearedValues.lookup v with
    | none => simp [this]
    | some current =>
      rcases current with _ | current
      · simp
      · by_cases h1 : current + 1 > 1 <;> simp [this, h1]

theorem addCounts_lookup (combinedUse usedValues : Map String Nat) (v : String) :
    (propertySet.addCounts combinedUse usedValues).lookup v =
      match usedValues.lookup v with
      | some c => some ((combinedUse.lookup v).getD 0 + c)
      | none => combinedUse.lookup v := by
  have hs : Map.LocalStep (fun e o => some (o.getD 0 + e.2))
      fun (combinedUse : Map String Nat) (e : Σ _ : String, Nat) => combinedUse.add e.1 e.2 := by
    intro acc e k
    by_cases hk : k = e.1
    · subst hk; simp
    · simp [hk, Map.lookup_add_ne _ hk]
  rw [propertySet.addCounts, Map.lookup_foldl_entries hs]
  cases usedValues.lookup v <;> rfl

theorem discountCleared_lookup (clearedValues combinedUse : Map String Nat) (v : String) :
    (propertySet.discountCleared clearedValues combinedUse).lookup v =
      match clearedValues.lookup v with
      | some c => (combinedUse.lookup v).map fun combined => if combined ≥ c then combined - c else 0
      | none => combinedUse.lookup v := by
  have hs : Map.LocalStep
      (fun e o => o.map fun combined => if combined ≥ e.2 then combined - e.2 else 0)
      propertySet.discountStep := by
    intro acc e k
    by_cases hk : k = e.1
    · subst hk
      rw [if_pos rfl, propertySet.discountStep]
      cases h : acc.lookup e.1 <;> simp [h]
    · rw [if_neg hk, propertySet.discountStep]
      cases acc.lookup e.1 with
      | none => rfl
      | some combined => exact AList.lookup_insert_ne hk
  rw [propertySet.discountCleared, Map.lookup_foldl_entries hs]
  cases clearedValues.lookup v <;> rfl

/-- The combined use of a value is its existing count plus its proposed count, less its cleared
count, not below zero. -/
theorem getCombinedUseMap_getD (p : propertySet) (v : String) :
    (p.GetCombinedUseMap.lookup v).getD 0 =
      (p.existingValues.lookup v).getD 0 + (p.proposedValues.lookup v).getD 0 -
        (p.clearedValues.lookup v).getD 0 := by
  simp only [propertySet.GetCombinedUseMap, List.foldl_cons, List.foldl_nil, discountCleared_lookup,
    addCounts_lookup]
  cases p.existingValues.lookup v <;> cases p.proposedValues.lookup v <;>
    cases p.clearedValues.lookup v <;> simp <;> omega

theorem propertySet.setTargetAttributeWithCount_of_fresh (p : propertySet) (hp : p.taskGroup = "")
    (plan : Plan) (attr : String) (n : Nat) (tg : String) :
    p.setTargetAttributeWithCount s plan attr n tg =
      ({ p with taskGroup := tg, targetAttribute := attr, allowedCount := n }.populateExisting s).PopulateProposed
        s plan := by
  by_cases h : tg = ""
  · subst h
    obtain ⟨_, _, tg₀, _⟩ := p
    subst hp
    rfl
  · simp [propertySet.setTargetAttributeWithCount, h]

theorem countP_populate (p : propertySet) (allocs others : List Allocation) (filterTerminal : Bool)
    (h : ∀ a ∈ p.filterAllocs allocs filterTerminal, a ∈ others) (v : String) :
    (p.filterAllocs allocs filterTerminal).countP (fun a =>
        getProperty ((buildNodeMap s others).lookup a.NodeID).join p.targetAttribute = some v) =
      usesOf s p.targetAttribute v (allocs.filter fun a =>
        !(filterTerminal && a.TerminalStatus) && (p.taskGroup == "" || a.TaskGroup == p.taskGroup)) := by
  rw [p.countP_buildNodeMap _ _ h, p.countP_filterAllocs, usesOf]
  congr 1
  refine List.filter_congr fun a _ => ?_
  cases filterTerminal <;> cases a.TerminalStatus <;> by_cases hg : p.taskGroup = "" <;> simp [hg, bne]

theorem counts_of_populate (p : propertySet) (plan : Plan) (tg attr v : String)
    (htg : p.taskGroup = tg) (hattr : p.targetAttribute = attr) (hex : p.existingValues = ∅) :
    let inGroup := fun a : Allocation => tg == "" || a.TaskGroup == tg
    let ps := (p.populateExisting s).PopulateProposed s plan
    (ps.existingValues.lookup v).getD 0 = usesOf s attr v
        ((s.AllocsByJob p.«namespace» p.jobID false).filter fun a => !a.TerminalStatus && inGroup a) ∧
      (ps.proposedValues.lookup v).getD 0 = usesOf s attr v
        (plan.NodeAllocation.flat.filter fun a => !a.TerminalStatus && inGroup a) ∧
      (v ∈ ps.proposedValues ↔ 0 < (ps.proposedValues.lookup v).getD 0) ∧
      ((ps.clearedValues.lookup v).getD 0 =
        let cleared := usesOf s attr v (plan.NodeUpdate.flat.filter inGroup)
        if v ∈ ps.proposedValues ∧ 1 < cleared then cleared - 1 else cleared) := by
  intro inGroup ps
  subst htg hattr
  -- the nodes of stops and placements are looked up together
  have hst : ∀ a ∈ p.filterAllocs plan.NodeUpdate.flat false,
      a ∈ p.filterAllocs plan.NodeUpdate.flat false ++ p.filterAllocs plan.NodeAllocation.flat true :=
    fun a ha => List.mem_append_left _ ha
  have hpr : ∀ a ∈ p.filterAllocs plan.NodeAllocation.flat true,
      a ∈ p.filterAllocs plan.NodeUpdate.flat false ++ p.filterAllocs plan.NodeAllocation.flat true :=
    fun a ha => List.mem_append_right _ ha
  have hP : (ps.proposedValues.lookup v).getD 0 = usesOf s p.targetAttribute v
      (plan.NodeAllocation.flat.filter fun a => !a.TerminalStatus && inGroup a) := by
    simp only [ps, propertySet.PopulateProposed_proposedValues, propertySet.populateExisting_filterAllocs,
      propertySet.populateExisting_populateProperties, propertySet.populateProperties_getD,
      countP_populate _ _ _ _ hpr]
    simp [inGroup]
  refine ⟨?_, hP, ?_, ?_⟩
  · simp only [ps, propertySet.PopulateProposed_existingValues, propertySet.populateExisting_existingValues,
      propertySet.populateProperties_getD, countP_populate _ _ _ _ (fun a ha => ha), hex]
    simp [inGroup]
  · exact Map.mem_countBy_empty _ _ v
  · rw [propertySet.PopulateProposed_clearedValues, unclearProposed_getD]
    simp only [propertySet.populateExisting_filterAllocs, propertySet.populateExisting_populateProperties,
      propertySet.populateProperties_getD, countP_populate _ _ _ _ hst]
    simp [inGroup, ps]

end Counts

/-- The combined use a fresh property set reports for a value: the job's allocations in the
state that are not terminal, plus the plan's placements that are not terminal, less the plan's
stops, the stops counting one less when the value is also placed on and stopped more than once;
each allocation is counted on the state's node of its node ID. -/
theorem combinedUse_of_setTargetAttributeWithCount (s : StateStore) (plan : Plan) (job : Job)
    (attr : String) (n : Nat) (tg v : String) :
    let inGroup := fun a : Allocation => tg == "" || a.TaskGroup == tg
    let existing := usesOf s attr v
      ((s.AllocsByJob job.Namespace job.ID false).filter fun a => !a.TerminalStatus && inGroup a)
    let proposed := usesOf s attr v
      (plan.NodeAllocation.flat.filter fun a => !a.TerminalStatus && inGroup a)
    let cleared := usesOf s attr v (plan.NodeUpdate.flat.filter inGroup)
    (((NewPropertySet job).setTargetAttributeWithCount s plan attr n tg).GetCombinedUseMap.lookup
        v).getD 0 =
      existing + proposed - if 0 < proposed ∧ 1 < cleared then cleared - 1 else cleared := by
  intro inGroup existing proposed cleared
  obtain ⟨hE, hP, hmem, hC⟩ := counts_of_populate (s := s)
    { NewPropertySet job with taskGroup := tg, targetAttribute := attr, allowedCount := n } plan tg attr v
    rfl rfl rfl
  rw [propertySet.setTargetAttributeWithCount_of_fresh _ rfl, getCombinedUseMap_getD, hE, hP, hC]
  simp only [hmem, hP]
  rfl

end Nomad.Scheduler
