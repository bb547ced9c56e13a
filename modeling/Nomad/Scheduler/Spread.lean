import Mathlib
import Nomad.Scheduler.PropertySet

/-!
# `SpreadIterator`

`SetTaskGroup` builds, once per group, a property set for each spread of the job and of the group,
and `computeSpreadInfo` records each spread's weight and desired counts. `Next` scores the first
option of the source: each spread adds its boost, scaled by `weight / sumSpreadWeights`.

`sumSpreadWeights` belongs to the iterator, not to the group: `computeSpreadInfo` adds the weights
of every group it sees, the job's spreads again for each group. After the groups `tgs`, the weights
a group's score uses sum to its own weight over the weight of all of `tgs`
(`relativeWeights_sum_after_groups`), so they sum to one only for the first group, and a group's
score depends on which groups were set before it (`spread_weights_diluted`). The sum is an
`int32`, so it is the weight of all of `tgs` wrapped to that range.

Scores are `float64` in Go and rationals here.
-/

namespace Nomad.Scheduler

open Go Container Structs State

def implicitTarget : String := "*"

structure RankedNode where
  Node : Node
  Scores : List ℚ
  deriving DecidableEq, Repr

structure spreadInfo where
  /-- An `int8`. -/
  weight : Int
  desiredCounts : Map String ℚ
  deriving DecidableEq, Repr

abbrev spreadAttributeMap := Map String spreadInfo

/-- `SpreadIterator`, without its source: `Next` takes the options the source has left. -/
structure SpreadIterator where
  job : Option Job := none
  tg : Option TaskGroup := none
  jobSpreads : List Spread := []
  tgSpreadInfo : Map String spreadAttributeMap := ∅
  /-- An `int32`. -/
  sumSpreadWeights : Int := 0
  hasSpread : Bool := false
  groupPropertySets : Map String (List propertySet) := ∅
  deriving DecidableEq, Repr

def spreadDesiredCounts (totalCount : Int) (spread : Spread) : Map String ℚ :=
  let (desiredCounts, sumDesiredCounts) := spread.SpreadTarget.foldl (fun (m, sum) st =>
    let desiredCount := ((st.Percent : ℚ) / 100) * totalCount
    (m.insert st.Value desiredCount, sum + desiredCount)) ((∅ : Map String ℚ), (0 : ℚ))
  -- the remaining count is recorded only when there are targets
  if 0 < sumDesiredCounts ∧ sumDesiredCounts < totalCount then
    desiredCounts.insert implicitTarget (totalCount - sumDesiredCounts)
  else desiredCounts

def evenSpreadScoreBoost (pset : propertySet) (option : Node) : ℚ :=
  let combinedUseMap := pset.GetCombinedUseMap
  if combinedUseMap.entries.length = 0 then 0 else
  match getProperty (some option) pset.targetAttribute with
  | none => -1
  | some nValue =>
    let currentAttributeCount := (combinedUseMap.lookup nValue).getD 0
    -- a count of zero stands for "not set yet" in both bounds
    let (minCount, maxCount) := combinedUseMap.entries.foldl (fun (minCount, maxCount) e =>
      (if minCount = 0 ∨ e.2 < minCount then e.2 else minCount,
        if maxCount = 0 ∨ e.2 > maxCount then e.2 else maxCount)) (0, 0)
    -- `int(minCount - currentAttributeCount)` on `uint64`s
    let deltaBoost : ℚ := if minCount = 0 then -1
      else (wrap64 ((minCount : Int) - currentAttributeCount) : ℚ) / minCount
    if currentAttributeCount ≠ minCount then deltaBoost
    else if minCount = maxCount then -1
    else if minCount = 0 then 1
    else (wrap64 ((maxCount : Int) - minCount) : ℚ) / minCount

/-- The spread infos of `tg`, by attribute: the group's spreads and then the job's, a later one
replacing an earlier one of the same attribute. -/
def spreadInfos (tg : TaskGroup) (jobSpreads : List Spread) : spreadAttributeMap :=
  (tg.Spreads ++ jobSpreads).foldl (fun spreadInfos spread =>
    spreadInfos.insert spread.Attribute ⟨spread.Weight, spreadDesiredCounts tg.Count spread⟩) ∅

namespace SpreadIterator

variable (iter : SpreadIterator)

def SetJob (job : Job) : SpreadIterator :=
  -- a `nil` and an empty list of spreads are the same here
  { iter with job := some job, jobSpreads := if job.Spreads ≠ [] then job.Spreads else iter.jobSpreads }

/-- `computeSpreadInfo`: the spread infos of `tg` by attribute, and the weights added to the
iterator's sum. The loop's two accumulators are independent and kept as two folds. -/
def computeSpreadInfo (tg : TaskGroup) : SpreadIterator :=
  { iter with
    tgSpreadInfo := iter.tgSpreadInfo.insert tg.Name (spreadInfos tg iter.jobSpreads)
    -- `int32(spread.Weight)` of an `int8` is exact; the `int32` sum wraps
    sumSpreadWeights := (tg.Spreads ++ iter.jobSpreads).foldl
      (fun sumSpreadWeights spread => wrap32 (sumSpreadWeights + spread.Weight)) iter.sumSpreadWeights }

def spreadPropertySets (s : StateStore) (plan : Plan) (job : Job) (tg : TaskGroup) :
    List propertySet :=
  (iter.jobSpreads ++ tg.Spreads).map fun spread =>
    (NewPropertySet job).SetTargetAttribute s plan spread.Attribute tg.Name

/-- `SetTaskGroup` builds the group's sets and spread infos once; building a set reads the job
set by `SetJob`, and panics without one. -/
def SetTaskGroup (s : StateStore) (plan : Plan) (tg : TaskGroup) : Outcome SpreadIterator :=
  let built : Outcome (Map String (List propertySet)) :=
    if tg.Name ∈ iter.groupPropertySets ∨ iter.jobSpreads ++ tg.Spreads = [] then
      .ok iter.groupPropertySets
    else match iter.job with
      | none => .panic
      | some job => .ok (iter.groupPropertySets.insert tg.Name (iter.spreadPropertySets s plan job tg))
  built.map fun groupPropertySets =>
    let iter := { iter with
      tg := some tg
      groupPropertySets
      hasSpread := ((groupPropertySets.lookup tg.Name).getD []).length ≠ 0 }
    if tg.Name ∈ iter.tgSpreadInfo then iter else iter.computeSpreadInfo tg

def spreadScoreStep (option : Node) (tgName : String) (totalSpreadScore : ℚ) (pset : propertySet) :
    Outcome ℚ :=
  let (nValue, errorMsg, usedCount) := pset.UsedCount option tgName
  -- one more for the placement on this node
  let usedCount := usedCount + 1
  if errorMsg ≠ "" then .ok (totalSpreadScore - 1) else
  match ((iter.tgSpreadInfo.lookup tgName).getD ∅).lookup pset.targetAttribute with
  | none => .panic
  | some spreadDetails =>
    if spreadDetails.desiredCounts.entries.length = 0 then
      .ok (totalSpreadScore + evenSpreadScoreBoost pset option)
    else
      let desiredCount := match spreadDetails.desiredCounts.lookup nValue with
        | some desiredCount => some desiredCount
        | none => spreadDetails.desiredCounts.lookup implicitTarget
      match desiredCount with
      | none => .ok (totalSpreadScore - 1)
      | some desiredCount =>
        let spreadWeight := (spreadDetails.weight : ℚ) / iter.sumSpreadWeights
        .ok (totalSpreadScore + ((desiredCount - usedCount) / desiredCount) * spreadWeight)

def tgName : String := (iter.tg.map (·.Name)).getD ""

/-- `Next`: the first option of the source, with the spread score appended when it is not zero,
and what the source has left after it. -/
def Next : List RankedNode → Outcome (Option RankedNode × List RankedNode)
  | [] => .ok (none, [])
  | option :: rest =>
    if !iter.hasSpread then .ok (some option, rest) else
    let propertySets := (iter.groupPropertySets.lookup iter.tgName).getD []
    (propertySets.foldl (fun (total : Outcome ℚ) pset =>
        total.bind fun t => iter.spreadScoreStep option.Node iter.tgName t pset) (.ok 0)).map
      fun totalSpreadScore =>
        (some (if totalSpreadScore ≠ 0 then { option with Scores := option.Scores ++ [totalSpreadScore] }
          else option), rest)

def Reset (s : StateStore) (plan : Plan) : SpreadIterator :=
  { iter with
    groupPropertySets := iter.groupPropertySets.mapWithKey fun _ sets =>
      sets.map (·.PopulateProposed s plan) }

/-- The factors `weight / sumSpreadWeights` that `Next` applies for the spreads of group `g`. -/
def relativeWeights (g : String) : List ℚ :=
  ((iter.groupPropertySets.lookup g).getD []).map fun pset =>
    ((((iter.tgSpreadInfo.lookup g).getD ∅).lookup pset.targetAttribute).map fun si =>
      (si.weight : ℚ) / iter.sumSpreadWeights).getD 0

end SpreadIterator

-- ---------------------------------------------------------------------------
-- What the iterator holds after each group was set once
-- ---------------------------------------------------------------------------

/-- `SetTaskGroup` for the groups in turn, stopping at a panic. -/
def setGroups (s : StateStore) (plan : Plan) : SpreadIterator → List TaskGroup →
    Outcome SpreadIterator
  | iter, [] => .ok iter
  | iter, tg :: tgs => (iter.SetTaskGroup s plan tg).bind fun iter => setGroups s plan iter tgs

def combinedWeight (job : Job) (tg : TaskGroup) : Int :=
  ((tg.Spreads ++ job.Spreads).map (·.Weight)).sum

theorem foldl_add_weight (l : List Spread) (w : Int) :
    l.foldl (fun sumSpreadWeights spread => wrap32 (sumSpreadWeights + spread.Weight)) (wrap32 w) =
      wrap32 (w + (l.map (·.Weight)).sum) := by
  induction l generalizing w with
  | nil => simp
  | cons spread l ih =>
    rw [List.foldl_cons, wrap32_add_wrap32, ih, List.map_cons, List.sum_cons, Int.add_assoc]

theorem sum_map_weight_div (l : List Spread) (T : ℚ) :
    (l.map fun spread => (spread.Weight : ℚ) / T).sum = (((l.map (·.Weight)).sum : Int) : ℚ) / T := by
  induction l with
  | nil => simp
  | cons spread l ih => simp [ih, add_div]

namespace SpreadIterator

theorem setTaskGroup_fresh (s : StateStore) (plan : Plan) (tg : TaskGroup) {job : Job}
    {it : SpreadIterator} (hjob : it.job = some job) (hg : tg.Name ∉ it.groupPropertySets)
    (hi : tg.Name ∉ it.tgSpreadInfo) :
    ∃ it', it.SetTaskGroup s plan tg = .ok it' ∧ it'.job = it.job ∧
      it'.jobSpreads = it.jobSpreads ∧
      it'.groupPropertySets = (if it.jobSpreads ++ tg.Spreads = [] then it.groupPropertySets
        else it.groupPropertySets.insert tg.Name (it.spreadPropertySets s plan job tg)) ∧
      it'.tgSpreadInfo = it.tgSpreadInfo.insert tg.Name (spreadInfos tg it.jobSpreads) ∧
      it'.sumSpreadWeights = (tg.Spreads ++ it.jobSpreads).foldl
        (fun sumSpreadWeights spread => wrap32 (sumSpreadWeights + spread.Weight))
        it.sumSpreadWeights := by
  unfold SetTaskGroup
  by_cases he : it.jobSpreads ++ tg.Spreads = []
  · simp only [hg, he, or_true, if_true, Outcome.map, Outcome.bind, hi, if_false]
    exact ⟨_, rfl, rfl, rfl, rfl, rfl, rfl⟩
  · simp only [hg, he, or_false, if_false, hjob, Outcome.map, Outcome.bind, hi]
    exact ⟨_, rfl, rfl, rfl, rfl, rfl, rfl⟩

end SpreadIterator

/-- What the iterator holds after `SetJob job` and `SetTaskGroup` for each group of `done`, once
each: the job's spreads, the `int32` sum of every group's weights, and for each group its spread infos and
the attributes of its property sets, the job's spreads first. -/
structure Holds (job : Job) (done : List TaskGroup) (it : SpreadIterator) : Prop where
  job_eq : it.job = some job
  jobSpreads_eq : it.jobSpreads = job.Spreads
  sum_eq : it.sumSpreadWeights = wrap32 (done.map (combinedWeight job)).sum
  infos : ∀ tg ∈ done, it.tgSpreadInfo.lookup tg.Name = some (spreadInfos tg job.Spreads)
  attributes : ∀ tg ∈ done,
    ((it.groupPropertySets.lookup tg.Name).getD []).map (·.targetAttribute) =
      (job.Spreads ++ tg.Spreads).map (·.Attribute)
  seen : ∀ name, name ∈ it.tgSpreadInfo ∨ name ∈ it.groupPropertySets → name ∈ done.map (·.Name)

theorem holds_setJob (job : Job) : Holds job [] (({} : SpreadIterator).SetJob job) where
  job_eq := rfl
  jobSpreads_eq := by
    show (if job.Spreads ≠ [] then job.Spreads else []) = job.Spreads
    split <;> simp_all
  sum_eq := by simp [SpreadIterator.SetJob, wrap32]
  infos := by simp
  attributes := by simp
  seen := by simp [SpreadIterator.SetJob]

theorem Holds.setTaskGroup {job : Job} {done : List TaskGroup} {it : SpreadIterator}
    (s : StateStore) (plan : Plan) (tg : TaskGroup) (h : Holds job done it)
    (hnew : tg.Name ∉ done.map (·.Name)) :
    ∃ it', it.SetTaskGroup s plan tg = .ok it' ∧ Holds job (done ++ [tg]) it' := by
  have hg : tg.Name ∉ it.groupPropertySets := fun hm => hnew (h.seen _ (.inr hm))
  obtain ⟨it', hset, hjob, hjs, hgroups, hinfos, hsum⟩ :=
    SpreadIterator.setTaskGroup_fresh s plan tg h.job_eq hg (fun hm => hnew (h.seen _ (.inl hm)))
  -- the groups set before have other names, so their entries stay
  have hne : ∀ g ∈ done, g.Name ≠ tg.Name := fun g hg' heq => hnew (heq ▸ List.mem_map_of_mem hg')
  have hold : ∀ name, name ∈ it.tgSpreadInfo ∨ name ∈ it.groupPropertySets →
      name ∈ (done ++ [tg]).map (·.Name) := fun name hm => by
    rw [List.map_append]
    exact List.mem_append_left _ (h.seen name hm)
  refine ⟨it', hset, ⟨hjob.trans h.job_eq, hjs.trans h.jobSpreads_eq, ?_, ?_, ?_, ?_⟩⟩
  · rw [hsum, h.sum_eq, h.jobSpreads_eq, foldl_add_weight]
    simp only [combinedWeight, List.map_append, List.sum_append, List.map_singleton,
      List.sum_singleton]
  · intro g hg'
    rw [hinfos, h.jobSpreads_eq]
    rcases List.mem_append.mp hg' with hg' | hg'
    · rw [AList.lookup_insert_ne (hne g hg'), h.infos g hg']
    · rw [List.mem_singleton.mp hg', AList.lookup_insert]
  · intro g hg'
    rw [hgroups]
    rcases List.mem_append.mp hg' with hg' | hg'
    · split
      · exact h.attributes g hg'
      · rw [AList.lookup_insert_ne (hne g hg'), h.attributes g hg']
    · rw [List.mem_singleton.mp hg']
      split
      · rename_i he
        rw [AList.lookup_eq_none.mpr hg, ← h.jobSpreads_eq, he]
        rfl
      · rw [AList.lookup_insert, Option.getD_some]
        simp [SpreadIterator.spreadPropertySets, propertySet.SetTargetAttribute, h.jobSpreads_eq,
          Function.comp_def]
  · intro name hname
    rw [hinfos, hgroups, AList.mem_insert] at hname
    rcases hname with (rfl | hn) | hn
    · simp
    · exact hold name (.inl hn)
    · split at hn
      · exact hold name (.inr hn)
      · rcases (AList.mem_insert _).mp hn with rfl | hn
        · simp
        · exact hold name (.inr hn)

/-- Setting groups of distinct names in turn keeps `Holds`. The induction is on the groups, with
the groups already set and the iterator generalized. -/
theorem Holds.setGroups {job : Job} (s : StateStore) (plan : Plan) (tgs : List TaskGroup) :
    ∀ {done : List TaskGroup} {it : SpreadIterator}, Holds job done it →
      (tgs.map (·.Name)).Nodup → (∀ tg ∈ tgs, tg.Name ∉ done.map (·.Name)) →
      ∃ it', setGroups s plan it tgs = .ok it' ∧ Holds job (done ++ tgs) it' := by
  induction tgs with
  | nil =>
    intro done it h _ _
    exact ⟨it, rfl, by simpa using h⟩
  | cons tg tgs ih =>
    intro done it h hnodup hfresh
    rw [List.map_cons, List.nodup_cons] at hnodup
    obtain ⟨it₁, h1, hh1⟩ := h.setTaskGroup s plan tg (hfresh tg List.mem_cons_self)
    have hfresh' : ∀ g ∈ tgs, g.Name ∉ (done ++ [tg]).map (·.Name) := by
      intro g hg hmem
      rw [List.map_append, List.mem_append, List.map_singleton, List.mem_singleton] at hmem
      rcases hmem with hmem | heq
      · exact hfresh g (List.mem_cons_of_mem _ hg) hmem
      · exact hnodup.1 (heq ▸ List.mem_map_of_mem hg)
    obtain ⟨it₂, h2, hh2⟩ := ih hh1 hnodup.2 hfresh'
    refine ⟨it₂, ?_, by simpa using hh2⟩
    simp only [Nomad.Scheduler.setGroups, h1, Outcome.bind, h2]

theorem Holds.relativeWeights {job : Job} {done : List TaskGroup} {it : SpreadIterator}
    (h : Holds job done it) {tg : TaskGroup} (htg : tg ∈ done)
    (hattrs : ((tg.Spreads ++ job.Spreads).map (·.Attribute)).Nodup) :
    it.relativeWeights tg.Name =
      (job.Spreads ++ tg.Spreads).map fun spread => (spread.Weight : ℚ) / it.sumSpreadWeights := by
  have hlookup : ∀ spread ∈ job.Spreads ++ tg.Spreads,
      (spreadInfos tg job.Spreads).lookup spread.Attribute =
        some ⟨spread.Weight, spreadDesiredCounts tg.Count spread⟩ := by
    intro spread hs
    refine Map.lookup_foldl_insert_of_mem (·.Attribute)
      (fun spread => (⟨spread.Weight, spreadDesiredCounts tg.Count spread⟩ : spreadInfo)) _ hattrs ∅ ?_
    rw [List.mem_append] at hs ⊢
    exact hs.symm
  calc it.relativeWeights tg.Name
      = (((it.groupPropertySets.lookup tg.Name).getD []).map (·.targetAttribute)).map fun attr =>
          (((spreadInfos tg job.Spreads).lookup attr).map fun si =>
            (si.weight : ℚ) / it.sumSpreadWeights).getD 0 := by
        rw [List.map_map]
        unfold SpreadIterator.relativeWeights
        rw [h.infos tg htg]
        rfl
    _ = _ := by
        rw [h.attributes tg htg, List.map_map]
        apply List.map_congr_left
        intro spread hs
        simp [hlookup spread hs]

/-- After `SetJob` and `SetTaskGroup` for groups of distinct names, in any order, the sum is the
`int32` sum of the weight of all of them, and the factors of each group sum to its own weight over
that sum. -/
theorem relativeWeights_sum_after_groups (s : StateStore) (plan : Plan) (job : Job)
    (tgs : List TaskGroup) (hnames : (tgs.map (·.Name)).Nodup)
    (hattrs : ∀ tg ∈ tgs, ((tg.Spreads ++ job.Spreads).map (·.Attribute)).Nodup) :
    ∃ it, setGroups s plan (({} : SpreadIterator).SetJob job) tgs = .ok it ∧
      it.sumSpreadWeights = wrap32 (tgs.map (combinedWeight job)).sum ∧
      ∀ tg ∈ tgs, (it.relativeWeights tg.Name).sum =
        (combinedWeight job tg : ℚ) / it.sumSpreadWeights := by
  obtain ⟨it, hrun, h⟩ := Holds.setGroups s plan tgs (holds_setJob job) hnames (by simp)
  rw [List.nil_append] at h
  refine ⟨it, hrun, h.sum_eq, fun tg htg => ?_⟩
  have hw : ((job.Spreads ++ tg.Spreads).map (·.Weight)).sum = combinedWeight job tg := by
    simp only [combinedWeight, List.map_append, List.sum_append, Int.add_comm]
  rw [h.relativeWeights htg (hattrs tg htg), sum_map_weight_div, hw]

def dcSpread : Spread := ⟨"$\x7bnode.datacenter\x7d", 50, [⟨"dc1", 100⟩]⟩

def spreadGroup (name : String) : TaskGroup :=
  { Name := name, Count := 2, Update := none, ReschedulePolicy := none }

def spreadJob : Job :=
  { ID := "web", Namespace := "default", «Type» := JobTypeService, Priority := 50, Stop := false,
    Version := 0, CreateIndex := 1, ModifyIndex := 1, JobModifyIndex := 1,
    TaskGroups := [spreadGroup "a", spreadGroup "b"], Spreads := [dcSpread] }

def dc1Node : RankedNode := ⟨{ Status := .ready, ID := "n1", Datacenter := "dc1" }, []⟩

/-- Scored right after `SetTaskGroup b` on a fresh iterator, the empty `dc1` node gets
`(2 - 1) / 2 · 50 / 50`; scored for `b` after `a`, it gets half of that, since the job's spread was
counted once for each group. The weights `b`'s score uses then sum to `1 / 2`. -/
theorem spread_weights_diluted :
    let fresh := ({} : SpreadIterator).SetJob spreadJob
    ((fresh.SetTaskGroup {} {} (spreadGroup "b")).bind (·.Next [dc1Node])).map
        (·.1.map (·.Scores)) = .ok (some [(1 / 2 : ℚ)]) ∧
      (((fresh.SetTaskGroup {} {} (spreadGroup "a")).bind fun it =>
          it.SetTaskGroup {} {} (spreadGroup "b")).bind (·.Next [dc1Node])).map
        (·.1.map (·.Scores)) = .ok (some [(1 / 4 : ℚ)]) ∧
      ((fresh.SetTaskGroup {} {} (spreadGroup "a")).bind fun it =>
          it.SetTaskGroup {} {} (spreadGroup "b")).map
        (fun it => (it.relativeWeights "b").sum) = .ok (1 / 2 : ℚ) := by
  decide +kernel

theorem relativeWeights_sum_after_groups_ab :
    ∃ it, setGroups {} {} (({} : SpreadIterator).SetJob spreadJob)
        [spreadGroup "a", spreadGroup "b"] = .ok it ∧
      it.sumSpreadWeights =
        wrap32 ([spreadGroup "a", spreadGroup "b"].map (combinedWeight spreadJob)).sum ∧
      ∀ tg ∈ [spreadGroup "a", spreadGroup "b"], (it.relativeWeights tg.Name).sum =
        (combinedWeight spreadJob tg : ℚ) / it.sumSpreadWeights :=
  relativeWeights_sum_after_groups {} {} spreadJob _ (by decide) (by decide)

end Nomad.Scheduler
