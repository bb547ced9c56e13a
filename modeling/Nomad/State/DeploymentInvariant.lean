import Nomad.State.SummaryInvariant

/-!
# Deployment counters count the allocations of the deployment

For each task group of a deployment, `updateDeploymentWithAlloc` keeps how many allocations were
placed in it, how many of them are healthy and how many unhealthy, and it lists the group's
canaries. Like the job summaries, these counters are only ever incremented: no write recounts them.
This module proves that over every run of the store's transactions from an empty store, the
counters of each group of an active deployment count the stored allocations of the deployment in
that group, by their health, and that the canary list names each canary once.

The counters rest on what the scheduler, the clients and the deployment watcher write, which is not
the store's part: `DeploymentWrite` states it for an allocation write, and `DeploymentOp` for the
deployment a plan creates. An allocation joins a deployment with no health yet and leaves one only
once it is no longer active; while it stays, it keeps its group, its health is set once (healthy
may still turn unhealthy), and it does not become a canary. A deployment a plan creates has an ID
no stored allocation names, and its counters start at zero.

Each kind of write has its lemma over one group (`GroupCounts.insertAlloc_away`, `_of_keys`,
`_withAlloc`); `depInv_writeAlloc` picks among them for the write `upsertAllocsImpl`,
`nestedUpdateAllocFromClient` and `setAllocHealth` share, and `depInv_run` carries the invariant
over every run.
-/

namespace Nomad.State

open Go Container Structs AllocDeploymentStatus
open StateStore (countBy countOne countBy_insertAlloc)

/-- The health an allocation has reported to its deployment; none before it is decided. -/
def allocHealth (a : Allocation) : Option Bool := a.DeploymentStatus.bind (·.Healthy)

def groupKey (a : Allocation) : String × String := (a.DeploymentID, a.TaskGroup)

def healthKey (a : Allocation) : String × String × Option Bool :=
  (a.DeploymentID, a.TaskGroup, allocHealth a)

-- ---------------------------------------------------------------------------
-- What the counters assume
-- ---------------------------------------------------------------------------

/-- How an allocation's health may change while it stays in a deployment: not at all, from unset
to set, or from healthy to unhealthy. -/
def HealthStep (old new : Option Bool) : Prop :=
  new = old ∨ old = none ∧ new.isSome ∨ old = some true ∧ new = some false

def InactiveIn (s : StateStore) (id : String) : Prop :=
  ∀ d ∈ s.deployments.lookup id, d.Active = false

/-- What the counters assume of an allocation write. An allocation joins a deployment with no
health, and leaves one only once it is no longer active; while it stays, it keeps its group, its
health takes a `HealthStep`, and it does not become a canary. -/
def DeploymentWrite (w : AllocWrite) : Prop :=
  match w.existing with
  | none => allocHealth w.alloc = none
  | some e =>
    if e.DeploymentID = w.alloc.DeploymentID then
      e.TaskGroup = w.alloc.TaskGroup ∧ HealthStep (allocHealth e) (allocHealth w.alloc) ∧
        (IsCanary w.alloc.DeploymentStatus = true → IsCanary e.DeploymentStatus = true)
    else allocHealth w.alloc = none ∧ InactiveIn w.before e.DeploymentID

/-- A deployment a plan creates: under a non-empty ID that no stored allocation names yet, with
every counter at zero and no canary. -/
def NewDeployment (before : StateStore) (d : Deployment) : Prop :=
  d.ID ≠ "" ∧ (∀ a ∈ before.allocs.vals, a.DeploymentID ≠ d.ID) ∧
    ∀ e ∈ d.TaskGroups.entries, e.2.PlacedAllocs = 0 ∧ e.2.HealthyAllocs = 0 ∧
      e.2.UnhealthyAllocs = 0 ∧ e.2.PlacedCanaries = []

/-- What the counters assume of a transaction: the deployment a plan carries is a new one. -/
def DeploymentOp (before : StateStore) : Op → Prop
  | .UpsertPlanResults _ results => ∀ d ∈ results.Deployment, NewDeployment before d
  | _ => True

instance (old new : Option Bool) : Decidable (HealthStep old new) :=
  inferInstanceAs (Decidable (new = old ∨ old = none ∧ new.isSome ∨ old = some true ∧ new = some false))

instance (s : StateStore) (id : String) : Decidable (InactiveIn s id) :=
  inferInstanceAs (Decidable (∀ d ∈ s.deployments.lookup id, d.Active = false))

instance (w : AllocWrite) : Decidable (DeploymentWrite w) :=
  match w with
  | ⟨_, none, alloc⟩ => inferInstanceAs (Decidable (allocHealth alloc = none))
  | ⟨before, some e, alloc⟩ => inferInstanceAs (Decidable (if e.DeploymentID = alloc.DeploymentID then
      e.TaskGroup = alloc.TaskGroup ∧ HealthStep (allocHealth e) (allocHealth alloc) ∧
        (IsCanary alloc.DeploymentStatus = true → IsCanary e.DeploymentStatus = true)
    else allocHealth alloc = none ∧ InactiveIn before e.DeploymentID))

instance (before : StateStore) (d : Deployment) : Decidable (NewDeployment before d) :=
  inferInstanceAs (Decidable (d.ID ≠ "" ∧ (∀ a ∈ before.allocs.vals, a.DeploymentID ≠ d.ID) ∧
    ∀ e ∈ d.TaskGroups.entries, e.2.PlacedAllocs = 0 ∧ e.2.HealthyAllocs = 0 ∧
      e.2.UnhealthyAllocs = 0 ∧ e.2.PlacedCanaries = []))

instance (before : StateStore) (op : Op) : Decidable (DeploymentOp before op) :=
  match op with
  | .UpsertPlanResults _ results =>
    inferInstanceAs (Decidable (∀ d ∈ results.Deployment, NewDeployment before d))
  | .UpsertJob .. | .UpsertEvals .. | .UpsertAllocs .. | .UpdateAllocsFromClient ..
  | .UpdateDeploymentStatus .. | .UpdateDeploymentAllocHealth .. | .UpdateDeploymentPromotion .. =>
    isTrue trivial

-- ---------------------------------------------------------------------------
-- What an assumed write can be
-- ---------------------------------------------------------------------------

section write

variable {b : StateStore} {existing : Option Allocation} {alloc : Allocation}

theorem groupKey_of_healthKey {a : Allocation} {id tg : String} {h : Option Bool}
    (hk : healthKey a = (id, tg, h)) : groupKey a = (id, tg) := by
  simp only [healthKey, Prod.mk.injEq] at hk
  simp only [groupKey, hk]

/-- The inversion of `DeploymentWrite`: a join with no health, a write that stays in its
deployment and group, or a leave, with no health, from a deployment no longer active. -/
theorem DeploymentWrite.cases (hw : DeploymentWrite ⟨b, existing, alloc⟩) :
    existing = none ∧ allocHealth alloc = none ∨
      (∃ e, existing = some e ∧ groupKey e = groupKey alloc ∧
        HealthStep (allocHealth e) (allocHealth alloc) ∧
        (IsCanary alloc.DeploymentStatus = true → IsCanary e.DeploymentStatus = true)) ∨
      ∃ e, existing = some e ∧ e.DeploymentID ≠ alloc.DeploymentID ∧ allocHealth alloc = none ∧
        InactiveIn b e.DeploymentID := by
  cases existing with
  | none => exact .inl ⟨rfl, hw⟩
  | some e =>
    simp only [DeploymentWrite] at hw
    split_ifs at hw with hD
    · obtain ⟨htg, hstep, hcan⟩ := hw
      exact .inr (.inl ⟨e, rfl, by simp only [groupKey, hD, htg], hstep, hcan⟩)
    · exact .inr (.inr ⟨e, rfl, hD, hw⟩)

/-- The deltas `updateDeploymentWithAlloc` applies are what the write adds to the counts of its
deployment and group, less what the allocation it replaces took from them. -/
theorem DeploymentWrite.deploymentDelta_eq (hw : DeploymentWrite ⟨b, existing, alloc⟩) :
    deploymentDelta alloc existing =
      (countOne groupKey (some alloc) (groupKey alloc) - countOne groupKey existing (groupKey alloc),
        countOne healthKey (some alloc) (alloc.DeploymentID, alloc.TaskGroup, some true) -
          countOne healthKey existing (alloc.DeploymentID, alloc.TaskGroup, some true),
        countOne healthKey (some alloc) (alloc.DeploymentID, alloc.TaskGroup, some false) -
          countOne healthKey existing (alloc.DeploymentID, alloc.TaskGroup, some false)) := by
  rcases hw.cases with ⟨rfl, hh⟩ | ⟨e, rfl, hg, hstep, -⟩ | ⟨e, rfl, hD, hh, -⟩
  · simp [deploymentDelta, countOne, healthKey, hh]
  · -- the same deployment and group: the delta is the change of health
    simp only [groupKey, Prod.mk.injEq] at hg
    rcases hstep with h | ⟨h₁, h₂⟩ | ⟨h₁, h₂⟩
    · rw [deploymentDelta_of_same hg.1 h]
      simp [countOne, healthKey, groupKey, hg, h]
    · obtain ⟨healthy, h₂⟩ := Option.isSome_iff_exists.mp h₂
      rw [deploymentDelta_of_set hg.1 h₁ h₂]
      cases healthy <;> simp [countOne, healthKey, groupKey, hg, h₁, h₂]
    · rw [deploymentDelta_of_unhealthy hg.1 h₁ h₂]
      simp [countOne, healthKey, groupKey, hg, h₁, h₂]
  · -- a leave counts as a placement in the new deployment
    rw [deploymentDelta_of_ne hD]
    simp [countOne, healthKey, groupKey, hD, hh]

theorem DeploymentWrite.keys_of_delta_zero (hw : DeploymentWrite ⟨b, existing, alloc⟩)
    (h : deploymentDelta alloc existing = (0, 0, 0)) :
    ∃ e, existing = some e ∧ healthKey alloc = healthKey e ∧
      (IsCanary alloc.DeploymentStatus = true → IsCanary e.DeploymentStatus = true) := by
  rcases hw.cases with ⟨rfl, -⟩ | ⟨e, rfl, hg, hstep, hcan⟩ | ⟨e, rfl, hD, -, -⟩
  · simp [deploymentDelta] at h
  · refine ⟨e, rfl, ?_, hcan⟩
    simp only [groupKey, Prod.mk.injEq] at hg
    simp only [healthKey, hg, Prod.mk.injEq, true_and]
    -- a change of health moves the healthy or the unhealthy counter
    rw [hw.deploymentDelta_eq] at h
    rcases hstep with h' | ⟨h₁, h₂⟩ | ⟨h₁, h₂⟩
    · exact h'
    · obtain ⟨healthy, h₂⟩ := Option.isSome_iff_exists.mp h₂
      cases healthy <;> simp [countOne, healthKey, groupKey, hg, h₁, h₂] at h
    · simp [countOne, healthKey, groupKey, hg, h₁, h₂] at h
  · simp [deploymentDelta, hD] at h

theorem DeploymentWrite.groupKey_ne (hw : DeploymentWrite ⟨b, existing, alloc⟩) {id tg : String}
    {d : Deployment} (hd : b.deployments.lookup id = some d) (hact : d.Active = true)
    (hne : (id, tg) ≠ groupKey alloc) : ∀ e, existing = some e → groupKey e ≠ (id, tg) := by
  rintro e rfl hk
  rcases hw.cases with ⟨h, -⟩ | ⟨e', he', hg, -⟩ | ⟨e', he', -, -, hin⟩
  · cases h
  · cases he'
    exact hne (hk ▸ hg)
  · cases he'
    -- the allocation left `id`, which is active
    have hid : e.DeploymentID = id := congrArg Prod.fst hk
    have := hin d (by rw [hid]; exact hd)
    rw [hact] at this
    cases this

end write

namespace StateStore

-- ---------------------------------------------------------------------------
-- The invariant
-- ---------------------------------------------------------------------------

/-- What the counters of a deployment's group hold in a store: the allocations of the deployment
in the group, those of them healthy and those unhealthy; and each canary of the group, once. -/
structure GroupCounts (s : StateStore) (id tg : String) (st : DeploymentState) : Prop where
  placed : st.PlacedAllocs = countBy groupKey s (id, tg)
  healthy : st.HealthyAllocs = countBy healthKey s (id, tg, some true)
  unhealthy : st.UnhealthyAllocs = countBy healthKey s (id, tg, some false)
  canaries_nodup : st.PlacedCanaries.Nodup
  canaries : ∀ a ∈ s.allocs.vals, groupKey a = (id, tg) → IsCanary a.DeploymentStatus = true →
    a.ID ∈ st.PlacedCanaries

/-- The invariant of the deployment counters. Allocations and deployments are stored under their
IDs, a deployment's never empty, and the counters of each group of an active deployment hold. -/
structure DepInv (s : StateStore) : Prop where
  allocs_keyed : ∀ k a, s.allocs.lookup k = some a → a.ID = k
  deployments_keyed : ∀ k d, s.deployments.lookup k = some d → d.ID = k ∧ k ≠ ""
  counts : ∀ id d, s.deployments.lookup id = some d → d.Active = true → ∀ tg st,
    d.TaskGroups.lookup tg = some st → GroupCounts s id tg st

theorem depInv_empty : DepInv {} where
  allocs_keyed _ _ h := by cases h
  deployments_keyed _ _ h := by cases h
  counts _ _ h := by cases h

variable {s t u : StateStore} {index : Nat}

-- ---------------------------------------------------------------------------
-- The counters of one group
-- ---------------------------------------------------------------------------

section group

variable {id tg : String} {st : DeploymentState}

theorem countBy_eq_zero {β : Type} [DecidableEq β] {f : Allocation → β} {k : β}
    (h : ∀ a ∈ s.allocs.vals, f a ≠ k) : countBy f s k = 0 := by
  unfold countBy
  rw [List.countP_eq_zero.mpr fun a ha hk => h a ha (of_decide_eq_true hk), Nat.cast_zero]

theorem countOne_of_groupKey_ne {o : Option Allocation} (h : ∀ a, o = some a → groupKey a ≠ (id, tg)) :
    countOne groupKey o (id, tg) = 0 ∧ ∀ health, countOne healthKey o (id, tg, health) = 0 := by
  cases o with
  | none => simp [countOne]
  | some a =>
    have ha := h a rfl
    refine ⟨by simp [countOne, ha], fun health => ?_⟩
    simp only [countOne, Option.map_some, Option.some.injEq, ite_eq_right_iff, one_ne_zero, imp_false]
    exact fun hk => ha (groupKey_of_healthKey hk)

theorem GroupCounts.of_allocs (hs : GroupCounts s id tg st) (ha : t.allocs = s.allocs) :
    GroupCounts t id tg st := by
  have hc : ∀ {β : Type} [DecidableEq β] (f : Allocation → β) k, countBy f t k = countBy f s k :=
    fun f k => by unfold countBy; rw [ha]
  exact ⟨by rw [hc, hs.placed], by rw [hc, hs.healthy], by rw [hc, hs.unhealthy], hs.canaries_nodup,
    by rw [ha]; exact hs.canaries⟩

/-- The rule for one allocation write: counters moved by what the allocation written adds to the
group less what the one it replaces took, and a canary list that keeps the old one's and names the
allocation written if it is a canary of the group. -/
theorem GroupCounts.insertAlloc (hs : GroupCounts s id tg st) {st' : DeploymentState} (alloc : Allocation)
    (hp : st'.PlacedAllocs = st.PlacedAllocs + countOne groupKey (some alloc) (id, tg) -
      countOne groupKey (s.allocs.lookup alloc.ID) (id, tg))
    (hh : st'.HealthyAllocs = st.HealthyAllocs + countOne healthKey (some alloc) (id, tg, some true) -
      countOne healthKey (s.allocs.lookup alloc.ID) (id, tg, some true))
    (hu : st'.UnhealthyAllocs = st.UnhealthyAllocs + countOne healthKey (some alloc) (id, tg, some false) -
      countOne healthKey (s.allocs.lookup alloc.ID) (id, tg, some false))
    (hn : st'.PlacedCanaries.Nodup) (hsub : ∀ x ∈ st.PlacedCanaries, x ∈ st'.PlacedCanaries)
    (hc : groupKey alloc = (id, tg) → IsCanary alloc.DeploymentStatus = true →
      alloc.ID ∈ st'.PlacedCanaries) :
    GroupCounts (s.insertAlloc alloc) id tg st' where
  placed := by rw [hp, hs.placed, countBy_insertAlloc]
  healthy := by rw [hh, hs.healthy, countBy_insertAlloc]
  unhealthy := by rw [hu, hs.unhealthy, countBy_insertAlloc]
  canaries_nodup := hn
  canaries a ha hg hcan := by
    rw [StateStore.insertAlloc_allocs] at ha
    rcases Map.mem_vals_insert ha with rfl | ha
    · exact hc hg hcan
    · exact hsub _ (hs.canaries a ha hg hcan)

theorem GroupCounts.insertAlloc_away (hs : GroupCounts s id tg st) {alloc : Allocation}
    (ha : groupKey alloc ≠ (id, tg)) (he : ∀ e, s.allocs.lookup alloc.ID = some e → groupKey e ≠ (id, tg)) :
    GroupCounts (s.insertAlloc alloc) id tg st := by
  obtain ⟨ha₁, ha₂⟩ := countOne_of_groupKey_ne (o := some alloc) fun a h => by cases h; exact ha
  obtain ⟨he₁, he₂⟩ := countOne_of_groupKey_ne he
  refine hs.insertAlloc alloc ?_ ?_ ?_ hs.canaries_nodup (fun _ h => h) (fun hg => absurd hg ha)
  · rw [ha₁, he₁]; ring
  · rw [ha₂, he₂]; ring
  · rw [ha₂, he₂]; ring

theorem GroupCounts.insertAlloc_of_keys (hs : GroupCounts s id tg st) {a o : Allocation}
    (ho : s.allocs.lookup a.ID = some o) (hoid : o.ID = a.ID) (hk : healthKey a = healthKey o)
    (hc : IsCanary a.DeploymentStatus = true → IsCanary o.DeploymentStatus = true) :
    GroupCounts (s.insertAlloc a) id tg st := by
  have hg : groupKey a = groupKey o := by
    simp only [healthKey, Prod.mk.injEq] at hk
    simp only [groupKey, hk]
  refine hs.insertAlloc a ?_ ?_ ?_ hs.canaries_nodup (fun _ h => h) fun hga hcan => ?_
  · simp [ho, countOne, hg]
  · simp [ho, countOne, hk]
  · simp [ho, countOne, hk]
  · -- the allocation replaced was the group's canary already
    rw [← hoid]
    exact hs.canaries o (Map.mem_vals.mpr ⟨_, ho⟩) (hg ▸ hga) (hc hcan)

theorem GroupCounts.insertAlloc_withAlloc {b : StateStore} {alloc : Allocation}
    (hs : GroupCounts s alloc.DeploymentID alloc.TaskGroup st)
    (hw : DeploymentWrite ⟨b, s.allocs.lookup alloc.ID, alloc⟩) :
    GroupCounts (s.insertAlloc alloc) alloc.DeploymentID alloc.TaskGroup
      (DeploymentState.withAlloc st alloc (deploymentDelta alloc (s.allocs.lookup alloc.ID))) := by
  have hdelta := hw.deploymentDelta_eq
  refine hs.insertAlloc alloc ?_ ?_ ?_ ?_ ?_ fun _ hcan => ?_
  · rw [DeploymentState.withAlloc_PlacedAllocs, hdelta]
    simp only [groupKey]
    ring
  · rw [DeploymentState.withAlloc_HealthyAllocs, hdelta]
    ring
  · rw [DeploymentState.withAlloc_UnhealthyAllocs, hdelta]
    ring
  · rw [DeploymentState.withAlloc_PlacedCanaries]
    split_ifs with h
    · exact hs.canaries_nodup.append (List.nodup_singleton _) (List.disjoint_singleton.mpr h.2)
    · exact hs.canaries_nodup
  · intro x hx
    rw [DeploymentState.withAlloc_PlacedCanaries]
    split_ifs
    · exact List.mem_append_left _ hx
    · exact hx
  · rw [DeploymentState.withAlloc_PlacedCanaries]
    split_ifs with h
    · exact List.mem_append_right _ (List.mem_singleton_self _)
    · exact not_not.mp fun hn => h ⟨hcan, hn⟩

theorem GroupCounts.of_new {d : Deployment} (hn : NewDeployment s d) (hst : d.TaskGroups.lookup tg = some st) :
    GroupCounts s d.ID tg st := by
  obtain ⟨-, hnone, hzero⟩ := hn
  obtain ⟨hp, hh, hu, hc⟩ := hzero ⟨tg, st⟩ (AList.mem_lookup_iff.mp hst)
  have hout : ∀ a ∈ s.allocs.vals, groupKey a ≠ (d.ID, tg) := fun a ha hk =>
    hnone a ha (congrArg Prod.fst hk)
  refine ⟨?_, ?_, ?_, by rw [hc]; exact List.nodup_nil, fun a ha hk => absurd hk (hout a ha)⟩
  · rw [hp, countBy_eq_zero hout]
  · rw [hh, countBy_eq_zero fun a ha hk => hout a ha (groupKey_of_healthKey hk)]
  · rw [hu, countBy_eq_zero fun a ha hk => hout a ha (groupKey_of_healthKey hk)]

end group

-- ---------------------------------------------------------------------------
-- Frames
-- ---------------------------------------------------------------------------

theorem DepInv.congr (hs : DepInv s) (ha : t.allocs = s.allocs) (hd : t.deployments = s.deployments) :
    DepInv t where
  allocs_keyed := ha ▸ hs.allocs_keyed
  deployments_keyed := hd ▸ hs.deployments_keyed
  counts id d h hact tg st hst := by
    rw [hd] at h
    exact (hs.counts id d h hact tg st hst).of_allocs ha

theorem DepInv.of_frame (hs : DepInv s) (h : JobWriteFrame s t) : DepInv t :=
  hs.congr h.allocs h.deployments

theorem allocs_keyed_insertAlloc (h : ∀ k a, s.allocs.lookup k = some a → a.ID = k) (a : Allocation) :
    ∀ k x, (s.insertAlloc a).allocs.lookup k = some x → x.ID = k := by
  intro k x hx
  rw [insertAlloc_allocs] at hx
  rcases Map.lookup_insert_eq_some.mp hx with ⟨rfl, rfl⟩ | ⟨-, hx⟩
  · rfl
  · exact h k x hx

theorem DepInv.insertAlloc_of_keys (hs : DepInv s) {a o : Allocation} (ho : s.allocs.lookup a.ID = some o)
    (hk : healthKey a = healthKey o)
    (hc : IsCanary a.DeploymentStatus = true → IsCanary o.DeploymentStatus = true) : DepInv (s.insertAlloc a) where
  allocs_keyed := allocs_keyed_insertAlloc hs.allocs_keyed a
  deployments_keyed := hs.deployments_keyed
  counts id d hd hact tg st hst :=
    (hs.counts id d hd hact tg st hst).insertAlloc_of_keys ho (hs.allocs_keyed _ o ho) hk hc

theorem DepInv.insertDeployment (hs : DepInv s) {d : Deployment} (hid : d.ID ≠ "")
    (hc : d.Active = true → ∀ tg st, d.TaskGroups.lookup tg = some st → GroupCounts s d.ID tg st) :
    DepInv (s.insertDeployment d) where
  allocs_keyed := hs.allocs_keyed
  deployments_keyed k d' h := by
    rw [insertDeployment_deployments] at h
    rcases Map.lookup_insert_eq_some.mp h with ⟨rfl, rfl⟩ | ⟨-, h⟩
    · exact ⟨rfl, hid⟩
    · exact hs.deployments_keyed k d' h
  counts id d' h hact tg st hst := by
    rw [insertDeployment_deployments] at h
    rcases Map.lookup_insert_eq_some.mp h with ⟨rfl, rfl⟩ | ⟨-, h⟩
    · exact (hc hact tg st hst).of_allocs rfl
    · exact (hs.counts id d' h hact tg st hst).of_allocs rfl

theorem DepInv.insertDeployment_of_stored (hs : DepInv s) {d e : Deployment}
    (hd : s.deployments.lookup e.ID = some d) (hact : d.Active = true)
    (hg : ∀ tg st', e.TaskGroups.lookup tg = some st' → ∃ st, d.TaskGroups.lookup tg = some st ∧
      st'.PlacedAllocs = st.PlacedAllocs ∧ st'.HealthyAllocs = st.HealthyAllocs ∧
      st'.UnhealthyAllocs = st.UnhealthyAllocs ∧ st'.PlacedCanaries = st.PlacedCanaries) :
    DepInv (s.insertDeployment e) := by
  refine hs.insertDeployment (hs.deployments_keyed _ d hd).2 fun _ tg st' hst' => ?_
  obtain ⟨st, hst, hp, hh, hu, hc⟩ := hg tg st' hst'
  have := hs.counts _ d hd hact tg st hst
  exact ⟨hp.trans this.placed, hh.trans this.healthy, hu.trans this.unhealthy, hc ▸ this.canaries_nodup,
    hc ▸ this.canaries⟩

-- ---------------------------------------------------------------------------
-- Allocation writes
-- ---------------------------------------------------------------------------

theorem DepInv.counts_away (hs : DepInv s) {alloc : Allocation}
    (hw : DeploymentWrite ⟨s, s.allocs.lookup alloc.ID, alloc⟩) {id tg : String} {d : Deployment}
    {st : DeploymentState} (hd : s.deployments.lookup id = some d) (hact : d.Active = true)
    (hst : d.TaskGroups.lookup tg = some st) (hne : (id, tg) ≠ groupKey alloc) :
    GroupCounts (s.insertAlloc alloc) id tg st :=
  (hs.counts id d hd hact tg st hst).insertAlloc_away (Ne.symm hne) (hw.groupKey_ne hd hact hne)

/-- The counters after `updateDeploymentWithAlloc` and the allocation write it comes before. -/
theorem depInv_writeAlloc (hs : DepInv s) {alloc : Allocation}
    (h : s.updateDeploymentWithAlloc index alloc (s.allocs.lookup alloc.ID) = .ok t)
    (hw : DeploymentWrite ⟨s, s.allocs.lookup alloc.ID, alloc⟩) : DepInv (t.insertAlloc alloc) := by
  by_cases hX : ∃ deployment state, alloc.DeploymentID ≠ "" ∧
      s.deployments.lookup alloc.DeploymentID = some deployment ∧
      deployment.TaskGroups.lookup alloc.TaskGroup = some state ∧
      deploymentDelta alloc (s.allocs.lookup alloc.ID) ≠ (0, 0, 0)
  · -- the deployment of the write is stored again, with its group's new state
    obtain ⟨deployment, state, hid, hd, hst, hdelta⟩ := hX
    rw [updateDeploymentWithAlloc_of_delta hid hd hst hdelta] at h
    obtain ⟨ci, hf⟩ := upsertDeploymentImpl_frame h
    have hdid : deployment.ID = alloc.DeploymentID := (hs.deployments_keyed _ _ hd).1
    refine DepInv.congr (s := (s.insertAlloc alloc).insertDeployment { deployment with
      ModifyIndex := index, CreateIndex := ci
      TaskGroups := deployment.TaskGroups.insert alloc.TaskGroup
        (DeploymentState.withAlloc state alloc (deploymentDelta alloc (s.allocs.lookup alloc.ID))) })
      ?_ (by rw [insertAlloc_allocs, hf.allocs]; rfl) (by rw [insertAlloc_deployments, hf.deployments]; rfl)
    refine ⟨allocs_keyed_insertAlloc hs.allocs_keyed alloc, fun k d' h' => ?_, fun id d' h' hact tg st' hst' => ?_⟩
    · rw [insertDeployment_deployments, insertAlloc_deployments] at h'
      rcases Map.lookup_insert_eq_some.mp h' with ⟨rfl, rfl⟩ | ⟨-, h'⟩
      · exact ⟨rfl, hdid ▸ hid⟩
      · exact hs.deployments_keyed k d' h'
    rw [insertDeployment_deployments, insertAlloc_deployments] at h'
    rcases Map.lookup_insert_eq_some.mp h' with ⟨rfl, rfl⟩ | ⟨hne, h'⟩
    · -- the write's deployment: its own group moves by the deltas, the others stay
      rcases Map.lookup_insert_eq_some.mp hst' with ⟨rfl, rfl⟩ | ⟨htg, hst'⟩
      · show GroupCounts _ deployment.ID _ _
        rw [hdid]
        exact ((hs.counts _ deployment hd hact _ state hst).insertAlloc_withAlloc hw).of_allocs rfl
      · exact (hs.counts_away (d := deployment) hw (hdid ▸ hd) hact hst'
          fun h => htg (congrArg Prod.snd h)).of_allocs rfl
    · exact (hs.counts_away hw h' hact hst' fun h => hne ((congrArg Prod.fst h).trans hdid.symm)).of_allocs rfl
  · -- nothing is written but the allocation
    have ht : t = s := ((updateDeploymentWithAlloc_ok h).resolve_right
      fun ⟨deployment, state, hid, hd, hst, hdelta, _⟩ => hX ⟨deployment, state, hid, hd, hst, hdelta⟩)
    rw [ht]
    refine ⟨allocs_keyed_insertAlloc hs.allocs_keyed alloc, hs.deployments_keyed,
      fun id d hd hact tg st hst => ?_⟩
    by_cases hk : (id, tg) = groupKey alloc
    · -- the write's own group: the write moves no counter
      simp only [groupKey, Prod.mk.injEq] at hk
      obtain ⟨rfl, rfl⟩ := hk
      have hdelta : deploymentDelta alloc (s.allocs.lookup alloc.ID) = (0, 0, 0) :=
        not_not.mp fun hne => hX ⟨d, st, (hs.deployments_keyed _ d hd).2, hd, hst, hne⟩
      obtain ⟨e, he, hke, hce⟩ := hw.keys_of_delta_zero hdelta
      exact (hs.counts _ d hd hact _ st hst).insertAlloc_of_keys he (hs.allocs_keyed _ e he) hke hce
    · exact hs.counts_away hw hd hact hst hk

theorem DepInv.of_summary {a a' : Allocation} {e : Option Allocation} (hs : DepInv (s.insertAlloc a))
    (h : s.updateSummaryWithAlloc index a' e = .ok t) : DepInv (t.insertAlloc a) := by
  rcases updateSummaryWithAlloc_eq h with rfl | ⟨js, rfl⟩
  · exact hs
  · exact hs.congr rfl rfl

theorem depInv_linkPrevious (hs : DepInv s) (alloc : Allocation) : DepInv (s.linkPrevious index alloc) := by
  rcases linkPrevious_cases s index alloc with h | ⟨prev, hprev, h⟩
  · rw [h]
    exact hs
  · -- the previous allocation keeps its deployment status, under its own ID
    rw [h]
    refine hs.insertAlloc_of_keys (o := prev) ?_ rfl id
    rw [← hs.allocs_keyed _ prev hprev] at hprev
    exact hprev

theorem depInv_upsertAlloc {acc acc' : StateStore × Map NamespacedID String × List AllocWrite}
    {input : AllocInput} (hs : DepInv acc.1) (h : upsertAlloc index acc input = .ok acc')
    (hw : ∀ w ∈ acc'.2.2, DeploymentWrite w) : DepInv acc'.1 := by
  obtain ⟨alloc, t₁, t₂, -, hid, h₁, h₂, h₃, hlog⟩ := upsertAlloc_ok h
  have hw' : DeploymentWrite ⟨acc.1, acc.1.allocs.lookup input.alloc.ID, alloc⟩ :=
    hw _ (by rw [hlog]; exact List.mem_append_right _ (List.mem_singleton_self _))
  rw [← hid] at h₁ hw'
  rw [h₃]
  exact depInv_linkPrevious ((depInv_writeAlloc hs h₁ hw').of_summary h₂) alloc

theorem depInv_upsertAllocsImpl (hs : DepInv s) {allocs : List AllocInput} {ws : List AllocWrite}
    (h : s.upsertAllocsImpl index allocs = .ok (t, ws)) (hw : ∀ w ∈ ws, DeploymentWrite w) : DepInv t := by
  obtain ⟨t₁, jobs, hfold, hst⟩ := upsertAllocsImpl_ok h
  have h₁ : DepInv t₁ :=
    foldlM_log_invariant (fun acc : StateStore × Map NamespacedID String × List AllocWrite => acc.2.2)
      (fun acc => DepInv acc.1) DeploymentWrite
      (fun _ _ _ hb => by
        obtain ⟨_, _, _, -, -, -, -, -, hlog⟩ := upsertAlloc_ok hb
        exact ⟨_, hlog⟩)
      (fun _ _ _ hb hstep hq => depInv_upsertAlloc hb hstep hq) allocs hs hfold hw
  exact h₁.of_frame (setJobStatuses_frame hst)

theorem depInv_nestedUpdateAllocFromClient (hs : DepInv s) {alloc : Allocation} {ws : List AllocWrite}
    (h : s.nestedUpdateAllocFromClient index alloc = .ok (t, ws)) (hw : ∀ w ∈ ws, DeploymentWrite w) :
    DepInv t := by
  rcases nestedUpdateAllocFromClient_ok h with ⟨-, rfl, -⟩ | ⟨exist, t₁, t₂, hex, h₁, h₂, h₃, rfl⟩
  · exact hs
  · -- the copy keeps the stored allocation's ID, under which it is stored
    have hex' : s.allocs.lookup exist.ID = some exist := by
      rw [hs.allocs_keyed _ exist hex]
      exact hex
    have hw' := hw _ (List.mem_singleton_self _)
    rw [← hex'] at h₁ hw'
    exact ((depInv_writeAlloc hs h₁ hw').of_summary h₂).of_frame (setJobStatuses_frame h₃)

theorem depInv_UpdateAllocsFromClient (hs : DepInv s) {allocs : List Allocation} {ws : List AllocWrite}
    (h : s.UpdateAllocsFromClient index allocs = .ok (t, ws)) (hw : ∀ w ∈ ws, DeploymentWrite w) :
    DepInv t :=
  foldlM_log_invariant (fun acc : StateStore × List AllocWrite => acc.2) (fun acc => DepInv acc.1)
    DeploymentWrite
    (fun _ _ _ hb => by
      obtain ⟨ws, -, hws⟩ := updateAllocFromClientStep_ok hb
      exact ⟨ws, hws⟩)
    (fun _ _ _ hb hstep hq => by
      obtain ⟨ws, hn, hws⟩ := updateAllocFromClientStep_ok hstep
      exact depInv_nestedUpdateAllocFromClient hb hn fun w hw' =>
        hq w (by rw [hws]; exact List.mem_append_right _ hw'))
    allocs hs h hw

-- ---------------------------------------------------------------------------
-- Deployment writes
-- ---------------------------------------------------------------------------

theorem depInv_upsertDeploymentImpl (hs : DepInv s) {d : Deployment}
    (h : s.upsertDeploymentImpl index d = .ok t) (hid : d.ID ≠ "")
    (hc : d.Active = true → ∀ tg st, d.TaskGroups.lookup tg = some st → GroupCounts s d.ID tg st) :
    DepInv t := by
  obtain ⟨ci, hf⟩ := upsertDeploymentImpl_frame h
  exact (hs.insertDeployment (d := { d with CreateIndex := ci, ModifyIndex := index }) hid hc).of_frame hf

/-- A status update changes an active deployment's status, never its counters. -/
theorem depInv_updateDeploymentStatusImpl (hs : DepInv s) (u : DeploymentStatusUpdate) :
    DepInv (s.updateDeploymentStatusImpl index u).1 := by
  rcases updateDeploymentStatusImpl_fst s index u with h | ⟨d, hd, hact, h | ⟨-, hj⟩⟩
  · rw [h]
    exact hs
  all_goals
    have hid : d.ID = u.DeploymentID := (hs.deployments_keyed _ d hd).1
    have hs₁ := hs.insertDeployment_of_stored (e := { d with
      Status := u.Status, StatusDescription := u.StatusDescription, ModifyIndex := index })
      (hid ▸ hd) hact fun tg st' hst' => ⟨st', hst', rfl, rfl, rfl, rfl⟩
  · rw [h]
    exact hs₁
  · exact hs₁.of_frame (updateJobStabilityImpl_frame hj)

theorem depInv_upsertDeploymentUpdates (hs : DepInv s) (us : List DeploymentStatusUpdate) :
    DepInv (s.upsertDeploymentUpdates index us).1 := by
  induction us generalizing s with
  | nil => exact hs
  | cons u us ih =>
    have hu : DepInv (s.updateDeploymentStatusImpl index u).1 := depInv_updateDeploymentStatusImpl hs u
    unfold upsertDeploymentUpdates
    split
    · rename_i t' heq
      rw [heq] at hu
      exact ih hu
    · exact hu

theorem depInv_updateOptionalDeploymentStatus (hs : DepInv s) {u : Option DeploymentStatusUpdate}
    (h : s.updateOptionalDeploymentStatus index u = .ok t) : DepInv t := by
  cases u with
  | none =>
    cases h
    exact hs
  | some u =>
    have hu : DepInv (s.updateDeploymentStatusImpl index u).1 := depInv_updateDeploymentStatusImpl hs u
    simp only [updateOptionalDeploymentStatus] at h
    split at h
    · cases h
    · rename_i t' heq
      cases h
      rw [heq] at hu
      exact hu

theorem depInv_upsertOptionalEval (hs : DepInv s) (index : Nat) (eval : Option Evaluation) :
    DepInv (s.upsertOptionalEval index eval) :=
  hs.congr (upsertOptionalEval_allocs eval) (upsertOptionalEval_deployments eval)

theorem depInv_upsertJobAndEval (hs : DepInv s) {job : Option Job} {eval : Option Evaluation}
    (h : s.upsertJobAndEval index job eval = .ok t) : DepInv t := by
  obtain ⟨u, hu, rfl⟩ := upsertJobAndEval_ok h
  have hsu : DepInv u := by
    rcases hu with ⟨-, rfl⟩ | ⟨_, -, hj⟩
    · exact hs
    · exact hs.of_frame (upsertJobImpl_frame hj)
  exact depInv_upsertOptionalEval hsu index eval

theorem depInv_UpdateDeploymentStatus (hs : DepInv s) {req : DeploymentStatusUpdateRequest}
    (h : s.UpdateDeploymentStatus index req = .ok t) : DepInv t := by
  obtain ⟨t₁, h₁, h₂⟩ := UpdateDeploymentStatus_ok h
  have hu : DepInv (s.updateDeploymentStatusImpl index req.DeploymentUpdate).1 :=
    depInv_updateDeploymentStatusImpl hs _
  rw [h₁] at hu
  exact depInv_upsertJobAndEval hu h₂

theorem depInv_setAllocHealth (hs : DepInv s) {deploymentID id : String} {healthy : Bool} {ts : Time}
    {w : AllocWrite} (h : s.setAllocHealth index deploymentID id healthy ts = .ok (t, w))
    (hw : DeploymentWrite w) : DepInv t := by
  obtain ⟨old, t₁, hold, -, h₁, rfl, rfl⟩ := setAllocHealth_ok h
  -- the copy keeps the stored allocation's ID, under which it is stored
  have hold' : s.allocs.lookup old.ID = some old := by
    rw [hs.allocs_keyed _ old hold]
    exact hold
  rw [← hold'] at h₁ hw
  exact depInv_writeAlloc hs h₁ hw

theorem depInv_UpdateDeploymentAllocHealth (hs : DepInv s) {req : ApplyDeploymentAllocHealthRequest}
    {ws : List AllocWrite} (h : s.UpdateDeploymentAllocHealth index req = .ok (t, ws))
    (hw : ∀ w ∈ ws, DeploymentWrite w) : DepInv t := by
  obtain ⟨-, t₁, t₂, -, -, hfold, h₂, h₃⟩ := UpdateDeploymentAllocHealth_ok h
  have hs₁ : DepInv t₁ :=
    foldlM_log_invariant (fun acc : StateStore × List AllocWrite => acc.2) (fun acc => DepInv acc.1)
      DeploymentWrite
      (fun _ _ _ hb => by
        obtain ⟨w, -, hws⟩ := setAllocHealthStep_ok hb
        exact ⟨[w], hws⟩)
      (fun _ _ acc' hb hstep hq => by
        obtain ⟨w, hset, hws⟩ := setAllocHealthStep_ok hstep
        have hmem : w ∈ acc'.2 := by
          rw [hws]
          exact List.mem_append_right _ (List.mem_singleton_self w)
        exact depInv_setAllocHealth hb hset (hq w hmem))
      _ hs hfold hw
  exact depInv_upsertJobAndEval (depInv_updateOptionalDeploymentStatus hs₁ h₂) h₃

/-- A promotion marks groups promoted and takes the canary flag off the promoted canaries, which
moves no counter. -/
theorem depInv_UpdateDeploymentPromotion (hs : DepInv s) {req : ApplyDeploymentPromoteRequest}
    (h : s.UpdateDeploymentPromotion index req = .ok t) : DepInv t := by
  obtain ⟨deployment, -, copy, t₁, hd, hact, rfl, hcopy, h₁, rfl⟩ := UpdateDeploymentPromotion_ok h
  have hid : deployment.ID = req.DeploymentID := (hs.deployments_keyed _ _ hd).1
  -- the promoted groups keep their counters
  have hg : ∀ tg st', copy.TaskGroups.lookup tg = some st' → ∃ st, deployment.TaskGroups.lookup tg = some st ∧
      st'.PlacedAllocs = st.PlacedAllocs ∧ st'.HealthyAllocs = st.HealthyAllocs ∧
      st'.UnhealthyAllocs = st.UnhealthyAllocs ∧ st'.PlacedCanaries = st.PlacedCanaries := by
    intro tg st' hst'
    have htg : copy.TaskGroups = deployment.TaskGroups.mapWithKey fun tg state =>
        if req.promotes tg then { state with Promoted := true } else state := by
      rcases hcopy with rfl | rfl <;> rfl
    rw [htg, Map.lookup_mapWithKey] at hst'
    obtain ⟨st, hst, rfl⟩ := Option.map_eq_some_iff.mp hst'
    refine ⟨st, hst, ?_⟩
    split_ifs <;> exact ⟨rfl, rfl, rfl, rfl⟩
  have hs₁ : DepInv t₁ := by
    obtain ⟨ci, hf⟩ := upsertDeploymentImpl_frame h₁
    have hcid : copy.ID = deployment.ID := by rcases hcopy with rfl | rfl <;> rfl
    have hcact : copy.Active = deployment.Active := by rcases hcopy with rfl | rfl <;> rfl
    refine (hs.insertDeployment_of_stored (e := { copy with CreateIndex := ci, ModifyIndex := index })
      (d := deployment) ?_ hact hg).of_frame hf
    show s.deployments.lookup copy.ID = some deployment
    rw [hcid, hid]
    exact hd
  have hs₂ := depInv_upsertOptionalEval hs₁ index req.Eval
  have hallocs : (t₁.upsertOptionalEval index req.Eval).allocs = s.allocs := by
    obtain ⟨_, hf⟩ := upsertDeploymentImpl_frame h₁
    rw [upsertOptionalEval_allocs, hf.allocs]
    rfl
  -- each canary write replaces the allocation stored under its ID by one with its keys
  refine (foldl_invariant (fun u : StateStore => DepInv u ∧
      ∀ k, (u.allocs.lookup k).map healthKey = (s.allocs.lookup k).map healthKey)
    (s.promotable req deployment) (fun u a ha hu => ?_) ⟨hs₂, fun k => by rw [hallocs]⟩).1
  obtain ⟨hu, hview⟩ := hu
  have hmem : a ∈ s.allocs.vals := (List.mem_filter.mp (List.mem_filter.mp ha).1).1
  obtain ⟨k, hk⟩ := Map.mem_vals.mp hmem
  rw [← hs.allocs_keyed k a hk] at hk
  have hv := hview a.ID
  rw [hk, Option.map_some] at hv
  obtain ⟨o, ho, hok⟩ := Option.map_eq_some_iff.mp hv
  -- the flag comes off, and the health stays
  have hkey : healthKey { a with
      DeploymentStatus := a.DeploymentStatus.map ({ · with Canary := false }), ModifyIndex := index } =
      healthKey a := by
    cases hds : a.DeploymentStatus <;> simp [healthKey, allocHealth, hds]
  refine ⟨hu.insertAlloc_of_keys (o := o) ho (hkey.trans hok.symm) fun hc => ?_, fun k' => ?_⟩
  · cases hds : a.DeploymentStatus <;> simp [hds, IsCanary] at hc
  · rw [insertAlloc_allocs]
    by_cases hk' : k' = a.ID
    · rw [hk', AList.lookup_insert, hk, Option.map_some, Option.map_some, hkey]
    · rw [AList.lookup_insert_ne hk', hview k']

-- ---------------------------------------------------------------------------
-- Transactions
-- ---------------------------------------------------------------------------

theorem depInv_upsertOptionalDeployment (hs : DepInv s) {d : Option Deployment}
    (h : s.upsertOptionalDeployment index d = .ok t) (hn : ∀ d' ∈ d, NewDeployment s d') : DepInv t := by
  cases d with
  | none =>
    cases h
    exact hs
  | some d =>
    have hnew := hn d rfl
    exact depInv_upsertDeploymentImpl hs h hnew.1 fun _ tg st hst => GroupCounts.of_new hnew hst

theorem depInv_UpsertPlanResults (hs : DepInv s) {results : ApplyPlanResultsRequest}
    {ws : List AllocWrite} (h : s.UpsertPlanResults index results = .ok (t, ws))
    (hw : ∀ w ∈ ws, DeploymentWrite w) (hn : ∀ d ∈ results.Deployment, NewDeployment s d) : DepInv t := by
  obtain ⟨_, _, _, t₁, t₃, t₄, -, -, -, h₁, h₃, h₄, rfl⟩ := UpsertPlanResults_ok h
  have hs₁ : DepInv t₁ := depInv_upsertOptionalDeployment hs h₁ hn
  -- the deployment updates keep it whether or not they fail
  have hs₂ : DepInv (if results.DeploymentUpdates.length ≠ 0 then
      (t₁.upsertDeploymentUpdates index results.DeploymentUpdates).1 else t₁) := by
    split_ifs
    · exact depInv_upsertDeploymentUpdates hs₁ _
    · exact hs₁
  have hs₃ : DepInv t₃ := by
    rcases h₃ with ⟨-, rfl⟩ | ⟨-, he⟩
    · exact hs₂
    · obtain ⟨e, rfl⟩ := updateEvalModifyIndex_ok he
      exact hs₂.congr rfl rfl
  have hs₄ := depInv_upsertAllocsImpl hs₃ h₄ hw
  exact foldl_invariant DepInv _ (fun u e _ hu => hu.congr (nestedUpsertEval_allocs e)
    (nestedUpsertEval_deployments e)) hs₄

theorem depInv_UpsertEvals (hs : DepInv s) {evals : List Evaluation}
    (h : s.UpsertEvals index evals = .ok t) : DepInv t := by
  rw [UpsertEvals_eq] at h
  have hs₁ : DepInv (evals.foldl (fun t eval => t.nestedUpsertEval index eval) s) :=
    foldl_invariant DepInv _ (fun u e _ hu => hu.congr (nestedUpsertEval_allocs e)
      (nestedUpsertEval_deployments e)) hs
  exact hs₁.of_frame (setJobStatuses_frame (mapError_eq_ok.mp h))

theorem depInv_apply (hs : DepInv s) {op : Op} {ws : List AllocWrite} (h : Op.apply s op = .ok (t, ws))
    (hw : ∀ w ∈ ws, DeploymentWrite w) (ho : DeploymentOp s op) : DepInv t := by
  cases op with
  | UpsertJob index job =>
    obtain ⟨_, h', he⟩ := map_eq_ok h
    cases he
    exact hs.of_frame (upsertJobImpl_frame h')
  | UpsertEvals index evals =>
    obtain ⟨_, h', he⟩ := map_eq_ok h
    cases he
    exact depInv_UpsertEvals hs h'
  | UpsertAllocs index allocs => exact depInv_upsertAllocsImpl hs h hw
  | UpdateAllocsFromClient index allocs => exact depInv_UpdateAllocsFromClient hs h hw
  | UpsertPlanResults index results => exact depInv_UpsertPlanResults hs h hw ho
  | UpdateDeploymentStatus index req =>
    obtain ⟨_, h', he⟩ := map_eq_ok h
    cases he
    exact depInv_UpdateDeploymentStatus hs h'
  | UpdateDeploymentAllocHealth index req => exact depInv_UpdateDeploymentAllocHealth hs h hw
  | UpdateDeploymentPromotion index req =>
    obtain ⟨_, h', he⟩ := map_eq_ok h
    cases he
    exact depInv_UpdateDeploymentPromotion hs h'

/-- The run rule: from a store with the invariant, every run whose committed transactions are ones
the counters assume ends in one. -/
theorem depInv_run (hs : DepInv s) (ops : List Op)
    (hw : ∀ c ∈ (run s ops).2, ∀ w ∈ c.writes, DeploymentWrite w)
    (ho : ∀ c ∈ (run s ops).2, DeploymentOp c.before c.op) : DepInv (run s ops).1 := by
  induction ops generalizing s with
  | nil => exact hs
  | cons op ops ih =>
    cases happ : Op.apply s op with
    | error e =>
      rw [run_cons_error ops happ] at hw ho ⊢
      exact ih hs hw ho
    | ok r =>
      obtain ⟨t, ws⟩ := r
      rw [run_cons_ok ops happ] at hw ho ⊢
      exact ih (depInv_apply hs happ (hw _ List.mem_cons_self) (ho _ List.mem_cons_self))
        (fun c hc => hw c (List.mem_cons_of_mem _ hc)) fun c hc => ho c (List.mem_cons_of_mem _ hc)

end StateStore

-- ---------------------------------------------------------------------------
-- Over runs from an empty store
-- ---------------------------------------------------------------------------

/-- **Deployment counters count allocations.** Over every run of transactions from an empty store
whose allocation writes are as `DeploymentWrite` says and whose plans create new deployments, the
counters of each group of an active deployment are the number of stored allocations of the
deployment in that group, of those healthy and of those unhealthy, and the group lists each of its
canaries, once. -/
theorem run_deployment_counts (ops : List Op)
    (hw : ∀ c ∈ (run {} ops).2, ∀ w ∈ c.writes, DeploymentWrite w)
    (ho : ∀ c ∈ (run {} ops).2, DeploymentOp c.before c.op) {id tg : String} {d : Deployment}
    {st : DeploymentState} (hd : (run {} ops).1.deployments.lookup id = some d) (hact : d.Active = true)
    (hst : d.TaskGroups.lookup tg = some st) :
    st.PlacedAllocs = countBy groupKey (run {} ops).1 (id, tg) ∧
      st.HealthyAllocs = countBy healthKey (run {} ops).1 (id, tg, some true) ∧
      st.UnhealthyAllocs = countBy healthKey (run {} ops).1 (id, tg, some false) ∧
      st.PlacedCanaries.Nodup ∧
      ∀ a ∈ (run {} ops).1.allocs.vals, groupKey a = (id, tg) → IsCanary a.DeploymentStatus = true →
        a.ID ∈ st.PlacedCanaries := by
  obtain ⟨hp, hh, hu, hn, hc⟩ :=
    (StateStore.depInv_run StateStore.depInv_empty ops hw ho).counts id d hd hact tg st hst
  exact ⟨hp, hh, hu, hn, hc⟩

def apiGroupState : DeploymentState := { DeploymentState.empty with DesiredTotal := 1 }

def apiDeployment : Deployment :=
  { ID := "d1", Namespace := "default", JobID := "api", JobVersion := 0, JobModifyIndex := 1,
    JobSpecModifyIndex := 1, JobCreateIndex := 1, TaskGroups := (∅ : Map String DeploymentState).insert "g" apiGroupState,
    Status := .running, StatusDescription := "" }

def apiPlan : ApplyPlanResultsRequest where
  Alloc := [⟨{ apiAlloc with DeploymentID := "d1" }, some apiAlloc.Job⟩]
  Deployment := some apiDeployment

/-- `api` registered at 1, the plan at 2, and the allocation reported healthy at 3. -/
def apiDeploymentOps : List Op :=
  [.UpsertJob 1 apiJob, .UpsertPlanResults 2 apiPlan,
    .UpdateDeploymentAllocHealth 3 { DeploymentID := "d1", HealthyAllocationIDs := ["a1"] }]

/-- After the run, group `g` of `d1` counts its one allocation, placed and healthy. -/
theorem run_deployment_counts_api :
    ∃ d st, (run {} apiDeploymentOps).1.deployments.lookup "d1" = some d ∧
      d.TaskGroups.lookup "g" = some st ∧ st.PlacedAllocs = 1 ∧ st.HealthyAllocs = 1 := by
  have hw : ∀ c ∈ (run {} apiDeploymentOps).2, ∀ w ∈ c.writes, DeploymentWrite w := by decide +kernel
  have ho : ∀ c ∈ (run {} apiDeploymentOps).2, DeploymentOp c.before c.op := by decide +kernel
  have hd : (run {} apiDeploymentOps).1.deployments.lookup "d1" = some { apiDeployment with
      CreateIndex := 2, ModifyIndex := 3
      TaskGroups := (∅ : Map String DeploymentState).insert "g"
        { apiGroupState with PlacedAllocs := 1, HealthyAllocs := 1 } } := by
    decide +kernel
  have hst : ({ apiDeployment with
      CreateIndex := 2, ModifyIndex := 3
      TaskGroups := (∅ : Map String DeploymentState).insert "g"
        { apiGroupState with PlacedAllocs := 1, HealthyAllocs := 1 } } : Deployment).TaskGroups.lookup "g" =
      some { apiGroupState with PlacedAllocs := 1, HealthyAllocs := 1 } := by
    decide +kernel
  obtain ⟨hp, hh, -⟩ := run_deployment_counts apiDeploymentOps hw ho hd rfl hst
  refine ⟨_, _, hd, hst, ?_, ?_⟩
  · rw [hp]
    decide +kernel
  · rw [hh]
    decide +kernel

end Nomad.State
