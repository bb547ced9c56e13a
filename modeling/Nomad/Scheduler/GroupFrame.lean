import Nomad.Container.Grows
import Nomad.Scheduler.ComputeStop

/-!
# What `computeGroup` writes

`computeGroup` for a group `g` runs its blocks one after the other, each on the reconciler the
previous one returned. `GroupFrame g all a a'` says what the blocks may do between `a` and
`a'`: leave the settings the group reads alone, and grow the result only by stops of the group's
allocations `all` and by placements and destructive updates for `g` that replace allocations of
`all`; a deployment they create or extend keeps every other group clean and every other group's
state as it was. Each block keeps the
frame, and so does the whole of `computeGroup` (`computeGroup_frame`).

A group's work therefore never touches what another group's result holds: this is what lets
the count of one group be read off the whole result.
-/

namespace Nomad.Scheduler

open Go Structs Container

namespace allocSet

theorem mem_insert {s : allocSet} {x y : Allocation} (h : y ∈ s.insert x) : y ∈ s ∨ y = x := by
  unfold insert at h
  split at h
  · obtain ⟨z, hz, rfl⟩ := List.mem_map.mp h
    split
    · exact .inr rfl
    · exact .inl hz
  · simpa using h

theorem mem_foldl_insert {o u : allocSet} {y : Allocation} (h : y ∈ o.foldl allocSet.insert u) :
    y ∈ u ∨ y ∈ o := by
  induction o generalizing u with
  | nil => exact .inl h
  | cons x o ih =>
    rcases ih h with h | h
    · rcases mem_insert h with h | rfl
      · exact .inl h
      · exact .inr (List.mem_cons_self ..)
    · exact .inr (List.mem_cons_of_mem _ h)

theorem mem_union_nil {l : allocSet} {y : Allocation} (h : y ∈ allocSet.union [] [l]) : y ∈ l := by
  simp only [union, List.foldl_cons, List.foldl_nil] at h
  simpa using mem_foldl_insert h

theorem difference_subset (s : allocSet) (o : List allocSet) : s.difference o ⊆ s :=
  fun _ hx => List.mem_of_mem_filter hx

theorem fromKeys_subset (s : allocSet) (ks : List (List String)) : s.fromKeys ks ⊆ s :=
  fun _ hx => List.mem_of_mem_filter hx

theorem nameOrder_perm (s : allocSet) : s.nameOrder.Perm s := List.perm_insertionSort _ _

@[simp] theorem mem_nameOrder (s : allocSet) (x : Allocation) : x ∈ s.nameOrder ↔ x ∈ s :=
  (nameOrder_perm s).mem_iff

@[simp] theorem length_nameOrder (s : allocSet) : s.nameOrder.length = s.length :=
  (nameOrder_perm s).length_eq

end allocSet

theorem filterByTainted_subset (s : allocSet) (nodes : Map String (Option Node)) :
    (filterByTainted s nodes).1 ⊆ s ∧ (filterByTainted s nodes).2.1 ⊆ s ∧
      (filterByTainted s nodes).2.2 ⊆ s :=
  ⟨fun _ hx => List.mem_of_mem_filter hx, fun _ hx => List.mem_of_mem_filter hx, fun _ hx => List.mem_of_mem_filter hx⟩

theorem filterByRescheduleable_subset (s : allocSet) (b : Bool) (now : Time) (id : String)
    (d : Option Deployment) :
    (filterByRescheduleable s b now id d).1 ⊆ s ∧ (filterByRescheduleable s b now id d).2.1 ⊆ s :=
  ⟨fun _ hx => List.mem_of_mem_filter hx, fun _ hx => List.mem_of_mem_filter hx⟩

/-- The allocations `computeGroup` hands `handleDelayedReschedules` to reschedule later are among
the group's allocations `all`, so the lookup `all[allocID]` finds each: Go never copies a `nil`
allocation there, and the model's branch for a missing one is not reached from `computeGroup`. -/
theorem find_rescheduleLater (all : allocSet) (nodes : Map String (Option Node)) (b : Bool)
    (now : Time) (id : String) (d : Option Deployment) :
    ∀ x ∈ (filterByRescheduleable (filterByTainted all nodes).1 b now id d).2.2,
      (all.find? (·.ID == x.allocID)).isSome := by
  intro x hx
  simp only [filterByRescheduleable, List.mem_filterMap, Option.map_eq_some_iff] at hx
  obtain ⟨a, ha, t, -, rfl⟩ := hx
  exact List.find?_isSome.mpr ⟨a, (filterByTainted_subset all nodes).1 ha, by simp⟩

namespace allocReconciler

variable (a : allocReconciler)

-- ---------------------------------------------------------------------------
-- The frame
-- ---------------------------------------------------------------------------

/-- The fields of the reconciler that `computeGroup` reads and none of its blocks writes. -/
def settings : Bool × Option Deployment × Bool × Bool × Map String (Option Node) × Time × String ×
    String :=
  (a.batch, a.oldDeployment, a.deploymentPaused, a.deploymentFailed, a.taintedNodes, a.now,
    a.evalID, a.jobID)

/-- The deployment, if any, is neither failed nor holds state for `g`, and no group of it has
placed canaries: what `computeGroup` needs to find for a group that starts from scratch. -/
def DeploymentClean (g : String) : Prop :=
  ∀ d, a.deployment = some d → d.Status ≠ .failed ∧ d.TaskGroups.lookup g = none ∧
    ∀ s ∈ d.TaskGroups.entries, s.2.PlacedCanaries = []

def StopOf (all : allocSet) (e : allocStopResult) : Prop := e.alloc ∈ all

def PlaceFor (g : String) (all : allocSet) (e : allocPlaceResult) : Prop :=
  e.taskGroup.Name = g ∧ ∀ x ∈ e.previousAlloc, x ∈ all

def DestructiveFor (g : String) (all : allocSet) (e : allocDestructiveResult) : Prop :=
  e.placeTaskGroup.Name = g ∧ e.stopAlloc ∈ all

/-- What the blocks of `computeGroup` for group `g`, whose allocations are `all`, may change. -/
structure GroupFrame (g : String) (all : allocSet) (a a' : allocReconciler) : Prop where
  settings : a'.settings = a.settings
  stop : GrowsBy (StopOf all) a.result.stop a'.result.stop
  place : GrowsBy (PlaceFor g all) a.result.place a'.result.place
  destructive : GrowsBy (DestructiveFor g all) a.result.destructiveUpdate a'.result.destructiveUpdate
  deployment : ∀ g₀, g₀ ≠ g → a.DeploymentClean g₀ → a'.DeploymentClean g₀
  lookup : ∀ g₀, g₀ ≠ g →
    a'.deployment.bind (·.TaskGroups.lookup g₀) = a.deployment.bind (·.TaskGroups.lookup g₀)

namespace GroupFrame

variable {g : String} {all : allocSet} {a a' a'' : allocReconciler}

theorem refl (g : String) (all : allocSet) (a : allocReconciler) : GroupFrame g all a a :=
  ⟨rfl, .refl _ _, .refl _ _, .refl _ _, fun _ _ h => h, fun _ _ => rfl⟩

theorem trans (h₁ : GroupFrame g all a a') (h₂ : GroupFrame g all a' a'') :
    GroupFrame g all a a'' :=
  ⟨h₂.settings.trans h₁.settings, h₁.stop.trans h₂.stop, h₁.place.trans h₂.place,
    h₁.destructive.trans h₂.destructive, fun g₀ hne h => h₂.deployment g₀ hne (h₁.deployment g₀ hne h),
    fun g₀ hne => (h₂.lookup g₀ hne).trans (h₁.lookup g₀ hne)⟩

theorem mono {all' : allocSet} (hsub : all ⊆ all') (h : GroupFrame g all a a') :
    GroupFrame g all' a a' :=
  ⟨h.settings, h.stop.mono fun _ he => hsub he,
    h.place.mono fun _ he => ⟨he.1, fun x hx => hsub (he.2 x hx)⟩,
    h.destructive.mono fun _ he => ⟨he.1, hsub he.2⟩, h.deployment, h.lookup⟩

end GroupFrame

theorem deploymentClean_of_eq {a' : allocReconciler} (h : a'.deployment = a.deployment) (g : String)
    (hc : a.DeploymentClean g) : a'.DeploymentClean g := by
  intro d hd
  exact hc d (h ▸ hd)

theorem frame_withResult (g : String) (all : allocSet) (f : reconcileResults → reconcileResults)
    (hs : GrowsBy (StopOf all) a.result.stop (f a.result).stop)
    (hp : GrowsBy (PlaceFor g all) a.result.place (f a.result).place)
    (hd : GrowsBy (DestructiveFor g all) a.result.destructiveUpdate (f a.result).destructiveUpdate) :
    GroupFrame g all a (a.withResult f) :=
  ⟨rfl, hs, hp, hd, fun g₀ _ => a.deploymentClean_of_eq rfl g₀, fun _ _ => rfl⟩

theorem frame_markStop (g : String) {all l : allocSet} (hl : l ⊆ all) (c : Option AllocClientStatus)
    (d : String) : GroupFrame g all a (a.markStop l c d) :=
  a.frame_withResult g all _ (.append _ _ fun e he => by
      obtain ⟨x, hx, rfl⟩ := List.mem_map.mp he
      exact hl hx)
    (.refl _ _) (.refl _ _)

@[simp] theorem markStop_deployment (l : allocSet) (c : Option AllocClientStatus) (d : String) :
    (a.markStop l c d).deployment = a.deployment := rfl

@[simp] theorem withResult_deployment (f : reconcileResults → reconcileResults) :
    (a.withResult f).deployment = a.deployment := rfl

@[simp] theorem withResult_settings (f : reconcileResults → reconcileResults) :
    (a.withResult f).settings = a.settings := rfl

-- ---------------------------------------------------------------------------
-- The blocks before `computeStop`
-- ---------------------------------------------------------------------------

theorem groupDeploymentState_placedCanaries (tg : TaskGroup) (g g₀ : String)
    (hc : a.DeploymentClean g₀) : (a.groupDeploymentState tg g).1.PlacedCanaries = [] := by
  unfold groupDeploymentState
  split
  · next s hs =>
    obtain ⟨d, hd, hs⟩ := Option.bind_eq_some_iff.mp hs
    exact (hc d hd).2.2 ⟨g, s⟩ (AList.mem_lookup_iff.mp hs)
  · split
    · split <;> rfl
    · rfl

theorem filterOldTerminalAllocs_subset (job : Job) (all : allocSet) :
    (a.filterOldTerminalAllocs job all).1 ⊆ all := by
  unfold filterOldTerminalAllocs
  split
  · exact List.Subset.refl _
  · exact fun x hx => allocSet.mem_union_nil (List.mem_of_mem_filter hx)

theorem handleGroupCanaries_frame {g : String} {all : allocSet} {dc : DesiredUpdates}
    {a' : allocReconciler} {can all' : allocSet} {dc' : DesiredUpdates}
    (h : a.handleGroupCanaries all dc = (a', can, all', dc')) :
    GroupFrame g all a a' ∧ can ⊆ all ∧ all' ⊆ all ∧ a'.deployment = a.deployment := by
  unfold handleGroupCanaries at h
  -- the stop set is drawn from `all`, whatever the deployments hold
  have h1 := fun ks => a.frame_markStop g (allocSet.fromKeys_subset all ks) none allocNotNeeded
  have hall := fun ks => allocSet.difference_subset all [all.fromKeys ks]
  cases hd : a.deployment with
  | none =>
    simp only [markStop_deployment, hd, Prod.mk.injEq] at h
    obtain ⟨rfl, rfl, rfl, -⟩ := h
    exact ⟨h1 _, List.nil_subset _, hall _, by simp [hd]⟩
  | some d =>
    simp only [markStop_deployment, hd, Prod.mk.injEq] at h
    obtain ⟨rfl, rfl, rfl, -⟩ := h
    -- the canaries of the deployment that stay are drawn from the group's allocations
    have hcan := fun ks => List.Subset.trans (allocSet.fromKeys_subset _
      [d.TaskGroups.entries.flatMap (·.2.PlacedCanaries)]) (hall ks)
    have ht := fun ks => filterByTainted_subset
      ((all.difference [all.fromKeys ks]).fromKeys [d.TaskGroups.entries.flatMap (·.2.PlacedCanaries)])
      a.taintedNodes
    refine ⟨((h1 _).trans (frame_markStop _ g (List.Subset.trans (ht _).2.1 (hcan _)) _ _)).trans
      (frame_markStop _ g (List.Subset.trans (ht _).2.2 (hcan _)) _ _), List.Subset.trans (ht _).1 (hcan _),
      List.Subset.trans (allocSet.difference_subset _ _) (hall _), ?_⟩
    simp [hd]

/-- The part of the reconciler a block that writes nothing of the group's work keeps. -/
def work : (Bool × Option Deployment × Bool × Bool × Map String (Option Node) × Time × String ×
    String) × Option Deployment × List allocStopResult × List allocPlaceResult ×
    List allocDestructiveResult :=
  (a.settings, a.deployment, a.result.stop, a.result.place, a.result.destructiveUpdate)

theorem frame_of_work {g : String} {all : allocSet} {a' : allocReconciler} (h : a'.work = a.work) :
    GroupFrame g all a a' ∧ a'.deployment = a.deployment := by
  simp only [work, Prod.mk.injEq] at h
  obtain ⟨hs, hd, h1, h2, h3⟩ := h
  exact ⟨⟨hs, .of_eq h1, .of_eq h2, .of_eq h3, fun g₀ _ => a.deploymentClean_of_eq hd g₀,
    fun _ _ => by rw [hd]⟩, hd⟩

theorem foldl_keeps {β γ : Type} (q : allocReconciler → γ) (f : allocReconciler → β → allocReconciler)
    (hf : ∀ a p, q (f a p) = q a) (l : List β) (a : allocReconciler) : q (l.foldl f a) = q a := by
  induction l generalizing a with
  | nil => rfl
  | cons p l ih => rw [List.foldl_cons, ih, hf]

theorem followupLoop_work (job : Job) (l : List delayedRescheduleInfo) (a : allocReconciler)
    (evals : List Evaluation) (eval : Evaluation) (t : Time) (ids : Map String String) :
    (followupLoop job l a evals eval t ids).1.work = a.work := by
  induction l generalizing a evals eval t ids with
  | nil => rfl
  | cons info rest ih =>
    simp only [followupLoop]
    split
    · exact ih ..
    · exact ih ..

theorem handleDelayedReschedules_work (job : Job) (R : List delayedRescheduleInfo) (all : allocSet)
    (name : String) : (a.handleDelayedReschedules job R all name).work = a.work := by
  unfold handleDelayedReschedules
  split
  · rfl
  · next first rest _ =>
    refine (foldl_keeps work _ (fun a p => ?_) _ _).trans
      (followupLoop_work job (first :: rest) a.generateUUID.1 _ _ _ _)
    split <;> rfl

-- ---------------------------------------------------------------------------
-- `computeStop`
-- ---------------------------------------------------------------------------

/-- What the loops of `computeStop` keep: they stop allocations of `all`, and their untainted
and migrate sets stay within `all` and `M`. -/
def StopInv (all M : allocSet) (s : stopState) : Prop :=
  (∀ e ∈ s.stops, e.alloc ∈ all) ∧ s.untainted ⊆ all ∧ s.migrate ⊆ M

theorem stopOne_inv {all M : allocSet} {x : Allocation} {s : stopState} (fm : Bool)
    (hx : x ∈ all) (hs : StopInv all M s) : StopInv all M (stopOne fm x s) := by
  obtain ⟨h1, h2, h3⟩ := hs
  refine ⟨fun e he => ?_, ?_, ?_⟩
  · rcases List.mem_append.mp he with he | he
    · exact h1 e he
    · simp only [List.mem_singleton] at he
      exact he ▸ hx
  · cases fm
    · exact List.Subset.trans (fun _ hy => List.mem_of_mem_filter hy) h2
    · exact h2
  · cases fm
    · exact h3
    · exact List.Subset.trans (fun _ hy => List.mem_of_mem_filter hy) h3

/-- Whichever way a loop of `computeStop` ends, its state keeps `StopInv`. -/
def SumInv (all M : allocSet) (x : stopState ⊕ stopState) : Prop :=
  ∀ s, x = .inl s ∨ x = .inr s → StopInv all M s

theorem sumInv_inr {all M : allocSet} {s : stopState} (hs : StopInv all M s) :
    SumInv all M (.inr s) := by
  rintro s' (h | h)
  · cases h
  · cases h; exact hs

theorem sumInv_ite {all M : allocSet} {c : Prop} [Decidable c] {x y : stopState ⊕ stopState}
    (hx : c → SumInv all M x) (hy : SumInv all M y) : SumInv all M (if c then x else y) := by
  split
  · next hc => exact hx hc
  · exact hy

theorem stopLoop_inv {all M : allocSet} (fm : Bool) (pick : Allocation → Bool) {xs : List Allocation}
    {s : stopState} (hxs : xs ⊆ all) (hs : StopInv all M s) : SumInv all M (stopLoop fm pick xs s) := by
  induction xs generalizing s with
  | nil => exact sumInv_inr hs
  | cons x xs ih =>
    have hx : x ∈ all := hxs (List.mem_cons_self ..)
    have hxs' : xs ⊆ all := fun y hy => hxs (List.mem_cons_of_mem _ hy)
    simp only [stopLoop]
    refine sumInv_ite (fun _ => sumInv_ite (fun _ => ?_) (ih hxs' (stopOne_inv fm hx hs)))
      (ih hxs' hs)
    rintro s' (h | h)
    · cases h; exact stopOne_inv fm hx hs
    · cases h

theorem finishStop_frame {g : String} {all M L : allocSet} {s : stopState} {a' : allocReconciler}
    {stop M' : allocSet} {ni' : allocNameIndex} (hs : StopInv all M s) (hL : L ⊆ all)
    (h : a.finishStop L s = (a', stop, M', ni')) :
    GroupFrame g all a a' ∧ M' ⊆ M ∧ a'.deployment = a.deployment := by
  simp only [finishStop, Prod.mk.injEq] at h
  obtain ⟨rfl, -, rfl, -⟩ := h
  refine ⟨(a.frame_markStop g hL _ _).trans (frame_withResult _ g all _ ?_ (.refl _ _) (.refl _ _)),
    hs.2.2, rfl⟩
  exact .append _ _ hs.1

theorem computeStop_frame {g : String} {all : allocSet} {tg : TaskGroup} {ni : allocNameIndex}
    {U M L can : allocSet} {cs : Bool} {a' : allocReconciler} {stop M' : allocSet}
    {ni' : allocNameIndex} (h : a.computeStop tg ni U M L can cs = (a', stop, M', ni'))
    (hU : U ⊆ all) (hM : M ⊆ all) (hL : L ⊆ all) :
    GroupFrame g all a a' ∧ M' ⊆ M ∧ a'.deployment = a.deployment := by
  simp only [computeStop] at h
  generalize hU' : (if cs = true then U.difference [can] else U) = U' at h
  have hU'sub : U' ⊆ all := by
    subst hU'
    split
    · exact List.Subset.trans (allocSet.difference_subset _ _) hU
    · exact hU
  -- the state the loops start from
  have h0 : StopInv all M ⟨allocSet.union [] [L], [], filterByTerminal U', M, ni,
      (U'.length : Int) + M.length - tg.Count⟩ :=
    ⟨by simp, List.Subset.trans (fun _ hx => List.mem_of_mem_filter hx) hU'sub, List.Subset.refl _⟩
  -- each later loop starts from a state that keeps the invariant
  have hmig : ∀ s, StopInv all M s → ∀ pick, SumInv all M
      (if s.migrate.length ≠ 0 then stopLoop true pick s.migrate s else .inr s) := fun s hs pick =>
    sumInv_ite (fun _ => stopLoop_inv true pick (List.Subset.trans hs.2.2 hM) hs) (sumInv_inr hs)
  have hlast : ∀ s, StopInv all M s → ∀ pick, SumInv all M (stopLoop false pick s.untainted s) :=
    fun s hs pick => stopLoop_inv false pick hs.2.1 hs
  split at h
  · simp only [Prod.mk.injEq] at h
    obtain ⟨rfl, -, rfl, -⟩ := h
    exact ⟨a.frame_markStop g hL _ _, List.Subset.refl _, rfl⟩
  · -- each phase ends in a state that keeps the invariant, and `finish` returns it
    have hcan : ∀ x, SumInv all M x → ∀ c : Bool, SumInv all M (if c = true then x else .inr _) :=
      fun x hx c => sumInv_ite (fun _ => hx) (sumInv_inr h0)
    replace hcan := hcan _ (stopLoop_inv false (fun x => decide (x.Name ∈ can.nameSet))
      (List.Subset.trans (allocSet.difference_subset _ [can]) h0.2.1) h0) (!cs && decide (can.length ≠ 0))
    split at h
    · next s hs => exact finishStop_frame a (hcan s (.inl hs)) hL h
    · next s hs =>
      have hs := hcan s (.inr hs)
      split at h
      · next s' hs' => exact finishStop_frame a (hmig s hs _ s' (.inl hs')) hL h
      · next s' hs' =>
        have hs' := hmig s hs _ s' (.inr hs')
        split at h
        · next s'' hs'' =>
          exact finishStop_frame a (hlast { s' with nameIndex := (s'.nameIndex.Highest (toUint s'.remove)).1 } hs' _ s'' (.inl hs'')) hL h
        · next s'' hs'' =>
          have hs'' := hlast { s' with nameIndex := (s'.nameIndex.Highest (toUint s'.remove)).1 } hs' _ s'' (.inr hs'')
          split at h
          · next t ht => exact finishStop_frame a (hlast s'' hs'' _ t (.inl ht)) hL h
          · next t ht => exact finishStop_frame a (hlast s'' hs'' _ t (.inr ht)) hL h

-- ---------------------------------------------------------------------------
-- The blocks after `computeStop`
-- ---------------------------------------------------------------------------

section blocks

variable {g : String} {all : allocSet}

theorem computeUpdates_frame {job : Job} {tg : TaskGroup} {U : allocSet} {a' : allocReconciler}
    {ig inp D : allocSet} (h : a.computeUpdates job tg U = (a', ig, inp, D)) :
    GroupFrame g all a a' ∧ a'.deployment = a.deployment ∧ D ⊆ U := by
  simp only [computeUpdates, Prod.mk.injEq] at h
  obtain ⟨rfl, -, -, rfl⟩ := h
  exact ⟨a.frame_withResult g all _ (.refl _ _) (.refl _ _) (.refl _ _), rfl,
    fun _ hx => List.mem_of_mem_filter hx⟩

theorem placeCanaries_frame {tg : TaskGroup} {ex rc : Bool} {ni : allocNameIndex} {can D : allocSet}
    {dc : DesiredUpdates} {ds : DeploymentState} {a' : allocReconciler} {ni' : allocNameIndex}
    {dc' : DesiredUpdates} {ds' : DeploymentState}
    (h : a.placeCanaries tg ex rc ni can D dc ds = (a', ni', dc', ds')) (hg : tg.Name = g) :
    GroupFrame g all a a' ∧ a'.deployment = a.deployment ∧ ds'.PlacedCanaries = ds.PlacedCanaries := by
  unfold placeCanaries at h
  split at h
  · simp only [Prod.mk.injEq] at h
    obtain ⟨rfl, -, -, rfl⟩ := h
    -- canaries are new placements for the group, replacing nothing
    refine ⟨a.frame_withResult g all _ (.refl _ _) (.append _ _ fun e he => ?_) (.refl _ _), rfl,
      by split <;> rfl⟩
    obtain ⟨n, -, rfl⟩ := List.mem_map.mp he
    exact ⟨hg, by simp⟩
  · simp only [Prod.mk.injEq] at h
    obtain ⟨rfl, -, -, rfl⟩ := h
    exact ⟨.refl _ _ _, rfl, rfl⟩

theorem computePlacements_place {tg : TaskGroup} {ni : allocNameIndex} {U M R : allocSet}
    {ni' : allocNameIndex} {place : List allocPlaceResult}
    (h : computePlacements tg ni U M R = (ni', place)) :
    ∀ e ∈ place, e.taskGroup = tg ∧ ∀ x ∈ e.previousAlloc, x ∈ R := by
  dsimp only [computePlacements] at h
  split at h
  · simp only [Prod.mk.injEq] at h
    obtain ⟨-, rfl⟩ := h
    intro e he
    obtain ⟨x, hx, rfl⟩ := List.mem_map.mp he
    exact ⟨rfl, by simpa using hx⟩
  · simp only [Prod.mk.injEq] at h
    obtain ⟨-, rfl⟩ := h
    intro e he
    rcases List.mem_append.mp he with he | he
    · obtain ⟨x, hx, rfl⟩ := List.mem_map.mp he
      exact ⟨rfl, by simpa using hx⟩
    · obtain ⟨n, -, rfl⟩ := List.mem_map.mp he
      exact ⟨rfl, by simp⟩

theorem placeReady_frame {place : List allocPlaceResult} {R : allocSet} {lim : Int}
    {dc : DesiredUpdates} {a' : allocReconciler} {dc' : DesiredUpdates} {lim' : Int}
    (h : a.placeReady place R lim dc = (a', dc', lim')) (hp : ∀ e ∈ place, PlaceFor g all e)
    (hR : R ⊆ all) : GroupFrame g all a a' ∧ a'.deployment = a.deployment := by
  simp only [placeReady, Prod.mk.injEq] at h
  obtain ⟨rfl, -, -⟩ := h
  exact ⟨(a.frame_withResult g all _ (.refl _ _) (.append _ _ hp) (.refl _ _)).trans
    (frame_markStop _ g hR _ _), rfl⟩

theorem placeNotReady_frame {place : List allocPlaceResult} {L R : allocSet} {dc : DesiredUpdates}
    {a' : allocReconciler} {dc' : DesiredUpdates}
    (h : a.placeNotReady place L R dc = (a', dc')) (hp : ∀ e ∈ place, PlaceFor g all e) :
    GroupFrame g all a a' ∧ a'.deployment = a.deployment := by
  -- the placements for lost allocations come from `place`
  have hlost : ∀ n, GroupFrame g all a (a.withResult (·.addPlace (place.take n))) := fun n =>
    a.frame_withResult g all _ (.refl _ _)
      (.append _ _ fun e he => hp e (List.mem_of_mem_take he)) (.refl _ _)
  unfold placeNotReady at h
  -- the first block leaves `a₁`, within the frame
  obtain ⟨a₁, dc₁, h₁, hf₁, hd₁⟩ : ∃ a₁ dc₁, (if L.length ≠ 0 then
      (a.withResult (·.addPlace (place.take (min L.length place.length))),
        { dc with Place := dc.Place + min L.length place.length })
      else (a, dc)) = (a₁, dc₁) ∧ GroupFrame g all a a₁ ∧ a₁.deployment = a.deployment := by
    split
    · exact ⟨_, _, rfl, hlost _, rfl⟩
    · exact ⟨_, _, rfl, .refl _ _ _, rfl⟩
  rw [h₁] at h
  dsimp only at h
  split at h
  · simp only [Prod.mk.injEq] at h
    obtain ⟨rfl, -⟩ := h
    -- the rescheduling placements are placements of `place`; each stops what it replaces
    refine ⟨hf₁.trans (a₁.frame_withResult g all _ ?_ ?_ (.refl _ _)), hd₁⟩
    · refine .append _ _ fun e he => ?_
      obtain ⟨q, hq, rfl⟩ := List.mem_map.mp he
      obtain ⟨p, hp', hq⟩ := List.mem_filterMap.mp hq
      simp only [allocPlaceResult.PreviousAllocation] at hq
      split at hq
      · next prev hprev =>
        split_ifs at hq
        cases hq
        exact (hp p hp').2 prev (by simp [hprev])
      · cases hq
    · refine .append _ _ fun e he => ?_
      obtain ⟨q, hq, rfl⟩ := List.mem_map.mp he
      obtain ⟨p, hp', hq⟩ := List.mem_filterMap.mp hq
      split at hq
      · split_ifs at hq
        cases hq
        exact hp p hp'
      · cases hq
  · simp only [Prod.mk.injEq] at h
    obtain ⟨rfl, -⟩ := h
    exact ⟨hf₁, hd₁⟩

theorem placeDestructive_frame {tg : TaskGroup} {rdy : Bool} {D : allocSet} {lim : Int}
    {dc : DesiredUpdates} {a' : allocReconciler} {dc' : DesiredUpdates}
    (h : a.placeDestructive tg rdy D lim dc = (a', dc')) (hg : tg.Name = g) (hD : D ⊆ all) :
    GroupFrame g all a a' ∧ a'.deployment = a.deployment := by
  unfold placeDestructive at h
  split at h
  · simp only [Prod.mk.injEq] at h
    obtain ⟨rfl, -⟩ := h
    refine ⟨a.frame_withResult g all _ (.refl _ _) (.refl _ _) (.append _ _ fun e he => ?_), rfl⟩
    obtain ⟨x, hx, rfl⟩ := List.mem_map.mp he
    exact ⟨hg, hD ((allocSet.nameOrder_perm D).subset (List.mem_of_mem_take hx))⟩
  · simp only [Prod.mk.injEq] at h
    obtain ⟨rfl, -⟩ := h
    exact ⟨.refl _ _ _, rfl⟩

theorem placeMigrations_frame {tg : TaskGroup} {M : allocSet} {dc : DesiredUpdates}
    {a' : allocReconciler} {dc' : DesiredUpdates} (h : a.placeMigrations tg M dc = (a', dc'))
    (hg : tg.Name = g) (hM : M ⊆ all) : GroupFrame g all a a' ∧ a'.deployment = a.deployment := by
  simp only [placeMigrations, Prod.mk.injEq] at h
  obtain ⟨rfl, -⟩ := h
  have hms : ∀ x ∈ M.nameOrder, x ∈ all := fun x hx => hM ((allocSet.nameOrder_perm M).subset hx)
  refine ⟨a.frame_withResult g all _ ?_ ?_ (.refl _ _), rfl⟩
  · refine .append _ _ fun e he => ?_
    obtain ⟨x, hx, rfl⟩ := List.mem_map.mp he
    exact hms x hx
  · refine .append _ _ fun e he => ?_
    obtain ⟨x, hx, rfl⟩ := List.mem_map.mp he
    exact ⟨hg, by simpa using hms x hx⟩

theorem attachDeployment_frame (job : Job) (ds : DeploymentState)
    (hds : ∀ g₀, g₀ ≠ g → a.DeploymentClean g₀ → ds.PlacedCanaries = []) :
    GroupFrame g all a (a.attachDeployment job g ds) := by
  -- the written deployment is clean for every other group the one it extends was clean for
  have hins : ∀ d : Deployment, ∀ g₀, g₀ ≠ g → ds.PlacedCanaries = [] →
      (d.Status ≠ .failed ∧ d.TaskGroups.lookup g₀ = none ∧
      ∀ s ∈ d.TaskGroups.entries, s.2.PlacedCanaries = []) →
      ({ d with TaskGroups := d.TaskGroups.insert g ds } : Deployment).Status ≠ .failed ∧
      (d.TaskGroups.insert g ds).lookup g₀ = none ∧
      ∀ s ∈ (d.TaskGroups.insert g ds).entries, s.2.PlacedCanaries = [] := by
    rintro d g₀ hne hds ⟨hst, hl, hpc⟩
    refine ⟨hst, by rw [AList.lookup_insert_ne hne]; exact hl, fun s hs => ?_⟩
    rw [AList.entries_insert] at hs
    rcases List.mem_cons.mp hs with rfl | hs
    · exact hds
    · exact hpc s ((List.kerase_sublist _ _).subset hs)
  unfold attachDeployment
  cases hd : a.deployment with
  | none =>
    refine ⟨rfl, .refl _ _, .refl _ _, .refl _ _, fun g₀ hne hc d' hd' => ?_, fun g₀ hne => ?_⟩
    · simp only [setDeployment, Option.some.injEq] at hd'
      subst hd'
      exact hins _ g₀ hne (hds g₀ hne hc) ⟨by simp [NewDeployment], rfl, by simp [NewDeployment]⟩
    · simp [setDeployment, hd, NewDeployment, AList.singleton, AList.lookup, hne]
  | some d =>
    -- the result changes at most in its deployment
    set a' := a.setDeployment { d with TaskGroups := d.TaskGroups.insert g ds }
    have h3 : a'.result.stop = a.result.stop ∧ a'.result.place = a.result.place ∧
        a'.result.destructiveUpdate = a.result.destructiveUpdate := by
      simp only [a', setDeployment]
      split <;> exact ⟨rfl, rfl, rfl⟩
    refine ⟨rfl, .of_eq h3.1, .of_eq h3.2.1, .of_eq h3.2.2, fun g₀ hne hc d' hd' => ?_,
      fun g₀ hne => ?_⟩
    · simp only [setDeployment, Option.some.injEq] at hd'
      subst hd'
      exact hins d g₀ hne (hds g₀ hne hc) (hc d hd)
    · simp [setDeployment, hd, hne]

theorem setDesired_frame (g' : String) (d : DesiredUpdates) :
    GroupFrame g all a (a.setDesired g' d) :=
  a.frame_withResult g all _ (.refl _ _) (.refl _ _) (.refl _ _)

end blocks

-- ---------------------------------------------------------------------------
-- `computeGroup`
-- ---------------------------------------------------------------------------

theorem computeRemovedGroup_frame (g : String) (all : allocSet) :
    GroupFrame g all a (a.computeRemovedGroup g all).1 := by
  unfold computeRemovedGroup
  split
  · next U M L hT =>
    have ht := filterByTainted_subset all a.taintedNodes
    rw [hT] at ht
    exact (((a.frame_markStop g ht.1 _ _).trans (frame_markStop _ g ht.2.1 _ _)).trans
      (frame_markStop _ g ht.2.2 _ _)).trans (setDesired_frame _ _ _)

/-- Every block of `computeGroup` keeps the frame, so the whole of it does. -/
theorem computeGroup_frame (job : Job) (g : String) (all : allocSet) :
    GroupFrame g all a (a.computeGroup job g all).1 := by
  unfold computeGroup
  split
  · exact a.computeRemovedGroup_frame g all
  · next tg htg =>
    have hg : tg.Name = g := by simpa using List.find?_some htg
    -- the blocks in the order `computeGroup` runs them, each with the equation it returns
    dsimp -iota only
    split
    next dstate ex hds =>
    split
    next all₁ ign hfo =>
    split
    next a₁ can all₂ dc hgc =>
    split
    next U M L hT =>
    split
    next U₂ R₁ R₂ hR =>
    split
    next a₂ stop M₂ ni₂ hcs =>
    split
    next a₃ ign₂ inp D hcu =>
    split
    next a₄ ni₄ dc₄ ds₄ hpc =>
    split
    next ni₅ place hcp =>
    split
    next a₅ dc₅ lim₅ hpl =>
    split
    next a₆ dc₆ hpd =>
    split
    next a₇ dc₇ hpm =>
    -- where each block's sets come from
    have hall₁ : all₁ ⊆ all := by
      have := a.filterOldTerminalAllocs_subset job all
      rwa [hfo] at this
    obtain ⟨f₁, hcan, hall₂, hd₁⟩ := a.handleGroupCanaries_frame (g := g) hgc
    have hall₂' : all₂ ⊆ all := List.Subset.trans hall₂ hall₁
    have ht := filterByTainted_subset all₂ a₁.taintedNodes
    rw [hT] at ht
    have hr := filterByRescheduleable_subset U a₁.batch a₁.now a₁.evalID a₁.deployment
    rw [hR] at hr
    have hU : U ⊆ all := List.Subset.trans ht.1 hall₂'
    have hM : M ⊆ all := List.Subset.trans ht.2.1 hall₂'
    -- the frame, block by block
    obtain ⟨f₁', hd₁'⟩ : GroupFrame g all a₁ _ ∧ _ :=
      a₁.frame_of_work (a₁.handleDelayedReschedules_work job R₂ all₂ tg.Name)
    obtain ⟨f₂, hM₂, hd₂⟩ := computeStop_frame _ hcs (List.Subset.trans hr.1 hU) hM
      (List.Subset.trans ht.2.2 hall₂')
    obtain ⟨f₃, hd₃, hD⟩ := computeUpdates_frame _ hcu
    have hD' : D ⊆ all := List.Subset.trans hD
      (List.Subset.trans (allocSet.difference_subset _ _) (List.Subset.trans hr.1 hU))
    obtain ⟨f₄, hd₄, hpc₄⟩ := placeCanaries_frame _ hpc hg
    have hplace : ∀ e ∈ place, PlaceFor g all e := fun e he => by
      obtain ⟨h1, h2⟩ := computePlacements_place hcp e he
      exact ⟨h1 ▸ hg, fun x hx => hU (hr.2 (h2 x hx))⟩
    obtain ⟨f₅, hd₅⟩ : GroupFrame g all a₄ a₅ ∧ a₅.deployment = a₄.deployment := by
      split at hpl
      · exact placeReady_frame _ hpl hplace (List.Subset.trans hr.2 hU)
      · split at hpl
        next a' dc' hnr =>
        simp only [Prod.mk.injEq] at hpl
        obtain ⟨rfl, rfl, -⟩ := hpl
        exact placeNotReady_frame _ hnr hplace
    obtain ⟨f₆, hd₆⟩ := placeDestructive_frame _ hpd hg hD'
    obtain ⟨f₇, hd₇⟩ := placeMigrations_frame _ hpm hg (List.Subset.trans hM₂ hM)
    refine ((f₁.mono hall₁).trans (f₁'.trans (f₂.trans (f₃.trans (f₄.trans (f₅.trans
      (f₆.trans f₇))))))).trans ?_
    -- the state the deployment block attaches has no placed canaries while the deployment has none
    have hdeq : a₇.deployment = a.deployment := by rw [hd₇, hd₆, hd₅, hd₄, hd₃, hd₂, hd₁', hd₁]
    have hpc0 : ∀ g₀, a.DeploymentClean g₀ → dstate.PlacedCanaries = [] := fun g₀ hc => by
      have := a.groupDeploymentState_placedCanaries tg g g₀ hc
      rwa [hds] at this
    have hpc4 : ds₄.PlacedCanaries = dstate.PlacedCanaries := by
      rw [hpc₄]
      split <;> rfl
    have hite : ∀ (c : Prop) [Decidable c] (x : allocReconciler), GroupFrame g all a₇ x →
        GroupFrame g all a₇ (if c then x else a₇) := fun c _ x hx => by
      split
      · exact hx
      · exact .refl _ _ _
    refine GroupFrame.trans ?_ (setDesired_frame _ _ _)
    refine hite _ _ (attachDeployment_frame _ job _ fun g₀ _ hc => ?_)
    have hc' := a₇.deploymentClean_of_eq hdeq.symm g₀ hc
    split <;> exact hpc4.trans (hpc0 g₀ hc')


end allocReconciler

end Nomad.Scheduler
