import Mathlib
import Nomad.Scheduler.ReconcileUtil

/-!
# Allocation sets by ID

An `allocSet` is a map keyed by allocation ID, so what it holds is read through `contains`,
and the lemmas here say what `insert`, `union` and a filter by ID do to it. Over a list whose
IDs are distinct, removing the members of a sub-collection removes exactly that many.

Then the filters. `filterByTainted` splits a set into three that together are a permutation
of it. `filterByRescheduleable` leaves a running allocation alone: unless an operator forced it,
only a failed one is rescheduled.
-/

namespace Nomad.Scheduler

open Go Structs Container

namespace allocSet

@[simp] theorem contains_iff (s : allocSet) (id : String) :
    s.contains id = true ↔ id ∈ s.map (·.ID) := by
  simp [contains]

@[simp] theorem contains_nil (id : String) : allocSet.contains [] id = false := rfl

theorem contains_append (s t : allocSet) (id : String) :
    (s ++ t).contains id = (s.contains id || t.contains id) := by
  simp [contains]

theorem contains_insert (s : allocSet) (x : Allocation) (id : String) :
    (s.insert x).contains id = (s.contains id || x.ID == id) := by
  unfold insert
  split
  · next hx =>
    have hids : (s.map fun y => if y.ID = x.ID then x else y).map (·.ID) = s.map (·.ID) := by
      rw [List.map_map]
      exact List.map_congr_left fun y _ => by
        simp only [Function.comp_apply]
        split <;> simp_all
    have hcon : allocSet.contains (s.map fun y => if y.ID = x.ID then x else y) id =
        s.contains id := by
      rw [Bool.eq_iff_iff, contains_iff, contains_iff, hids]
    rw [hcon]
    by_cases h : x.ID = id
    · subst h; simp [hx]
    · simp [h]
  · simp [contains]

theorem contains_foldl_insert (o u : allocSet) (id : String) :
    (o.foldl allocSet.insert u).contains id = (u.contains id || o.contains id) := by
  induction o generalizing u with
  | nil => simp
  | cons x o ih =>
    rw [List.foldl_cons, ih, contains_insert]
    simp only [contains, List.any_cons]
    cases x.ID == id <;> simp

theorem contains_union_nil (l : allocSet) (id : String) :
    (allocSet.union [] [l]).contains id = l.contains id := by
  simp [union, contains_foldl_insert]

@[simp] theorem difference_singleton (s o : allocSet) :
    s.difference [o] = s.filter fun x => !o.contains x.ID := by
  simp [difference]

@[simp] theorem difference_nil_nil (s : allocSet) : s.difference [[], []] = s := by
  simp [difference]

@[simp] theorem fromKeys_nil (s : allocSet) : s.fromKeys [[]] = [] := by
  simp [fromKeys]

theorem exists_perm_append_of_subperm {S l : allocSet} (h : List.Subperm S l) : ∃ r, l.Perm (S ++ r) := by
  obtain ⟨S', hp, hs⟩ := h
  obtain ⟨r, hr⟩ := hs.exists_perm_append
  exact ⟨r, hr.trans (hp.append_right r)⟩

theorem length_filter_not_contains {S l : allocSet} (hsub : List.Subperm S l)
    (hnd : (l.map (·.ID)).Nodup) :
    (l.filter fun y => !S.contains y.ID).length = l.length - S.length := by
  obtain ⟨r, hp⟩ := exists_perm_append_of_subperm hsub
  have hnd' : ((S ++ r).map (·.ID)).Nodup := (hp.map _).nodup_iff.mp hnd
  rw [List.map_append, List.nodup_append] at hnd'
  -- the rest keeps every member: none has the ID of a member of `S`
  have hr : r.filter (fun y => !S.contains y.ID) = r := by
    refine List.filter_eq_self.mpr fun y hy => ?_
    have hS : y.ID ∉ S.map (·.ID) := fun hm =>
      hnd'.2.2 _ hm _ (List.mem_map_of_mem hy) rfl
    cases h : S.contains y.ID
    · rfl
    · exact absurd ((contains_iff _ _).mp h) hS
  have hS : S.filter (fun y => !S.contains y.ID) = [] :=
    List.filter_eq_nil_iff.mpr fun y hy => by simpa using List.mem_map_of_mem (f := (·.ID)) hy
  rw [(hp.filter _).length_eq, List.filter_append, hS, hr, hp.length_eq]
  simp

end allocSet

-- ---------------------------------------------------------------------------
-- `filterByTainted`
-- ---------------------------------------------------------------------------

theorem filterByTainted_perm (s : allocSet) (nodes : Map String (Option Node)) :
    ((filterByTainted s nodes).1 ++ (filterByTainted s nodes).2.1 ++
      (filterByTainted s nodes).2.2).Perm s := by
  simp only [filterByTainted]
  -- split off the untainted ones, then the migrating ones from the rest
  have h1 := List.filter_append_perm (fun x => taintOf nodes x == .untainted) s
  have h2 := List.filter_append_perm (fun x => taintOf nodes x == .migrate)
    (s.filter fun x => !(taintOf nodes x == .untainted))
  have hm : (s.filter fun x => !(taintOf nodes x == .untainted)).filter
      (fun x => taintOf nodes x == .migrate) = s.filter (taintOf nodes · == .migrate) := by
    rw [List.filter_filter]
    exact List.filter_congr fun x _ => by cases taintOf nodes x <;> rfl
  have hl : (s.filter fun x => !(taintOf nodes x == .untainted)).filter
      (fun x => !(taintOf nodes x == .migrate)) = s.filter (taintOf nodes · == .lost) := by
    rw [List.filter_filter]
    exact List.filter_congr fun x _ => by cases taintOf nodes x <;> rfl
  rw [hm, hl] at h2
  rw [List.append_assoc]
  exact (h2.append_left _).trans h1

theorem node_ok_of_mem_untainted {s : allocSet} {nodes : Map String (Option Node)} {x : Allocation}
    (hx : x ∈ (filterByTainted s nodes).1) (hterm : x.TerminalStatus = false) :
    ∀ n, nodes.lookup x.NodeID = some n → ∃ node, n = some node ∧ node.TerminalStatus = false := by
  intro n hn
  have hu : taintOf nodes x = .untainted := by
    simpa [filterByTainted] using (List.mem_filter.mp hx).2
  have hmig : x.DesiredTransition.ShouldMigrate = false := by
    cases h : x.DesiredTransition.ShouldMigrate
    · rfl
    · simp [taintOf, hterm, h] at hu
  cases n with
  | none => simp [taintOf, hterm, hmig, hn] at hu
  | some node =>
    refine ⟨node, rfl, ?_⟩
    by_contra h
    simp [taintOf, hterm, hmig, hn, h] at hu

-- ---------------------------------------------------------------------------
-- `filterByRescheduleable`
-- ---------------------------------------------------------------------------

theorem nextRescheduleTime_of_not_failed {x : Allocation} (h : x.ClientStatus ≠ .failed) :
    x.NextRescheduleTime.2 = false := by
  unfold Allocation.NextRescheduleTime
  split
  · rfl
  · rw [if_pos (Or.inr (Or.inl h))]

theorem rescheduleOf_running {x : Allocation} (now : Time) (evalID : String)
    (d : Option Deployment) (hrun : x.DesiredStatus = .run)
    (hclient : x.ClientStatus = .pending ∨ x.ClientStatus = .running) (hnext : x.NextAllocation = "")
    (hforce : x.DesiredTransition.ShouldForceReschedule = false) :
    rescheduleOf false now evalID d x = .untainted := by
  have hfail : x.ClientStatus ≠ .failed := by rcases hclient with h | h <;> simp [h]
  have hfilter : shouldFilter x false = (false, false) := by
    rcases hclient with h | h <;> simp [shouldFilter, hrun, h]
  have hupd : (updateByReschedulable x now evalID d).1 = false ∧
      (updateByReschedulable x now evalID d).2.1 = false := by
    have he := nextRescheduleTime_of_not_failed hfail
    unfold updateByReschedulable
    cases hN : x.NextRescheduleTime with
    | mk t e =>
      rw [hN] at he
      simp only at he
      subst he
      dsimp only
      split <;> simp [hforce, apply_ite]
  simp only [rescheduleOf, hnext, hfilter]
  simp [hupd.1, hupd.2]

theorem filterByRescheduleable_running {s : allocSet} (now : Time) (evalID : String)
    (d : Option Deployment)
    (hs : ∀ x ∈ s, x.DesiredStatus = .run ∧ (x.ClientStatus = .pending ∨ x.ClientStatus = .running) ∧
      x.NextAllocation = "" ∧ x.DesiredTransition.ShouldForceReschedule = false) :
    filterByRescheduleable s false now evalID d = (s, [], []) := by
  have hcls : ∀ x ∈ s, rescheduleOf false now evalID d x = .untainted := fun x hx =>
    have h := hs x hx
    rescheduleOf_running now evalID d h.1 h.2.1 h.2.2.1 h.2.2.2
  simp only [filterByRescheduleable, Prod.mk.injEq]
  refine ⟨List.filter_eq_self.mpr fun x hx => by simp [hcls x hx, rescheduleClass.isUntainted],
    List.filter_eq_nil_iff.mpr fun x hx => by simp [hcls x hx],
    List.filterMap_eq_nil_iff.mpr fun x hx => by simp [hcls x hx, rescheduleClass.laterTime]⟩

end Nomad.Scheduler
