import Nomad.Container.SwapRemove
import Nomad.Structs.Alloc

/-!
# Removing allocations from a slice

`RemoveAllocs` and `FilterTerminalAllocs` of `structs/funcs.go` drop allocations from a slice in
place, swapping the last live one into the hole and checking it next (`Container.swapRemove`).
`RemoveAllocs` keeps the allocations whose ID is not in the removal set. `FilterTerminalAllocs`
keeps the non-terminal ones and records, per name (the whole `job.group[idx]`, `FullName`), the
terminal allocation with the highest
`CreateIndex` (`Map.keepMax`), folded in the order the loop drops them: that order is some
permutation of the terminal allocations, and what the map holds does not depend on it.
-/

namespace Nomad.Structs

open Container

def RemoveAllocs (alloc remove : List Allocation) : List Allocation :=
  -- Convert remove into a set
  let removeSet : Map String Unit := remove.foldl (fun s r => s.insert r.ID ()) ∅
  swapRemove (fun a => decide (a.ID ∈ removeSet)) alloc

/-- `FilterTerminalAllocs(allocs)`: the live allocations, and the latest terminal one by name. -/
def FilterTerminalAllocs (allocs : List Allocation) : List Allocation × Map (String × Nat) Allocation :=
  swapRemoveVisit (·.TerminalStatus) (Map.keepMax (·.FullName) (·.CreateIndex)) allocs ∅

theorem mem_removeSet (remove : List Allocation) (m : Map String Unit) (id : String) :
    id ∈ remove.foldl (fun s r => s.insert r.ID ()) m ↔ id ∈ m ∨ id ∈ remove.map (·.ID) := by
  induction remove generalizing m with
  | nil => simp
  | cons r remove ih =>
    rw [List.foldl_cons, ih, AList.mem_insert, List.map_cons, List.mem_cons]
    tauto

theorem removeAllocs_perm (alloc remove : List Allocation) :
    (RemoveAllocs alloc remove).Perm (alloc.filter fun a => a.ID ∉ remove.map (·.ID)) := by
  have hset : ∀ a : Allocation,
      (!decide (a.ID ∈ remove.foldl (fun s r => s.insert r.ID ()) (∅ : Map String Unit))) =
        decide (a.ID ∉ remove.map (·.ID)) := by
    intro a
    by_cases h : a.ID ∈ remove.map (·.ID) <;> simp [mem_removeSet, h]
  unfold RemoveAllocs
  simpa only [hset] using @swapRemove_perm Allocation (fun a => decide
    (a.ID ∈ remove.foldl (fun s r => s.insert r.ID ()) (∅ : Map String Unit))) alloc

/-- The allocations `FilterTerminalAllocs` keeps are the live ones; its map holds, under each name
of a terminal allocation, a terminal allocation of that name with the highest `CreateIndex`. -/
theorem filterTerminalAllocs_spec (allocs : List Allocation) :
    (FilterTerminalAllocs allocs).1.Perm (allocs.filter fun a => !a.TerminalStatus) ∧
    (∀ name a, (FilterTerminalAllocs allocs).2.lookup name = some a →
      a ∈ allocs ∧ a.TerminalStatus ∧ a.FullName = name ∧
        ∀ b ∈ allocs, b.TerminalStatus → b.FullName = name → b.CreateIndex ≤ a.CreateIndex) ∧
    ∀ b ∈ allocs, b.TerminalStatus → b.FullName ∈ (FilterTerminalAllocs allocs).2 := by
  obtain ⟨D, hD, hkeep, hacc⟩ :=
    @swapRemoveVisit_spec Allocation (·.TerminalStatus) _ (Map.keepMax (·.FullName) (·.CreateIndex))
      allocs ∅
  -- the map is a `keepMax` fold over the dropped allocations, in the order `D` they were dropped
  have hm := @Map.holdsMax_foldl (String × Nat) _ Allocation (·.FullName) (·.CreateIndex) D
  rw [← hacc] at hm
  have hmemD : ∀ b, b ∈ D ↔ b ∈ allocs ∧ b.TerminalStatus = true := fun b => by
    rw [hD.mem_iff, List.mem_filter]
  refine ⟨hkeep, fun name a ha => ?_, fun b hb ht => hm.complete b ((hmemD b).2 ⟨hb, ht⟩)⟩
  obtain ⟨haD, hname, hmax⟩ := hm.lookup name a ha
  exact ⟨((hmemD a).1 haD).1, ((hmemD a).1 haD).2, hname,
    fun b hb ht hbn => hmax b ((hmemD b).2 ⟨hb, ht⟩) hbn⟩

/-- Both in-place loops keep exactly what they should: `RemoveAllocs` a permutation of the
allocations whose ID is not removed, `FilterTerminalAllocs` one of the non-terminal allocations,
with the latest terminal allocation of every terminal name. -/
theorem swapRemove_loops_keep_exactly :
    (∀ alloc remove : List Allocation,
      (RemoveAllocs alloc remove).Perm (alloc.filter fun a => a.ID ∉ remove.map (·.ID))) ∧
    ∀ allocs : List Allocation,
      (FilterTerminalAllocs allocs).1.Perm (allocs.filter fun a => !a.TerminalStatus) ∧
      (∀ name a, (FilterTerminalAllocs allocs).2.lookup name = some a →
        a ∈ allocs ∧ a.TerminalStatus ∧ a.FullName = name ∧
          ∀ b ∈ allocs, b.TerminalStatus → b.FullName = name → b.CreateIndex ≤ a.CreateIndex) ∧
      ∀ b ∈ allocs, b.TerminalStatus → b.FullName ∈ (FilterTerminalAllocs allocs).2 :=
  ⟨removeAllocs_perm, filterTerminalAllocs_spec⟩

end Nomad.Structs
