import Mathlib
import Nomad.Container.Heap
import Nomad.Structs.Types

/-!
# `lib/delayheap`

A `DelayHeap` is a heap of nodes ordered by `WaitUntil`, with an index map from each node's key
(`ID()` and `Namespace()` of the `HeapNode` it wraps) to the node. The map holds pointers, and
the heap's `Swap` writes each moved node's `index` field: in this model `index` holds, for each
key, the `index` field of the node it points to, and every write of a node's field is a write of
that entry.

`WellIndexed` is the invariant that keeps the two in step: the keys in the heap are distinct,
each maps to its own position, and the map has no other key. `Push` of a new key and `Remove`
of a present one keep it, and change the heap's contents by exactly that node.
-/

namespace Nomad.Lib

open Go Structs Container

/-- `delayHeapNode` without its `index` field, which the index map carries. -/
structure delayHeapNode (α : Type) where
  Node : α
  WaitUntil : Time
  deriving DecidableEq, Repr

structure DelayHeap (α : Type) where
  index : AList (fun _ : NamespacedID => Int)
  heap : List (delayHeapNode α)

namespace DelayHeap

variable {α : Type} (key : α → NamespacedID)

/-- Write `v` into the `index` field of the node the map entry `k` points to; a key the map
lacks points to no node. -/
def setIndex (index : AList (fun _ : NamespacedID => Int)) (k : NamespacedID) (v : Int) :
    AList (fun _ : NamespacedID => Int) :=
  if k ∈ index then index.insert k v else index

def setIndexAt (index : AList (fun _ : NamespacedID => Int)) (heap : List (delayHeapNode α))
    (p : Nat) (v : Int) : AList (fun _ : NamespacedID => Int) :=
  match heap[p]? with
  | some n => setIndex index (key n.Node) v
  | none => index

/-- `delayedHeapImp.Less`: two zero times are not less than each other, and a zero time sorts
after every other time. -/
def waitLess (a b : delayHeapNode α) : Bool :=
  if a.WaitUntil.IsZero && b.WaitUntil.IsZero then false
  else if a.WaitUntil.IsZero then false
  else if b.WaitUntil.IsZero then true
  else a.WaitUntil.Before b.WaitUntil

def delayedHeapImp : Heap.Interface (DelayHeap α) (delayHeapNode α) where
  Len d := d.heap.length
  Less d i j :=
    match d.heap[i]?, d.heap[j]? with
    | some a, some b => waitLess a b
    | _, _ => false
  Swap d i j :=
    let heap := Heap.exchange d.heap i j
    { index := setIndexAt key (setIndexAt key d.index heap i i) heap j j, heap := heap }
  Push d x := { index := setIndex d.index (key x.Node) d.heap.length, heap := d.heap ++ [x] }
  Pop d :=
    match d.heap.getLast? with
    | some x => ({ index := setIndex d.index (key x.Node) (-1), heap := d.heap.dropLast }, some x)
    | none => (d, none)

def NewDelayHeap : DelayHeap α := ⟨∅, []⟩

def Push (d : DelayHeap α) (dataNode : α) (next : Time) : Except String (DelayHeap α) :=
  let tuple := key dataNode
  if tuple ∈ d.index then
    .error ("node " ++ tuple.ID.quote ++ " (" ++ tuple.Namespace ++ ") already exists")
  else
    .ok (Heap.Push (delayedHeapImp key) { d with index := d.index.insert tuple 0 } ⟨dataNode, next⟩)

def Pop (d : DelayHeap α) : DelayHeap α × Option (delayHeapNode α) :=
  if d.heap.length = 0 then (d, none)
  else
    match Heap.Pop (delayedHeapImp key) d with
    | (d', some node) => ({ d' with index := d'.index.erase (key node.Node) }, some node)
    | (d', none) => (d', none)

def Peek (d : DelayHeap α) : Option (delayHeapNode α) := d.heap[0]?

def Contains (d : DelayHeap α) (heapNode : α) : Bool := decide (key heapNode ∈ d.index)

def Update (d : DelayHeap α) (heapNode : α) (waitUntil : Time) : Except String (DelayHeap α) :=
  let tuple := key heapNode
  match d.index.lookup tuple with
  | some i =>
    .ok (Heap.Fix (delayedHeapImp key)
      { d with heap := d.heap.set i.toNat ⟨heapNode, waitUntil⟩ } i.toNat)
  | none =>
    .error ("heap doesn't contain object with ID " ++ tuple.ID.quote ++ " (" ++ tuple.Namespace ++ ")")

def Remove (d : DelayHeap α) (heapNode : α) : Except String (DelayHeap α) :=
  let tuple := key heapNode
  match d.index.lookup tuple with
  | some i =>
    let d' := (Heap.Remove (delayedHeapImp key) d i.toNat).1
    .ok { d' with index := d'.index.erase tuple }
  | none =>
    .error ("heap doesn't contain object with ID " ++ tuple.ID.quote ++ " (" ++ tuple.Namespace ++ ")")

def Length (d : DelayHeap α) : Nat := d.heap.length

-- ---------------------------------------------------------------------------
-- The index map
-- ---------------------------------------------------------------------------

theorem lookup_setIndex (index : AList (fun _ : NamespacedID => Int)) (k a : NamespacedID)
    (v : Int) : (setIndex index k v).lookup a = if a = k ∧ k ∈ index then some v else index.lookup a := by
  unfold setIndex
  by_cases hk : k ∈ index
  · by_cases ha : a = k
    · subst ha; simp [hk, AList.lookup_insert]
    · simp [hk, ha, AList.lookup_insert_ne ha]
  · simp [hk]

theorem mem_setIndex {index : AList (fun _ : NamespacedID => Int)} {k a : NamespacedID} {v : Int} :
    a ∈ setIndex index k v ↔ a ∈ index := by
  unfold setIndex
  split
  · rename_i hk
    rw [AList.mem_insert]
    constructor
    · rintro (rfl | h) <;> assumption
    · exact Or.inr
  · rfl

theorem delayedHeapImp_lawful : Heap.Lawful (delayedHeapImp key) (fun d => d.heap) where
  len _ := rfl
  swap _ _ _ := rfl
  push _ _ := rfl
  pop s l x hs := by simp [delayedHeapImp, hs]
  pop_nil s hs := by simp [delayedHeapImp, hs]

def keys (d : DelayHeap α) : List NamespacedID := d.heap.map (fun n => key n.Node)

structure WellIndexed (d : DelayHeap α) : Prop where
  nodup : (keys key d).Nodup
  pos : ∀ (p : Nat) (n : delayHeapNode α), d.heap[p]? = some n → d.index.lookup (key n.Node) = some (p : Int)
  mem : ∀ k, k ∈ d.index → k ∈ keys key d

theorem wellIndexed_new : WellIndexed key (NewDelayHeap (α := α)) where
  nodup := by simp [keys, NewDelayHeap]
  pos p n h := by simp [NewDelayHeap] at h
  mem k h := absurd h (AList.notMem_empty k)

variable {key}

theorem WellIndexed.mem_iff {d : DelayHeap α} (hw : WellIndexed key d) (k : NamespacedID) :
    k ∈ d.index ↔ k ∈ keys key d := by
  refine ⟨hw.mem k, fun hk => ?_⟩
  obtain ⟨n, hn, rfl⟩ := List.mem_map.mp hk
  obtain ⟨p, hp, hpn⟩ := List.getElem_of_mem hn
  exact AList.lookup_isSome.mp (by rw [hw.pos p n (by simp [← hpn])]; rfl)

theorem WellIndexed.pos_inj {d : DelayHeap α} (hw : WellIndexed key d) {p q : Nat}
    {m n : delayHeapNode α} (hm : d.heap[p]? = some m) (hn : d.heap[q]? = some n)
    (hk : key m.Node = key n.Node) : p = q := by
  have h1 := hw.pos p m hm
  rw [hk, hw.pos q n hn] at h1
  have := Option.some.inj h1
  omega

theorem swapKeeps_wellIndexed : Heap.SwapKeeps (h := delayedHeapImp key) (WellIndexed key) where
  len s i j _ _ := by simp [delayedHeapImp]
  keep s i j hw hi hj := by
    simp only [delayedHeapImp] at hi hj
    have hmem : ∀ (p : Nat) (n : delayHeapNode α), s.heap[p]? = some n → key n.Node ∈ s.index :=
      fun p n hpn =>
      AList.lookup_isSome.mp (by rw [hw.pos p n hpn]; rfl)
    have hei : (Heap.exchange s.heap i j)[i]? = s.heap[j]? := by
      rw [Heap.exchange_of_lt hi hj]
      by_cases hij : i = j
      · subst hij; simp
      · simp [hi, Ne.symm hij, List.getElem?_eq_getElem hj]
    have hej : (Heap.exchange s.heap i j)[j]? = s.heap[i]? := Heap.getElem?_exchange_right hi hj
    obtain ⟨a, ha⟩ : ∃ a, s.heap[i]? = some a := ⟨_, List.getElem?_eq_getElem hi⟩
    obtain ⟨b, hb⟩ : ∃ b, s.heap[j]? = some b := ⟨_, List.getElem?_eq_getElem hj⟩
    refine ⟨?_, ?_, ?_⟩
    · simp only [keys, delayedHeapImp]
      exact (List.Perm.map _ (Heap.exchange_perm _ i j)).nodup_iff.mpr hw.nodup
    · intro p n hpn
      simp only [delayedHeapImp, setIndexAt, hei, hej, hb, ha] at hpn ⊢
      rw [lookup_setIndex, lookup_setIndex]
      by_cases hpj : p = j
      · rw [hpj, hej, ha] at hpn
        cases hpn
        simp [hpj, mem_setIndex, hmem _ _ ha]
      · by_cases hpi : p = i
        · rw [hpi, hei, hb] at hpn
          cases hpn
          have hne : key b.Node ≠ key a.Node := fun hk => hpj (hpi ▸ hw.pos_inj hb ha hk).symm
          simp [hpi, hne, hmem _ _ hb]
        · rw [Heap.getElem?_exchange_of_ne _ hpi hpj] at hpn
          have hnb : key n.Node ≠ key b.Node := fun hk => hpj (hw.pos_inj hpn hb hk)
          have hna : key n.Node ≠ key a.Node := fun hk => hpi (hw.pos_inj hpn ha hk)
          simp [hnb, hna, hw.pos p n hpn]
    · intro k hk
      simp only [delayedHeapImp, setIndexAt, hei, hej, hb, ha, mem_setIndex] at hk
      simp only [keys, delayedHeapImp]
      exact (List.Perm.map _ (Heap.exchange_perm _ i j)).mem_iff.mpr (hw.mem k hk)

-- ---------------------------------------------------------------------------
-- Push and Remove
-- ---------------------------------------------------------------------------

theorem push_ok {d : DelayHeap α} (hw : WellIndexed key d) {x : α} (hx : key x ∉ keys key d)
    (t : Time) : ∃ d', Push key d x t = .ok d' ∧ WellIndexed key d' ∧
      d'.heap.Perm (⟨x, t⟩ :: d.heap) := by
  have hxi : key x ∉ d.index := fun h => hx (hw.mem _ h)
  let d1 : DelayHeap α := { d with index := d.index.insert (key x) 0 }
  let d2 := (delayedHeapImp key).Push d1 ⟨x, t⟩
  -- the appended node's entry is its position, every other entry is untouched
  have hlook : ∀ k, d2.index.lookup k = if k = key x then some (d.heap.length : Int)
      else d.index.lookup k := by
    intro k
    simp only [d2, d1, delayedHeapImp, lookup_setIndex, AList.mem_insert, true_or, and_true]
    by_cases hk : k = key x
    · simp [hk]
    · simp [hk, AList.lookup_insert_ne hk]
  have hw2 : WellIndexed key d2 := by
    refine ⟨?_, ?_, ?_⟩
    · have hk2 : keys key d2 = keys key d ++ [key x] := by simp [keys, d2, d1, delayedHeapImp]
      rw [hk2, List.nodup_append]
      refine ⟨hw.nodup, by simp, ?_⟩
      intro a ha b hb
      rw [List.mem_singleton] at hb
      subst hb
      exact fun h => hx (h ▸ ha)
    · intro p n hpn
      rw [hlook]
      simp only [d2, d1, delayedHeapImp] at hpn
      rcases Nat.lt_or_ge p d.heap.length with hp | hp
      · rw [List.getElem?_append_left hp] at hpn
        have hne : key n.Node ≠ key x := fun h => hx (h ▸ List.mem_map_of_mem
          (List.mem_of_getElem? hpn))
        simp [hne, hw.pos p n hpn]
      · rw [List.getElem?_append_right hp] at hpn
        obtain hp' | hp' : p - d.heap.length = 0 ∨ p - d.heap.length = (p - d.heap.length - 1) + 1 :=
          by omega
        · simp only [hp', List.getElem?_cons_zero, Option.some.injEq] at hpn
          subst hpn
          simp only [if_true]
          congr 1
          omega
        · rw [hp'] at hpn
          simp at hpn
    · intro k hk
      simp only [d2, d1, delayedHeapImp, mem_setIndex, AList.mem_insert] at hk
      simp only [keys, d2, d1, delayedHeapImp, List.map_append, List.mem_append, List.mem_map]
      rcases hk with rfl | hk
      · exact Or.inr (by simp)
      · exact Or.inl (by simpa [keys] using hw.mem k hk)
  refine ⟨Heap.Push (delayedHeapImp key) d1 ⟨x, t⟩, by simp [Push, hxi, d1], ?_, ?_⟩
  · exact Heap.up_preserves swapKeeps_wellIndexed hw2 (by simp [d1, delayedHeapImp])
  · exact Heap.push_perm (delayedHeapImp_lawful key) d1 ⟨x, t⟩

theorem wellIndexed_pop {s : DelayHeap α} (hw : WellIndexed key s) {n : delayHeapNode α}
    (hn : s.heap.getLast? = some n) :
    WellIndexed key ⟨(setIndex s.index (key n.Node) (-1)).erase (key n.Node), s.heap.dropLast⟩ := by
  have hne : s.heap ≠ [] := by rintro he; simp [he] at hn
  have hsplit : s.heap = s.heap.dropLast ++ [n] := by
    rw [← Option.some.inj ((List.getLast?_eq_some_getLast hne).symm.trans hn)]
    exact (List.dropLast_append_getLast hne).symm
  have hlast : s.heap[s.heap.length - 1]? = some n := by
    rw [← hn, List.getLast?_eq_getElem?]
  refine ⟨?_, ?_, ?_⟩
  · simp only [keys, List.map_dropLast]
    exact hw.nodup.sublist (List.dropLast_sublist _)
  · intro p m hpm
    have hp : p < s.heap.length - 1 := by
      by_contra hge
      simp [hge] at hpm
    have hsm : s.heap[p]? = some m := by
      rw [List.getElem?_dropLast, if_pos hp] at hpm
      exact hpm
    have hk : key m.Node ≠ key n.Node := fun h => by
      have := hw.pos_inj hsm hlast h
      omega
    simp only
    rw [AList.lookup_erase_ne hk, lookup_setIndex, if_neg (fun h => hk h.1), hw.pos p m hsm]
  · intro k hk
    simp only [AList.mem_erase, mem_setIndex] at hk
    have hks := hw.mem k hk.2
    rw [keys, hsplit, List.map_append, List.mem_append] at hks
    simp only [keys]
    rcases hks with h | h
    · exact h
    · simp at h
      exact absurd h hk.1

theorem remove_ok {d : DelayHeap α} (hw : WellIndexed key d) {x : α} (hx : key x ∈ keys key d) :
    ∃ d' n, Remove key d x = .ok d' ∧ WellIndexed key d' ∧ key n.Node = key x ∧
      (n :: d'.heap).Perm d.heap := by
  obtain ⟨n, hnm, hnk⟩ := List.mem_map.mp hx
  obtain ⟨p, hp, hpn⟩ := List.getElem_of_mem hnm
  have hpn' : d.heap[p]? = some n := by simp [← hpn]
  have hl := delayedHeapImp_lawful key
  have hs : Heap.SwapKeeps (h := delayedHeapImp key) (WellIndexed key) := swapKeeps_wellIndexed
  let n0 := d.heap.length - 1
  -- before the `Pop` method runs, `n` sits last and the map is in step
  obtain ⟨s1, hrem, hw1, hperm1, hlen1, hlast1⟩ : ∃ s1,
      Heap.Remove (delayedHeapImp key) d p = (delayedHeapImp key).Pop s1 ∧
      WellIndexed key s1 ∧ s1.heap.Perm d.heap ∧ s1.heap.length = d.heap.length ∧
      s1.heap[n0]? = some n := by
    by_cases hpn0 : n0 = p
    · exact ⟨d, Heap.Remove_of_eq _ hpn0, hw, List.Perm.refl _, rfl, by rw [hpn0]; exact hpn'⟩
    · let s0 := (delayedHeapImp key).Swap d p n0
      have hn0 : n0 < d.heap.length := by omega
      have hw0 : WellIndexed key s0 := hs.keep d p n0 hw hp hn0
      have hl0 : s0.heap.length = d.heap.length := by simp [s0, delayedHeapImp]
      have hlast0 : s0.heap[n0]? = some n := by
        simp only [s0, delayedHeapImp]
        rw [Heap.getElem?_exchange_right hp hn0, hpn']
      let r := Heap.down (delayedHeapImp key) s0 p n0
      have hwr : WellIndexed key r.1 := (Heap.down_preserves hs hw0
        (show n0 ≤ (delayedHeapImp key).Len s0 by simp only [delayedHeapImp, hl0]; omega)).1
      have hlastr : r.1.heap[n0]? = some n := by
        show (Heap.downLoop (delayedHeapImp key) n0 n0 s0 p).1.heap[n0]? = some n
        rw [Heap.downLoop_getElem?_of_le hl (Nat.le_refl n0)]
        exact hlast0
      have hpermr : r.1.heap.Perm d.heap :=
        (Heap.down_perm hl s0 p n0 (by simp only [delayedHeapImp, hl0]; omega)).trans
          (by simp only [s0, delayedHeapImp]; exact Heap.exchange_perm _ _ _)
      have hlenr : r.1.heap.length = d.heap.length := hpermr.length_eq
      by_cases hmoved : r.2
      · refine ⟨r.1, ?_, hwr, hpermr, hlenr, hlastr⟩
        rw [Heap.Remove_of_ne _ hpn0]
        exact congrArg _ (if_pos hmoved)
      · have hpl : p < (delayedHeapImp key).Len r.1 := by simp [delayedHeapImp, hlenr, hp]
        refine ⟨Heap.up (delayedHeapImp key) r.1 p, ?_, Heap.up_preserves hs hwr hpl,
          (Heap.up_perm hl r.1 p hpl).trans hpermr,
          (Heap.up_perm hl r.1 p hpl).length_eq.trans hlenr, ?_⟩
        · rw [Heap.Remove_of_ne _ hpn0]
          exact congrArg _ (if_neg hmoved)
        · rw [Heap.up, Heap.upLoop_getElem?_of_lt hl _ _ _ (by omega)]
          exact hlastr
  have hne : s1.heap ≠ [] := by rintro he; simp [he] at hlast1
  have hgl : s1.heap.getLast? = some n := by
    rw [List.getLast?_eq_getElem?, hlen1]
    exact hlast1
  refine ⟨⟨(setIndex s1.index (key n.Node) (-1)).erase (key n.Node), s1.heap.dropLast⟩, n, ?_,
    wellIndexed_pop hw1 hgl, hnk, ?_⟩
  · have hlk : d.index.lookup (key x) = some (p : Int) := hnk ▸ hw.pos p n hpn'
    simp only [Remove, hlk, Int.toNat_natCast]
    rw [hrem]
    simp only [delayedHeapImp, hgl, hnk]
  · have hsplit : s1.heap = s1.heap.dropLast ++ [n] := by
      rw [← Option.some.inj ((List.getLast?_eq_some_getLast hne).symm.trans hgl)]
      exact (List.dropLast_append_getLast hne).symm
    refine List.Perm.trans ?_ hperm1
    conv => rhs; rw [hsplit]
    exact (List.perm_append_singleton n _).symm

-- ---------------------------------------------------------------------------
-- Pop and Update
-- ---------------------------------------------------------------------------

theorem pop_ok {d : DelayHeap α} (hw : WellIndexed key d) (hne : d.heap ≠ []) :
    ∃ d' n, Pop key d = (d', some n) ∧ WellIndexed key d' ∧ d.heap[0]? = some n ∧
      d'.heap = (Heap.Pop (delayedHeapImp key) d).1.heap := by
  have hl := delayedHeapImp_lawful key
  have hs : Heap.SwapKeeps (h := delayedHeapImp key) (WellIndexed key) := swapKeeps_wellIndexed
  have hlen : 0 < d.heap.length := List.length_pos_of_ne_nil hne
  let n0 := d.heap.length - 1
  let t := (Heap.down (delayedHeapImp key) ((delayedHeapImp key).Swap d 0 n0) 0 n0).1
  have hsl : (delayedHeapImp key).Len ((delayedHeapImp key).Swap d 0 n0) = d.heap.length := by
    simp [delayedHeapImp]
  -- the root moved last and sifted down: the map is still in step
  obtain ⟨hwt, htl⟩ : WellIndexed key t ∧
      (delayedHeapImp key).Len t = (delayedHeapImp key).Len ((delayedHeapImp key).Swap d 0 n0) :=
    Heap.down_preserves hs
    (hs.keep d 0 n0 hw (by simp [delayedHeapImp]; omega) (by simp [delayedHeapImp, n0]; omega))
    (show n0 ≤ _ by rw [hsl]; omega)
  obtain ⟨x, hx⟩ : ∃ x, t.heap.getLast? = some x := by
    refine Option.ne_none_iff_exists'.mp fun hnone => ?_
    rw [List.getLast?_eq_none_iff] at hnone
    have : t.heap.length = d.heap.length := htl.trans hsl
    rw [hnone, List.length_nil] at this
    omega
  have hpop : Heap.Pop (delayedHeapImp key) d =
      (⟨setIndex t.index (key x.Node) (-1), t.heap.dropLast⟩, some x) := by
    show (delayedHeapImp key).Pop t = _
    simp [delayedHeapImp, hx]
  obtain ⟨r, hr⟩ : ∃ r, d.heap[0]? = some r := ⟨d.heap[0], List.getElem?_eq_getElem hlen⟩
  have hxr : x = r := by
    have hroot := Heap.pop_root hl d hr
    rw [hpop] at hroot
    exact Option.some.inj hroot
  subst hxr
  refine ⟨_, x, ?_, wellIndexed_pop hwt hx, hr, by rw [hpop]⟩
  rw [Pop, if_neg (Nat.pos_iff_ne_zero.mp hlen), hpop]

theorem WellIndexed.lookup_of_mem {d : DelayHeap α} (hw : WellIndexed key d) {x : α}
    (hx : key x ∈ keys key d) :
    ∃ (p : Nat) (n : delayHeapNode α), d.heap[p]? = some n ∧ key n.Node = key x ∧
      d.index.lookup (key x) = some (p : Int) := by
  obtain ⟨n, hnm, hnk⟩ := List.mem_map.mp hx
  obtain ⟨p, hp, hpn⟩ := List.getElem_of_mem hnm
  have hpn' : d.heap[p]? = some n := by simp [← hpn]
  exact ⟨p, n, hpn', hnk, hnk ▸ hw.pos p n hpn'⟩

theorem update_ok {d : DelayHeap α} (hw : WellIndexed key d) {x : α} (hx : key x ∈ keys key d)
    (t : Time) :
    ∃ p, p < d.heap.length ∧
      Update key d x t = .ok (Heap.Fix (delayedHeapImp key) { d with heap := d.heap.set p ⟨x, t⟩ } p) ∧
      WellIndexed key (Heap.Fix (delayedHeapImp key) { d with heap := d.heap.set p ⟨x, t⟩ } p) := by
  obtain ⟨p, n, hpn, hnk, hlk⟩ := hw.lookup_of_mem hx
  have hp : p < d.heap.length := (List.getElem?_eq_some_iff.mp hpn).1
  -- the new node has the key of the node it replaces, so the keys stay as they were
  have hkeys : keys key { d with heap := d.heap.set p ⟨x, t⟩ } = keys key d := by
    have hnp : d.heap[p] = n := (List.getElem?_eq_some_iff.mp hpn).2
    have hpk : p < (keys key d).length := by simp [keys, hp]
    have hkp : key x = (keys key d)[p] := by
      simp [keys, hnp, hnk]
    simp only [keys, List.map_set]
    exact hkp ▸ List.set_getElem_self _
  have hw1 : WellIndexed key { d with heap := d.heap.set p ⟨x, t⟩ } := by
    refine ⟨hkeys ▸ hw.nodup, fun q m hqm => ?_, fun k hk => hkeys ▸ hw.mem k hk⟩
    by_cases hq : q = p
    · subst hq
      simp only [List.getElem?_set_self hp, Option.some.injEq] at hqm
      subst hqm
      exact hlk
    · rw [List.getElem?_set_ne (Ne.symm hq)] at hqm
      exact hw.pos q m hqm
  refine ⟨p, hp, by simp [Update, hlk], Heap.Fix_preserves swapKeeps_wellIndexed hw1 ?_⟩
  simp [delayedHeapImp, hp]

end DelayHeap

end Nomad.Lib
