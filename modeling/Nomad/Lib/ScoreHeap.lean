import Mathlib
import Nomad.Container.HeapOrder

/-!
# `lib/kheap`: the top `K` items by score

A `ScoreHeap` is a min-heap by `Score()` that holds at most `capacity` items. Below capacity its
`Push` method appends; at capacity it overwrites the root, the least score kept, when the new
score is greater, and calls `heap.Fix` at the root. Callers push through `heap.Push`, which runs
its own `up` from the last position after the method, and read the items with `GetItemsReverse`,
which pops them all into a slice it fills from the end. Go's scores are `float64`; here they are
rationals.

`IsTop k all top` says that the multiset `top` is `k` of the largest members of `all`. Every push
keeps the heap ordered and its scores the `min K n` largest of the `n` pushed (`Holds.push`), and
`GetItemsReverse` pops them least first, so that the slice it returns runs from the highest score
down (`reverseLoop_spec`).
-/

namespace Nomad.Lib

open Container

section top

variable {γ : Type} [LinearOrder γ]

/-- `top` is `k` of the largest members of `all`: a sub-multiset of `k` members with nothing left
out greater than anything in it. -/
def IsTop (k : Nat) (all top : Multiset γ) : Prop :=
  top ≤ all ∧ Multiset.card top = k ∧ ∀ a ∈ top, ∀ b ∈ all - top, b ≤ a

theorem isTop_self (all : Multiset γ) : IsTop (Multiset.card all) all all := by
  refine ⟨le_refl _, rfl, fun _ _ b hb => ?_⟩
  rw [Multiset.mem_sub] at hb
  exact absurd hb (Nat.lt_irrefl _)

theorem IsTop.skip {k : Nat} {all top : Multiset γ} (ht : IsTop k all top) {m x : γ}
    (hmin : ∀ a ∈ top, m ≤ a) (hx : x ≤ m) : IsTop k (x ::ₘ all) top := by
  obtain ⟨hle, hcard, hout⟩ := ht
  refine ⟨hle.trans (Multiset.le_cons_self all x), hcard, fun a ha b hb => ?_⟩
  by_cases hbx : b = x
  · subst hbx
    exact hx.trans (hmin a ha)
  · -- any other member left out now was left out before
    have hb' : b ∈ all - top := by
      rw [Multiset.mem_sub] at hb ⊢
      rwa [Multiset.count_cons_of_ne hbx] at hb
    exact hout a ha b hb'

theorem IsTop.replace {k : Nat} {all top : Multiset γ} (ht : IsTop k all top) {m x : γ}
    (hm : m ∈ top) (hmin : ∀ a ∈ top, m ≤ a) (hx : m < x) :
    IsTop k (x ::ₘ all) (x ::ₘ top.erase m) := by
  obtain ⟨hle, hcard, hout⟩ := ht
  have hpos : 0 < Multiset.card top := Multiset.card_pos_iff_exists_mem.mpr ⟨m, hm⟩
  refine ⟨Multiset.cons_le_cons x ((Multiset.erase_le m top).trans hle), ?_, fun a ha b hb => ?_⟩
  · have hpred := Nat.succ_pred_eq_of_pos hpos
    rw [Multiset.card_cons, Multiset.card_erase_of_mem hm]
    omega
  · -- `a` is the new member or one kept before
    have ha' : a = x ∨ a ∈ top := by
      rcases Multiset.mem_cons.mp ha with rfl | ha
      · exact .inl rfl
      · exact .inr (Multiset.mem_of_mem_erase ha)
    have hcount : Multiset.count b (top.erase m) < Multiset.count b all := by
      rw [Multiset.mem_sub, Multiset.count_cons, Multiset.count_cons] at hb
      omega
    by_cases hbm : b = m
    · -- the member pushed out is at or before every member kept
      subst hbm
      rcases ha' with rfl | ha'
      · exact hx.le
      · exact hmin a ha'
    · have hb' : b ∈ all - top := by
        rw [Multiset.mem_sub]
        rwa [Multiset.count_erase_of_ne hbm] at hcount
      rcases ha' with rfl | ha'
      · exact (hout m hm b hb').trans hx.le
      · exact hout a ha' b hb'

end top

structure ScoreHeap (β : Type) where
  items : List β
  capacity : Nat

namespace ScoreHeap

variable {β : Type} (score : β → ℚ)

def NewScoreHeap (capacity : Nat) : ScoreHeap β := ⟨[], capacity⟩

/-- `ScoreHeap` as `heap.Fix` and `heap.Pop` call it: `Len`, `Less`, `Swap` and `Pop`, with the
`Push` of a plain slice, which neither calls. -/
def sliceMethods : Heap.Interface (ScoreHeap β) β where
  Len pq := pq.items.length
  Less pq i j :=
    match pq.items[i]?, pq.items[j]? with
    | some a, some b => decide (score a < score b)
    | _, _ => false
  Swap pq i j := { pq with items := Heap.exchange pq.items i j }
  Push pq x := { pq with items := pq.items ++ [x] }
  Pop pq := ({ pq with items := pq.items.dropLast }, pq.items.getLast?)

/-- `(*ScoreHeap).Push`. At capacity Go reads `pq.items[0]`, which panics on an empty heap of
capacity 0; the model keeps the heap there. -/
def Push (pq : ScoreHeap β) (x : β) : ScoreHeap β :=
  if pq.items.length < pq.capacity then { pq with items := pq.items ++ [x] }
  else
    match pq.items[0]? with
    | some min =>
      -- Pop the lowest scoring element if this item's Score is greater than the min Score so far
      if score x > score min then
        Heap.Fix (sliceMethods score) { pq with items := pq.items.set 0 x } 0
      else pq
    | none => pq

def methods : Heap.Interface (ScoreHeap β) β := { sliceMethods score with Push := Push score }

def reverseLoop : Nat → ScoreHeap β → Nat → List (Option β) → List (Option β)
  | 0, _, _, ret => ret
  | fuel + 1, pq, i, ret =>
    if pq.items.length > 0 then
      let r := Heap.Pop (methods score) pq
      reverseLoop fuel r.1 (i - 1) (ret.set i r.2)
    else ret

/-- `GetItemsReverse()`: the slice it returns, whose `nil` entries are `none`. -/
def GetItemsReverse (pq : ScoreHeap β) : List (Option β) :=
  reverseLoop score pq.items.length pq (pq.items.length - 1)
    (List.replicate pq.items.length none)

-- ---------------------------------------------------------------------------
-- The methods
-- ---------------------------------------------------------------------------

theorem sliceMethods_lawful : Heap.Lawful (sliceMethods score) (·.items) where
  len _ := rfl
  swap _ _ _ := rfl
  push _ _ := rfl
  pop s l x hs := by simp [sliceMethods, hs]
  pop_nil s hs := by simp [sliceMethods, hs]

theorem sliceMethods_ranks : Heap.Ranks (sliceMethods score) (·.items) score := by
  intro pq i j x y hx hy
  simp [sliceMethods, hx, hy]

theorem sameOrder_methods : Heap.SameOrder (methods score) (sliceMethods score) := ⟨rfl, rfl, rfl⟩

theorem swapKeeps_capacity (K : Nat) :
    Heap.SwapKeeps (h := sliceMethods score) (fun pq => pq.capacity = K) where
  len _ _ _ _ _ := by simp [sliceMethods]
  keep _ _ _ hp _ _ := hp

theorem heapPush_methods (pq : ScoreHeap β) (x : β) :
    Heap.Push (methods score) pq x =
      Heap.up (sliceMethods score) (Push score pq x) ((Push score pq x).items.length - 1) := by
  show Heap.up (methods score) (Push score pq x) ((Push score pq x).items.length - 1) = _
  rw [(sameOrder_methods score).up]

-- ---------------------------------------------------------------------------
-- Pushing keeps the top scores
-- ---------------------------------------------------------------------------

/-- What a `ScoreHeap` of capacity `K` holds after `xs` were pushed: its capacity, the heap order
by score, and the `min K n` largest scores of the `n` pushed. -/
structure Holds (K : Nat) (xs : List β) (pq : ScoreHeap β) : Prop where
  capacity : pq.capacity = K
  ordered : Heap.HeapOrdered score pq.items
  top : IsTop (min K xs.length) (↑(xs.map score) : Multiset ℚ) (↑(pq.items.map score) : Multiset ℚ)

theorem holds_new (K : Nat) : Holds score K [] (NewScoreHeap K) where
  capacity := rfl
  ordered c _ hc := absurd hc (Nat.not_lt_zero c)
  top := by simpa [NewScoreHeap] using isTop_self (0 : Multiset ℚ)

variable {score}

theorem Holds.up {K : Nat} {xs : List β} {pq : ScoreHeap β} (h : Holds score K xs pq)
    (hne : 0 < pq.items.length) :
    Holds score K xs (Heap.up (sliceMethods score) pq (pq.items.length - 1)) := by
  have hl := sliceMethods_lawful score
  have hj : pq.items.length - 1 < (sliceMethods score).Len pq := by
    show _ < pq.items.length
    omega
  have hperm := Heap.up_perm hl pq _ hj
  refine ⟨Heap.up_preserves (swapKeeps_capacity score K) h.capacity hj,
    Heap.up_heapOrdered hl (sliceMethods_ranks score) h.ordered (by omega), ?_⟩
  rw [Multiset.coe_eq_coe.mpr (hperm.map score)]
  exact h.top

theorem coe_map_append_singleton (xs : List β) (x : β) :
    (↑((xs ++ [x]).map score) : Multiset ℚ) = score x ::ₘ ↑(xs.map score) := by
  rw [List.map_append, List.map_singleton, Multiset.cons_coe]
  exact Multiset.coe_eq_coe.mpr (List.perm_append_singleton _ _)

theorem Holds.push_of_lt {K : Nat} {xs : List β} {pq : ScoreHeap β} (h : Holds score K xs pq)
    (hfree : pq.items.length < pq.capacity) (x : β) :
    Holds score K (xs ++ [x]) (Heap.Push (methods score) pq x) := by
  have hl := sliceMethods_lawful score
  have hlen : pq.items.length = min K xs.length := by
    simpa using h.top.2.1
  have hxs : xs.length < K := by
    rw [h.capacity] at hfree
    omega
  have hpush : Heap.Push (methods score) pq x = Heap.Push (sliceMethods score) pq x := by
    rw [heapPush_methods]
    simp only [Push, if_pos hfree]
    rfl
  -- everything pushed so far is kept
  have htop : (↑(pq.items.map score) : Multiset ℚ) = ↑(xs.map score) :=
    Multiset.eq_of_le_of_card_le h.top.1 (by simp; omega)
  rw [hpush]
  refine ⟨?_, Heap.Push_heapOrdered hl (sliceMethods_ranks score) h.ordered x, ?_⟩
  · exact Heap.up_preserves (swapKeeps_capacity score K) h.capacity (by simp [sliceMethods])
  · rw [Multiset.coe_eq_coe.mpr ((Heap.push_perm hl pq x).map score), List.map_cons,
      ← Multiset.cons_coe, htop, ← coe_map_append_singleton]
    have hk : min K (xs ++ [x]).length = Multiset.card (↑((xs ++ [x]).map score) : Multiset ℚ) := by
      simp
      omega
    rw [hk]
    exact isTop_self _

theorem Holds.pushMethod_of_full {K : Nat} {xs : List β} {pq : ScoreHeap β}
    (h : Holds score K xs pq) (hK : 0 < K) (hfull : ¬ pq.items.length < pq.capacity) (x : β) :
    Holds score K (xs ++ [x]) (Push score pq x) := by
  have hl := sliceMethods_lawful score
  have hlen : pq.items.length = min K xs.length := by
    simpa using h.top.2.1
  have hfull' : pq.items.length = K := by
    rw [h.capacity] at hfull
    omega
  have hk : min K (xs ++ [x]).length = min K xs.length := by simp; omega
  obtain ⟨m, rest, hitems⟩ : ∃ m rest, pq.items = m :: rest :=
    List.exists_cons_of_ne_nil (fun he => by rw [he] at hfull'; simp at hfull'; omega)
  have hroot : pq.items[0]? = some m := by simp [hitems]
  have hm : score m ∈ (↑(pq.items.map score) : Multiset ℚ) := by simp [hitems]
  have hmin : ∀ a ∈ (↑(pq.items.map score) : Multiset ℚ), score m ≤ a := by
    intro a ha
    obtain ⟨y, hy, rfl⟩ := List.mem_map.mp (Multiset.mem_coe.mp ha)
    exact Heap.HeapOrdered.root_le h.ordered hroot y hy
  by_cases hgt : score x > score m
  · have hset : Push score pq x =
        Heap.Fix (sliceMethods score) { pq with items := pq.items.set 0 x } 0 := by
      simp only [Push, if_neg hfull, hroot, if_pos hgt]
    have hi : 0 < (sliceMethods score).Len { pq with items := pq.items.set 0 x } := by
      show 0 < (pq.items.set 0 x).length
      rw [List.length_set]
      omega
    have hhole : Heap.Hole score (pq.items.set 0 x) (pq.items.set 0 x).length 0 := by
      rw [List.length_set]
      exact Heap.HeapBelow.hole_set h.ordered (Nat.le_refl _) x
    rw [hset]
    refine ⟨Heap.Fix_preserves (swapKeeps_capacity score K) h.capacity hi,
      Heap.Fix_heapOrdered hl (sliceMethods_ranks score) hhole hi, ?_⟩
    -- the new item takes the place of the least one
    have hscores : (↑((Heap.Fix (sliceMethods score)
        { pq with items := pq.items.set 0 x } 0).items.map score) : Multiset ℚ) =
        score x ::ₘ (↑(pq.items.map score) : Multiset ℚ).erase (score m) := by
      rw [Multiset.coe_eq_coe.mpr ((Heap.Fix_perm hl _ hi).map score)]
      simp [hitems]
    rw [hscores, coe_map_append_singleton, hk]
    exact h.top.replace hm hmin hgt
  · have hkeep : Push score pq x = pq := by
      simp only [Push, if_neg hfull, hroot, if_neg hgt]
    rw [hkeep]
    refine ⟨h.capacity, h.ordered, ?_⟩
    rw [coe_map_append_singleton, hk]
    exact h.top.skip hmin (not_lt.mp hgt)

theorem Holds.push {K : Nat} {xs : List β} {pq : ScoreHeap β} (h : Holds score K xs pq)
    (hK : 0 < K) (x : β) : Holds score K (xs ++ [x]) (Heap.Push (methods score) pq x) := by
  by_cases hfree : pq.items.length < pq.capacity
  · exact h.push_of_lt hfree x
  · -- at capacity `heap.Push` runs `up` after the method, on a heap that is not empty
    have hmethod := h.pushMethod_of_full hK hfree x
    have hlen : 0 < (Push score pq x).items.length := by
      have := hmethod.top.2.1
      simp at this
      omega
    rw [heapPush_methods]
    exact hmethod.up hlen

theorem holds_foldl {K : Nat} (hK : 0 < K) (xs : List β) :
    Holds score K xs (xs.foldl (Heap.Push (methods score)) (NewScoreHeap K)) := by
  induction xs using List.reverseRecOn with
  | nil => exact holds_new score K
  | append_singleton xs x ih =>
    rw [List.foldl_append, List.foldl_cons, List.foldl_nil]
    exact ih.push hK x

-- ---------------------------------------------------------------------------
-- GetItemsReverse
-- ---------------------------------------------------------------------------

theorem reverseLoop_spec : ∀ (fuel : Nat) (pq : ScoreHeap β) (ret : List (Option β)),
    Heap.HeapOrdered score pq.items → pq.items.length = fuel → fuel ≤ ret.length →
    ∃ out : List β, reverseLoop score fuel pq (fuel - 1) ret = out.reverse.map some ++ ret.drop fuel ∧
      out.Perm pq.items ∧ out.Pairwise (fun a b => score a ≤ score b)
  | 0, pq, ret, _, hlen, _ => by
    refine ⟨[], by simp [reverseLoop], ?_, List.Pairwise.nil⟩
    rw [List.eq_nil_of_length_eq_zero hlen]
  | fuel + 1, pq, ret, hord, hlen, hret => by
    have hl := sliceMethods_lawful score
    obtain ⟨r, hr⟩ : ∃ r, pq.items[0]? = some r :=
      ⟨pq.items[0], List.getElem?_eq_getElem (by omega)⟩
    have hpop : Heap.Pop (methods score) pq = Heap.Pop (sliceMethods score) pq := by
      rw [(sameOrder_methods score).Pop rfl]
    have hroot : (Heap.Pop (sliceMethods score) pq).2 = some r := Heap.pop_root hl pq hr
    have hperm := Heap.pop_of_some hl pq hroot
    have hord' := Heap.Pop_heapOrdered hl (sliceMethods_ranks score) hord
    have hlen' : (Heap.Pop (sliceMethods score) pq).1.items.length = fuel := by
      have := hperm.length_eq
      simp only [List.length_cons] at this
      omega
    obtain ⟨out, hout, hoperm, hosort⟩ :=
      reverseLoop_spec fuel _ (ret.set fuel (some r)) hord' hlen' (by simp; omega)
    refine ⟨r :: out, ?_, (hoperm.cons r).trans hperm, ?_⟩
    · -- the root goes into `ret[fuel]`, in front of what the later pops write
      have hdrop : (ret.set fuel (some r)).drop fuel = some r :: ret.drop (fuel + 1) := by
        rw [List.drop_set, if_neg (Nat.lt_irrefl fuel), Nat.sub_self,
          List.drop_eq_getElem_cons (by omega), List.set_cons_zero]
      simp only [reverseLoop, hlen, Nat.add_sub_cancel]
      rw [if_pos (Nat.succ_pos fuel), hpop, hroot, hout, hdrop]
      simp
    · -- the root is at or before everything popped after it
      refine List.Pairwise.cons (fun y hy => ?_) hosort
      have hy' : y ∈ pq.items := hperm.subset (List.mem_cons_of_mem r (hoperm.subset hy))
      exact Heap.HeapOrdered.root_le hord hr y hy'

/-- For every capacity `K ≥ 1` and every sequence of `heap.Push` calls, `GetItemsReverse` returns
`min K n` items whose scores are the `min K n` largest scores pushed, highest first. -/
theorem getItemsReverse_keeps_top_k (score : β → ℚ) (K : Nat) (hK : 1 ≤ K) (xs : List β) :
    ∃ out : List β,
      GetItemsReverse score (xs.foldl (Heap.Push (methods score)) (NewScoreHeap K)) =
        out.map some ∧
      out.length = min K xs.length ∧
      IsTop (min K xs.length) (↑(xs.map score) : Multiset ℚ) (↑(out.map score) : Multiset ℚ) ∧
      (out.map score).Pairwise (· ≥ ·) := by
  have h : Holds score K xs (xs.foldl (Heap.Push (methods score)) (NewScoreHeap K)) :=
    holds_foldl hK xs
  set pq := xs.foldl (Heap.Push (methods score)) (NewScoreHeap K)
  obtain ⟨out, hout, hperm, hsort⟩ := reverseLoop_spec pq.items.length pq
    (List.replicate pq.items.length none) h.ordered rfl (by simp)
  have hscores : (↑(out.reverse.map score) : Multiset ℚ) = ↑(pq.items.map score) :=
    Multiset.coe_eq_coe.mpr ((List.reverse_perm out).trans hperm |>.map score)
  refine ⟨out.reverse, ?_, ?_, by rw [hscores]; exact h.top, ?_⟩
  · rw [GetItemsReverse, hout, List.drop_replicate, Nat.sub_self, List.replicate_zero,
      List.append_nil]
  · have := h.top.2.1
    simp only [Multiset.coe_card, List.length_map] at this
    rw [List.length_reverse, hperm.length_eq, this]
  · rw [List.map_reverse, List.pairwise_reverse, List.pairwise_map]
    exact hsort

theorem getItemsReverse_keeps_top_two :
    1 ≤ 2 ∧ ∃ out : List ℚ,
      GetItemsReverse id (([1, 3, 2] : List ℚ).foldl (Heap.Push (methods id)) (NewScoreHeap 2)) =
        out.map some ∧
      out.length = min 2 ([1, 3, 2] : List ℚ).length ∧
      IsTop (min 2 ([1, 3, 2] : List ℚ).length) (↑(([1, 3, 2] : List ℚ).map id) : Multiset ℚ)
        (↑(out.map id) : Multiset ℚ) ∧
      (out.map id).Pairwise (· ≥ ·) :=
  ⟨by decide, getItemsReverse_keeps_top_k id 2 (by decide) [1, 3, 2]⟩

end ScoreHeap

end Nomad.Lib
