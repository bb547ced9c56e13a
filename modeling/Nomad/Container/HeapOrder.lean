import Mathlib
import Nomad.Container.Heap

/-!
# Heap order under `container/heap`

A slice is a min-heap when every element but the root is at or after its parent `(c - 1) / 2`,
compared by a `rank` into a linear order (`HeapBelow` for the first `n` positions). The sifts
restore that order from a heap with a `Hole`: a position `i` whose own edges may be out of order,
with the parent of `i` at or before the children of `i`. `up` needs the edges below the hole in
order, `down` needs nothing more, and each stops in a heap (`upLoop_heapBelow`,
`downLoop_heapBelow`). `Push`, `Pop`, `Remove` and `Fix` then keep a heap a heap, and its root is
at or before every element (`HeapBelow.root`).

The interface's `Less` must be the strict order of `rank` (`Ranks`). `SameOrder` says that two
interfaces share `Len`, `Less` and `Swap`, so that the sifts agree on them: a heap whose `Push`
method itself calls `heap.Fix` runs that `Fix` on an interface of its other methods.
-/

namespace Container.Heap

section order

variable {α ρ : Type} [LinearOrder ρ] (rank : α → ρ)

/-- Positions `p` and `c` of `l` hold elements in order; a position out of range is in order
with every other. -/
def InOrder (l : List α) (p c : Nat) : Prop :=
  ∀ x y, l[p]? = some x → l[c]? = some y → rank x ≤ rank y

def HeapBelow (l : List α) (n : Nat) : Prop :=
  ∀ c, 0 < c → c < n → InOrder rank l ((c - 1) / 2) c

def HeapOrdered (l : List α) : Prop := HeapBelow rank l l.length

/-- A heap below `n` with a hole at `i`: every parent and child pair off `i` is in order, and
the parent of `i` is at or before the children of `i`. -/
structure Hole (l : List α) (n i : Nat) : Prop where
  except : ∀ c, 0 < c → c < n → c ≠ i → (c - 1) / 2 ≠ i → InOrder rank l ((c - 1) / 2) c
  grand : 0 < i → ∀ c, 0 < c → c < n → (c - 1) / 2 = i → InOrder rank l ((i - 1) / 2) c

variable {rank} {l l' : List α}

theorem inOrder_refl (l : List α) (p : Nat) : InOrder rank l p p := by
  intro x y hx hy
  rw [hx, Option.some.injEq] at hy
  rw [hy]

theorem inOrder_iff {p c : Nat} (hp : p < l.length) (hc : c < l.length) :
    InOrder rank l p c ↔ rank l[p] ≤ rank l[c] := by
  constructor
  · intro h
    exact h _ _ (List.getElem?_eq_getElem hp) (List.getElem?_eq_getElem hc)
  · intro h x y hx hy
    rw [List.getElem?_eq_getElem hp, Option.some.injEq] at hx
    rw [List.getElem?_eq_getElem hc, Option.some.injEq] at hy
    rw [← hx, ← hy]
    exact h

theorem InOrder.of_eq {p c p' c' : Nat} (h : InOrder rank l p' c') (hp : l'[p]? = l[p']?)
    (hc : l'[c]? = l[c']?) : InOrder rank l' p c :=
  fun x y hx hy => h x y (hp ▸ hx) (hc ▸ hy)

theorem InOrder.trans {a b c : Nat} (h1 : InOrder rank l a b) (h2 : InOrder rank l b c)
    (hb : b < l.length) : InOrder rank l a c := by
  intro x z hx hz
  have hy : l[b]? = some l[b] := List.getElem?_eq_getElem hb
  exact le_trans (h1 x _ hx hy) (h2 _ z hy hz)

theorem InOrder.of_not {p c : Nat} (h : ¬ InOrder rank l p c) : InOrder rank l c p := by
  intro x y hx hy
  simp only [InOrder, not_forall, not_le] at h
  obtain ⟨x', y', hx', hy', hlt⟩ := h
  obtain rfl : x = y' := Option.some.inj (hx.symm.trans hy')
  obtain rfl : y = x' := Option.some.inj (hy.symm.trans hx')
  exact hlt.le

theorem HeapBelow.mono {m n : Nat} (hb : HeapBelow rank l n) (hmn : m ≤ n) : HeapBelow rank l m :=
  fun c hc hcm => hb c hc (by omega)

theorem HeapBelow.congr {n : Nat} (hb : HeapBelow rank l n) (h : ∀ k, k < n → l'[k]? = l[k]?) :
    HeapBelow rank l' n :=
  fun c hc hcn => (hb c hc hcn).of_eq (h _ (by omega)) (h c hcn)

theorem HeapBelow.root {n : Nat} (hb : HeapBelow rank l n) (hn : n ≤ l.length) :
    ∀ k, k < n → InOrder rank l 0 k := by
  intro k
  induction k using Nat.strongRecOn with
  | ind k ih =>
    intro hk
    rcases Nat.eq_zero_or_pos k with rfl | hk0
    · exact inOrder_refl l 0
    · exact (ih ((k - 1) / 2) (by omega) (by omega)).trans (hb k hk0 hk) (by omega)

theorem HeapOrdered.root_le {r : α} (hb : HeapOrdered rank l) (hr : l[0]? = some r) :
    ∀ y ∈ l, rank r ≤ rank y := by
  intro y hy
  obtain ⟨k, hk, rfl⟩ := List.getElem_of_mem hy
  exact hb.root (Nat.le_refl _) k hk r _ hr (List.getElem?_eq_getElem hk)

theorem HeapBelow.hole {n : Nat} (hb : HeapBelow rank l n) (hn : n ≤ l.length) (i : Nat) :
    Hole rank l n i where
  except c hc hcn _ _ := hb c hc hcn
  grand hi c hc hcn hci := by
    have hbc := hb c hc hcn
    rw [hci] at hbc
    exact (hb i hi (by omega)).trans hbc (by omega)

theorem HeapBelow.hole_last {n : Nat} (hb : HeapBelow rank l n) : Hole rank l (n + 1) n where
  except c hc hcn hcl _ := hb c hc (by omega)
  grand _ c _ hcn hcl := absurd hcn (by omega)

theorem Hole.congr {n i : Nat} (hh : Hole rank l n i) (h : ∀ k, k < n → k ≠ i → l'[k]? = l[k]?) :
    Hole rank l' n i where
  except c hc hcn hci hpi := (hh.except c hc hcn hci hpi).of_eq (h _ (by omega) hpi) (h c hcn hci)
  grand hi c hc hcn hci :=
    (hh.grand hi c hc hcn hci).of_eq (h _ (by omega) (by omega)) (h c hcn (by omega))

theorem HeapBelow.hole_set {n i : Nat} (hb : HeapBelow rank l n) (hn : n ≤ l.length) (x : α) :
    Hole rank (l.set i x) n i :=
  (hb.hole hn i).congr fun _ _ hki => List.getElem?_set_ne (Ne.symm hki)

theorem Hole.heapBelow {n i : Nat} (hh : Hole rank l n i)
    (habove : 0 < i → i < n → InOrder rank l ((i - 1) / 2) i)
    (hbelow : ∀ c, 0 < c → c < n → (c - 1) / 2 = i → InOrder rank l i c) :
    HeapBelow rank l n := by
  intro c hc hcn
  by_cases hci : c = i
  · subst hci
    exact habove hc hcn
  · by_cases hpi : (c - 1) / 2 = i
    · rw [hpi]
      exact hbelow c hc hcn hpi
    · exact hh.except c hc hcn hci hpi

theorem Hole.up_step {n j : Nat} (hh : Hole rank l n j)
    (hbelow : ∀ c, 0 < c → c < n → (c - 1) / 2 = j → InOrder rank l j c)
    (hj : 0 < j) (hjn : j < n) (hn : n ≤ l.length) (hswap : ¬ InOrder rank l ((j - 1) / 2) j) :
    Hole rank (exchange l ((j - 1) / 2) j) n ((j - 1) / 2) ∧
      ∀ c, 0 < c → c < n → (c - 1) / 2 = (j - 1) / 2 →
        InOrder rank (exchange l ((j - 1) / 2) j) ((j - 1) / 2) c := by
  have hpl : (j - 1) / 2 < l.length := by omega
  have hjl : j < l.length := by omega
  have hatp : (exchange l ((j - 1) / 2) j)[(j - 1) / 2]? = l[j]? := getElem?_exchange_left hpl hjl
  have hatj : (exchange l ((j - 1) / 2) j)[j]? = l[(j - 1) / 2]? := getElem?_exchange_right hpl hjl
  have hoff : ∀ k, k ≠ (j - 1) / 2 → k ≠ j → (exchange l ((j - 1) / 2) j)[k]? = l[k]? :=
    fun k h1 h2 => getElem?_exchange_of_ne l h1 h2
  -- the edge above the parent, and the parent's edges to the siblings of `j`
  have hup : 0 < (j - 1) / 2 → InOrder rank l (((j - 1) / 2 - 1) / 2) ((j - 1) / 2) :=
    fun hp => hh.except _ hp (by omega) (by omega) (by omega)
  have hsib : ∀ c, 0 < c → c < n → (c - 1) / 2 = (j - 1) / 2 → c ≠ j →
      InOrder rank l ((j - 1) / 2) c := by
    intro c hc hcn hcp hcj
    have hc' := hh.except c hc hcn hcj (by omega)
    rwa [hcp] at hc'
  refine ⟨⟨?_, ?_⟩, ?_⟩
  · intro c hc hcn hcp hpp
    by_cases hcj : c = j
    · subst hcj
      exact absurd rfl hpp
    · by_cases hpc : (c - 1) / 2 = j
      · -- a child of `j`: its parent now holds the old parent's element
        rw [hpc]
        exact (hh.grand hj c hc hcn hpc).of_eq hatj (hoff c hcp hcj)
      · exact (hh.except c hc hcn hcj hpc).of_eq (hoff _ hpp hpc) (hoff c hcp hcj)
  · intro hp c hc hcn hcp
    have hgp : ((j - 1) / 2 - 1) / 2 ≠ (j - 1) / 2 := by omega
    have hgj : ((j - 1) / 2 - 1) / 2 ≠ j := by omega
    by_cases hcj : c = j
    · subst hcj
      exact (hup hp).of_eq (hoff _ hgp hgj) hatj
    · exact ((hup hp).trans (hsib c hc hcn hcp hcj) hpl).of_eq (hoff _ hgp hgj)
        (hoff c (by omega) hcj)
  · intro c hc hcn hcp
    by_cases hcj : c = j
    · subst hcj
      exact (InOrder.of_not hswap).of_eq hatp hatj
    · exact ((InOrder.of_not hswap).trans (hsib c hc hcn hcp hcj) hpl).of_eq hatp
        (hoff c (by omega) hcj)

theorem Hole.down_step {n i j : Nat} (hh : Hole rank l n i) (hj : 0 < j) (hji : (j - 1) / 2 = i)
    (hjn : j < n) (hn : n ≤ l.length)
    (hmin : ∀ c, 0 < c → c < n → (c - 1) / 2 = i → InOrder rank l j c)
    (hswap : ¬ InOrder rank l i j) :
    Hole rank (exchange l i j) n j ∧ InOrder rank (exchange l i j) i j := by
  have hil : i < l.length := by omega
  have hjl : j < l.length := by omega
  have hati : (exchange l i j)[i]? = l[j]? := getElem?_exchange_left hil hjl
  have hatj : (exchange l i j)[j]? = l[i]? := getElem?_exchange_right hil hjl
  have hoff : ∀ k, k ≠ i → k ≠ j → (exchange l i j)[k]? = l[k]? :=
    fun k h1 h2 => getElem?_exchange_of_ne l h1 h2
  refine ⟨⟨?_, ?_⟩, (InOrder.of_not hswap).of_eq hati hatj⟩
  · intro c hc hcn hcj hpj
    by_cases hci : c = i
    · -- the old hole now holds `j`'s element, which its parent is before
      subst hci
      exact (hh.grand hc j hj hjn hji).of_eq (hoff _ (by omega) (by omega)) hati
    · by_cases hpi : (c - 1) / 2 = i
      · rw [hpi]
        exact (hmin c hc hcn hpi).of_eq hati (hoff c hci hcj)
      · exact (hh.except c hc hcn hci hpi).of_eq (hoff _ hpi hpj) (hoff c hci hcj)
  · intro _ c hc hcn hcj
    have hci : c ≠ i := by omega
    have hc' := hh.except c hc hcn hci (by omega)
    rw [hcj] at hc'
    rw [hji]
    exact hc'.of_eq hati (hoff c hci (by omega))

end order

-- ---------------------------------------------------------------------------
-- The sifts of an interface whose `Less` compares by a rank
-- ---------------------------------------------------------------------------

section sifts

variable {σ α ρ : Type} [LinearOrder ρ]

def Ranks (h : Interface σ α) (view : σ → List α) (rank : α → ρ) : Prop :=
  ∀ s i j x y, (view s)[i]? = some x → (view s)[j]? = some y →
    (h.Less s i j = true ↔ rank x < rank y)

structure SameOrder (h h' : Interface σ α) : Prop where
  len : h.Len = h'.Len
  less : h.Less = h'.Less
  swap : h.Swap = h'.Swap

theorem SameOrder.upLoop {h h' : Interface σ α} (ho : SameOrder h h') : upLoop h = upLoop h' := by
  funext fuel
  induction fuel with
  | zero => rfl
  | succ fuel ih =>
    funext s j
    simp only [Heap.upLoop, ho.less, ho.swap, ih]

theorem SameOrder.downLoop {h h' : Interface σ α} (ho : SameOrder h h') (n : Nat) :
    downLoop h n = downLoop h' n := by
  funext fuel
  induction fuel with
  | zero => rfl
  | succ fuel ih =>
    funext s i
    simp only [Heap.downLoop, ho.less, ho.swap, ih]

theorem SameOrder.up {h h' : Interface σ α} (ho : SameOrder h h') : up h = up h' := by
  funext s j
  unfold Heap.up
  rw [ho.upLoop]

theorem SameOrder.Fix {h h' : Interface σ α} (ho : SameOrder h h') : Fix h = Fix h' := by
  funext s i
  unfold Heap.Fix Heap.down Heap.up
  rw [ho.upLoop, ho.downLoop, ho.len]

theorem SameOrder.Pop {h h' : Interface σ α} (ho : SameOrder h h') (hp : h.Pop = h'.Pop) :
    Pop h = Pop h' := by
  funext s
  simp only [Heap.Pop, Heap.down, ho.downLoop, ho.len, ho.swap, hp]

variable {h : Interface σ α} {view : σ → List α} {rank : α → ρ}
  (hl : Lawful h view) (hr : Ranks h view rank)

include hr in
theorem Ranks.less_iff {s : σ} {i j : Nat} (hi : i < (view s).length) (hj : j < (view s).length) :
    h.Less s j i = true ↔ ¬ InOrder rank (view s) i j := by
  rw [hr s j i _ _ (List.getElem?_eq_getElem hj) (List.getElem?_eq_getElem hi), inOrder_iff hi hj,
    not_le]

include hr in
theorem Ranks.minChild {s : σ} {i n j : Nat} (hn : n ≤ (view s).length)
    (hj : (if 2 * i + 1 + 1 < n ∧ h.Less s (2 * i + 1 + 1) (2 * i + 1) = true then 2 * i + 1 + 1
      else 2 * i + 1) = j) :
    ∀ c, 0 < c → c < n → (c - 1) / 2 = i → InOrder rank (view s) j c := by
  intro c hc hcn hci
  have hc' : c = 2 * i + 1 ∨ c = 2 * i + 1 + 1 := by omega
  split at hj
  · rename_i hlt
    subst hj
    rcases hc' with rfl | rfl
    · exact InOrder.of_not ((hr.less_iff (by omega) (by omega)).mp hlt.2)
    · exact inOrder_refl _ _
  · rename_i hge
    subst hj
    rcases hc' with rfl | rfl
    · exact inOrder_refl _ _
    · -- the right child is not before the left one
      by_contra hno
      exact hge ⟨hcn, (hr.less_iff (by omega) (by omega)).mpr hno⟩

include hl hr

theorem upLoop_heapBelow {n : Nat} :
    ∀ fuel s j, Hole rank (view s) n j →
      (∀ c, 0 < c → c < n → (c - 1) / 2 = j → InOrder rank (view s) j c) →
      j < n → n ≤ (view s).length → j ≤ fuel → HeapBelow rank (view (upLoop h fuel s j)) n
  | 0, s, j, hh, hb, _, _, hf => hh.heapBelow (fun hj => absurd hj (by omega)) hb
  | fuel + 1, s, j, hh, hb, hjn, hn, hf => by
    have hjl : j < (view s).length := by omega
    have hpl : (j - 1) / 2 < (view s).length := by omega
    simp only [upLoop]
    split
    · -- at the root, or at or after the parent: the hole closes
      rename_i hstop
      refine hh.heapBelow (fun hj _ => ?_) hb
      rcases hstop with heq | hnl
      · omega
      · by_contra hno
        rw [(hr.less_iff hpl hjl).mpr hno] at hnl
        exact absurd hnl (by decide)
    · rename_i hgo
      simp only [not_or, Bool.not_eq_true', Bool.not_eq_false] at hgo
      obtain ⟨hh', hb'⟩ := hh.up_step hb (by omega) hjn hn ((hr.less_iff hpl hjl).mp hgo.2)
      rw [← hl.swap] at hh' hb'
      exact upLoop_heapBelow fuel _ _ hh' hb' (by omega)
        (by rw [hl.swap, length_exchange]; exact hn) (by omega)

theorem downLoop_heapBelow {n : Nat} :
    ∀ fuel s i, Hole rank (view s) n i → n ≤ (view s).length → n ≤ fuel + i →
      (i < (downLoop h n fuel s i).2 ∧ HeapBelow rank (view (downLoop h n fuel s i).1) n) ∨
      (downLoop h n fuel s i = (s, i) ∧
        ∀ c, 0 < c → c < n → (c - 1) / 2 = i → InOrder rank (view s) i c)
  | 0, s, i, _, _, _ => .inr ⟨rfl, fun c _ hcn _ => absurd hcn (by omega)⟩
  | fuel + 1, s, i, hh, hn, hf => by
    simp only [downLoop]
    split
    · -- no child below `n`
      exact .inr ⟨rfl, fun c _ hcn _ => absurd hcn (by omega)⟩
    · rename_i hj1
      generalize hj : (if 2 * i + 1 + 1 < n ∧ h.Less s (2 * i + 1 + 1) (2 * i + 1) = true
        then 2 * i + 1 + 1 else 2 * i + 1) = j
      have hmin := hr.minChild hn hj
      have hjc : (j - 1) / 2 = i ∧ 2 * i + 1 ≤ j ∧ j < n := by
        subst hj
        split <;> omega
      have hil : i < (view s).length := by omega
      have hjl : j < (view s).length := by omega
      split
      · -- the least child is not before `i`: `i` is before both children
        rename_i hnl
        refine .inr ⟨rfl, fun c hc hcn hci => ?_⟩
        have hij : InOrder rank (view s) i j := by
          by_contra hno
          rw [(hr.less_iff hil hjl).mpr hno] at hnl
          exact absurd hnl (by decide)
        exact hij.trans (hmin c hc hcn hci) hjl
      · rename_i hgo
        simp only [Bool.not_eq_true', Bool.not_eq_false] at hgo
        obtain ⟨hh', habove⟩ :=
          hh.down_step (by omega) hjc.1 hjc.2.2 hn hmin ((hr.less_iff hil hjl).mp hgo)
        rw [← hl.swap] at hh' habove
        have hn' : n ≤ (view (h.Swap s i j)).length := by
          rw [hl.swap, length_exchange]
          exact hn
        rcases downLoop_heapBelow fuel _ j hh' hn' (by omega) with ⟨hlt, hb⟩ | ⟨heq, hb⟩
        · exact .inl ⟨by omega, hb⟩
        · refine .inl ⟨by rw [heq]; omega, ?_⟩
          rw [heq]
          exact hh'.heapBelow (fun _ _ => by rw [hjc.1]; exact habove) hb

theorem down_heapBelow {s : σ} {i n : Nat} (hh : Hole rank (view s) n i)
    (habove : 0 < i → i < n → InOrder rank (view s) ((i - 1) / 2) i) (hn : n ≤ (view s).length) :
    HeapBelow rank (view (down h s i n).1) n := by
  rcases downLoop_heapBelow hl hr n s i hh hn (by omega) with ⟨_, hb⟩ | ⟨heq, hb⟩
  · exact hb
  · show HeapBelow rank (view (downLoop h n n s i).1) n
    rw [heq]
    exact hh.heapBelow habove hb

/-- What `Fix` and `Remove` run at a hole: `down`, and `up` when `down` did not move. -/
theorem downUp_heapBelow {s : σ} {i n : Nat} (hh : Hole rank (view s) n i) (hin : i < n)
    (hn : n ≤ (view s).length) :
    HeapBelow rank (view (if (down h s i n).2 then (down h s i n).1 else up h (down h s i n).1 i))
      n := by
  rcases downLoop_heapBelow hl hr n s i hh hn (by omega) with ⟨hlt, hb⟩ | ⟨heq, hb⟩
  · have hmoved : (down h s i n).2 = true := decide_eq_true hlt
    rw [if_pos hmoved]
    exact hb
  · have hdown : down h s i n = (s, false) := by
      simp only [down, heq, Nat.lt_irrefl, decide_false]
    rw [hdown]
    exact upLoop_heapBelow hl hr i s i hh hb hin hn (Nat.le_refl i)

omit hr in
theorem downUp_length {s : σ} {i n : Nat} (hin : i < n) (hn : n ≤ (view s).length) :
    (view (if (down h s i n).2 then (down h s i n).1 else up h (down h s i n).1 i)).length =
      (view s).length := by
  have hd : (view (down h s i n).1).length = (view s).length :=
    (down_perm hl s i n (by rw [hl.len]; exact hn)).length_eq
  split
  · exact hd
  · rw [(up_perm hl _ i (by rw [hl.len, hd]; omega)).length_eq, hd]

omit hr in
theorem popMethod_heapOrdered {t : σ} {n : Nat} (hb : HeapBelow rank (view t) n)
    (hlen : (view t).length = n + 1) : HeapOrdered rank (view (h.Pop t).1) := by
  have hne : view t ≠ [] := by
    intro he
    rw [he, List.length_nil] at hlen
    omega
  have hsplit := (List.dropLast_append_getLast hne).symm
  rw [(hl.pop t _ _ hsplit).1]
  have hln : (view t).dropLast.length = n := by
    rw [List.length_dropLast, hlen, Nat.add_sub_cancel]
  rw [HeapOrdered, hln]
  refine hb.congr fun k hk => ?_
  conv => rhs; rw [hsplit]
  rw [List.getElem?_append_left (by omega)]

theorem Push_heapOrdered {s : σ} (hs : HeapOrdered rank (view s)) (x : α) :
    HeapOrdered rank (view (Push h s x)) := by
  have hv : view (h.Push s x) = view s ++ [x] := hl.push s x
  have hlen : (view (h.Push s x)).length = (view s).length + 1 := by
    rw [hv, List.length_append, List.length_singleton]
  -- the appended element is a hole at the end, with nothing below it
  have hb : HeapBelow rank (view (h.Push s x)) (view s).length :=
    HeapBelow.congr hs fun k hk => by rw [hv, List.getElem?_append_left hk]
  have hj : h.Len (h.Push s x) - 1 = (view s).length := by
    rw [hl.len, hlen, Nat.add_sub_cancel]
  rw [HeapOrdered, (push_perm hl s x).length_eq, List.length_cons]
  show HeapBelow rank (view (upLoop h _ (h.Push s x) (h.Len (h.Push s x) - 1))) _
  rw [hj]
  exact upLoop_heapBelow hl hr _ _ _ hb.hole_last (fun c _ hcn hcl => absurd hcn (by omega))
    (Nat.lt_succ_self _) (Nat.le_of_eq hlen.symm) (Nat.le_refl _)

theorem up_heapOrdered {s : σ} (hs : HeapOrdered rank (view s)) {j : Nat}
    (hj : j < (view s).length) : HeapOrdered rank (view (up h s j)) := by
  rw [HeapOrdered, (up_perm hl s j (by rw [hl.len]; exact hj)).length_eq]
  exact upLoop_heapBelow hl hr j s j (HeapBelow.hole hs (Nat.le_refl _) j)
    (fun c hc hcn hcj => hcj ▸ hs c hc hcn) hj (Nat.le_refl _) (Nat.le_refl j)

theorem Pop_heapOrdered {s : σ} (hs : HeapOrdered rank (view s)) :
    HeapOrdered rank (view (Pop h s).1) := by
  by_cases hs0 : view s = []
  · -- an empty heap stays empty
    have hn : h.Len s - 1 = 0 := by rw [hl.len, hs0]; rfl
    have hpop : Pop h s = h.Pop (h.Swap s 0 0) := by
      show h.Pop (down h (h.Swap s 0 (h.Len s - 1)) 0 (h.Len s - 1)).1 = _
      rw [hn]
      rfl
    have ht : view (h.Swap s 0 0) = [] := by rw [hl.swap, hs0]; rfl
    rw [hpop, HeapOrdered, (hl.pop_nil _ ht).1]
    intro c _ hcn
    exact absurd hcn (Nat.not_lt_zero c)
  · obtain ⟨n, hn⟩ : ∃ n, (view s).length = n + 1 :=
      Nat.exists_eq_succ_of_ne_zero (fun h0 => hs0 (List.eq_nil_of_length_eq_zero h0))
    have hN : h.Len s - 1 = n := by rw [hl.len, hn, Nat.add_sub_cancel]
    have hvt : view (h.Swap s 0 n) = exchange (view s) 0 n := hl.swap s 0 n
    have htl : (view (h.Swap s 0 n)).length = n + 1 := by rw [hvt, length_exchange, hn]
    -- the last element, moved to the root, is a hole in the first `n` positions
    have hh : Hole rank (view (h.Swap s 0 n)) n 0 :=
      (HeapBelow.hole (HeapBelow.mono hs (by omega)) (by omega) 0).congr fun k hk hk0 => by
        rw [hvt, getElem?_exchange_of_ne _ hk0 (by omega)]
    have hb := down_heapBelow hl hr hh (fun h0 => absurd h0 (Nat.lt_irrefl 0)) (by omega)
    have hlen : (view (down h (h.Swap s 0 n) 0 n).1).length = n + 1 := by
      rw [← hl.len, len_down hl _ 0 n (by rw [hl.len]; omega), hl.len, htl]
    show HeapOrdered rank (view (h.Pop (down h (h.Swap s 0 (h.Len s - 1)) 0 (h.Len s - 1)).1).1)
    rw [hN]
    exact popMethod_heapOrdered hl hb hlen

theorem Fix_heapOrdered {s : σ} {i : Nat} (hh : Hole rank (view s) (view s).length i)
    (hi : i < (view s).length) : HeapOrdered rank (view (Fix h s i)) := by
  show HeapOrdered rank (view (if (down h s i (h.Len s)).2 then (down h s i (h.Len s)).1
    else up h (down h s i (h.Len s)).1 i))
  rw [hl.len, HeapOrdered, downUp_length hl hi (Nat.le_refl _)]
  exact downUp_heapBelow hl hr hh hi (Nat.le_refl _)

theorem Remove_heapOrdered {s : σ} (hs : HeapOrdered rank (view s)) {i : Nat}
    (hi : i < (view s).length) : HeapOrdered rank (view (Remove h s i).1) := by
  obtain ⟨n, hn⟩ : ∃ n, (view s).length = n + 1 := ⟨(view s).length - 1, by omega⟩
  have hN : h.Len s - 1 = n := by rw [hl.len, hn, Nat.add_sub_cancel]
  by_cases hni : n = i
  · -- the last element goes
    rw [Remove_of_eq h (hN.trans hni)]
    exact popMethod_heapOrdered hl (HeapBelow.mono hs (by omega)) hn
  · rw [Remove_of_ne h (by rw [hN]; exact hni), hN]
    have hvt : view (h.Swap s i n) = exchange (view s) i n := hl.swap s i n
    have htl : (view (h.Swap s i n)).length = n + 1 := by rw [hvt, length_exchange, hn]
    -- the last element, moved to `i`, is a hole in the first `n` positions
    have hh : Hole rank (view (h.Swap s i n)) n i :=
      (HeapBelow.hole (HeapBelow.mono hs (by omega)) (by omega) i).congr fun k hk hki => by
        rw [hvt, getElem?_exchange_of_ne _ hki (by omega)]
    exact popMethod_heapOrdered hl (downUp_heapBelow hl hr hh (by omega) (by omega))
      (by rw [downUp_length hl (by omega) (by omega), htl])

end sifts

end Container.Heap
