import Mathlib

/-!
# Go's `container/heap`

The algorithms of Go's `container/heap` over any `heap.Interface`: a state with `Len`, `Less`
and `Swap`, and the `Push` and `Pop` methods that append and remove the last element. The
sifts `up` and `down` carry an explicit fuel bound. Go runs them until they stop; each turn
moves the index strictly, down for `up` and up below `n` for `down`, so `j` turns from `j` and
`n` turns below `n` are always enough.

A `Lawful` interface has a list view in which `Swap` exchanges two positions, `Push` appends and
`Pop` removes the last element. Over such an interface `Push`, `Pop`, `Remove` and `Fix` only
permute the contents, and `Pop` returns the element that stood at position 0. A property kept by
`Swap` is kept by every algorithm (`up_preserves` and its siblings): that is how an interface
with bookkeeping of its own inside `Swap` keeps it.
-/

namespace Container.Heap

/-- Exchange two positions of a list, as `p[i], p[j] = p[j], p[i]` does on a slice. -/
def exchange {α : Type} (l : List α) (i j : Nat) : List α :=
  match l[i]?, l[j]? with
  | some a, some b => (l.set i b).set j a
  | _, _ => l

theorem exchange_of_lt {α : Type} {l : List α} {i j : Nat} (hi : i < l.length) (hj : j < l.length) :
    exchange l i j = (l.set i l[j]).set j l[i] := by
  simp [exchange, List.getElem?_eq_getElem hi, List.getElem?_eq_getElem hj]

@[simp] theorem length_exchange {α : Type} (l : List α) (i j : Nat) :
    (exchange l i j).length = l.length := by
  unfold exchange
  split <;> simp

theorem exchange_perm {α : Type} (l : List α) (i j : Nat) : (exchange l i j).Perm l := by
  by_cases hi : i < l.length
  · by_cases hj : j < l.length
    · rw [exchange_of_lt hi hj]
      exact List.set_set_perm hi hj
    · simp [exchange, List.getElem?_eq_none (Nat.le_of_not_lt hj)]
  · simp [exchange, List.getElem?_eq_none (Nat.le_of_not_lt hi)]

theorem getElem?_exchange_of_ne {α : Type} (l : List α) {i j k : Nat} (hi : k ≠ i) (hj : k ≠ j) :
    (exchange l i j)[k]? = l[k]? := by
  unfold exchange
  split <;> simp [Ne.symm hi, Ne.symm hj]

theorem getElem?_exchange_right {α : Type} {l : List α} {i j : Nat} (hi : i < l.length)
    (hj : j < l.length) : (exchange l i j)[j]? = l[i]? := by
  rw [exchange_of_lt hi hj]
  simp [hj, List.getElem?_eq_getElem hi]

theorem getElem?_exchange_left {α : Type} {l : List α} {i j : Nat} (hi : i < l.length)
    (hj : j < l.length) : (exchange l i j)[i]? = l[j]? := by
  rw [exchange_of_lt hi hj]
  by_cases hij : i = j
  · subst hij
    simp
  · simp [hi, Ne.symm hij, List.getElem?_eq_getElem hj]

/-- The methods a value must have to be used with `container/heap`: `sort.Interface` and the
`Push` and `Pop` that add and remove the element at index `Len () - 1`. Go's `Pop` method has no
result on an empty value (it panics); here it answers `none`. -/
structure Interface (σ α : Type) where
  Len : σ → Nat
  Less : σ → Nat → Nat → Bool
  Swap : σ → Nat → Nat → σ
  Push : σ → α → σ
  Pop : σ → σ × Option α

variable {σ α : Type} (h : Interface σ α)

def upLoop : Nat → σ → Nat → σ
  | 0, s, _ => s
  | fuel + 1, s, j =>
    let i := (j - 1) / 2
    if i = j ∨ !h.Less s j i then s else upLoop fuel (h.Swap s i j) i

def up (s : σ) (j : Nat) : σ := upLoop h j s j

def downLoop (n : Nat) : Nat → σ → Nat → σ × Nat
  | 0, s, i => (s, i)
  | fuel + 1, s, i =>
    let j1 := 2 * i + 1
    if n ≤ j1 then (s, i)
    else
      let j := if j1 + 1 < n ∧ h.Less s (j1 + 1) j1 then j1 + 1 else j1
      if !h.Less s j i then (s, i) else downLoop n fuel (h.Swap s i j) j

def down (s : σ) (i0 n : Nat) : σ × Bool :=
  let r := downLoop h n n s i0
  (r.1, decide (i0 < r.2))

def Push (s : σ) (x : α) : σ :=
  let s := h.Push s x
  up h s (h.Len s - 1)

def Pop (s : σ) : σ × Option α :=
  let n := h.Len s - 1
  h.Pop (down h (h.Swap s 0 n) 0 n).1

def Remove (s : σ) (i : Nat) : σ × Option α :=
  let n := h.Len s - 1
  if n ≠ i then
    let r := down h (h.Swap s i n) i n
    h.Pop (if r.2 then r.1 else up h r.1 i)
  else h.Pop s

def Fix (s : σ) (i : Nat) : σ :=
  let r := down h s i (h.Len s)
  if r.2 then r.1 else up h r.1 i

theorem Remove_of_ne {s : σ} {i : Nat} (hne : h.Len s - 1 ≠ i) :
    Remove h s i = h.Pop (let r := down h (h.Swap s i (h.Len s - 1)) i (h.Len s - 1)
      if r.2 then r.1 else up h r.1 i) := by
  simp [Remove, hne]

theorem Remove_of_eq {s : σ} {i : Nat} (he : h.Len s - 1 = i) : Remove h s i = h.Pop s := by
  simp [Remove, he]

-- ---------------------------------------------------------------------------
-- What `Swap` keeps, the sifts keep
-- ---------------------------------------------------------------------------

section Preserves

variable {h} (P : σ → Prop)

/-- `P` survives every `Swap` of two positions in range, and `Swap` keeps the length. -/
structure SwapKeeps : Prop where
  len : ∀ s i j, i < h.Len s → j < h.Len s → h.Len (h.Swap s i j) = h.Len s
  keep : ∀ s i j, P s → i < h.Len s → j < h.Len s → P (h.Swap s i j)

variable {P}

theorem upLoop_preserves (hs : SwapKeeps (h := h) P) :
    ∀ fuel s j, P s → j < h.Len s → P (upLoop h fuel s j) ∧ h.Len (upLoop h fuel s j) = h.Len s
  | 0, s, j, hp, _ => ⟨hp, rfl⟩
  | fuel + 1, s, j, hp, hj => by
    simp only [upLoop]
    split
    · exact ⟨hp, rfl⟩
    · have hi : (j - 1) / 2 < h.Len s := by omega
      obtain ⟨hp', hl'⟩ := upLoop_preserves hs fuel (h.Swap s ((j - 1) / 2) j) ((j - 1) / 2)
        (hs.keep s _ _ hp hi hj) (by rw [hs.len s _ _ hi hj]; exact hi)
      exact ⟨hp', hl'.trans (hs.len s _ _ hi hj)⟩

theorem up_preserves (hs : SwapKeeps (h := h) P) {s : σ} {j : Nat} (hp : P s)
    (hj : j < h.Len s) : P (up h s j) :=
  (upLoop_preserves hs j s j hp hj).1

theorem downLoop_preserves (hs : SwapKeeps (h := h) P) {n : Nat} :
    ∀ fuel s i, P s → n ≤ h.Len s →
      P (downLoop h n fuel s i).1 ∧ h.Len (downLoop h n fuel s i).1 = h.Len s
  | 0, s, i, hp, _ => ⟨hp, rfl⟩
  | fuel + 1, s, i, hp, hn => by
    simp only [downLoop]
    split
    · exact ⟨hp, rfl⟩
    · rename_i hlt
      -- the child `j` is `2i+1` or `2i+2`, both below `n`
      generalize hj : (if 2 * i + 1 + 1 < n ∧ h.Less s (2 * i + 1 + 1) (2 * i + 1) = true
        then 2 * i + 1 + 1 else 2 * i + 1) = j
      have hjn : j < n := by
        subst hj
        split <;> omega
      have hin : i < n := by omega
      split
      · exact ⟨hp, rfl⟩
      · have hsw := hs.len s i j (by omega) (by omega)
        have hn' : n ≤ h.Len (h.Swap s i j) := by rw [hsw]; exact hn
        obtain ⟨hp', hl'⟩ := downLoop_preserves hs fuel (h.Swap s i j) j
          (hs.keep s i j hp (by omega) (by omega)) hn'
        exact ⟨hp', hl'.trans hsw⟩

theorem down_preserves (hs : SwapKeeps (h := h) P) {s : σ} {i0 n : Nat} (hp : P s)
    (hn : n ≤ h.Len s) : P (down h s i0 n).1 ∧ h.Len (down h s i0 n).1 = h.Len s :=
  downLoop_preserves hs n s i0 hp hn

theorem Fix_preserves (hs : SwapKeeps (h := h) P) {s : σ} {i : Nat} (hp : P s)
    (hi : i < h.Len s) : P (Fix h s i) := by
  have hd : P (down h s i (h.Len s)).1 ∧ h.Len (down h s i (h.Len s)).1 = h.Len s :=
    down_preserves hs hp (Nat.le_refl (h.Len s))
  show P (if (down h s i (h.Len s)).2 then (down h s i (h.Len s)).1
    else up h (down h s i (h.Len s)).1 i)
  split
  · exact hd.1
  · exact up_preserves hs hd.1 (by rw [hd.2]; exact hi)

end Preserves

-- ---------------------------------------------------------------------------
-- Lawful interfaces: the list view
-- ---------------------------------------------------------------------------

/-- `view` reads the elements in slice order; `Len`, `Swap`, `Push` and `Pop` act on that list
as the Go methods act on the slice. -/
structure Lawful (view : σ → List α) : Prop where
  len : ∀ s, h.Len s = (view s).length
  swap : ∀ s i j, view (h.Swap s i j) = exchange (view s) i j
  push : ∀ s x, view (h.Push s x) = view s ++ [x]
  pop : ∀ s l x, view s = l ++ [x] → view (h.Pop s).1 = l ∧ (h.Pop s).2 = some x
  pop_nil : ∀ s, view s = [] → view (h.Pop s).1 = [] ∧ (h.Pop s).2 = none

section Lawful

variable {h} {view : σ → List α} (hl : Lawful h view)
include hl

theorem swapKeeps_perm (l : List α) : SwapKeeps (h := h) (fun s => (view s).Perm l) where
  len s i j _ _ := by simp [hl.len, hl.swap]
  keep s i j hp _ _ := by rw [hl.swap]; exact (exchange_perm _ i j).trans hp

theorem up_perm (s : σ) (j : Nat) (hj : j < h.Len s) : (view (up h s j)).Perm (view s) :=
  up_preserves (swapKeeps_perm hl (view s)) (List.Perm.refl _) hj

theorem down_perm (s : σ) (i0 n : Nat) (hn : n ≤ h.Len s) :
    (view (down h s i0 n).1).Perm (view s) :=
  (down_preserves (swapKeeps_perm hl (view s)) (List.Perm.refl _) hn).1

theorem len_down (s : σ) (i0 n : Nat) (hn : n ≤ h.Len s) :
    h.Len (down h s i0 n).1 = h.Len s :=
  (down_preserves (swapKeeps_perm hl (view s)) (List.Perm.refl _) hn).2

theorem downLoop_getElem?_of_le {n k : Nat} (hk : n ≤ k) :
    ∀ fuel s i, (view (downLoop h n fuel s i).1)[k]? = (view s)[k]?
  | 0, s, i => rfl
  | fuel + 1, s, i => by
    simp only [downLoop]
    split
    · rfl
    · generalize hj : (if 2 * i + 1 + 1 < n ∧ h.Less s (2 * i + 1 + 1) (2 * i + 1) = true
        then 2 * i + 1 + 1 else 2 * i + 1) = j
      have hjn : j < n := by
        subst hj
        split <;> omega
      split
      · rfl
      · rw [downLoop_getElem?_of_le hk fuel, hl.swap,
          getElem?_exchange_of_ne _ (by omega) (by omega)]

theorem upLoop_getElem?_of_lt {k : Nat} :
    ∀ fuel s j, j < k → (view (upLoop h fuel s j))[k]? = (view s)[k]?
  | 0, s, j, _ => rfl
  | fuel + 1, s, j, hjk => by
    simp only [upLoop]
    split
    · rfl
    · rw [upLoop_getElem?_of_lt fuel _ _ (by omega), hl.swap,
        getElem?_exchange_of_ne _ (by omega) (by omega)]

theorem push_perm (s : σ) (x : α) : (view (Push h s x)).Perm (x :: view s) := by
  have hlen : h.Len (h.Push s x) - 1 < h.Len (h.Push s x) := by
    simp [hl.len, hl.push]
  exact (up_perm hl _ _ hlen).trans (by rw [hl.push]; exact List.perm_append_singleton x _)

theorem pop_perm (s : σ) (hs : view s ≠ []) :
    ∃ x, (Pop h s).2 = some x ∧ (x :: view (Pop h s).1).Perm (view s) := by
  let n := h.Len s - 1
  have hn : n < h.Len s := by
    have := hl.len s
    have : 0 < (view s).length := List.length_pos_of_ne_nil hs
    simp only [n]
    omega
  let t := (down h (h.Swap s 0 n) 0 n).1
  have hlt : h.Len (h.Swap s 0 n) = h.Len s := (swapKeeps_perm hl (view s)).len s 0 n (by omega) hn
  have hperm : (view t).Perm (view s) :=
    (down_perm hl _ 0 n (by omega)).trans (by rw [hl.swap]; exact exchange_perm _ _ _)
  have hne : view t ≠ [] := fun he =>
    hs (List.eq_nil_of_length_eq_zero (by rw [← hperm.length_eq, he]; rfl))
  obtain ⟨l, x, hlx⟩ : ∃ l x, view t = l ++ [x] :=
    ⟨(view t).dropLast, (view t).getLast hne, (List.dropLast_append_getLast hne).symm⟩
  obtain ⟨hv, hx⟩ := hl.pop t l x hlx
  refine ⟨x, hx, ?_⟩
  rw [show Pop h s = h.Pop t from rfl, hv]
  exact (List.perm_append_singleton x l).symm.trans (hlx ▸ hperm)

theorem pop_of_some (s : σ) {x : α} (hx : (Pop h s).2 = some x) :
    (x :: view (Pop h s).1).Perm (view s) := by
  by_cases hs : view s = []
  · let n := h.Len s - 1
    have hn : n ≤ h.Len (h.Swap s 0 n) := by
      simp [n, hl.len, hl.swap, hs, exchange]
    have ht : view (down h (h.Swap s 0 n) 0 n).1 = [] := by
      have hp := down_perm hl (h.Swap s 0 n) 0 n hn
      rw [hl.swap, hs] at hp
      simpa [exchange] using hp
    rw [show Pop h s = h.Pop (down h (h.Swap s 0 n) 0 n).1 from rfl, (hl.pop_nil _ ht).2] at hx
    cases hx
  · obtain ⟨y, hy, hp⟩ := pop_perm hl s hs
    rw [hx, Option.some.injEq] at hy
    exact hy ▸ hp

theorem pop_root (s : σ) {r : α} (hr : (view s)[0]? = some r) : (Pop h s).2 = some r := by
  let n := h.Len s - 1
  have hpos : 0 < (view s).length := by
    rcases hv : view s with _ | ⟨a, l⟩
    · simp [hv] at hr
    · simp
  have hlen := hl.len s
  have hn : n < h.Len s := by simp only [n]; omega
  let t := (down h (h.Swap s 0 n) 0 n).1
  have hsw : h.Len (h.Swap s 0 n) = h.Len s := (swapKeeps_perm hl (view s)).len s 0 n (by omega) hn
  have hlt : (view t).length = (view s).length := by
    rw [← hl.len, ← hl.len, len_down hl _ 0 n (by omega), hsw]
  have hlast : (view t)[n]? = some r := by
    show (view (downLoop h n n (h.Swap s 0 n) 0).1)[n]? = some r
    rw [downLoop_getElem?_of_le hl (Nat.le_refl n), hl.swap,
      getElem?_exchange_right (by rw [← hl.len]; omega) (by rw [← hl.len]; exact hn), hr]
  have hne : view t ≠ [] := by
    intro he
    rw [he, List.length_nil] at hlt
    omega
  obtain ⟨l, x, hlx⟩ : ∃ l x, view t = l ++ [x] :=
    ⟨(view t).dropLast, (view t).getLast hne, (List.dropLast_append_getLast hne).symm⟩
  have hln : l.length = n := by
    have := congrArg List.length hlx
    simp only [List.length_append, List.length_singleton] at this
    have := hl.len s
    omega
  have hxr : x = r := by
    rw [hlx, List.getElem?_append_right (by omega), hln, Nat.sub_self] at hlast
    simpa using hlast
  rw [show Pop h s = h.Pop t from rfl, (hl.pop t l x hlx).2, hxr]

theorem Fix_perm (s : σ) {i : Nat} (hi : i < h.Len s) : (view (Fix h s i)).Perm (view s) := by
  have hd := down_perm hl s i (h.Len s) (Nat.le_refl _)
  show (view (if (down h s i (h.Len s)).2 then (down h s i (h.Len s)).1
    else up h (down h s i (h.Len s)).1 i)).Perm _
  split
  · exact hd
  · exact (up_perm hl _ i (by rw [len_down hl s i _ (Nat.le_refl _)]; exact hi)).trans hd

end Lawful

-- ---------------------------------------------------------------------------
-- A slice of elements with an order on them
-- ---------------------------------------------------------------------------

def sliceInterface (lt : α → α → Bool) : Interface (List α) α where
  Len l := l.length
  Less l i j :=
    match l[i]?, l[j]? with
    | some a, some b => lt a b
    | _, _ => false
  Swap := exchange
  Push l x := l ++ [x]
  Pop l := (l.dropLast, l.getLast?)

theorem sliceInterface_lawful (lt : α → α → Bool) : Lawful (sliceInterface lt) id where
  len _ := rfl
  swap _ _ _ := rfl
  push _ _ := rfl
  pop s l x hs := by
    simp only [id] at hs
    simp [sliceInterface, hs]
  pop_nil s hs := by
    simp only [id] at hs
    simp [sliceInterface, hs]

end Container.Heap
