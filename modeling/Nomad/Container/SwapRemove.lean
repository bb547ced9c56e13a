import Mathlib

/-!
# Dropping entries from a slice by swapping in the last one

Go code that filters a slice in place often runs

    n := len(s)
    for i := 0; i < n; i++ {
        if drop(s[i]) { s[i], s[n-1] = s[n-1], nil; i--; n-- }
    }
    return s[:n]

A dropped entry is overwritten by the last live one, which is then checked in its place. The
model keeps the live part `s[:n]` as the list: the swap is a `set` at `i` followed by
`dropLast`. The result holds exactly the entries that are not dropped, in another order:
`swapRemove_perm` says it is a permutation of the `filter`. `swapRemoveVisit` also folds each
entry into an accumulator as it drops it; the fold runs over the dropped entries in some order
(`swapRemoveVisit_spec`), so only what does not depend on that order can be said of it.
-/

namespace Container

variable {α : Type} (drop : α → Bool)

/-- The loop from index `i`; `fuel` bounds its rounds, each of which lowers `n - i` by one. -/
def swapRemoveLoop : Nat → List α → Nat → List α
  | 0, l, _ => l
  | fuel + 1, l, i =>
    if h : i < l.length then
      if drop l[i] then swapRemoveLoop fuel (l.set i l[l.length - 1]).dropLast i
      else swapRemoveLoop fuel l (i + 1)
    else l

def swapRemove (l : List α) : List α := swapRemoveLoop drop l.length l 0

example : swapRemove (· % 2 == 0) [1, 2, 3, 4, 5, 6, 7] = [1, 7, 3, 5] := by decide

variable {drop}

theorem perm_cons_set_last_dropLast (l : List α) (i : Nat) (hi : i < l.length) :
    l.Perm (l[i] :: (l.set i l[l.length - 1]).dropLast) := by
  obtain ⟨A, x, C, rfl, rfl⟩ : ∃ A x C, l = A ++ x :: C ∧ A.length = i :=
    ⟨l.take i, l[i], l.drop (i + 1), by simp [List.getElem_cons_drop], by simp; omega⟩
  simp only [List.getElem_append_right (Nat.le_refl _), Nat.sub_self, List.getElem_cons_zero]
  -- either `x` is the last entry and is simply cut off, or the last one `z` takes its place
  rcases List.eq_nil_or_concat' C with rfl | ⟨B, z, rfl⟩
  · simp
  · have hz : (A ++ x :: (B ++ [z]))[(A ++ x :: (B ++ [z])).length - 1] = z := by
      simp [List.getElem_append_right]
    rw [hz]
    simp only [List.set_append, Nat.lt_irrefl, if_false, Nat.sub_self, List.set_cons_zero]
    have hdl : (A ++ z :: (B ++ [z])).dropLast = A ++ z :: B := by
      have : A ++ z :: (B ++ [z]) = A ++ z :: B ++ [z] := by simp
      rw [this, List.dropLast_concat]
    rw [hdl]
    calc List.Perm (A ++ x :: (B ++ [z])) (x :: (A ++ (B ++ [z]))) := List.perm_middle
      List.Perm _ (x :: (A ++ z :: B)) := ((List.perm_append_singleton z B).append_left A).cons x

theorem filter_set_last_dropLast (l : List α) (i : Nat) (hi : i < l.length) (hx : drop l[i] = true) :
    List.Perm (((l.set i l[l.length - 1]).dropLast).filter (!drop ·)) (l.filter (!drop ·)) := by
  have := (perm_cons_set_last_dropLast l i hi).filter (!drop ·)
  rw [List.filter_cons_of_neg (by simp [hx])] at this
  exact this.symm

theorem swapRemoveLoop_perm (fuel : Nat) (l : List α) (i : Nat) (hfuel : l.length - i ≤ fuel)
    (hpre : ∀ x ∈ l.take i, drop x = false) :
    List.Perm (swapRemoveLoop drop fuel l i) (l.filter (!drop ·)) := by
  induction fuel generalizing l i with
  | zero =>
    have hl : l.take i = l := List.take_of_length_le (by omega)
    rw [hl] at hpre
    rw [swapRemoveLoop, List.filter_eq_self.2 (by simpa using hpre)]
  | succ fuel ih =>
    unfold swapRemoveLoop
    split
    · rename_i hi
      split
      · rename_i hd
        refine (ih _ i ?_ ?_).trans (filter_set_last_dropLast l i hi hd)
        · simp only [List.length_dropLast, List.length_set]; omega
        · rw [List.dropLast_eq_take, List.take_take, Nat.min_eq_left (by simp; omega),
            List.take_set_of_le (Nat.le_refl _)]
          exact hpre
      · rename_i hk
        refine ih l (i + 1) (by omega) ?_
        rw [List.take_add_one, List.getElem?_eq_getElem hi]
        intro x hx
        rcases List.mem_append.1 hx with hx | hx
        · exact hpre x hx
        · rw [Option.mem_toList, Option.some.injEq] at hx
          simpa [← hx] using hk
    · rename_i hi
      -- `i` reached the end: every live entry has been checked
      have hl : l.take i = l := List.take_of_length_le (by omega)
      rw [hl] at hpre
      rw [List.filter_eq_self.2 (by simpa using hpre)]

theorem swapRemove_perm (l : List α) : List.Perm (swapRemove drop l) (l.filter (!drop ·)) :=
  swapRemoveLoop_perm l.length l 0 (by omega) (by simp)

-- ---------------------------------------------------------------------------
-- The loop with work done on each dropped entry
-- ---------------------------------------------------------------------------

section visit

variable {β : Type} (drop) (visit : β → α → β)

/-- `swapRemoveLoop` that also folds each entry it drops into `acc`, at the moment it drops it. -/
def swapRemoveVisitLoop : Nat → List α → Nat → β → List α × β
  | 0, l, _, acc => (l, acc)
  | fuel + 1, l, i, acc =>
    if h : i < l.length then
      if drop l[i] then swapRemoveVisitLoop fuel (l.set i l[l.length - 1]).dropLast i (visit acc l[i])
      else swapRemoveVisitLoop fuel l (i + 1) acc
    else (l, acc)

def swapRemoveVisit (l : List α) (acc : β) : List α × β :=
  swapRemoveVisitLoop drop visit l.length l 0 acc

variable {drop visit}

theorem swapRemoveVisitLoop_spec (fuel : Nat) (l : List α) (i : Nat) (acc : β)
    (hfuel : l.length - i ≤ fuel) (hpre : ∀ x ∈ l.take i, drop x = false) :
    ∃ D : List α, D.Perm (l.filter drop) ∧
      (swapRemoveVisitLoop drop visit fuel l i acc).1.Perm (l.filter (!drop ·)) ∧
      (swapRemoveVisitLoop drop visit fuel l i acc).2 = D.foldl visit acc := by
  induction fuel generalizing l i acc with
  | zero =>
    have hl : l.take i = l := List.take_of_length_le (by omega)
    rw [hl] at hpre
    refine ⟨[], ?_, ?_, rfl⟩
    · rw [List.filter_eq_nil_iff.2 (by simpa using hpre)]
    · rw [swapRemoveVisitLoop, List.filter_eq_self.2 (by simpa using hpre)]
  | succ fuel ih =>
    unfold swapRemoveVisitLoop
    split
    · rename_i hi
      split
      · rename_i hd
        have hperm := perm_cons_set_last_dropLast l i hi
        obtain ⟨D, hD, hkeep, hacc⟩ := ih ((l.set i l[l.length - 1]).dropLast) i (visit acc l[i])
          (by simp only [List.length_dropLast, List.length_set]; omega)
          (by
            rw [List.dropLast_eq_take, List.take_take, Nat.min_eq_left (by simp; omega),
              List.take_set_of_le (Nat.le_refl _)]
            exact hpre)
        refine ⟨l[i] :: D, ?_, ?_, by rw [hacc, List.foldl_cons]⟩
        · have := hperm.filter drop
          rw [List.filter_cons_of_pos hd] at this
          exact (hD.cons _).trans this.symm
        · have := hperm.filter (!drop ·)
          rw [List.filter_cons_of_neg (by simp [hd])] at this
          exact hkeep.trans this.symm
      · rename_i hk
        refine ih l (i + 1) acc (by omega) ?_
        rw [List.take_add_one, List.getElem?_eq_getElem hi]
        intro x hx
        rcases List.mem_append.1 hx with hx | hx
        · exact hpre x hx
        · rw [Option.mem_toList, Option.some.injEq] at hx
          simpa [← hx] using hk
    · rename_i hi
      -- `i` reached the end: every live entry has been checked
      have hl : l.take i = l := List.take_of_length_le (by omega)
      rw [hl] at hpre
      refine ⟨[], ?_, ?_, rfl⟩
      · rw [List.filter_eq_nil_iff.2 (by simpa using hpre)]
      · rw [List.filter_eq_self.2 (by simpa using hpre)]

theorem swapRemoveVisit_spec (l : List α) (acc : β) :
    ∃ D : List α, D.Perm (l.filter drop) ∧ (swapRemoveVisit drop visit l acc).1.Perm (l.filter (!drop ·)) ∧
      (swapRemoveVisit drop visit l acc).2 = D.foldl visit acc :=
  swapRemoveVisitLoop_spec l.length l 0 acc (by omega) (by simp)

end visit

end Container
