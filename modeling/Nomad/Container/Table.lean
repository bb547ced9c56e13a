import Mathlib

/-!
# memdb tables as lists in key order

A go-memdb table read through its `id` index is a list of rows in the order of their keys, at most
one row a key. `insert` is `txn.Insert`: the row replaces the row with its key, or goes in before
the first row with a greater key; `delete` is `txn.Delete` and `lookup` is `txn.First` on the key.
The facts below are what an insert does to lookups, to membership and, up to permutation, to the
rows of the table.
-/

namespace Table

variable {α κ : Type} [DecidableEq κ] (key : α → κ) (lt : κ → κ → Bool)

def place (x : α) : List α → List α
  | [] => [x]
  | y :: ys => if lt (key x) (key y) then x :: y :: ys else y :: place x ys

/-- `txn.Insert`: the row replaces the row with its key, or is placed in key order. -/
def insert (x : α) (l : List α) : List α :=
  if l.any (fun y => key y = key x) then l.map fun y => if key y = key x then x else y
  else place key lt x l

def delete (k : κ) (l : List α) : List α := l.filter fun y => key y ≠ k

/-- `txn.First` on the key. -/
def lookup (k : κ) (l : List α) : Option α := l.find? fun y => key y = k

def Keyed (l : List α) : Prop := (l.map key).Nodup

variable {key lt}

-- ---------------------------------------------------------------------------
-- Lookups
-- ---------------------------------------------------------------------------

@[simp] theorem lookup_nil (k : κ) : lookup key k ([] : List α) = none := rfl

theorem lookup_cons (k : κ) (y : α) (ys : List α) :
    lookup key k (y :: ys) = if key y = k then some y else lookup key k ys := by
  by_cases h : key y = k <;> simp [lookup, h]

omit [DecidableEq κ] in
theorem mem_place {x z : α} {l : List α} : z ∈ place key lt x l ↔ z = x ∨ z ∈ l := by
  induction l with
  | nil => simp [place]
  | cons y ys ih =>
    simp only [place]
    split_ifs
    · exact List.mem_cons
    · rw [List.mem_cons, ih, List.mem_cons, or_left_comm]

omit [DecidableEq κ] in
theorem place_perm (x : α) (l : List α) : (place key lt x l).Perm (x :: l) := by
  induction l with
  | nil => simp [place]
  | cons y ys ih =>
    simp only [place]
    split_ifs
    · rfl
    · exact (ih.cons y).trans (List.Perm.swap x y ys)

theorem lookup_place (x : α) (k : κ) {l : List α} (hl : ∀ y ∈ l, key y ≠ key x) :
    lookup key k (place key lt x l) = if key x = k then some x else lookup key k l := by
  induction l with
  | nil => by_cases h : key x = k <;> simp [place, lookup_cons, h]
  | cons y ys ih =>
    have hy : key y ≠ key x := hl y List.mem_cons_self
    have ih := ih fun z hz => hl z (List.mem_cons_of_mem y hz)
    by_cases hlt : lt (key x) (key y)
    · rw [place, if_pos hlt, lookup_cons]
    · rw [place, if_neg hlt, lookup_cons, ih, lookup_cons]
      by_cases hk : key x = k
      · subst hk
        simp [hy]
      · rw [if_neg hk, if_neg hk]

theorem lookup_map_replace (x : α) (k : κ) (l : List α) (hx : key x = k) :
    lookup key k (l.map fun y => if key y = key x then x else y) =
      if l.any (fun y => key y = key x) then some x else none := by
  induction l with
  | nil => simp
  | cons y ys ih =>
    rw [List.map_cons, lookup_cons, List.any_cons]
    by_cases hy : key y = key x
    · simp [hy, hx]
    · rw [if_neg hy, if_neg fun h => hy (h.trans hx.symm), ih]
      simp [hy]

theorem lookup_map_replace_of_ne (x : α) {k : κ} (hk : key x ≠ k) (l : List α) :
    lookup key k (l.map fun y => if key y = key x then x else y) = lookup key k l := by
  induction l with
  | nil => simp
  | cons y ys ih =>
    rw [List.map_cons, lookup_cons, lookup_cons, ih]
    by_cases hy : key y = key x
    · rw [if_pos hy, if_neg hk, if_neg (hy ▸ hk)]
    · rw [if_neg hy]

@[simp] theorem lookup_insert_self (x : α) (l : List α) :
    lookup key (key x) (insert key lt x l) = some x := by
  unfold insert
  split_ifs with h
  · rw [lookup_map_replace x _ l rfl, if_pos h]
  · have hl : ∀ y ∈ l, key y ≠ key x := by simpa using h
    rw [lookup_place x _ hl, if_pos rfl]

theorem lookup_insert_of_ne {x : α} {k : κ} (h : key x ≠ k) (l : List α) :
    lookup key k (insert key lt x l) = lookup key k l := by
  unfold insert
  split_ifs with hany
  · exact lookup_map_replace_of_ne x h l
  · have hl : ∀ y ∈ l, key y ≠ key x := by simpa using hany
    rw [lookup_place x _ hl, if_neg h]

theorem lookup_insert (x : α) (k : κ) (l : List α) :
    lookup key k (insert key lt x l) = if key x = k then some x else lookup key k l := by
  split_ifs with h
  · exact h ▸ lookup_insert_self x l
  · exact lookup_insert_of_ne h l

theorem lookup_eq_some {k : κ} {l : List α} {a : α} (h : lookup key k l = some a) :
    a ∈ l ∧ key a = k := by
  have := List.find?_some h
  exact ⟨List.mem_of_find?_eq_some h, by simpa using this⟩

theorem lookup_eq_none {k : κ} {l : List α} : lookup key k l = none ↔ ∀ a ∈ l, key a ≠ k := by
  simp [lookup, List.find?_eq_none]

theorem lookup_of_mem {l : List α} (hl : Keyed key l) {a : α} (ha : a ∈ l) :
    lookup key (key a) l = some a := by
  induction l with
  | nil => cases ha
  | cons y ys ih =>
    rw [Keyed, List.map_cons, List.nodup_cons] at hl
    rw [lookup_cons]
    rcases List.mem_cons.mp ha with rfl | ha
    · simp
    · have hne : key y ≠ key a := fun h => hl.1 (h ▸ List.mem_map_of_mem ha)
      rw [if_neg hne, ih hl.2 ha]

@[simp] theorem lookup_delete (k k' : κ) (l : List α) :
    lookup key k (delete key k' l) = if k = k' then none else lookup key k l := by
  induction l with
  | nil => simp [delete]
  | cons y ys ih =>
    by_cases hy : key y = k'
    · have : delete key k' (y :: ys) = delete key k' ys := by simp [delete, hy]
      rw [this, ih]
      by_cases hk : k = k'
      · simp [hk]
      · rw [if_neg hk, if_neg hk, lookup_cons, if_neg fun h : key y = k => hk (h.symm.trans hy)]
    · have : delete key k' (y :: ys) = y :: delete key k' ys := by simp [delete, hy]
      rw [this, lookup_cons, ih, lookup_cons]
      by_cases hk : k = k'
      · subst hk
        simp [hy]
      · simp [hk]

-- ---------------------------------------------------------------------------
-- Rows
-- ---------------------------------------------------------------------------

theorem mem_insert {x z : α} {l : List α} (h : z ∈ insert key lt x l) : z = x ∨ z ∈ l := by
  unfold insert at h
  split_ifs at h
  · obtain ⟨y, hy, rfl⟩ := List.mem_map.mp h
    split_ifs
    · exact .inl rfl
    · exact .inr hy
  · exact mem_place.mp h

omit [DecidableEq κ] in
theorem split_of_mem {l : List α} (hl : Keyed key l) {y : α} (hy : y ∈ l) :
    ∃ l₁ l₂, l = l₁ ++ y :: l₂ ∧ ∀ z ∈ l₁ ++ l₂, key z ≠ key y := by
  obtain ⟨l₁, l₂, rfl⟩ := List.append_of_mem hy
  refine ⟨l₁, l₂, rfl, fun z hz hzy => ?_⟩
  have hnd : (l₁.map key ++ key y :: l₂.map key).Nodup := by
    simpa [Keyed] using hl
  have hmem : key y ∈ l₁.map key ++ l₂.map key := by
    rw [← hzy, ← List.map_append]
    exact List.mem_map_of_mem hz
  exact (List.nodup_cons.mp (List.nodup_middle.mp hnd)).1 hmem

theorem insert_perm {l : List α} (hl : Keyed key l) (x : α) :
    (insert key lt x l).Perm (x :: delete key (key x) l) := by
  unfold insert
  split_ifs with hany
  · -- the row `y` with `x`'s key is the only one the map and the delete change
    obtain ⟨y, hy, hyx⟩ := List.any_eq_true.mp hany
    have hyx : key y = key x := of_decide_eq_true hyx
    obtain ⟨l₁, l₂, rfl, hne⟩ := split_of_mem hl hy
    have hid : ∀ l' : List α, (∀ z ∈ l', key z ≠ key y) →
        l'.map (fun z => if key z = key x then x else z) = l' ∧ delete key (key x) l' = l' := by
      intro l' h'
      refine ⟨?_, List.filter_eq_self.mpr fun z hz => ?_⟩
      · exact (List.map_congr_left fun z hz => if_neg (hyx ▸ h' z hz)).trans (List.map_id l')
      · simpa [hyx] using h' z hz
    have h₁ := hid l₁ fun z hz => hne z (List.mem_append_left l₂ hz)
    have h₂ := hid l₂ fun z hz => hne z (List.mem_append_right l₁ hz)
    have hd : delete key (key x) (l₁ ++ y :: l₂) = l₁ ++ l₂ := by
      simp only [delete, List.filter_append, List.filter_cons, hyx, ne_eq, not_true_eq_false,
        decide_false, Bool.false_eq_true, if_false]
      exact congrArg₂ (· ++ ·) h₁.2 h₂.2
    rw [List.map_append, List.map_cons, if_pos hyx, h₁.1, h₂.1, hd]
    exact List.perm_middle
  · have hd : delete key (key x) l = l :=
      List.filter_eq_self.mpr fun z hz => by simpa using (by simpa using hany : ∀ y ∈ l, ¬ key y = key x) z hz
    rw [hd]
    exact place_perm x l

theorem keyed_insert {l : List α} (hl : Keyed key l) (x : α) : Keyed key (insert key lt x l) := by
  have hp : ((insert key lt x l).map key).Perm ((x :: delete key (key x) l).map key) :=
    (insert_perm hl x).map key
  refine hp.nodup_iff.mpr ?_
  rw [List.map_cons, List.nodup_cons]
  refine ⟨fun h => ?_, (List.filter_sublist.map key).nodup hl⟩
  obtain ⟨a, ha, hka⟩ := List.mem_map.mp h
  simp [delete] at ha
  exact ha.2 hka

end Table
