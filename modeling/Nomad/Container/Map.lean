import Mathlib

/-!
# Go maps as association lists

A Go `map[K]V` is an `AList` with one value per key. Its iteration order is unspecified: a loop
whose result depends on it takes a `RangeOrder`, any permutation of the entries, as a parameter,
and a loop that only counts or collects ranges over `entries`. `vals` reads a map's values and
`flat` a map of slices as one list. Inserting, erasing and looking up change both by exactly the
entry involved, up to permutation.
-/

namespace Container

/-- `map[κ]ν`. -/
abbrev Map (κ ν : Type) := AList (fun _ : κ => ν)

namespace Map

variable {κ ν : Type} [DecidableEq κ]

/-- Equality of maps decided on their entries, so that the kernel can evaluate it on a record
that holds a map. -/
instance decEq [DecidableEq ν] : DecidableEq (Map κ ν) :=
  fun a b => decidable_of_iff (a.entries = b.entries) AList.ext_iff.symm

instance [Repr κ] [Repr ν] : Repr (Map κ ν) :=
  ⟨fun m n => reprPrec (m.entries.map fun e => (e.1, e.2)) n⟩

def vals (m : Map κ ν) : List ν := m.entries.map (·.2)

def flat (m : Map κ (List ν)) : List ν := m.entries.flatMap (·.2)

/-- An order in which `for k, v := range m` may visit a map: any permutation of its entries. A
loop whose result depends on the order takes one as a parameter. -/
structure RangeOrder (κ ν : Type) where
  visit : Map κ ν → List (Σ _ : κ, ν)
  perm : ∀ m, (visit m).Perm m.entries

/-- The order the entries are stored in. -/
def RangeOrder.stored : RangeOrder κ ν := ⟨AList.entries, fun _ => List.Perm.refl _⟩

namespace RangeOrder

omit [DecidableEq κ]
variable (o : RangeOrder κ ν) (m : Map κ ν)

@[simp] theorem stored_visit : (stored : RangeOrder κ ν).visit m = m.entries := rfl

theorem mem_visit {e : Σ _ : κ, ν} : e ∈ o.visit m ↔ e ∈ m.entries := (o.perm m).mem_iff

theorem nodupKeys_visit : (o.visit m).NodupKeys :=
  (List.perm_nodupKeys (o.perm m)).mpr m.nodupKeys

theorem countP_visit (p : (Σ _ : κ, ν) → Bool) : (o.visit m).countP p = m.entries.countP p :=
  (o.perm m).countP_eq p

end RangeOrder

def mapWithKey {ν' : Type} (f : κ → ν → ν') (m : Map κ ν) : Map κ ν' :=
  ⟨m.entries.map fun e => ⟨e.1, f e.1 e.2⟩, by
    simpa [List.NodupKeys, List.keys, Function.comp_def] using m.nodupKeys⟩

def filter (p : κ → ν → Bool) (m : Map κ ν) : Map κ ν :=
  ⟨m.entries.filter fun e => p e.1 e.2, m.nodupKeys.sublist List.filter_sublist⟩

omit [DecidableEq κ] in
@[simp] theorem entries_filter (p : κ → ν → Bool) (m : Map κ ν) :
    (m.filter p).entries = m.entries.filter fun e => p e.1 e.2 := rfl

theorem lookup_filter_eq_some {p : κ → ν → Bool} {m : Map κ ν} {k : κ} {v : ν} :
    (m.filter p).lookup k = some v ↔ m.lookup k = some v ∧ p k v = true := by
  rw [← Option.mem_def, AList.mem_lookup_iff, ← Option.mem_def, AList.mem_lookup_iff, entries_filter,
    List.mem_filter]

omit [DecidableEq κ] in
@[simp] theorem entries_mapWithKey {ν' : Type} (f : κ → ν → ν') (m : Map κ ν) :
    (m.mapWithKey f).entries = m.entries.map fun e => ⟨e.1, f e.1 e.2⟩ := rfl

@[simp] theorem lookup_mapWithKey {ν' : Type} (f : κ → ν → ν') (m : Map κ ν) (k : κ) :
    (m.mapWithKey f).lookup k = (m.lookup k).map (f k) := by
  cases h : m.lookup k with
  | none =>
    rw [AList.lookup_eq_none] at h
    have hk : (m.mapWithKey f).keys = m.keys := by
      simp [AList.keys, List.keys, mapWithKey, Function.comp_def]
    rw [Option.map_none, AList.lookup_eq_none, AList.mem_keys, hk, ← AList.mem_keys]
    exact h
  | some v =>
    refine AList.mem_lookup_iff.mpr ?_
    simp only [entries_mapWithKey, List.mem_map]
    exact ⟨⟨k, v⟩, AList.mem_lookup_iff.mp h, rfl⟩

theorem vals_insert (m : Map κ ν) (k : κ) (v : ν) : vals (m.insert k v) = v :: vals (m.erase k) := by
  simp [vals, AList.entries_insert, AList.erase]

theorem flat_insert (m : Map κ (List ν)) (k : κ) (v : List ν) :
    flat (m.insert k v) = v ++ flat (m.erase k) := by
  simp [flat, AList.entries_insert, AList.erase]

theorem erase_of_notMem {m : Map κ ν} {k : κ} (h : k ∉ m) : m.erase k = m :=
  AList.ext (List.kerase_of_notMem_keys h)

theorem exists_lookup_of_mem {m : Map κ ν} {k : κ} (h : k ∈ m) : ∃ v, m.lookup k = some v :=
  Option.isSome_iff_exists.mp (AList.lookup_isSome.mpr h)

theorem lookup_erase_eq_some {m : Map κ ν} {k k' : κ} {v : ν} (h : (m.erase k').lookup k = some v) :
    k ≠ k' ∧ m.lookup k = some v := by
  by_cases hk : k = k'
  · subst hk
    rw [AList.lookup_erase] at h
    cases h
  · exact ⟨hk, by rwa [AList.lookup_erase_ne hk] at h⟩

theorem lookup_insert_eq_some {m : Map κ ν} {k k' : κ} {v v' : ν} :
    (m.insert k' v').lookup k = some v ↔ (k = k' ∧ v' = v) ∨ (k ≠ k' ∧ m.lookup k = some v) := by
  by_cases hk : k = k'
  · subst hk
    simp [AList.lookup_insert]
  · simp [AList.lookup_insert_ne hk, hk]

theorem entries_split {m : Map κ ν} {k : κ} {v : ν} (h : m.lookup k = some v) :
    ∃ l₁ l₂, m.entries = l₁ ++ ⟨k, v⟩ :: l₂ ∧ (m.erase k).entries = l₁ ++ l₂ := by
  have hk : k ∈ m.entries.keys := AList.mem_keys.mp (AList.lookup_isSome.mp (by rw [h]; rfl))
  obtain ⟨b, l₁, l₂, -, hl, he⟩ := List.exists_of_kerase hk
  have hb : b = v := by
    have hmem : (⟨k, b⟩ : Sigma fun _ : κ => ν) ∈ m.entries := by rw [hl]; simp
    exact Option.some.inj ((AList.mem_lookup_iff.mpr hmem).symm.trans h)
  exact ⟨l₁, l₂, hb ▸ hl, he⟩

omit [DecidableEq κ] in
theorem key_ne_of_split {m : Map κ ν} {l₁ l₂ : List (Σ _ : κ, ν)} {k : κ} {v : ν}
    (h : m.entries = l₁ ++ ⟨k, v⟩ :: l₂) {e : Σ _ : κ, ν} (he : e ∈ l₁ ++ l₂) : e.1 ≠ k := by
  have hnd : (l₁.keys ++ k :: l₂.keys).Nodup := by
    have := m.nodupKeys
    rwa [List.NodupKeys, h, List.keys_append, List.keys_cons] at this
  rintro rfl
  have hmem : e.1 ∈ l₁.keys ++ l₂.keys := by
    rw [← List.keys_append]
    exact List.mem_keys_of_mem he
  exact (List.nodup_cons.mp (List.nodup_middle.mp hnd)).1 hmem

theorem vals_erase_perm {m : Map κ ν} {k : κ} {v : ν} (h : m.lookup k = some v) :
    (v :: vals (m.erase k)).Perm (vals m) := by
  obtain ⟨l₁, l₂, hl, he⟩ := entries_split h
  simp only [vals, hl, he, List.map_append, List.map_cons]
  exact List.perm_middle.symm

theorem flat_erase_perm {m : Map κ (List ν)} {k : κ} {l : List ν} (h : m.lookup k = some l) :
    (l ++ flat (m.erase k)).Perm (flat m) := by
  obtain ⟨l₁, l₂, hl, he⟩ := entries_split h
  simp only [flat, hl, he, List.flatMap_append, List.flatMap_cons]
  exact List.perm_append_comm_assoc _ _ _

-- ---------------------------------------------------------------------------
-- The same facts as multiset equations, which compose without reordering
-- ---------------------------------------------------------------------------

theorem countP_vals_insert (p : ν → Bool) (m : Map κ ν) (k : κ) (v : ν) :
    (vals (m.insert k v)).countP p + ((m.lookup k).map fun o => if p o then 1 else 0).getD 0 =
      (vals m).countP p + if p v then 1 else 0 := by
  rw [vals_insert, List.countP_cons]
  cases h : m.lookup k with
  | none =>
    rw [erase_of_notMem (AList.lookup_eq_none.mp h)]
    simp
  | some o =>
    have hp := (vals_erase_perm h).countP_eq p
    rw [List.countP_cons] at hp
    simp only [Option.map_some, Option.getD_some]
    omega

theorem coe_vals_insert {m : Map κ ν} {k : κ} (h : k ∉ m) (v : ν) :
    (vals (m.insert k v) : Multiset ν) = v ::ₘ vals m := by
  rw [vals_insert, erase_of_notMem h, Multiset.cons_coe]

theorem coe_vals_erase {m : Map κ ν} {k : κ} {v : ν} (h : m.lookup k = some v) :
    v ::ₘ (vals (m.erase k) : Multiset ν) = vals m :=
  Multiset.coe_eq_coe.mpr (vals_erase_perm h)

theorem coe_flat_erase {m : Map κ (List ν)} {k : κ} {l : List ν} (h : m.lookup k = some l) :
    (l : Multiset ν) + flat (m.erase k) = flat m := by
  rw [Multiset.coe_add]
  exact Multiset.coe_eq_coe.mpr (flat_erase_perm h)

theorem coe_flat_insert {m : Map κ (List ν)} {k : κ} {l xs : List ν}
    (h : l.Perm (xs ++ (m.lookup k).getD [])) :
    (flat (m.insert k l) : Multiset ν) = xs + flat m := by
  rw [flat_insert, ← Multiset.coe_add, Multiset.coe_eq_coe.mpr h, ← Multiset.coe_add]
  cases hk : m.lookup k with
  | none =>
    rw [erase_of_notMem (AList.lookup_eq_none.mp hk)]
    simp
  | some l0 =>
    rw [add_assoc, Option.getD_some, coe_flat_erase hk]

theorem coe_flat_insert_of_lookup {m : Map κ (List ν)} {k : κ} {l l0 xs : List ν}
    (hk : m.lookup k = some l0) (h : (xs ++ l).Perm l0) :
    (xs : Multiset ν) + flat (m.insert k l) = flat m := by
  rw [flat_insert, ← Multiset.coe_add, ← add_assoc, Multiset.coe_add, Multiset.coe_eq_coe.mpr h,
    coe_flat_erase hk]

theorem coe_keys_insert_of_notMem {m : Map κ ν} {k : κ} (h : k ∉ m) (v : ν) :
    ((m.insert k v).keys : Multiset κ) = k ::ₘ m.keys := by
  rw [AList.keys_insert, List.erase_of_not_mem (fun hm => h (AList.mem_keys.mp hm)),
    Multiset.cons_coe]

theorem coe_keys_insert_of_mem {m : Map κ ν} {k : κ} (h : k ∈ m) (v : ν) :
    ((m.insert k v).keys : Multiset κ) = m.keys := by
  rw [AList.keys_insert, ← Multiset.cons_coe, ← Multiset.coe_erase]
  exact Multiset.cons_erase (Multiset.mem_coe.mpr (AList.mem_keys.mpr h))

theorem coe_keys_erase {m : Map κ ν} {k : κ} (h : k ∈ m) :
    k ::ₘ ((m.erase k).keys : Multiset κ) = m.keys := by
  rw [AList.keys_erase, ← Multiset.coe_erase]
  exact Multiset.cons_erase (Multiset.mem_coe.mpr (AList.mem_keys.mpr h))

theorem mem_vals {m : Map κ ν} {x : ν} : x ∈ vals m ↔ ∃ k, m.lookup k = some x := by
  simp only [vals, List.mem_map]
  constructor
  · rintro ⟨⟨k, v⟩, hm, rfl⟩
    exact ⟨k, AList.mem_lookup_iff.mpr hm⟩
  · rintro ⟨k, hk⟩
    exact ⟨⟨k, x⟩, AList.mem_lookup_iff.mp hk, rfl⟩

theorem mem_vals_insert {m : Map κ ν} {k : κ} {v x : ν} (h : x ∈ vals (m.insert k v)) :
    x = v ∨ x ∈ vals m := by
  obtain ⟨k', hk'⟩ := mem_vals.mp h
  rcases lookup_insert_eq_some.mp hk' with ⟨-, rfl⟩ | ⟨-, hm⟩
  · exact .inl rfl
  · exact .inr (mem_vals.mpr ⟨k', hm⟩)

theorem mem_flat {m : Map κ (List ν)} {x : ν} :
    x ∈ flat m ↔ ∃ k l, m.lookup k = some l ∧ x ∈ l := by
  simp only [flat, List.mem_flatMap]
  constructor
  · rintro ⟨⟨k, l⟩, hm, hx⟩
    exact ⟨k, l, AList.mem_lookup_iff.mpr hm, hx⟩
  · rintro ⟨k, l, hk, hx⟩
    exact ⟨⟨k, l⟩, AList.mem_lookup_iff.mp hk, hx⟩

-- ---------------------------------------------------------------------------
-- A map of slices that groups a list by key
-- ---------------------------------------------------------------------------

section GroupsBy

variable {α : Type} {f : α → κ} {l : List α} {m : Map κ (List α)}

/-- `m` holds under each key `k` the elements of `l` with key `k`, in their order; a key that has
none may be absent. -/
def GroupsBy (f : α → κ) (l : List α) (m : Map κ (List α)) : Prop :=
  ∀ k, (m.lookup k).getD [] = l.filter (f · = k)

theorem groupsBy_empty (f : α → κ) : GroupsBy f [] ∅ := fun _ => rfl

theorem perm_flatMap_filter_eq (m : Map κ ν) (L : List α) (f : α → κ) (h : ∀ x ∈ L, f x ∈ m) :
    (m.entries.flatMap fun e => L.filter (f · = e.1)).Perm L := by
  induction L with
  | nil => simp
  | cons x L ih =>
    obtain ⟨v, hv⟩ := exists_lookup_of_mem (h x List.mem_cons_self)
    obtain ⟨l₁, l₂, hl, -⟩ := entries_split hv
    -- `x` joins the block of its own key; the other entries have other keys
    have hother : ∀ e ∈ l₁ ++ l₂,
        (x :: L).filter (f · = e.1) = L.filter (f · = e.1) := by
      intro e he
      have hne : f x ≠ e.1 := (key_ne_of_split hl he).symm
      simp [hne]
    have hL := ih fun y hy => h y (List.mem_cons_of_mem x hy)
    rw [hl, List.flatMap_append, List.flatMap_cons] at hL ⊢
    rw [List.flatMap_congr fun e he => hother e (List.mem_append_left _ he),
      List.flatMap_congr fun e he => hother e (List.mem_append_right _ he)]
    have hx : (x :: L).filter (f · = (⟨f x, v⟩ : Σ _ : κ, ν).1) = x :: L.filter (f · = f x) := by
      simp
    rw [hx]
    refine List.perm_middle.trans (List.Perm.cons x ?_)
    simpa [List.append_assoc] using hL

namespace GroupsBy

theorem mem (h : GroupsBy f l m) {x : α} (hx : x ∈ l) : f x ∈ m := by
  have hne : (m.lookup (f x)).getD [] ≠ [] := by
    rw [h (f x)]
    exact List.ne_nil_of_mem (List.mem_filter.2 ⟨hx, by simp⟩)
  cases hk : m.lookup (f x) with
  | none => simp [hk] at hne
  | some v => exact AList.lookup_isSome.1 (by simp [hk])

theorem snoc (h : GroupsBy f l m) (x : α) :
    GroupsBy f (l ++ [x]) (m.insert (f x) ((m.lookup (f x)).getD [] ++ [x])) := by
  intro k
  by_cases hk : k = f x
  · subst hk
    simp [AList.lookup_insert, h (f x), List.filter_append]
  · simp [AList.lookup_insert_ne hk, h k, List.filter_append, Ne.symm hk]

/-- The loop `for x := range xs { m[f(x)] = append(m[f(x)], x) }` extends the grouping. -/
theorem foldl_snoc (h : GroupsBy f l m) (xs : List α) :
    GroupsBy f (l ++ xs) (xs.foldl (fun m x => m.insert (f x) ((m.lookup (f x)).getD [] ++ [x])) m) := by
  induction xs generalizing l m with
  | nil => simpa using h
  | cons x xs ih =>
    rw [List.foldl_cons, ← List.singleton_append, ← List.append_assoc]
    exact ih (h.snoc x)

theorem insert_nil (h : GroupsBy f l m) {k : κ} (hk : k ∉ m) : GroupsBy f l (m.insert k []) := by
  intro k'
  by_cases hk' : k' = k
  · subst hk'
    rw [AList.lookup_insert, Option.getD_some, ← h k', AList.lookup_eq_none.mpr hk, Option.getD_none]
  · rw [AList.lookup_insert_ne hk', h k']

theorem lookup (h : GroupsBy f l m) {k : κ} {v : List α} (hk : m.lookup k = some v) :
    v = l.filter (f · = k) := by
  rw [← h k, hk, Option.getD_some]

theorem entry (h : GroupsBy f l m) {e : Σ _ : κ, List α} (he : e ∈ m.entries) :
    e.2 = l.filter (f · = e.1) :=
  h.lookup (AList.mem_lookup_iff.mpr he)

theorem foldl_insert_nil (h : GroupsBy f l m) (ks : List κ) :
    GroupsBy f l (ks.foldl (fun m k => if k ∈ m then m else m.insert k []) m) ∧
      ∀ k, k ∈ ks ∨ k ∈ m → k ∈ ks.foldl (fun m k => if k ∈ m then m else m.insert k []) m := by
  induction ks generalizing m with
  | nil => exact ⟨h, fun k hk => hk.resolve_left List.not_mem_nil⟩
  | cons k ks ih =>
    -- the step for `k` keeps the grouping and makes `k` present
    have hstep : GroupsBy f l (if k ∈ m then m else m.insert k []) ∧
        ∀ k', k' = k ∨ k' ∈ m → k' ∈ (if k ∈ m then m else m.insert k []) := by
      by_cases hk : k ∈ m
      · simp only [hk, ↓reduceIte]
        exact ⟨h, fun k' hk' => hk'.elim (fun e => e ▸ hk) id⟩
      · simp only [hk, ↓reduceIte, AList.mem_insert]
        exact ⟨h.insert_nil hk, fun k' hk' => hk'⟩
    obtain ⟨hg, hmem⟩ := ih hstep.1
    refine ⟨hg, fun k' hk' => hmem k' ?_⟩
    rcases hk' with hk' | hk'
    · rcases List.mem_cons.mp hk' with rfl | hk'
      · exact .inr (hstep.2 _ (.inl rfl))
      · exact .inl hk'
    · exact .inr (hstep.2 _ (.inr hk'))

theorem flatMap_filter_perm (h : GroupsBy f l m) (p : α → Bool) :
    (m.entries.flatMap fun e => e.2.filter p).Perm (l.filter p) := by
  have hgroup : ∀ e ∈ m.entries, e.2.filter p = (l.filter p).filter (f · = e.1) := by
    intro e he
    rw [h.entry he, List.filter_comm]
  rw [List.flatMap_congr hgroup]
  exact perm_flatMap_filter_eq m (l.filter p) f fun x hx => h.mem (List.mem_of_mem_filter hx)

end GroupsBy

end GroupsBy

-- ---------------------------------------------------------------------------
-- Counters
-- ---------------------------------------------------------------------------

/-- `m[k] += n` on a map of counters, where a missing key counts 0. -/
def add (m : Map κ Nat) (k : κ) (n : Nat) : Map κ Nat := m.insert k ((m.lookup k).getD 0 + n)

@[simp] theorem lookup_add_self (m : Map κ Nat) (k : κ) (n : Nat) :
    (m.add k n).lookup k = some ((m.lookup k).getD 0 + n) := by
  simp [add]

@[simp] theorem lookup_add_ne (m : Map κ Nat) {k k' : κ} (h : k' ≠ k) (n : Nat) :
    (m.add k n).lookup k' = m.lookup k' := by
  simp [add, AList.lookup_insert_ne h]

/-- The loop `for x := range l { if k, ok := f(x); ok { m[k]++ } }`. -/
def countBy {α : Type} (f : α → Option κ) (l : List α) (m : Map κ Nat) : Map κ Nat :=
  l.foldl (fun m x => match f x with
    | some k => m.add k 1
    | none => m) m

theorem getD_countBy {α : Type} (f : α → Option κ) (l : List α) (m : Map κ Nat) (k : κ) :
    ((countBy f l m).lookup k).getD 0 = (m.lookup k).getD 0 + l.countP (f · = some k) := by
  induction l generalizing m with
  | nil => simp [countBy]
  | cons x l ih =>
    rw [countBy, List.foldl_cons, ← countBy, ih, List.countP_cons]
    cases hx : f x with
    | none => simp
    | some k' =>
      by_cases hk : k = k'
      · subst hk
        simp only [lookup_add_self, Option.getD_some, decide_true, if_true]
        omega
      · simp [lookup_add_ne _ hk, Ne.symm hk]

@[simp] theorem mem_add (m : Map κ Nat) {k k' : κ} (n : Nat) : k' ∈ m.add k n ↔ k' = k ∨ k' ∈ m := by
  simp [add]

theorem mem_countBy {α : Type} (f : α → Option κ) (l : List α) (m : Map κ Nat) (k : κ) :
    k ∈ countBy f l m ↔ k ∈ m ∨ 0 < l.countP (f · = some k) := by
  induction l generalizing m with
  | nil => simp [countBy]
  | cons x l ih =>
    rw [countBy, List.foldl_cons, ← countBy, ih, List.countP_cons]
    cases hx : f x with
    | none => simp
    | some k' =>
      by_cases hk : k = k'
      · subst hk
        simp
      · simp [hk, Ne.symm hk]

theorem mem_countBy_empty {α : Type} (f : α → Option κ) (l : List α) (k : κ) :
    k ∈ countBy f l ∅ ↔ 0 < ((countBy f l ∅).lookup k).getD 0 := by
  rw [mem_countBy, getD_countBy]
  simp

theorem lookup_foldl_insert {α : Type} (k : α → κ) (v : α → ν) (l : List α) (m : Map κ ν)
    {key : κ} {y : ν} (h : (l.foldl (fun m x => m.insert (k x) (v x)) m).lookup key = some y) :
    m.lookup key = some y ∨ ∃ x ∈ l, k x = key ∧ v x = y := by
  induction l generalizing m with
  | nil => exact .inl h
  | cons x l ih =>
    rcases ih _ h with h | ⟨x', hx', hk, hv⟩
    · by_cases hkey : key = k x
      · subst hkey
        rw [AList.lookup_insert, Option.some.injEq] at h
        exact .inr ⟨x, List.mem_cons_self, rfl, h⟩
      · rw [AList.lookup_insert_ne hkey] at h
        exact .inl h
    · exact .inr ⟨x', List.mem_cons_of_mem _ hx', hk, hv⟩

theorem lookup_foldl_insert_of_notMem {α : Type} (k : α → κ) (v : α → ν) (l : List α)
    (m : Map κ ν) {key : κ} (h : key ∉ l.map k) :
    (l.foldl (fun m x => m.insert (k x) (v x)) m).lookup key = m.lookup key := by
  induction l generalizing m with
  | nil => rfl
  | cons x l ih =>
    rw [List.map_cons, List.mem_cons, not_or] at h
    rw [List.foldl_cons, ih _ h.2, AList.lookup_insert_ne h.1]

theorem lookup_foldl_insert_of_mem {α : Type} (k : α → κ) (v : α → ν) (l : List α)
    (hl : (l.map k).Nodup) (m : Map κ ν) {x : α} (hx : x ∈ l) :
    (l.foldl (fun m x => m.insert (k x) (v x)) m).lookup (k x) = some (v x) := by
  induction l generalizing m with
  | nil => exact absurd hx List.not_mem_nil
  | cons y l ih =>
    rw [List.map_cons, List.nodup_cons] at hl
    rw [List.foldl_cons]
    rcases List.mem_cons.mp hx with rfl | hx
    · rw [lookup_foldl_insert_of_notMem k v l _ hl.1, AList.lookup_insert]
    · exact ih hl.2 _ hx

-- ---------------------------------------------------------------------------
-- Loops over a map that touch one key per entry
-- ---------------------------------------------------------------------------

section Local

variable {μ : Type}

/-- A step of a loop over entries that changes the accumulator only under the entry's key, to
`G` of the entry and the value held there. -/
def LocalStep (G : (Σ _ : κ, ν) → Option μ → Option μ)
    (step : Map κ μ → (Σ _ : κ, ν) → Map κ μ) : Prop :=
  ∀ acc e k, (step acc e).lookup k = if k = e.1 then G e (acc.lookup k) else acc.lookup k

variable {G : (Σ _ : κ, ν) → Option μ → Option μ} {step : Map κ μ → (Σ _ : κ, ν) → Map κ μ}

theorem lookup_foldl_of_localStep (hs : LocalStep G step) (l : List (Σ _ : κ, ν))
    (hl : l.NodupKeys) (acc : Map κ μ) (k : κ) :
    (l.foldl step acc).lookup k = match l.dlookup k with
      | some v => G ⟨k, v⟩ (acc.lookup k)
      | none => acc.lookup k := by
  induction l generalizing acc with
  | nil => simp
  | cons e l ih =>
    obtain ⟨k', v'⟩ := e
    rw [List.nodupKeys_cons] at hl
    rw [List.foldl_cons, ih hl.2]
    by_cases hk : k = k'
    · subst hk
      rw [List.dlookup_cons_eq, List.dlookup_eq_none.2 hl.1, hs, if_pos rfl]
    · rw [List.dlookup_cons_ne _ _ hk, hs, if_neg hk]

/-- A loop over the entries of a map, `for k, v := range m`. -/
theorem lookup_foldl_entries (hs : LocalStep G step) (m : Map κ ν) (acc : Map κ μ) (k : κ) :
    (m.entries.foldl step acc).lookup k = match m.lookup k with
      | some v => G ⟨k, v⟩ (acc.lookup k)
      | none => acc.lookup k :=
  lookup_foldl_of_localStep hs m.entries m.nodupKeys acc k

end Local

-- ---------------------------------------------------------------------------
-- Keeping, per key, the entry with the largest value
-- ---------------------------------------------------------------------------

section KeepMax

variable {α : Type} (key : α → κ) (val : α → Nat)

/-- `if old, ok := m[key(a)]; !ok || val(old) < val(a) { m[key(a)] = a }`: the first of the
largest stays. -/
def keepMax (m : Map κ α) (a : α) : Map κ α :=
  match m.lookup (key a) with
  | some b => if val b < val a then m.insert (key a) a else m
  | none => m.insert (key a) a

/-- What a fold of `keepMax` over `D` holds: under each key an element of `D` with that key and
the largest value among them, and every key of `D`. -/
structure HoldsMax (D : List α) (m : Map κ α) : Prop where
  lookup : ∀ k a, m.lookup k = some a → a ∈ D ∧ key a = k ∧ ∀ b ∈ D, key b = k → val b ≤ val a
  complete : ∀ b ∈ D, key b ∈ m

variable {key val}

theorem holdsMax_empty : HoldsMax key val [] ∅ :=
  ⟨fun _ _ h => by simp at h, fun _ h => absurd h List.not_mem_nil⟩

theorem HoldsMax.lookup_insert {D : List α} {m : Map κ α} (h : HoldsMax key val D m) (x : α)
    (hx : ∀ b ∈ D, key b = key x → val b ≤ val x) (k : κ) (a : α)
    (hk : (m.insert (key x) x).lookup k = some a) :
    a ∈ D ++ [x] ∧ key a = k ∧ ∀ b ∈ D ++ [x], key b = k → val b ≤ val a := by
  by_cases hkx : k = key x
  · subst hkx
    rw [AList.lookup_insert, Option.some_inj] at hk
    subst hk
    refine ⟨by simp, rfl, fun b hb hbk => ?_⟩
    rcases List.mem_append.mp hb with hb | hb
    · exact hx b hb hbk
    · rw [List.mem_singleton.mp hb]
  · rw [AList.lookup_insert_ne hkx] at hk
    obtain ⟨haD, hak, hmax⟩ := h.lookup k a hk
    refine ⟨List.mem_append_left _ haD, hak, fun b hb hbk => ?_⟩
    rcases List.mem_append.mp hb with hb | hb
    · exact hmax b hb hbk
    · rw [List.mem_singleton.mp hb] at hbk
      exact absurd hbk.symm hkx

theorem HoldsMax.keepMax {D : List α} {m : Map κ α} (h : HoldsMax key val D m) (x : α) :
    HoldsMax key val (D ++ [x]) (keepMax key val m x) := by
  unfold Map.keepMax
  cases hb : m.lookup (key x) with
  | none =>
    -- no element of `x`'s key came before
    have hx : ∀ b ∈ D, key b = key x → val b ≤ val x := fun b hbD hbk =>
      absurd (hbk ▸ h.complete b hbD) (AList.lookup_eq_none.mp hb)
    refine ⟨h.lookup_insert x hx, fun b hbD => ?_⟩
    rw [AList.mem_insert]
    rcases List.mem_append.mp hbD with hbD | hbD
    · exact .inr (h.complete b hbD)
    · exact .inl (by rw [List.mem_singleton.mp hbD])
  | some old =>
    obtain ⟨-, -, hmax⟩ := h.lookup _ old hb
    dsimp only
    split_ifs with hlt
    · -- `x` beats the largest so far
      have hx : ∀ b ∈ D, key b = key x → val b ≤ val x := fun b hbD hbk =>
        (hmax b hbD hbk).trans (Nat.le_of_lt hlt)
      refine ⟨h.lookup_insert x hx, fun b hbD => ?_⟩
      rw [AList.mem_insert]
      rcases List.mem_append.mp hbD with hbD | hbD
      · exact .inr (h.complete b hbD)
      · exact .inl (by rw [List.mem_singleton.mp hbD])
    · -- the one held stays, and is at least `x`
      refine ⟨fun k a hk => ?_, fun b hbD => ?_⟩
      · obtain ⟨haD, hak, hmaxa⟩ := h.lookup k a hk
        refine ⟨List.mem_append_left _ haD, hak, fun b hbD hbk => ?_⟩
        rcases List.mem_append.mp hbD with hbD | hbD
        · exact hmaxa b hbD hbk
        · rw [List.mem_singleton.mp hbD] at hbk ⊢
          rw [← hbk, hb, Option.some_inj] at hk
          rw [← hk]
          exact Nat.le_of_not_lt hlt
      · rcases List.mem_append.mp hbD with hbD | hbD
        · exact h.complete b hbD
        · rw [List.mem_singleton.mp hbD]
          exact AList.lookup_isSome.mp (by rw [hb]; rfl)

theorem HoldsMax.foldl {D : List α} {m : Map κ α} (h : HoldsMax key val D m) (l : List α) :
    HoldsMax key val (D ++ l) (l.foldl (Map.keepMax key val) m) := by
  induction l generalizing D m with
  | nil => simpa using h
  | cons x l ih =>
    rw [List.foldl_cons, ← List.singleton_append, ← List.append_assoc]
    exact ih (h.keepMax x)

/-- A fold of `keepMax` from the empty map, in whatever order the list has. -/
theorem holdsMax_foldl (l : List α) : HoldsMax key val l (l.foldl (keepMax key val) ∅) := by
  simpa using holdsMax_empty.foldl l

end KeepMax

end Map

end Container
