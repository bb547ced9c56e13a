import Nomad.Scheduler.ReconcileUtil

/-!
# What the name index returns

`bitmapFrom` marks exactly the indexes of its allocations. `Highest n` returns the `n`
highest marked indexes, or every marked one if there are fewer. `Next n` returns `n` names.

`computePlacements`, the one caller of `Next`, asks for `Count - existing` names, between one and
the group's count. Asked for so many, `Next` picks names below the count, which the bitmap holds,
so every bit it writes is in range: Go's `Set` would panic past the bitmap, and the model's, which
writes nothing there, is never called so. `bitmapFrom` on `uint`, with its panics, returns the
model's bitmap on everything its caller passes (`bitmapFromUint_eq`), and wraps past it
(`bitmapFromUint_wraps`).
-/

namespace Nomad.Scheduler

open Go Structs

-- ---------------------------------------------------------------------------
-- `bitmapFrom`
-- ---------------------------------------------------------------------------

theorem newBitmap_ok {n : Nat} (h0 : n ≠ 0) (h8 : n % 8 = 0) :
    NewBitmap n = .ok ⟨List.replicate n false⟩ := by
  simp [NewBitmap, h0, h8]

theorem check_replicate (n i : Nat) : (⟨List.replicate n false⟩ : Bitmap).Check i = false := by
  by_cases hi : i < n <;> simp [Bitmap.Check, List.getD_eq_getElem?_getD, hi]

theorem le_foldl_maxIndex (l : allocSet) (m : Nat) :
    m ≤ l.foldl (fun m a => if m < a.Index then a.Index else m) m ∧
      ∀ x ∈ l, x.Index ≤ l.foldl (fun m a => if m < a.Index then a.Index else m) m := by
  induction l generalizing m with
  | nil => simp
  | cons x l ih =>
    simp only [List.foldl_cons]
    have hx : m ≤ (if m < x.Index then x.Index else m) ∧
        x.Index ≤ (if m < x.Index then x.Index else m) := by
      split <;> omega
    obtain ⟨h0, h1⟩ := ih (if m < x.Index then x.Index else m)
    refine ⟨le_trans hx.1 h0, fun y hy => ?_⟩
    rcases List.mem_cons.mp hy with rfl | hy
    · exact le_trans hx.2 h0
    · exact h1 y hy

theorem foldl_set_index (l : allocSet) (b : Bitmap) :
    l.foldl (fun b x => b.Set x.Index) b = (l.map (·.Index)).foldl (fun b i => b.Set i) b := by
  rw [List.foldl_map]

theorem size_foldl_set_index (l : allocSet) (b : Bitmap) :
    (l.foldl (fun b x => b.Set x.Index) b).Size = b.Size := by
  rw [foldl_set_index, Bitmap.size_foldl_set]

theorem check_foldl_set (l : allocSet) (b : Bitmap) (hl : ∀ x ∈ l, x.Index < b.Size) (i : Nat) :
    (l.foldl (fun b x => b.Set x.Index) b).Check i = (decide (i ∈ l.map (·.Index)) || b.Check i) := by
  rw [foldl_set_index]
  exact b.check_foldl_set _ (fun j hj => by
    obtain ⟨x, hx, rfl⟩ := List.mem_map.mp hj
    exact hl x hx) i

/-- The size `bitmapFrom` picks: a positive multiple of 8, at least `minSize` and `len(input)`,
and above every index, so that no `Set` falls outside the bitmap. -/
theorem bitmapFrom_eq (input : allocSet) (minSize : Nat) :
    ∃ m, bitmapFrom input minSize =
        input.foldl (fun b a => b.Set a.Index) ⟨List.replicate m false⟩ ∧
      0 < m ∧ m % 8 = 0 ∧ minSize ≤ m ∧ input.length ≤ m ∧ ∀ a ∈ input, a.Index < m := by
  unfold bitmapFrom
  extract_lets m0 ms m1 m2 m3
  have hle := (le_foldl_maxIndex input 0).2
  -- the largest index is kept below the size by the step past a byte-aligned maximum
  have hm3 : m0 < m3 ∧ m3 ≠ 0 ∧ m3 % 8 = 0 ∧ minSize ≤ m3 ∧ input.length ≤ m3 := by
    simp only [m3, m2, m1, ms]
    split_ifs <;> first | contradiction | omega
  obtain ⟨hlt, h0, h8, hmin, hlen⟩ := hm3
  rw [newBitmap_ok h0 h8]
  exact ⟨m3, rfl, Nat.pos_of_ne_zero h0, h8, hmin, hlen,
    fun a ha => lt_of_le_of_lt (hle a ha) hlt⟩

theorem foldl_maxIndex_lt (l : allocSet) {m B : Nat} (hm : m < B) (hl : ∀ x ∈ l, x.Index < B) :
    l.foldl (fun m a => if m < a.Index then a.Index else m) m < B := by
  induction l generalizing m with
  | nil => exact hm
  | cons x l ih =>
    have hx : (if m < x.Index then x.Index else m) < B := by
      have := hl x List.mem_cons_self
      split <;> omega
    exact ih hx fun y hy => hl y (List.mem_cons_of_mem _ hy)

/-- On what its caller passes, indexes and a minimum size below `2^63` (a name's index and a
group's count are `int`s), no `uint` addition of the size wraps and no `Set` panics: Go's
`bitmapFrom` returns the model's bitmap. -/
theorem bitmapFromUint_eq (input : allocSet) (minSize : Nat) (hmin : minSize < 2 ^ 63)
    (hlen : input.length < 2 ^ 63) (hidx : ∀ a ∈ input, a.Index < 2 ^ 63) :
    bitmapFromUint input minSize = .ok (bitmapFrom input minSize) := by
  unfold bitmapFromUint bitmapFrom
  -- `u` the sizes on `uint`, `m` the model's
  extract_lets m0 ms u1 u2 u3 m1 m2 m3
  have hmax : m0 < 2 ^ 63 := foldl_maxIndex_lt input (by norm_num) hidx
  have hle : ∀ a ∈ input, a.Index ≤ m0 := (le_foldl_maxIndex input 0).2
  -- the sizes agree, since every addition stays below `2^64`
  have hm3 : u3 = m3 ∧ m3 ≠ 0 ∧ m3 % 8 = 0 ∧ m0 < m3 := by
    simp only [u3, u2, u1, m3, m2, m1, ms]
    split_ifs <;> first | contradiction | omega
  obtain ⟨heq, h0, h8, hlt⟩ := hm3
  rw [heq, newBitmap_ok h0 h8]
  exact Bitmap.foldl_setOrPanic ⟨List.replicate m3 false⟩ (·.Index) input fun a ha => by
    simpa [Bitmap.Size] using lt_of_le_of_lt (hle a ha) hlt

/-- Past what its caller passes, the `uint` size wraps: from a minimum size of `2^64 - 1` the
byte alignment reaches `2^64`, which is 0, and Go's `bitmapFrom` panics. -/
theorem bitmapFromUint_wraps : bitmapFromUint [] (2 ^ 64 - 1) = .panic := by decide

theorem check_bitmapFrom (input : allocSet) (minSize i : Nat) :
    (bitmapFrom input minSize).Check i = decide (i ∈ input.map (·.Index)) := by
  obtain ⟨m, hb, -, -, -, -, hlt⟩ := bitmapFrom_eq input minSize
  rw [hb, check_foldl_set _ _ (fun x hx => by simpa [Bitmap.Size] using hlt x hx),
    check_replicate, Bool.or_false]

theorem size_bitmapFrom_holds_every_index (input : allocSet) (minSize : Nat) :
    let b := bitmapFrom input minSize
    0 < b.Size ∧ b.Size % 8 = 0 ∧ minSize ≤ b.Size ∧ input.length ≤ b.Size ∧
      (∀ a ∈ input, a.Index < b.Size) ∧ ∀ i, b.Check i = decide (i ∈ input.map (·.Index)) := by
  obtain ⟨m, hb, h0, h8, hmin, hlen, hlt⟩ := bitmapFrom_eq input minSize
  have hsize : (bitmapFrom input minSize).Size = m := by
    rw [hb, size_foldl_set_index]
    simp [Bitmap.Size]
  intro b
  rw [hsize]
  exact ⟨h0, h8, hmin, hlen, hlt, check_bitmapFrom input minSize⟩

namespace allocNameIndex

variable (a : allocNameIndex)

-- ---------------------------------------------------------------------------
-- `Highest`
-- ---------------------------------------------------------------------------

theorem highestLoop_snd (n i : Nat) (b : Bitmap) (h : List Nat) :
    (a.highestLoop n i b h).2 =
      h ++ (((List.range i).reverse.filter (b.Check ·)).take (n - h.length)) := by
  induction i generalizing b h with
  | zero => simp [highestLoop]
  | succ i ih =>
    -- below `i`, unsetting bit `i` changes nothing the rest of the loop reads
    have hf : (List.range i).reverse.filter ((b.Unset i).Check ·) =
        (List.range i).reverse.filter (b.Check ·) :=
      List.filter_congr fun j hj => by
        rw [Bitmap.check_unset_of_ne b (by simp at hj; omega)]
    have hr : (List.range (i + 1)).reverse = i :: (List.range i).reverse := by
      simp [List.range_succ]
    simp only [highestLoop]
    split_ifs with hlt hc
    · rw [ih, hf, hr, List.filter_cons_of_pos hc,
        show n - h.length = (n - (h ++ [AllocName a.job a.taskGroup i]).length) + 1 by simp; omega,
        List.take_succ_cons]
      simp [AllocName]
    · rw [ih, hr, List.filter_cons_of_neg (by simpa using hc)]
    · simp [show n - h.length = 0 by omega]

theorem highest_snd (n : Nat) :
    (a.Highest n).2 = ((List.range a.b.Size).reverse.filter (a.b.Check ·)).take n := by
  simp [Highest, highestLoop_snd]

theorem highestLoop_fst (n i : Nat) (b : Bitmap) (h : List Nat) (hi : i ≤ b.Size) (j : Nat) :
    (a.highestLoop n i b h).1.Check j =
      (b.Check j && !decide (j ∈ ((List.range i).reverse.filter (b.Check ·)).take (n - h.length))) := by
  induction i generalizing b h with
  | zero => simp [highestLoop]
  | succ i ih =>
    have hf : (List.range i).reverse.filter ((b.Unset i).Check ·) =
        (List.range i).reverse.filter (b.Check ·) :=
      List.filter_congr fun j hj => by
        rw [Bitmap.check_unset_of_ne b (by simp at hj; omega)]
    have hr : (List.range (i + 1)).reverse = i :: (List.range i).reverse := by
      simp [List.range_succ]
    simp only [highestLoop]
    split_ifs with hlt hc
    · rw [ih _ _ (by simp; omega), hf, hr, List.filter_cons_of_pos hc,
        show n - h.length = (n - (h ++ [AllocName a.job a.taskGroup i]).length) + 1 by simp; omega,
        List.take_succ_cons, Bitmap.check_unset _ _ _ (by omega)]
      by_cases hj : j = i <;> simp [hj]
    · rw [ih _ _ (by omega), hr, List.filter_cons_of_neg (by simpa using hc)]
    · simp [show n - h.length = 0 by omega]

theorem highest_fst (n j : Nat) :
    (a.Highest n).1.b.Check j = (a.b.Check j && !decide (j ∈ (a.Highest n).2)) := by
  rw [highest_snd]
  simpa [Highest] using a.highestLoop_fst n a.b.Size a.b [] le_rfl j

theorem check_of_mem_highest {n j : Nat} (hj : j ∈ (a.Highest n).2) : a.b.Check j := by
  rw [highest_snd] at hj
  exact of_decide_eq_true (by simpa using (List.mem_filter.mp (List.mem_of_mem_take hj)).2)

theorem nodup_highest (n : Nat) : (a.Highest n).2.Nodup := by
  rw [highest_snd]
  exact ((List.nodup_reverse.mpr List.nodup_range).filter _).sublist (List.take_sublist _ _)

theorem mem_highest_of_length_lt {n j : Nat} (hn : (a.Highest n).2.length < n)
    (hj : a.b.Check j) : j ∈ (a.Highest n).2 := by
  have hlt : j < a.b.Size := by
    by_contra h
    rw [Bitmap.check_of_size_le _ (by omega)] at hj
    exact Bool.false_ne_true hj
  rw [highest_snd] at hn ⊢
  rw [List.take_of_length_le (by rw [List.length_take] at hn; omega)]
  simp [hlt, hj]

-- ---------------------------------------------------------------------------
-- `Next`
-- ---------------------------------------------------------------------------

theorem pickLoop_length {n : Nat} (existing idxs : List Nat) (b : Bitmap) (next : List Nat)
    (remainder : Nat) (hnext : next.length < n) (hr : remainder = n - next.length) :
    match a.pickLoop n existing idxs b next remainder with
    | .inl (next', _) => next'.length = n
    | .inr (_, next', remainder') => next'.length < n ∧ remainder' = n - next'.length := by
  induction idxs generalizing b next remainder with
  | nil => exact ⟨hnext, hr⟩
  | cons idx idxs ih =>
    have hle : next.length + 1 ≤ n := hnext
    simp only [pickLoop]
    split_ifs with hex hr0
    · exact ih b next remainder hnext hr
    · simp only [List.length_append, List.length_singleton] at hr0 ⊢
      rw [uintSub_of_le hle] at hr0
      omega
    · simp only [List.length_append, List.length_singleton] at hr0
      rw [uintSub_of_le hle] at hr0
      exact ih _ _ _ (by simp; omega) (by simp [uintSub_of_le hle])

theorem pickLoop_subset (n : Nat) (existing idxs : List Nat) (b : Bitmap) (next : List Nat)
    (remainder : Nat) :
    match a.pickLoop n existing idxs b next remainder with
    | .inl (next', _) => ∀ i ∈ next', i ∈ next ∨ i ∈ idxs
    | .inr (_, next', _) => ∀ i ∈ next', i ∈ next ∨ i ∈ idxs := by
  induction idxs generalizing b next remainder with
  | nil => exact fun i hi => .inl hi
  | cons idx idxs ih =>
    -- a name taken here is `idx`; the rest come from the tail
    have widen : ∀ i, i ∈ next ++ [AllocName a.job a.taskGroup idx] ∨ i ∈ idxs →
        i ∈ next ∨ i ∈ idx :: idxs := by
      intro i hi
      simp only [List.mem_append, AllocName, List.mem_cons] at hi ⊢
      tauto
    simp only [pickLoop]
    split_ifs with hex hr0
    · have := ih b next remainder
      split at this <;> exact fun i hi => (this i hi).imp_right (List.mem_cons_of_mem _)
    · exact fun i hi => widen i (.inl hi)
    · have := ih (b.Set idx) (next ++ [AllocName a.job a.taskGroup idx])
        (uintSub n (next ++ [AllocName a.job a.taskGroup idx]).length)
      split at this <;> exact fun i hi => widen i (this i hi)

theorem length_next {n : Nat} (hn0 : 0 < n) : (a.Next n).2.length = n := by
  have hloop := a.pickLoop_length [] (a.b.IndexesInRange false 0 (uintSub (toUint a.count) 1))
    a.b [] n (by simpa using hn0) (by simp)
  simp only [Next]
  split
  · next h => rw [h] at hloop; exact hloop
  · next h =>
    rw [h] at hloop
    simp only [List.length_append, List.length_map, List.length_range]
    omega

/-- Asked for at most `count` names, `Next` picks names below `count`: first the free ones below
it, then overlapping ones from 0 up to the number still missing. -/
theorem next_lt_count {n : Nat} (hc : 0 < a.count) (hc64 : a.count < 2 ^ 64) (hn0 : 0 < n)
    (hn : (n : Int) ≤ a.count) : ∀ i ∈ (a.Next n).2, (i : Int) < a.count := by
  have hcount : (toUint a.count : Int) = a.count := toUint_of_nonneg (by omega) hc64
  -- the free names range over the indexes up to `count - 1`
  have hidx : ∀ i ∈ a.b.IndexesInRange false 0 (uintSub (toUint a.count) 1), (i : Int) < a.count := by
    intro i hi
    simp only [Bitmap.IndexesInRange, List.mem_filter, List.mem_range] at hi
    rw [uintSub_of_le (by omega)] at hi
    omega
  have hlen := a.pickLoop_length [] (a.b.IndexesInRange false 0 (uintSub (toUint a.count) 1))
    a.b [] n (by simpa using hn0) (by simp)
  have hsub := a.pickLoop_subset n [] (a.b.IndexesInRange false 0 (uintSub (toUint a.count) 1))
    a.b [] n
  simp only [Next]
  split
  · next h =>
    rw [h] at hsub
    intro i hi
    rcases hsub i hi with hi | hi
    · simp at hi
    · exact hidx i hi
  · next b next remainder h =>
    rw [h] at hsub hlen
    intro i hi
    rcases List.mem_append.mp hi with hi | hi
    · rcases hsub i hi with hi | hi
      · simp at hi
      · exact hidx i hi
    · obtain ⟨j, hj, rfl⟩ := List.mem_map.mp hi
      simp only [List.mem_range] at hj
      simp only [AllocName]
      omega

theorem pickLoop_fresh (n : Nat) (idxs : List Nat) (b : Bitmap) (next : List Nat) (k : Nat)
    (hk : 0 < k) (hn : next.length + k = n) :
    a.pickLoop n [] idxs b next k =
      if k ≤ idxs.length then
        .inl (next ++ idxs.take k, (idxs.take k).foldl (fun b i => b.Set i) b)
      else .inr (idxs.foldl (fun b i => b.Set i) b, next ++ idxs, k - idxs.length) := by
  induction idxs generalizing b next k with
  | nil =>
    have hk0 : ¬ k ≤ 0 := by omega
    simp [pickLoop, hk0]
  | cons idx idxs ih =>
    have hsub : uintSub n (next ++ [AllocName a.job a.taskGroup idx]).length = k - 1 := by
      rw [uintSub_of_le (by simp; omega)]
      simp
      omega
    simp only [pickLoop, List.not_mem_nil, if_false, hsub]
    obtain ⟨k, rfl⟩ : ∃ k', k = k' + 1 := ⟨k - 1, by omega⟩
    cases k with
    | zero => simp [AllocName]
    | succ k =>
      rw [if_neg (by omega), Nat.add_sub_cancel, ih (b.Set idx) _ (k + 1) (by omega) (by simp; omega)]
      simp [AllocName]

/-- `Next n` returns the first `n` free names, then the overlapping ones from 0 for those still
missing, and sets the bits of both. -/
theorem next_eq {n : Nat} (hn0 : 0 < n) :
    let free := a.b.IndexesInRange false 0 (uintSub (toUint a.count) 1)
    (a.Next n).2 = free.take n ++ List.range (n - free.length) ∧
      (a.Next n).1.b = (List.range (n - free.length)).foldl (fun b i => b.Set i)
        ((free.take n).foldl (fun b i => b.Set i) a.b) := by
  dsimp only
  have hloop := a.pickLoop_fresh n (a.b.IndexesInRange false 0 (uintSub (toUint a.count) 1)) a.b []
    n hn0 (by simp)
  simp only [Next, hloop]
  by_cases hle : n ≤ (a.b.IndexesInRange false 0 (uintSub (toUint a.count) 1)).length
  · simp [hle, Nat.sub_eq_zero_of_le hle]
  · have hlen : (a.b.IndexesInRange false 0 (uintSub (toUint a.count) 1)).length ≤ n := by omega
    simp [hle, List.take_of_length_le hlen, AllocName]

theorem indexesInRange_free (hc : 0 < a.count) (hc64 : a.count < 2 ^ 64)
    (hsize : a.count.toNat ≤ a.b.Size) :
    a.b.IndexesInRange false 0 (uintSub (toUint a.count) 1) =
      (List.range a.count.toNat).filter fun i => !a.b.Check i := by
  have hcount : toUint a.count = a.count.toNat := by
    have := toUint_of_nonneg (by omega) hc64
    omega
  rw [Bitmap.IndexesInRange, hcount, uintSub_of_le (by omega),
    Nat.sub_add_cancel (by omega), Nat.min_eq_left hsize]
  refine List.filter_congr fun i _ => ?_
  cases a.b.Check i <;> simp

end allocNameIndex

theorem newAllocNameIndex_hands_out_tracked_names (job taskGroup : String) (count : Int)
    (input : allocSet) (hc : 1 ≤ count) (hc63 : count < 2 ^ 63) (n : Nat) :
    let a := newAllocNameIndex job taskGroup count input
    let free := (List.range count.toNat).filter fun i => !a.b.Check i
    let used := (List.range a.b.Size).reverse.filter fun i => a.b.Check i
    (1 ≤ n → (n : Int) ≤ count →
        (a.Next n).2.length = n ∧ (a.Next n).2.take (min n free.length) = free.take n ∧
        ∀ i ∈ (a.Next n).2, (i : Int) < count ∧ i < a.b.Size ∧ (a.Next n).1.b.Check i = true) ∧
      (a.Highest n).2 = used.take n ∧
      ∀ i, (a.Highest n).1.b.Check i = (a.b.Check i && !decide (i ∈ (a.Highest n).2)) := by
  intro a free used
  -- the bitmap holds the `count` indexes below `count`, so every free one is in range
  have hsize : count.toNat ≤ a.b.Size := by
    obtain ⟨m, hb, -, -, hmin, -, -⟩ := bitmapFrom_eq input (toUint count)
    have hcount : (toUint count : Int) = count := toUint_of_nonneg (by omega) (by omega)
    show count.toNat ≤ (bitmapFrom input (toUint count)).Size
    rw [hb, size_foldl_set_index]
    simp only [Bitmap.Size, List.length_replicate]
    omega
  have hfree : a.b.IndexesInRange false 0 (uintSub (toUint a.count) 1) = free :=
    a.indexesInRange_free (by show 0 < count; omega) (by show count < 2 ^ 64; omega) hsize
  refine ⟨fun hn hnc => ?_, a.highest_snd n, a.highest_fst n⟩
  -- asked for at most `count` names, `Next` picks them below `count`
  have hlt : ∀ i ∈ (a.Next n).2, (i : Int) < count :=
    a.next_lt_count (by show 0 < count; omega) (by show count < 2 ^ 64; omega) hn hnc
  obtain ⟨hnames, hbits⟩ := a.next_eq hn
  rw [hfree] at hnames hbits
  have hlen : (free.take n).length = min n free.length := List.length_take
  refine ⟨?_, ?_, fun i hi => ⟨hlt i hi, by have := hlt i hi; omega, ?_⟩⟩
  · rw [hnames, List.length_append, hlen, List.length_range]
    omega
  · rw [hnames, List.take_left' hlen]
  · -- the bits `Next` writes are those of the names it returns, all inside the bitmap
    rw [hnames] at hi
    have hin : ∀ j ∈ free.take n, j < a.b.Size := fun j hj => by
      have := (List.mem_filter.mp (List.mem_of_mem_take hj)).1
      rw [List.mem_range] at this
      omega
    have hin' : ∀ j ∈ List.range (n - free.length),
        j < ((free.take n).foldl (fun b i => b.Set i) a.b).Size := fun j hj => by
      rw [Bitmap.size_foldl_set]
      rw [List.mem_range] at hj
      omega
    rw [hbits, Bitmap.check_foldl_set _ _ hin', Bitmap.check_foldl_set _ _ hin]
    rcases List.mem_append.mp hi with hi | hi <;> simp [hi]

theorem newAllocNameIndex_hands_out_tracked_names_web :
    ((newAllocNameIndex "web" "g" 2 []).Next 2).2.length = 2 ∧
      ∀ i ∈ ((newAllocNameIndex "web" "g" 2 []).Next 2).2, (i : Int) < 2 := by
  have h := newAllocNameIndex_hands_out_tracked_names "web" "g" 2 [] (by decide) (by decide) 2
  obtain ⟨hlen, -, hlt⟩ := h.1 (by decide) (by decide)
  exact ⟨hlen, fun i hi => (hlt i hi).1⟩

end Nomad.Scheduler
