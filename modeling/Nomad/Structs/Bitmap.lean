import Mathlib
import Nomad.Go.Outcome

/-!
# `structs.Bitmap`

A `Bitmap` is a byte slice read as one bit per index. The model keeps the bits as a list of
`Bool`, one per index, so `Size` is the list's length. `NewBitmap` only makes bitmaps of a
positive size that is a multiple of 8. `Set` and `Unset` out of range panic in Go: `SetOrPanic` is
`Set` as Go runs it, and below `Size` it is the list update `Set`. The callers in the scheduler
only touch indexes below `Size` (`foldl_setOrPanic` is the step from one to the other), so the
model's callers write with `Set` and `Unset`.
-/

namespace Nomad.Structs

structure Bitmap where
  bits : List Bool
  deriving DecidableEq, Repr

def NewBitmap (size : Nat) : Except String Bitmap :=
  if size = 0 then .error "bitmap must be positive size"
  else if size % 8 ≠ 0 then .error "bitmap must be byte aligned"
  else .ok ⟨List.replicate size false⟩

namespace Bitmap

variable (b : Bitmap)

def Size : Nat := b.bits.length

def Set (idx : Nat) : Bitmap := ⟨b.bits.set idx true⟩

def Unset (idx : Nat) : Bitmap := ⟨b.bits.set idx false⟩

def Check (idx : Nat) : Bool := b.bits.getD idx false

/-- `Set` as Go runs it: `b[idx>>3]` past the slice is a run-time panic. -/
def SetOrPanic (idx : Nat) : Go.Outcome Bitmap := if idx < b.Size then .ok (b.Set idx) else .panic

/-- `IndexesInRange`: the indexes from `lo` to `hi` and below `Size` whose bit is `set`. -/
def IndexesInRange (set : Bool) (lo hi : Nat) : List Nat :=
  (List.range (min (hi + 1) b.Size)).filter fun i => decide (lo ≤ i) && b.Check i == set

@[simp] theorem size_set (idx : Nat) : (b.Set idx).Size = b.Size := by
  simp [Set, Size]

@[simp] theorem size_unset (idx : Nat) : (b.Unset idx).Size = b.Size := by
  simp [Unset, Size]

theorem check_set (i idx : Nat) (hi : idx < b.Size) :
    (b.Set idx).Check i = (i = idx || b.Check i) := by
  simp only [Set, Check, Size] at hi ⊢
  by_cases h : i = idx
  · subst h
    simp [List.getD_eq_getElem?_getD, List.getElem?_set_self hi]
  · simp [List.getD_eq_getElem?_getD, List.getElem?_set_ne (Ne.symm h), h]

theorem check_unset (i idx : Nat) (hi : idx < b.Size) :
    (b.Unset idx).Check i = (i ≠ idx && b.Check i) := by
  simp only [Unset, Check, Size] at hi ⊢
  by_cases h : i = idx
  · subst h
    simp [List.getD_eq_getElem?_getD, List.getElem?_set_self hi]
  · simp [List.getD_eq_getElem?_getD, List.getElem?_set_ne (Ne.symm h), h]

/-- A loop of Go `Set` calls at indexes below the size does not panic, and writes what the loop of
`Set` writes. -/
theorem foldl_setOrPanic {α : Type} (f : α → Nat) (l : List α) (hl : ∀ x ∈ l, f x < b.Size) :
    l.foldl (fun acc x => acc.bind (·.SetOrPanic (f x))) (Go.Outcome.ok b) =
      .ok (l.foldl (fun b x => b.Set (f x)) b) := by
  induction l generalizing b with
  | nil => rfl
  | cons x l ih =>
    have hx : b.SetOrPanic (f x) = .ok (b.Set (f x)) := if_pos (hl x List.mem_cons_self)
    rw [List.foldl_cons, List.foldl_cons, Go.Outcome.ok_bind, hx]
    exact ih (b.Set (f x)) fun y hy => by rw [size_set]; exact hl y (List.mem_cons_of_mem _ hy)

theorem check_unset_of_ne {i idx : Nat} (h : i ≠ idx) : (b.Unset idx).Check i = b.Check i := by
  simp [Unset, Check, List.getD_eq_getElem?_getD, List.getElem?_set_ne (Ne.symm h)]

theorem check_of_size_le {i : Nat} (hi : b.Size ≤ i) : b.Check i = false := by
  simp only [Check, Size] at hi ⊢
  simp [List.getD_eq_getElem?_getD, List.getElem?_eq_none hi]

@[simp] theorem size_foldl_set (l : List Nat) :
    (l.foldl (fun b i => b.Set i) b).Size = b.Size := by
  induction l generalizing b with
  | nil => rfl
  | cons i l ih => rw [List.foldl_cons, ih, size_set]

theorem check_foldl_set (l : List Nat) (hl : ∀ i ∈ l, i < b.Size) (j : Nat) :
    (l.foldl (fun b i => b.Set i) b).Check j = (decide (j ∈ l) || b.Check j) := by
  induction l generalizing b with
  | nil => simp
  | cons i l ih =>
    have hi : i < b.Size := hl i (List.mem_cons_self ..)
    rw [List.foldl_cons, ih (b.Set i) (fun k hk => by simpa using hl k (List.mem_cons_of_mem _ hk)),
      check_set _ _ _ hi]
    by_cases h : j = i <;> simp [h]

/-- Read below the size, a `Set` at any index marks that index; out of range it writes nothing. -/
theorem check_set_of_lt {j : Nat} (i : Nat) (hj : j < b.Size) :
    (b.Set i).Check j = (j = i || b.Check j) := by
  by_cases hi : i < b.Size
  · exact check_set b j i hi
  · have hji : j ≠ i := by omega
    simp only [Set, Check, Size] at hi hj ⊢
    rw [List.set_eq_of_length_le (by omega)]
    simp [hji]

theorem check_foldl_set_of_lt (l : List Nat) {j : Nat} (hj : j < b.Size) :
    (l.foldl (fun b i => b.Set i) b).Check j = (decide (j ∈ l) || b.Check j) := by
  induction l generalizing b with
  | nil => simp
  | cons i l ih =>
    rw [List.foldl_cons, ih (b.Set i) (by rwa [size_set]), check_set_of_lt _ _ hj]
    by_cases h : j = i <;> simp [h]

theorem mem_indexesInRange {set : Bool} {lo hi i : Nat} :
    i ∈ b.IndexesInRange set lo hi ↔ i ≤ hi ∧ i < b.Size ∧ lo ≤ i ∧ b.Check i = set := by
  simp only [IndexesInRange, List.mem_filter, List.mem_range, Nat.lt_min, Nat.lt_add_one_iff,
    Bool.and_eq_true, decide_eq_true_eq, beq_iff_eq, and_assoc]

theorem nodup_indexesInRange (set : Bool) (lo hi : Nat) : (b.IndexesInRange set lo hi).Nodup :=
  List.nodup_range.filter _

end Bitmap

end Nomad.Structs
