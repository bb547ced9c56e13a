import Mathlib

/-!
# Go's `uint`

`uint(x)` of an `int` keeps the low 64 bits, so a negative value wraps to a large one, and
`uint` subtraction wraps the same way. The scheduler converts counts with `uint(...)` and
subtracts with `n - uint(len(next))`; these two functions are those operations on `Nat`.
-/

namespace Go

def toUint (x : Int) : Nat := (x % 2 ^ 64).toNat

/-- `a - b` on `uint`, for `a` and `b` below `2^64`: below `a`, the difference; above, the
difference wrapped around `2^64`. The comparison comes first so that a symbolic `a` does not
make Lean unfold `2^64` one step at a time. -/
def uintSub (a b : Nat) : Nat := if b ≤ a then a - b else a + 2 ^ 64 - b

theorem toUint_of_nonneg {x : Int} (h0 : 0 ≤ x) (h1 : x < 2 ^ 64) : (toUint x : Int) = x := by
  simp only [toUint]
  rw [Int.emod_eq_of_lt h0 h1, Int.toNat_of_nonneg h0]

theorem uintSub_of_le {a b : Nat} (hb : b ≤ a) : uintSub a b = a - b := by
  simp [uintSub, hb]

end Go
