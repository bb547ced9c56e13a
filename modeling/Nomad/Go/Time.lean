import Mathlib

/-!
# Go's `time.Time` and `time.Duration`

A `Time` is a count of nanoseconds since January 1, year 1, 00:00 UTC, the instant Go's zero
`time.Time` stands for, so `IsZero` is the test for 0. A `Duration` is a signed count of
nanoseconds. Go stores it in an `int64`: `wrap64` is the two's-complement wrap that `int64`
arithmetic applies (`wrap32` that of `int32`), and `Sub` saturates at the `int64` bounds as
`Time.Sub` documents.
-/

namespace Go

/-- A signed count of nanoseconds; `int64` in Go. -/
abbrev Duration := Int

/-- Reduce an integer to the `int64` range, as Go's wrapping arithmetic does. -/
def wrap64 (x : Int) : Int := (x + 2 ^ 63) % 2 ^ 64 - 2 ^ 63

def maxDuration : Duration := 2 ^ 63 - 1
def minDuration : Duration := -2 ^ 63

theorem wrap64_of_mem {x : Int} (h0 : -2 ^ 63 ≤ x) (h1 : x < 2 ^ 63) : wrap64 x = x := by
  have h : (x + 2 ^ 63) % 2 ^ 64 = x + 2 ^ 63 := Int.emod_eq_of_lt (by omega) (by omega)
  simp only [wrap64, h]
  omega

theorem wrap64_add_of_lt {x y : Duration} (hx : 0 ≤ x) (hy : 0 ≤ y) (hx' : x < 2 ^ 62)
    (hy' : y < 2 ^ 62) : wrap64 (x + y) = x + y := by
  -- `omega` reads only `Int`, so the `Duration` in the goal is unfolded first
  apply wrap64_of_mem <;> unfold Duration at * <;> omega

theorem wrap64_mul_two_of_lt {x : Duration} (hx : 0 ≤ x) (hx' : x < 2 ^ 62) :
    wrap64 (x * 2) = x * 2 := by
  apply wrap64_of_mem <;> unfold Duration at * <;> omega

theorem wrap64_sub_of_lt {x y : Int} (hx : 0 ≤ x) (hy : 0 ≤ y) (hx' : x < 2 ^ 62)
    (hy' : y < 2 ^ 62) : wrap64 (x - y) = x - y :=
  wrap64_of_mem (by omega) (by omega)

/-- Reduce an integer to the `int32` range. -/
def wrap32 (x : Int) : Int := (x + 2 ^ 31) % 2 ^ 32 - 2 ^ 31

/-- A sum of `int32` additions wraps once, at the end. -/
theorem wrap32_add_wrap32 (x y : Int) : wrap32 (wrap32 x + y) = wrap32 (x + y) := by
  simp only [wrap32]
  omega

/-- `d.Round(m)`: `d` rounded half away from zero to a multiple of `m`, saturated at the
`Duration` bounds. -/
def Duration.Round (d m : Duration) : Duration :=
  -- `lessThanHalf`: the comparison Go makes on the `uint64` bits of both values
  let lessThanHalf := fun x y : Duration => (x + x) % 2 ^ 64 < y % 2 ^ 64
  if m ≤ 0 then d else
  let r := d.tmod m
  if d < 0 then
    let r := -r
    if lessThanHalf r m then d + r
    else
      -- the rounded value is computed in `int64`; a wrap shows as a value past `d`
      let d1 := wrap64 (d - m + r)
      if d1 < d then d1 else minDuration
  else if lessThanHalf r m then d - r
  else
    let d1 := wrap64 (d + m - r)
    if d1 > d then d1 else maxDuration

def unixToInternal : Int := (1969 * 365 + 1969 / 4 - 1969 / 100 + 1969 / 400) * 86400

structure Time where
  ns : Int
  deriving DecidableEq, Repr, Inhabited

namespace Time

def IsZero (t : Time) : Bool := t.ns == 0

def Before (t u : Time) : Bool := decide (t.ns < u.ns)

def After (t u : Time) : Bool := decide (u.ns < t.ns)

def Add (t : Time) (d : Duration) : Time := ⟨t.ns + d⟩

/-- `t.Sub(u)`, saturated at the bounds of a `Duration`. -/
def Sub (t u : Time) : Duration := max minDuration (min maxDuration (t.ns - u.ns))

def Unix (sec nsec : Int) : Time := ⟨(sec + unixToInternal) * 1000000000 + nsec⟩

/-- `t.UnixNano()`, wrapped to `int64` where Go's result is out of range. -/
def UnixNano (t : Time) : Int := wrap64 (t.ns - unixToInternal * 1000000000)

@[simp] theorem isZero_iff (t : Time) : t.IsZero = true ↔ t.ns = 0 := by
  simp [IsZero]

/-- `t` lies between 1970 and 2116: its Unix nanoseconds are in `[0, 2^62)`, so neither `UnixNano`
nor the difference of two such values wraps. -/
def InUnixRange (t : Time) : Prop :=
  0 ≤ t.ns - unixToInternal * 1000000000 ∧ t.ns - unixToInternal * 1000000000 < 2 ^ 62

instance (t : Time) : Decidable t.InUnixRange := by
  unfold InUnixRange
  infer_instance

section InUnixRange

variable {t u : Time} (ht : t.InUnixRange) (hu : u.InUnixRange)
include ht

theorem unixNano_of_inUnixRange : t.UnixNano = t.ns - unixToInternal * 1000000000 :=
  wrap64_of_mem (by unfold InUnixRange at ht; omega) (by unfold InUnixRange at ht; omega)

theorem unixNano_bounds : 0 ≤ t.UnixNano ∧ t.UnixNano < 2 ^ 62 := by
  rw [unixNano_of_inUnixRange ht]
  exact ht

include hu

theorem unixNano_le_iff : t.UnixNano ≤ u.UnixNano ↔ t.ns ≤ u.ns := by
  rw [unixNano_of_inUnixRange ht, unixNano_of_inUnixRange hu]
  omega

end InUnixRange

end Time

end Go
