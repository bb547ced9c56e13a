import Mathlib

/-!
# Sliding windows over a list of times

A limiter that lets an event in only while fewer than `n` earlier events lie less than `w` before
it admits a list that is `Spaced w n`. Such a list has at most `n` events in every half-open window
`[T, T + w)`, in whatever order the events came: the last event of a window has every other event
of the window less than `w` before it.
-/

namespace Window

variable {α : Type*} [AddCommGroup α] [LinearOrder α] [IsOrderedAddMonoid α]

def inWindow (w T : α) (ts : List α) : List α := ts.filter fun t => T ≤ t ∧ t < T + w

def recent (w x : α) (ts : List α) : List α := ts.filter fun t => x - t < w

/-- Each event, when it was appended, had fewer than `n` recent events before it. -/
inductive Spaced (w : α) (n : Nat) : List α → Prop
  | nil : Spaced w n []
  | snoc {ts : List α} {x : α} : Spaced w n ts → (recent w x ts).length < n →
      Spaced w n (ts ++ [x])

variable {w : α}

theorem recent_sublist_of_le (w : α) {x y : α} (hxy : x ≤ y) (ts : List α) :
    (recent w y ts).Sublist (recent w x ts) := by
  apply List.monotone_filter_right
  intro t ht
  simp only [decide_eq_true_eq] at ht ⊢
  exact lt_of_le_of_lt (sub_le_sub_right hxy t) ht

theorem inWindow_sublist_recent {x T : α} (hx : x < T + w) (ts : List α) :
    (inWindow w T ts).Sublist (recent w x ts) := by
  apply List.monotone_filter_right
  intro t ht
  simp only [decide_eq_true_eq] at ht ⊢
  calc x - t ≤ x - T := sub_le_sub_left ht.1 x
    _ < w := sub_lt_iff_lt_add'.mpr hx

theorem Spaced.length_inWindow_le {n : Nat} {ts : List α} (h : Spaced w n ts) (T : α) :
    (inWindow w T ts).length ≤ n := by
  induction h with
  | nil => simp [inWindow]
  | @snoc ts x _ hrecent ih =>
    by_cases hx : T ≤ x ∧ x < T + w
    · -- the new event closes the window: the others of it are recent at `x`
      have hle := (inWindow_sublist_recent hx.2 ts).length_le
      rw [inWindow, List.filter_append, List.filter_cons_of_pos (by simpa using hx),
        List.filter_nil, List.length_append, List.length_singleton]
      exact Nat.succ_le_of_lt (lt_of_le_of_lt hle hrecent)
    · simpa [inWindow, List.filter_append, hx] using ih

end Window
