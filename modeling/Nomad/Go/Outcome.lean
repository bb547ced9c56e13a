import Mathlib

/-!
# How a Go call ends

A Go function that returns `(T, error)` ends in one of three ways: with a value, with an error,
or, when it dereferences a `nil` pointer, with a run-time panic that unwinds the caller too.
`Outcome` keeps the three apart, so that "the call returns normally" is a statement about the
model and not an assumption. `bind` runs the next step only after a value; an error and a panic
pass through unchanged.
-/

namespace Go

inductive Outcome (α : Type) where
  | ok (a : α)
  | err (msg : String)
  | panic
  deriving DecidableEq, Repr

namespace Outcome

variable {α β : Type}

def bind : Outcome α → (α → Outcome β) → Outcome β
  | ok a, f => f a
  | err msg, _ => err msg
  | panic, _ => panic

def map (f : α → β) (x : Outcome α) : Outcome β := x.bind fun a => ok (f a)

/-- The call returned, with or without an error. -/
def Returns : Outcome α → Prop
  | panic => False
  | _ => True

instance : DecidablePred (Returns : Outcome α → Prop) := fun x =>
  match x with
  | ok _ => isTrue trivial
  | err _ => isTrue trivial
  | panic => isFalse id

@[simp] theorem ok_bind (a : α) (f : α → Outcome β) : (ok a).bind f = f a := rfl

@[simp] theorem err_bind (msg : String) (f : α → Outcome β) : (err msg).bind f = err msg := rfl

@[simp] theorem panic_bind (f : α → Outcome β) : (panic : Outcome α).bind f = panic := rfl

@[simp] theorem returns_ok (a : α) : (ok a).Returns := trivial

@[simp] theorem returns_err (msg : String) : (err msg : Outcome α).Returns := trivial

@[simp] theorem not_returns_panic : ¬ (panic : Outcome α).Returns := id

theorem bind_eq_ok {x : Outcome α} {f : α → Outcome β} {b : β} :
    x.bind f = ok b ↔ ∃ a, x = ok a ∧ f a = ok b := by
  cases x with
  | ok a => simp [bind]
  | err msg => simp [bind]
  | panic => simp [bind]

theorem map_eq_ok {x : Outcome α} {f : α → β} {b : β} : x.map f = ok b ↔ ∃ a, x = ok a ∧ f a = b := by
  cases x with
  | ok a => simp [map, bind]
  | err msg => simp [map, bind]
  | panic => simp [map, bind]

end Outcome

end Go
