import Mathlib

/-!
# Lists that only grow at the end

A result that a program builds by appending, such as a log or a plan, is related before and
after each step by `GrowsBy p`: the later list is the earlier one with entries appended, each
satisfying `p`. The relation composes along the steps of a run, weakens with `p`, and a filter
that rejects every entry `p` allows does not see the growth.
-/

namespace Container

variable {α : Type} {p q : α → Prop} {l l' l'' : List α}

/-- `l'` is `l` followed by entries that satisfy `p`. -/
def GrowsBy (p : α → Prop) (l l' : List α) : Prop :=
  ∃ δ, l' = l ++ δ ∧ ∀ x ∈ δ, p x

namespace GrowsBy

theorem refl (p : α → Prop) (l : List α) : GrowsBy p l l := ⟨[], by simp, by simp⟩

theorem of_eq (h : l' = l) : GrowsBy p l l' := h ▸ refl p l

theorem append (l δ : List α) (h : ∀ x ∈ δ, p x) : GrowsBy p l (l ++ δ) := ⟨δ, rfl, h⟩

theorem trans (h₁ : GrowsBy p l l') (h₂ : GrowsBy p l' l'') : GrowsBy p l l'' := by
  obtain ⟨δ₁, rfl, h₁⟩ := h₁
  obtain ⟨δ₂, rfl, h₂⟩ := h₂
  refine ⟨δ₁ ++ δ₂, by simp, fun x hx => ?_⟩
  rcases List.mem_append.mp hx with hx | hx
  · exact h₁ x hx
  · exact h₂ x hx

theorem mono (hpq : ∀ x, p x → q x) (h : GrowsBy p l l') : GrowsBy q l l' := by
  obtain ⟨δ, rfl, h⟩ := h
  exact ⟨δ, rfl, fun x hx => hpq x (h x hx)⟩

theorem mem (h : GrowsBy p l l') {x : α} (hx : x ∈ l') : x ∈ l ∨ p x := by
  obtain ⟨δ, rfl, h⟩ := h
  rcases List.mem_append.mp hx with hx | hx
  · exact .inl hx
  · exact .inr (h x hx)

theorem subset (h : GrowsBy p l l') : l ⊆ l' := by
  obtain ⟨δ, rfl, -⟩ := h
  exact List.subset_append_left _ _

theorem forall_of_append {δ : List α} (h : GrowsBy p l (l ++ δ)) : ∀ x ∈ δ, p x := by
  obtain ⟨δ', he, hp⟩ := h
  rwa [List.append_cancel_left he]

theorem eq_of_disjoint (hp : GrowsBy p l l') (hq : GrowsBy q l l') (hpq : ∀ x, p x → q x → False) :
    l' = l := by
  obtain ⟨δ, rfl, hδ⟩ := hp
  obtain ⟨δ', he, hδ'⟩ := hq
  have hsame : δ = δ' := List.append_cancel_left he
  subst hsame
  cases δ with
  | nil => exact List.append_nil l
  | cons x δ =>
    exact (hpq x (hδ x List.mem_cons_self) (hδ' x List.mem_cons_self)).elim

end GrowsBy

end Container
