import Mathlib

/-!
# Calls that pass their error on

A Go function that returns `(T, error)` to a caller that returns the error on is an `Except`
computation: a `do` block runs the calls in order and stops at the first error. A successful
result reads back into the successful calls it is made of (`bind_eq_ok`). A loop keeps what each
of its steps keeps (`foldl_invariant`), and so does one that stops at the first error
(`foldlM_invariant`); when the steps also
append to a log, a property of the state that each step keeps once its own entries are good is
kept by the loop once every entry of the final log is good (`foldlM_log_invariant`).
-/

namespace Go

variable {ε α β : Type}

theorem bind_eq_ok {x : Except ε α} {f : α → Except ε β} {b : β} (h : (x >>= f) = .ok b) :
    ∃ a, x = .ok a ∧ f a = .ok b := by
  cases x with
  | error e => cases h
  | ok a => exact ⟨a, rfl, h⟩

theorem bind_eq_error {x : Except ε α} {f : α → Except ε β} {e : ε} (h : (x >>= f) = .error e) :
    (∃ a, x = .ok a ∧ f a = .error e) ∨ x = .error e := by
  cases x with
  | error e' => exact .inr (by cases h; rfl)
  | ok a => exact .inl ⟨a, rfl, h⟩

@[simp] theorem pure_eq_ok {a b : α} : (pure a : Except ε α) = .ok b ↔ a = b :=
  ⟨fun h => Except.ok.inj h, fun h => h ▸ rfl⟩

@[simp] theorem mapError_eq_ok {ε' : Type} {x : Except ε α} {f : ε → ε'} {b : α} :
    x.mapError f = .ok b ↔ x = .ok b := by
  cases x <;> simp [Except.mapError]

theorem map_eq_ok {x : Except ε α} {f : α → β} {b : β} (h : x.map f = .ok b) :
    ∃ a, x = .ok a ∧ f a = b := by
  cases x with
  | error e => cases h
  | ok a => exact ⟨a, rfl, Except.ok.inj h⟩

theorem foldl_invariant {g : β → α → β} (P : β → Prop) (l : List α)
    (hg : ∀ b, ∀ a ∈ l, P b → P (g b a)) {b : β} (hb : P b) : P (l.foldl g b) := by
  induction l generalizing b with
  | nil => exact hb
  | cons a l ih =>
    rw [List.foldl_cons]
    exact ih (fun b' a' ha' => hg b' a' (List.mem_cons_of_mem a ha')) (hg b a List.mem_cons_self hb)

variable {f : β → α → Except ε β}

theorem foldlM_invariant (P : β → Prop) (hf : ∀ b a b', P b → f b a = .ok b' → P b') :
    ∀ (l : List α) {b b' : β}, P b → l.foldlM f b = .ok b' → P b'
  | [], _, _, hb, h => by
    cases h
    exact hb
  | a :: l, b, b', hb, h => by
    rw [List.foldlM_cons] at h
    obtain ⟨b₁, h₁, h₂⟩ := bind_eq_ok h
    exact foldlM_invariant P hf l (hf b a b₁ hb h₁) h₂

section log

variable {ω : Type} (log : β → List ω)

theorem foldlM_log_append (hlog : ∀ b a b', f b a = .ok b' → ∃ ws, log b' = log b ++ ws) :
    ∀ (l : List α) {b b' : β}, l.foldlM f b = .ok b' → ∃ ws, log b' = log b ++ ws
  | [], _, _, h => by
    cases h
    exact ⟨[], (List.append_nil _).symm⟩
  | a :: l, b, b', h => by
    rw [List.foldlM_cons] at h
    obtain ⟨b₁, h₁, h₂⟩ := bind_eq_ok h
    obtain ⟨ws₁, hw₁⟩ := hlog b a b₁ h₁
    obtain ⟨ws₂, hw₂⟩ := foldlM_log_append hlog l h₂
    exact ⟨ws₁ ++ ws₂, by rw [hw₂, hw₁, List.append_assoc]⟩

/-- The loop rule for steps that append to a log: a property each step keeps once its own log
entries satisfy `Q` holds after the loop once every entry of the final log does. -/
theorem foldlM_log_invariant (P : β → Prop) (Q : ω → Prop)
    (hlog : ∀ b a b', f b a = .ok b' → ∃ ws, log b' = log b ++ ws)
    (hP : ∀ b a b', P b → f b a = .ok b' → (∀ w ∈ log b', Q w) → P b') :
    ∀ (l : List α) {b b' : β}, P b → l.foldlM f b = .ok b' → (∀ w ∈ log b', Q w) → P b'
  | [], _, _, hb, h, _ => by
    cases h
    exact hb
  | a :: l, b, b', hb, h, hQ => by
    rw [List.foldlM_cons] at h
    obtain ⟨b₁, h₁, h₂⟩ := bind_eq_ok h
    -- the entries of the first step are in the final log too
    obtain ⟨ws, hws⟩ := foldlM_log_append log hlog l h₂
    have hQ₁ : ∀ w ∈ log b₁, Q w := fun w hw => hQ w (by rw [hws]; exact List.mem_append_left ws hw)
    exact foldlM_log_invariant P Q hlog hP l (hP b a b₁ hb h₁ hQ₁) h₂ hQ

end log

end Go
