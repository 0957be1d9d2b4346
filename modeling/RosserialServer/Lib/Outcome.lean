import Mathlib.Data.List.Basic

/-!
# Computations that may fail

How a sequence of `Except` computations comes out, one step at a time: it fails with the
first failure, and it succeeds through the results of all its steps.
-/

namespace Outcome

universe u v

variable {ε : Type u} {α β : Type v}

@[simp] theorem ok_bind (a : α) (f : α → Except ε β) : (Except.ok a >>= f) = f a := rfl

@[simp] theorem error_bind (e : ε) (f : α → Except ε β) : (Except.error e >>= f) = .error e := rfl

theorem bind_eq_ok {x : Except ε α} {f : α → Except ε β} {b : β} :
    (x >>= f) = .ok b ↔ ∃ a, x = .ok a ∧ f a = .ok b := by
  cases x with
  | error e => simp
  | ok a => simp

/-- The computation does not fail. -/
def Succeeds (x : Except ε α) : Prop := ∃ a, x = .ok a

@[simp] theorem succeeds_ok (a : α) : Succeeds (.ok a : Except ε α) := ⟨a, rfl⟩

@[simp] theorem not_succeeds_error (e : ε) : ¬Succeeds (.error e : Except ε α) := by
  rintro ⟨a, ha⟩
  exact absurd ha (by simp)

/-- What cannot fail does not matter at the end. -/
theorem succeeds_bind_ok {x : Except ε α} {f : α → β} :
    Succeeds (x >>= fun a => .ok (f a)) ↔ Succeeds x := by
  cases x with
  | error e => simp
  | ok a => simp

end Outcome
