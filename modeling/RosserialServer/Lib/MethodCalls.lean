import RosserialServer.Lib.Lts

/-!
# Objects whose methods may throw

A method is a program in `EStateM ε σ`: it works on the state `σ` of an object, and when
an exception leaves it, what it has done to the object stays done. `step` makes one call
on behalf of a caller that goes on whatever becomes of it, and keeps the calls that
returned, with their results, in order.
-/

namespace MethodCalls

section Methods

variable {ε σ α β : Type} {x : EStateM ε σ α} {s s' : σ}

/-- A method goes on where the part of it that has run left the object. -/
theorem bind_of_ok {a : α} (h : x s = .ok a s') (f : α → EStateM ε σ β) :
    (x >>= f) s = f a s' := by
  show EStateM.bind x f s = _
  unfold EStateM.bind
  rw [h]

theorem bind_of_error {e : ε} (h : x s = .error e s') (f : α → EStateM ε σ β) :
    (x >>= f) s = .error e s' := by
  show EStateM.bind x f s = _
  unfold EStateM.bind
  rw [h]

end Methods

variable {ε σ ρ ι : Type} (call : ι → EStateM ε σ ρ)

/-- An object, and what the calls made on it so far have returned. -/
abbrev Called (σ ι ρ : Type) : Type := σ × List (ι × ρ)

def step (w : Called σ ι ρ) (i : ι) : Option (Called σ ι ρ) :=
  match call i w.1 with
  | .ok r s => some (s, w.2 ++ [(i, r)])
  | .error _ s => some (s, w.2)

variable {call}

/-- A call returns, and is kept, or throws. -/
theorem step_cases {w w' : Called σ ι ρ} {i : ι} (h : step call w i = some w') :
    (∃ r, call i w.1 = .ok r w'.1 ∧ w'.2 = w.2 ++ [(i, r)])
      ∨ ∃ e, call i w.1 = .error e w'.1 ∧ w'.2 = w.2 := by
  unfold step at h
  cases hc : call i w.1 with
  | ok r s =>
      rw [hc] at h
      obtain rfl := Option.some.inj h
      exact Or.inl ⟨r, rfl, rfl⟩
  | error e s =>
      rw [hc] at h
      obtain rfl := Option.some.inj h
      exact Or.inr ⟨e, rfl, rfl⟩

/-- The next call can always be made. -/
theorem step_total (call : ι → EStateM ε σ ρ) (w : Called σ ι ρ) (i : ι) :
    ∃ w', step call w i = some w' := by
  unfold step
  cases call i w.1 with
  | ok r s => exact ⟨_, rfl⟩
  | error e s => exact ⟨_, rfl⟩

end MethodCalls
