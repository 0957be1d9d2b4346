import Mathlib.Data.List.Basic

/-!
# Queues that are served from the front

A queue to which anything may be appended at any time and from which elements are taken
one by one at the front. `Serves q added q' done` says that `q'` is what such a queue looks
like after `done` has been taken from `q`, when `added` has come meanwhile, in that order.
What is known of one turn then adds up over many (`Serves.trans`): the elements are taken in
the order they came, none is passed over, and enough turns take all that were there at the
beginning (`Serves.prefix_of_le`).
-/

namespace Fifo

variable {α : Type*}

/-- `added` has come behind `q`, `done` has been taken in front, and `q'` is left. -/
def Serves (q added q' done : List α) : Prop := q ++ added = done ++ q'

namespace Serves

theorem refl (q : List α) : Serves q [] q [] := List.append_nil q

/-- Something is appended. -/
theorem push (q added : List α) : Serves q added (q ++ added) [] := rfl

/-- The first element is taken, and something may be appended. -/
theorem pop (x : α) (q added : List α) : Serves (x :: q) added (q ++ added) [x] := rfl

theorem trans {q q' q'' added added' done done' : List α} (h : Serves q added q' done)
    (h' : Serves q' added' q'' done') : Serves q (added ++ added') q'' (done ++ done') := by
  unfold Serves at h h' ⊢
  rw [← List.append_assoc, h, List.append_assoc, h', List.append_assoc]

/-- Enough turns take all that was there. -/
theorem prefix_of_le {q added q' done : List α} (h : Serves q added q' done)
    (hle : q.length ≤ done.length) : q <+: done :=
  List.prefix_of_prefix_length_le (List.prefix_append q added) ⟨q', h.symm⟩ hle

/-- So does a queue that has been emptied. -/
theorem prefix_of_nil {q added done : List α} (h : Serves q added [] done) : q <+: done := by
  unfold Serves at h
  rw [List.append_nil] at h
  exact ⟨added, h⟩

end Serves

end Fifo
