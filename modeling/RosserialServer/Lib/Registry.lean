import Mathlib.Data.List.Basic
import Mathlib.Logic.Function.Basic

/-!
# Registries

Owners register under names, and items are sent to names. An item goes to the owner its
name has at that time, or to nobody. `hearAll` is what a list of such acts comes to; what
has been delivered is never taken back (`delivered_mono`).
-/

/-- What a registry can hear. -/
inductive RegistryAct (ι β α : Type*) where
  /-- A name gets an owner, or a new one. -/
  | bind (name : ι) (owner : β)
  | send (name : ι) (item : α)

structure Registry (ι β α : Type*) where
  owner : ι → Option β
  /-- The items that have reached an owner, with it, in order. -/
  delivered : List (β × α)

namespace Registry

variable {ι β α : Type*}

def empty : Registry ι β α := ⟨fun _ => none, []⟩

variable [DecidableEq ι]

def hear (r : Registry ι β α) : RegistryAct ι β α → Registry ι β α
  | .bind name owner => { r with owner := Function.update r.owner name (some owner) }
  | .send name item =>
      match r.owner name with
      | none => r
      | some owner => { r with delivered := r.delivered ++ [(owner, item)] }

def hearAll (r : Registry ι β α) (acts : List (RegistryAct ι β α)) : Registry ι β α :=
  acts.foldl hear r

theorem hearAll_append (r : Registry ι β α) (acts more : List (RegistryAct ι β α)) :
    r.hearAll (acts ++ more) = (r.hearAll acts).hearAll more := List.foldl_append

/-- One more message, of which `f` says what act it is, if any. -/
theorem hearAll_snoc {μ : Type*} (r : Registry ι β α) (f : μ → Option (RegistryAct ι β α))
    (messages : List μ) (m : μ) :
    r.hearAll ((messages ++ [m]).filterMap f)
      = (r.hearAll (messages.filterMap f)).hearAll (f m).toList := by
  rw [List.filterMap_append, hearAll_append]
  cases h : f m with
  | none =>
      rw [List.filterMap_cons_none h]
      rfl
  | some a =>
      rw [List.filterMap_cons_some h]
      rfl

theorem hear_send_none {r : Registry ι β α} {name : ι} (h : r.owner name = none) (item : α) :
    r.hear (.send name item) = r := by
  unfold hear
  dsimp only
  rw [h]

theorem hear_send_some {r : Registry ι β α} {name : ι} {owner : β} (h : r.owner name = some owner)
    (item : α) :
    r.hear (.send name item) = { r with delivered := r.delivered ++ [(owner, item)] } := by
  unfold hear
  dsimp only
  rw [h]

theorem hear_delivered (r : Registry ι β α) (a : RegistryAct ι β α) :
    r.delivered <+: (r.hear a).delivered := by
  cases a with
  | bind name owner => exact List.prefix_refl _
  | send name item =>
      cases h : r.owner name with
      | none => exact ⟨[], by rw [List.append_nil, hear_send_none h]⟩
      | some owner =>
          rw [hear_send_some h]
          exact List.prefix_append _ _

theorem hearAll_delivered (r : Registry ι β α) (acts : List (RegistryAct ι β α)) :
    r.delivered <+: (r.hearAll acts).delivered := by
  induction acts generalizing r with
  | nil => exact List.prefix_refl _
  | cons a acts ih => exact (r.hear_delivered a).trans (ih (r.hear a))

/-- **What has been delivered stays delivered.** -/
theorem delivered_mono (r : Registry ι β α) {acts acts' : List (RegistryAct ι β α)}
    (h : acts <+: acts') : (r.hearAll acts).delivered <+: (r.hearAll acts').delivered := by
  obtain ⟨more, rfl⟩ := h
  rw [hearAll_append]
  exact hearAll_delivered _ more

end Registry
