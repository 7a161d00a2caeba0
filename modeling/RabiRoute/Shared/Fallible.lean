import Mathlib.Algebra.BigOperators.Group.Finset.Piecewise
import Mathlib.Algebra.Order.BigOperators.Group.Finset
import Mathlib.Algebra.Order.Field.Rat
import Mathlib.Data.List.Sort
import Mathlib.Data.List.TakeWhile
import Mathlib.Tactic.Common

/-!
# Computations that may fail

What it takes for a computation in `Except` to give a value.
-/

namespace Fallible

variable {ε α β : Type}

theorem bind_ok {x : Except ε α} {f : α → Except ε β} {b : β} : (x >>= f) = .ok b ↔ ∃ a, x = .ok a ∧ f a = .ok b := by
  cases x with
  | error e => exact ⟨fun h => (by cases h), fun ⟨_, h, _⟩ => (by cases h)⟩
  | ok a => exact ⟨fun h => ⟨a, rfl, h⟩, fun ⟨_, ha, h⟩ => Except.ok.inj ha ▸ h⟩

theorem map_ok {x : Except ε α} {f : α → β} {b : β} : x.map f = .ok b ↔ ∃ a, x = .ok a ∧ f a = b := by
  cases x with
  | error e => exact ⟨fun h => (by cases h), fun ⟨_, h, _⟩ => (by cases h)⟩
  | ok a => exact ⟨fun h => ⟨a, rfl, Except.ok.inj h⟩, fun ⟨_, ha, h⟩ => congrArg _ (Except.ok.inj ha ▸ h)⟩

/-- A computation that does not fail gives the value that is taken from it. -/
theorem eq_ok_getD {x : Except ε α} {d : α} (h : x.toOption.isSome = true) : x = .ok (x.toOption.getD d) := by
  cases x with
  | error e => cases h
  | ok a => rfl

/-- A map that does not fail has succeeded at each item. -/
theorem mapM_ok {f : α → Except ε β} {as : List α} {bs : List β} (h : as.mapM f = .ok bs) :
    List.Forall₂ (fun a b => f a = .ok b) as bs := by
  induction as generalizing bs with
  | nil =>
    rw [List.mapM_nil] at h
    exact Except.ok.inj h ▸ List.Forall₂.nil
  | cons a as ih =>
    rw [List.mapM_cons] at h
    obtain ⟨b, hb, h⟩ := bind_ok.mp h
    obtain ⟨rest, hrest, h⟩ := bind_ok.mp h
    exact Except.ok.inj h ▸ List.Forall₂.cons hb (ih hrest)

theorem exists_of_mem_mapM {f : α → Except ε β} {as : List α} {bs : List β} {b : β} (h : as.mapM f = .ok bs)
    (hb : b ∈ bs) : ∃ a ∈ as, f a = .ok b := by
  have hall := mapM_ok h
  induction hall with
  | nil => cases hb
  | cons hhead hrest ih =>
    cases hb with
    | head => exact ⟨_, List.mem_cons_self, hhead⟩
    | tail _ hb =>
      rw [List.mapM_cons] at h
      obtain ⟨_, _, h⟩ := bind_ok.mp h
      obtain ⟨rest, hrest', h⟩ := bind_ok.mp h
      obtain ⟨-, rfl⟩ := List.cons.inj (Except.ok.inj h)
      obtain ⟨a, ha, hab⟩ := ih hrest' hb
      exact ⟨a, List.mem_cons_of_mem _ ha, hab⟩

end Fallible
