import Mathlib.Algebra.Order.Floor.Ring
import Mathlib.Algebra.Order.Field.Basic
import Mathlib.Data.Int.ConditionallyCompleteOrder
import Mathlib.Order.Interval.Set.Basic
import Mathlib.Tactic.Linarith
import Mathlib.Tactic.Ring

/-!
# Windows that recur, and grids

A window opens once in each period; the points of a grid are one step apart.
-/

namespace Periodic

/-- A window that opens once in each period. -/
structure Window where
  period : Int
  first : Int
  length : Int
  length_pos : 0 < length
  length_le : length ≤ period

namespace Window

variable (w : Window)

def start (k : Int) : Int := w.first + k * w.period

def stop (k : Int) : Int := w.start k + w.length

def occurrence (k : Int) : Set Int := Set.Ico (w.start k) (w.stop k)

def Open (t : Int) : Prop := ∃ k, t ∈ w.occurrence k

variable {w} {t k d : Int}

theorem period_pos : 0 < w.period := lt_of_lt_of_le w.length_pos w.length_le

theorem start_add_one : w.start (k + 1) = w.start k + w.period := by
  unfold start
  ring

theorem start_mono (h : k ≤ d) : w.start k ≤ w.start d := by
  unfold start
  have := Int.mul_le_mul_of_nonneg_right h w.period_pos.le
  omega

theorem start_lt_stop : w.start k < w.stop k := by
  have := w.length_pos
  unfold stop
  omega

theorem stop_le_start : w.stop k ≤ w.start (k + 1) := by
  have := w.length_le
  rw [start_add_one]
  unfold stop
  omega

/-- The occurrence that holds a time is the one whose start came last. -/
theorem eq_of_mem (h : t ∈ w.occurrence k) (hstart : w.start d ≤ t) (hnext : t < w.start (d + 1)) : k = d := by
  have hstop := lt_of_lt_of_le h.2 w.stop_le_start
  rcases lt_trichotomy k d with hlt | heq | hgt
  · have := w.start_mono (show k + 1 ≤ d by omega)
    omega
  · exact heq
  · have := w.start_mono (show d + 1 ≤ k by omega)
    have := h.1
    omega

/-- The end of an occurrence belongs to the next one when the window never closes. -/
theorem open_stop_iff : w.Open (w.stop k) ↔ w.length = w.period := by
  have hnext := w.start_add_one (k := k)
  have hle := w.stop_le_start (k := k)
  have hlt := w.start_lt_stop (k := k)
  have hstop : w.stop k = w.start k + w.length := rfl
  constructor
  · intro h
    obtain ⟨j, hj⟩ := h
    by_contra hne
    have hj' := w.eq_of_mem hj hlt.le (by have := w.length_le; omega)
    rw [hj'] at hj
    exact absurd hj.2 (lt_irrefl _)
  · intro h
    have heq : w.stop k = w.start (k + 1) := by omega
    rw [heq]
    exact ⟨k + 1, le_refl _, w.start_lt_stop⟩

end Window

/-! ## Grids -/

section Grid

variable {α : Type} [Field α] [LinearOrder α] [IsStrictOrderedRing α] [FloorRing α]

/-- The first point after `now` of the grid through `anchor`. -/
def gridPoint (step anchor now : α) : α := anchor + (⌊(now - anchor) / step⌋ + 1) * step

variable {step anchor now : α}

theorem lt_gridPoint (h : 0 < step) : now < gridPoint step anchor now := by
  have hfloor := Int.lt_floor_add_one ((now - anchor) / step)
  rw [div_lt_iff₀ h] at hfloor
  unfold gridPoint
  linarith

theorem gridPoint_le (h : 0 < step) : gridPoint step anchor now ≤ now + step := by
  have hfloor := Int.floor_le ((now - anchor) / step)
  rw [le_div_iff₀ h] at hfloor
  unfold gridPoint
  linarith

/-- The point is the only one of the grid within a step after `now`. -/
theorem eq_gridPoint (h : 0 < step) {n : Int} (hlt : now < anchor + n * step) (hle : anchor + n * step ≤ now + step) :
    anchor + n * step = gridPoint step anchor now := by
  have hn : ⌊(now - anchor) / step⌋ = n - 1 := by
    rw [Int.floor_eq_iff, le_div_iff₀ h, div_lt_iff₀ h]
    push_cast
    constructor <;> linarith
  unfold gridPoint
  rw [hn]
  push_cast
  ring

end Grid

end Periodic
