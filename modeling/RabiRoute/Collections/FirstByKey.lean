import Mathlib.Data.List.Basic
import Mathlib.Tactic.Common

/-!
# The first element of each key

A list without the elements whose key came before.
-/

namespace Collections

variable {α κ : Type} [DecidableEq κ]

/-- Take an element over unless one with its key is there. -/
def addFirst (key : α → κ) (kept : List α) (x : α) : List α :=
  if key x ∈ kept.map key then kept else kept ++ [x]

def firsts (key : α → κ) : List α → List α
  | [] => []
  | x :: l => x :: (firsts key l).filter fun y ↦ decide (key y ≠ key x)

variable {key : α → κ} {l m : List α} {x : α}

theorem foldl_addFirst (kept : List α) :
    l.foldl (addFirst key) kept = kept ++ (firsts key l).filter fun x => decide (key x ∉ kept.map key) := by
  induction l generalizing kept with
  | nil => simp [firsts]
  | cons x l ih =>
    rw [List.foldl_cons, ih, firsts]
    unfold addFirst
    by_cases hx : key x ∈ kept.map key
    · rw [if_pos hx, List.filter_cons_of_neg (by simpa using hx), List.filter_filter]
      congr 1
      apply List.filter_congr
      intro y _
      by_cases hy : key y = key x
      · simp [hy, hx]
      · simp [hy]
    · rw [if_neg hx, List.filter_cons_of_pos (by simpa using hx), List.filter_filter, List.append_assoc,
        List.singleton_append]
      congr 2
      apply List.filter_congr
      intro y _
      simp [not_or]

theorem firsts_append :
    firsts key (l ++ m) = firsts key l ++ (firsts key m).filter fun x => decide (key x ∉ l.map key) := by
  induction l with
  | nil => simp [firsts]
  | cons x l ih =>
    rw [List.cons_append, firsts, firsts, ih, List.filter_append, List.filter_filter, List.cons_append]
    congr 2
    apply List.filter_congr
    intro y _
    simp [not_or]

theorem mem_of_mem_firsts (h : x ∈ firsts key l) : x ∈ l := by
  induction l with
  | nil => cases h
  | cons y l ih =>
    rw [firsts, List.mem_cons] at h
    cases h with
    | inl heq => exact heq ▸ List.mem_cons_self
    | inr hin => exact List.mem_cons_of_mem _ (ih (List.mem_filter.mp hin).1)

/-- Elements of no interest that own no key of interest later can be left out. -/
theorem filter_firsts_skip {p : α → Bool} {skipped : List α} (hskipped : ∀ x ∈ skipped, p x = false)
    (hlater : ∀ y ∈ m, p y = true → key y ∉ skipped.map key) :
    (firsts key (l ++ (skipped ++ m))).filter p = (firsts key (l ++ m)).filter p := by
  rw [firsts_append, firsts_append (l := l), firsts_append (l := skipped), List.filter_append, List.filter_append,
    List.filter_append, List.filter_append]
  congr 1
  have hnone : ((firsts key skipped).filter fun x => decide (key x ∉ l.map key)).filter p = [] := by
    rw [List.filter_eq_nil_iff]
    intro x hx
    have hmem := mem_of_mem_firsts (List.mem_filter.mp hx).1
    rw [hskipped x hmem]
    exact Bool.false_ne_true
  rw [hnone, List.nil_append, List.filter_filter, List.filter_filter, List.filter_filter]
  apply List.filter_congr
  intro y hy
  by_cases hp : p y = true
  · simp [hlater y (mem_of_mem_firsts hy) hp]
  · simp [hp]

end Collections
