import Mathlib.Algebra.BigOperators.Group.Finset.Piecewise
import Mathlib.Algebra.Order.BigOperators.Group.Finset
import Mathlib.Algebra.Order.Field.Rat
import Mathlib.Data.List.Sort
import Mathlib.Data.List.TakeWhile
import Mathlib.Tactic.Common

/-!
# Systems that take one event at a time

A `System` says what one event answers and leaves, and `none` means that the event cannot happen.
`ReachUnder` restricts the runs to events that meet a condition in the state that they meet.
-/

namespace Transitions

structure System (σ Ev An : Type) where
  step : Ev → σ → Option (An × σ)

namespace System

variable {σ Ev An : Type}

/-- The states that a run from `init` reaches when each of its events meets `ok`. -/
inductive ReachUnder (M : System σ Ev An) (ok : Ev → σ → Prop) (init : σ) : σ → Prop
  | refl : ReachUnder M ok init init
  | next {s s' : σ} (e : Ev) (a : An) :
      ReachUnder M ok init s → ok e s → M.step e s = some (a, s') → ReachUnder M ok init s'

/-- The states that any run from `init` reaches. -/
abbrev Reach (M : System σ Ev An) (init : σ) : σ → Prop := ReachUnder M (fun _ _ ↦ True) init

variable {M : System σ Ev An} {ok : Ev → σ → Prop} {init s s' : σ}

/-- What holds at the start and survives each event holds at every state of a run. -/
theorem ReachUnder.invariant {P : σ → Prop} (h : M.ReachUnder ok init s) (hinit : P init)
    (hstep : ∀ e s a s', P s → ok e s → M.step e s = some (a, s') → P s') : P s := by
  induction h with
  | refl => exact hinit
  | next e a _ hok hs ih => exact hstep e _ a _ ih hok hs

theorem ReachUnder.mono {ok' : Ev → σ → Prop} (hok : ∀ e s, ok e s → ok' e s)
    (h : M.ReachUnder ok init s) : M.ReachUnder ok' init s := by
  induction h with
  | refl => exact .refl
  | next e a _ he hs ih => exact .next e a ih (hok _ _ he) hs

theorem ReachUnder.trans (h : M.ReachUnder ok init s) (h' : M.ReachUnder ok s s') : M.ReachUnder ok init s' := by
  induction h' with
  | refl => exact h
  | next e a _ hok hs ih => exact .next e a ih hok hs

/-- Take the events as long as each of them meets `ok`. -/
def runUnder (M : System σ Ev An) (ok : Ev → σ → Prop) [∀ e s, Decidable (ok e s)] (s : σ) :
    List Ev → Option σ
  | [] => some s
  | e :: es => if ok e s then (M.step e s).bind fun r ↦ M.runUnder ok r.2 es else none

def run (M : System σ Ev An) (s : σ) (es : List Ev) : Option σ := M.runUnder (fun _ _ ↦ True) s es

theorem ReachUnder.runUnder [∀ e s, Decidable (ok e s)] (es : List Ev) (h : M.ReachUnder ok init s) (hrun : M.runUnder
    ok s es = some s') : M.ReachUnder ok init s' := by
  induction es generalizing s with
  | nil =>
    simp only [System.runUnder, Option.some.injEq] at hrun
    exact hrun ▸ h
  | cons e es ih =>
    simp only [System.runUnder] at hrun
    split at hrun
    case isTrue hok =>
      obtain ⟨⟨a, mid⟩, hmid, hrest⟩ := Option.bind_eq_some_iff.mp hrun
      exact ih (.next e a h hok hmid) hrest
    case isFalse => cases hrun

theorem runUnder_reach [∀ e s, Decidable (ok e s)] {es : List Ev}
    (hrun : M.runUnder ok s es = some s') : M.ReachUnder ok s s' :=
  ReachUnder.runUnder es .refl hrun

/-- Events that meet `ok` wherever they happen. -/
theorem run_reachUnder {es : List Ev} (hok : ∀ e ∈ es, ∀ t, ok e t) (hrun : M.run s es = some s') :
    M.ReachUnder ok s s' := by
  induction es generalizing s with
  | nil =>
    cases hrun
    exact .refl
  | cons e es ih =>
    simp only [run, runUnder, if_true] at hrun
    obtain ⟨⟨a, mid⟩, hmid, hrest⟩ := Option.bind_eq_some_iff.mp hrun
    have htail := ih (fun e' he' => hok e' (List.mem_cons_of_mem _ he')) hrest
    exact .trans (.next e a .refl (hok e List.mem_cons_self s) hmid) htail

theorem run_reach {es : List Ev} (hrun : M.run s es = some s') : M.Reach s s' :=
  runUnder_reach hrun

end System

end Transitions
