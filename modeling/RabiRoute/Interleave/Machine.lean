import RabiRoute.Interleave.Program

/-!
# Callers over one shared state

A `Machine` gives each command its atomic effect on a shared state.  A choice stands for what the
outside world decides at that moment (an input, an answer, a failure), and an event changes the
shared state without any caller (a clock tick, the death of a process).  The scheduler is a list
of labels, so a run is a value that can be evaluated.
-/

namespace Interleave

structure Machine (σ C : Type) (R : C → Type) (Tid Ch Ev : Type) where
  exec : Tid → (c : C) → Ch → σ → Option (R c × σ)
  event : Ev → σ → Option σ

structure Config (σ C : Type) (R : C → Type) (Tid ε α : Type) where
  shared : σ
  prog : Tid → Program C R ε α

inductive Label (Tid Ch Ev : Type) where
  | run (t : Tid) (ch : Ch)
  | event (e : Ev)

namespace Machine

variable {σ C : Type} {R : C → Type} {Tid Ch Ev ε α : Type} [DecidableEq Tid]

/-- One scheduler step; `none` when the label does not apply in this configuration. -/
def next (M : Machine σ C R Tid Ch Ev) (cfg : Config σ C R Tid ε α) :
    Label Tid Ch Ev → Option (Config σ C R Tid ε α)
  | .run t ch =>
    match cfg.prog t with
    | .step c k =>
      (M.exec t c ch cfg.shared).map fun rs ↦
        ⟨rs.2, fun u ↦ if u = t then k rs.1 else cfg.prog u⟩
    | _ => none
  | .event e => (M.event e cfg.shared).map fun s ↦ { cfg with shared := s }

/-- The condition `ok` holds of the step that label `l` makes; events are never restricted. -/
def Allowed (ok : Tid → C → Ch → σ → Prop) (cfg : Config σ C R Tid ε α) :
    Label Tid Ch Ev → Prop
  | .run t ch =>
    match cfg.prog t with
    | .step c _ => ok t c ch cfg.shared
    | _ => True
  | .event _ => True

instance {ok : Tid → C → Ch → σ → Prop} [∀ t c ch s, Decidable (ok t c ch s)]
    (cfg : Config σ C R Tid ε α) : (l : Label Tid Ch Ev) → Decidable (Allowed ok cfg l)
  | .run t ch =>
    match hp : cfg.prog t with
    | .step c _ => decidable_of_iff (ok t c ch cfg.shared) (by simp only [Allowed, hp])
    | .ret _ => .isTrue (by simp only [Allowed, hp])
    | .raise _ => .isTrue (by simp only [Allowed, hp])
  | .event _ => .isTrue trivial

/-- Follow the labels as long as each step meets `ok`. -/
def runUnder (M : Machine σ C R Tid Ch Ev) (ok : Tid → C → Ch → σ → Prop)
    [∀ t c ch s, Decidable (ok t c ch s)] (cfg : Config σ C R Tid ε α) :
    List (Label Tid Ch Ev) → Option (Config σ C R Tid ε α)
  | [] => some cfg
  | l :: ls => if Allowed ok cfg l then (M.next cfg l).bind (M.runUnder ok · ls) else none

def run (M : Machine σ C R Tid Ch Ev) (cfg : Config σ C R Tid ε α)
    (ls : List (Label Tid Ch Ev)) : Option (Config σ C R Tid ε α) :=
  M.runUnder (fun _ _ _ _ ↦ True) cfg ls

/-- The configurations that a run reaches when each of its steps meets `ok`. -/
inductive ReachUnder (M : Machine σ C R Tid Ch Ev) (ok : Tid → C → Ch → σ → Prop)
    (init : Config σ C R Tid ε α) : Config σ C R Tid ε α → Prop
  | refl : ReachUnder M ok init init
  | next {cfg cfg' : Config σ C R Tid ε α} (l : Label Tid Ch Ev) :
      ReachUnder M ok init cfg → Allowed ok cfg l → M.next cfg l = some cfg' →
      ReachUnder M ok init cfg'

/-- The configurations that any run reaches. -/
abbrev Reach (M : Machine σ C R Tid Ch Ev) (init : Config σ C R Tid ε α) :
    Config σ C R Tid ε α → Prop :=
  ReachUnder M (fun _ _ _ _ ↦ True) init

omit [DecidableEq Tid] in
theorem Allowed.mono {ok ok' : Tid → C → Ch → σ → Prop} {cfg : Config σ C R Tid ε α} {l : Label Tid Ch Ev} (hok : ∀ t c
    ch s, ok t c ch s → ok' t c ch s) (h : Allowed ok cfg l) : Allowed ok' cfg l := by
  cases l with
  | run t ch =>
    simp only [Allowed] at h ⊢
    split at h
    · exact hok _ _ _ _ h
    · trivial
  | event e => trivial

theorem ReachUnder.mono {M : Machine σ C R Tid Ch Ev} {ok ok' : Tid → C → Ch → σ → Prop} {init cfg : Config σ C R Tid ε
    α} (hok : ∀ t c ch s, ok t c ch s → ok' t c ch s) (h : M.ReachUnder ok init cfg) : M.ReachUnder ok' init cfg := by
  induction h with
  | refl => exact .refl
  | next l _ hallowed hnext ih => exact .next l ih (hallowed.mono hok) hnext

theorem ReachUnder.runUnder {M : Machine σ C R Tid Ch Ev} {ok : Tid → C → Ch → σ → Prop} [∀ t c ch s, Decidable (ok t c
    ch s)] {init cfg cfg' : Config σ C R Tid ε α} (ls : List (Label Tid Ch Ev)) (h : M.ReachUnder ok init cfg) (hrun :
    M.runUnder ok cfg ls = some cfg') : M.ReachUnder ok init cfg' := by
  induction ls generalizing cfg with
  | nil =>
    simp only [Machine.runUnder, Option.some.injEq] at hrun
    exact hrun ▸ h
  | cons l ls ih =>
    simp only [Machine.runUnder] at hrun
    split at hrun
    case isTrue hallowed =>
      obtain ⟨mid, hmid, hrest⟩ := Option.bind_eq_some_iff.mp hrun
      exact ih (.next l h hallowed hmid) hrest
    case isFalse => cases hrun

/-- A scheduler run ends in a configuration that is reached under its condition. -/
theorem runUnder_reach {M : Machine σ C R Tid Ch Ev} {ok : Tid → C → Ch → σ → Prop} [∀ t c ch s, Decidable (ok t c ch
    s)] {init cfg : Config σ C R Tid ε α} {ls : List (Label Tid Ch Ev)} (hrun : M.runUnder ok init ls = some cfg) :
    M.ReachUnder ok init cfg :=
  ReachUnder.runUnder ls .refl hrun

theorem run_reach {M : Machine σ C R Tid Ch Ev} {init cfg : Config σ C R Tid ε α}
    {ls : List (Label Tid Ch Ev)} (hrun : M.run init ls = some cfg) : M.Reach init cfg :=
  runUnder_reach hrun

end Machine

end Interleave
