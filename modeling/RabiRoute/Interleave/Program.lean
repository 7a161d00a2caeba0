import Mathlib.Algebra.BigOperators.Group.Finset.Piecewise
import Mathlib.Algebra.Order.BigOperators.Group.Finset
import Mathlib.Algebra.Order.Field.Rat
import Mathlib.Data.List.Sort
import Mathlib.Data.List.TakeWhile
import Mathlib.Tactic.Common

/-!
# Sequential programs of atomic commands

A `Program` is the control flow of one caller: it performs a command, gets its response and goes
on, until it returns a value or raises an error.  The commands are the points at which other
callers may run, so a program says exactly where its caller can be interrupted.
-/

namespace Interleave

inductive Program (C : Type) (R : C → Type) (ε α : Type) where
  | ret (a : α)
  | raise (e : ε)
  | step (c : C) (k : R c → Program C R ε α)

namespace Program

variable {C : Type} {R : C → Type} {ε ε' α β : Type}

/-- Continue with `f` after a value and with `g` after an error. -/
def handle :
    Program C R ε α → (α → Program C R ε' β) → (ε → Program C R ε' β) → Program C R ε' β
  | ret a, f, _ => f a
  | raise e, _, g => g e
  | step c k, f, g => step c fun r ↦ (k r).handle f g

def bind (p : Program C R ε α) (f : α → Program C R ε β) : Program C R ε β :=
  p.handle f raise

/-- `try p catch h`. -/
def attempt (p : Program C R ε α) (h : ε → Program C R ε α) : Program C R ε α :=
  p.handle ret h

/-- `try p finally f`: an error of `f` replaces the outcome of `p`. -/
def ensure (p : Program C R ε α) (f : Program C R ε Unit) : Program C R ε α :=
  p.handle (fun a ↦ f.bind fun _ ↦ ret a) (fun e ↦ f.bind fun _ ↦ raise e)

def perform (c : C) : Program C R ε (R c) := step c ret

instance : Monad (Program C R ε) where
  pure := ret
  bind := bind

@[simp] theorem pure_eq (a : α) : (pure a : Program C R ε α) = ret a := rfl

@[simp] theorem bind_eq (p : Program C R ε α) (f : α → Program C R ε β) :
    p >>= f = p.handle f raise := rfl

@[simp] theorem handle_ret (a : α) (f : α → Program C R ε' β) (g : ε → Program C R ε' β) :
    (ret a).handle f g = f a := rfl

@[simp] theorem handle_raise (e : ε) (f : α → Program C R ε' β) (g : ε → Program C R ε' β) :
    (raise e : Program C R ε α).handle f g = g e := rfl

@[simp] theorem handle_perform (c : C) (f : R c → Program C R ε' β) (g : ε → Program C R ε' β) :
    (perform c).handle f g = step c f := rfl

/-! ## Commands that can throw -/

/-- The answer to a command: its value, or the error that it throws. -/
abbrev Fallible (ε : Type) (V : C → Type) (c : C) : Type := Except ε (V c)

/-- Perform a command and throw its error. -/
def performOrThrow {V : C → Type} (c : C) : Program C (Fallible ε V) ε (V c) :=
  (perform c).handle (fun r ↦ match r with | .ok v => ret v | .error e => raise e) raise

/-! ## Programs that stay within some commands -/

/-- Every command that the program can perform is in `P`. -/
def Uses (P : C → Prop) : Program C R ε α → Prop
  | ret _ => True
  | raise _ => True
  | step c k => P c ∧ ∀ r, (k r).Uses P

theorem uses_true (p : Program C R ε α) : p.Uses fun _ => True := by
  induction p with
  | ret a => trivial
  | raise e => trivial
  | step c k ih => exact ⟨trivial, ih⟩

theorem Uses.handle {P : C → Prop} {p : Program C R ε α} {f : α → Program C R ε' β} {g : ε → Program C R ε' β} (hp :
    p.Uses P) (hf : ∀ a, (f a).Uses P) (hg : ∀ e, (g e).Uses P) : (p.handle f g).Uses P := by
  induction p with
  | ret a => exact hf a
  | raise e => exact hg e
  | step c k ih => exact ⟨hp.1, fun r => ih r (hp.2 r)⟩

theorem Uses.performOrThrow {V : C → Type} {P : C → Prop} {c : C} (hc : P c) :
    (performOrThrow c : Program C (Fallible ε V) ε (V c)).Uses P :=
  ⟨hc, fun r => match r with | .ok _ => trivial | .error _ => trivial⟩

theorem Uses.bind {P : C → Prop} {p : Program C R ε α} {f : α → Program C R ε β}
    (hp : p.Uses P) (hf : ∀ a, (f a).Uses P) : (p >>= f).Uses P :=
  hp.handle hf fun _ => trivial

theorem Uses.attempt {P : C → Prop} {p : Program C R ε α} {g : ε → Program C R ε α}
    (hp : p.Uses P) (hg : ∀ e, (g e).Uses P) : (p.attempt g).Uses P :=
  hp.handle (fun _ => trivial) hg

theorem Uses.ensure {P : C → Prop} {p : Program C R ε α} {f : Program C R ε Unit}
    (hp : p.Uses P) (hf : f.Uses P) : (p.ensure f).Uses P :=
  hp.handle (fun _ => hf.bind fun _ => trivial) fun _ => hf.bind fun _ => trivial

end Program

end Interleave
