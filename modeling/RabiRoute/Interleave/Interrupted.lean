import RabiRoute.Interleave.Sequential

/-!
# Programs that may be killed

A program runs alone, to its end or until its process is killed: between two of its commands, or inside a
command, which is then torn.  `Keeps` says what every state is that a death may leave, and what holds at the
end; its rules follow the constructors of the program.
-/

namespace Interleave

structure Killable (σ C : Type) (R : C → Type) (Tear : Type) where
  exec : (c : C) → σ → R c × σ
  /-- What a death inside the command leaves; `none` where the command cannot be torn so. -/
  tear : C → Tear → σ → Option σ

namespace Killable

variable {σ C : Type} {R : C → Type} {Tear ε ε' α β : Type}

/-- Die after so many commands, or inside the next one. -/
def stop (M : Killable σ C R Tear) : Nat → Option Tear → Program C R ε α → σ → Option σ
  | 0, none, _, s => some s
  | 0, some x, .step c _, s => M.tear c x s
  | n + 1, x, .step c k, s => M.stop n x (k (M.exec c s).1) (M.exec c s).2
  | _, _, _, _ => none

/-- A program whose value is only renamed dies in the same states. -/
theorem stop_bind_pure (M : Killable σ C R Tear) {n : Nat} {x : Option Tear} (p : Program C R ε α) (f : α → β) (s : σ) :
    M.stop n x (p >>= fun a => pure (f a)) s = M.stop n x p s := by
  induction n generalizing p s with
  | zero =>
    cases x with
    | none => cases p <;> rfl
    | some x => cases p <;> rfl
  | succ n ih =>
    cases p with
    | ret a => rfl
    | raise e => rfl
    | step c k => exact ih (k (M.exec c s).1) (M.exec c s).2

/-- `P` holds of every state that a death may leave, and `Q` of the outcome and the final state. -/
def Keeps (M : Killable σ C R Tear) (P : σ → Prop) (Q : Except ε α → σ → Prop) : Program C R ε α → σ → Prop
  | .ret a, s => P s ∧ Q (.ok a) s
  | .raise e, s => P s ∧ Q (.error e) s
  | .step c k, s => P s ∧ (∀ x s', M.tear c x s = some s' → P s') ∧ M.Keeps P Q (k (M.exec c s).1) (M.exec c s).2

variable {M : Killable σ C R Tear} {P : σ → Prop} {Q : Except ε α → σ → Prop} {s s' : σ}
  {p : Program C R ε α}

theorem keeps_ret {a : α} (hP : P s) (hQ : Q (.ok a) s) : M.Keeps P Q (.ret a : Program C R ε α) s := ⟨hP, hQ⟩

theorem keeps_raise {e : ε} (hP : P s) (hQ : Q (.error e) s) : M.Keeps P Q (.raise e : Program C R ε α) s :=
  ⟨hP, hQ⟩

theorem keeps_step {c : C} {k : R c → Program C R ε α} (hP : P s) (htear : ∀ x s', M.tear c x s = some s' → P s')
    (hk : M.Keeps P Q (k (M.exec c s).1) (M.exec c s).2) : M.Keeps P Q (.step c k) s :=
  ⟨hP, htear, hk⟩

theorem Keeps.here (h : M.Keeps P Q p s) : P s := by
  cases p with
  | ret a => exact h.1
  | raise e => exact h.1
  | step c k => exact h.1

theorem Keeps.run (h : M.Keeps P Q p s) : P (p.run M.exec s).2 ∧ Q (p.run M.exec s).1 (p.run M.exec s).2 := by
  induction p generalizing s with
  | ret a => exact h
  | raise e => exact h
  | step c k ih => exact ih _ h.2.2

theorem Keeps.stop {n : Nat} {x : Option Tear} (h : M.Keeps P Q p s) (hstop : M.stop n x p s = some s') : P s' := by
  induction n generalizing p s with
  | zero =>
    cases x with
    | none =>
      have hs : some s = some s' := by
        cases p <;> exact hstop
      exact Option.some.inj hs ▸ h.here
    | some x =>
      cases p with
      | ret a => cases hstop
      | raise e => cases hstop
      | step c k => exact h.2.1 x s' hstop
  | succ n ih =>
    cases p with
    | ret a => cases hstop
    | raise e => cases hstop
    | step c k => exact ih h.2.2 hstop

theorem Keeps.mono {P' : σ → Prop} {Q' : Except ε α → σ → Prop} (h : M.Keeps P Q p s) (hP : ∀ s, P s → P' s)
    (hQ : ∀ outcome s, Q outcome s → Q' outcome s) : M.Keeps P' Q' p s := by
  induction p generalizing s with
  | ret a => exact ⟨hP s h.1, hQ _ s h.2⟩
  | raise e => exact ⟨hP s h.1, hQ _ s h.2⟩
  | step c k ih => exact ⟨hP s h.1, fun x s' hx => hP s' (h.2.1 x s' hx), ih _ h.2.2⟩

theorem Keeps.handle {q : Program C R ε' β} {f : β → Program C R ε α} {g : ε' → Program C R ε α}
    {Qq : Except ε' β → σ → Prop} (h : M.Keeps P Qq q s) (hf : ∀ b s, P s → Qq (.ok b) s → M.Keeps P Q (f b) s)
    (hg : ∀ e s, P s → Qq (.error e) s → M.Keeps P Q (g e) s) : M.Keeps P Q (q.handle f g) s := by
  induction q generalizing s with
  | ret b => exact hf b s h.1 h.2
  | raise e => exact hg e s h.1 h.2
  | step c k ih => exact ⟨h.1, h.2.1, ih _ h.2.2⟩

theorem Keeps.bind {q : Program C R ε β} {f : β → Program C R ε α} {Qq : Except ε β → σ → Prop}
    (h : M.Keeps P Qq q s) (hf : ∀ b s, P s → Qq (.ok b) s → M.Keeps P Q (f b) s)
    (he : ∀ e s, P s → Qq (.error e) s → Q (.error e) s) : M.Keeps P Q (q >>= f) s :=
  h.handle hf fun e s hP hQ => ⟨hP, he e s hP hQ⟩

end Killable

end Interleave
