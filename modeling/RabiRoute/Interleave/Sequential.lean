import RabiRoute.Interleave.Program

/-!
# Programs that run to their end

A program that nobody interrupts takes a state to its outcome and a final state.  `After` says what holds
then; its rules follow the constructors of the program.
-/

namespace Interleave

namespace Program

variable {C : Type} {R : C → Type} {ε ε' α β σ : Type}

theorem handle_handle {ε'' γ : Type} (p : Program C R ε α) (f : α → Program C R ε' β) (g : ε → Program C R ε' β)
    (f' : β → Program C R ε'' γ) (g' : ε' → Program C R ε'' γ) :
    (p.handle f g).handle f' g' = p.handle (fun a => (f a).handle f' g') fun e => (g e).handle f' g' := by
  induction p with
  | ret a => rfl
  | raise e => rfl
  | step c k ih => exact congrArg (step c) (funext ih)

instance : LawfulMonad (Program C R ε) := LawfulMonad.mk' _
  (by
    intro α p
    show p.handle ret raise = p
    induction p with
    | ret a => rfl
    | raise e => rfl
    | step c k ih => exact congrArg (step c) (funext ih))
  (fun a f ↦ rfl)
  (fun p f g ↦ handle_handle p f raise g raise)

def run (exec : (c : C) → σ → R c × σ) : Program C R ε α → σ → Except ε α × σ
  | ret a, s => (.ok a, s)
  | raise e, s => (.error e, s)
  | step c k, s => (k (exec c s).1).run exec (exec c s).2

variable {exec : (c : C) → σ → R c × σ} {s : σ}

@[simp] theorem run_ret (a : α) : (ret a : Program C R ε α).run exec s = (.ok a, s) := rfl

@[simp] theorem run_raise (e : ε) : (raise e : Program C R ε α).run exec s = (.error e, s) := rfl

@[simp] theorem run_step (c : C) (k : R c → Program C R ε α) :
    (step c k).run exec s = (k (exec c s).1).run exec (exec c s).2 := rfl

theorem run_handle (p : Program C R ε α) (f : α → Program C R ε' β) (g : ε → Program C R ε' β) :
    (p.handle f g).run exec s =
      match p.run exec s with
      | (.ok a, s') => (f a).run exec s'
      | (.error e, s') => (g e).run exec s' := by
  induction p generalizing s with
  | ret a => rfl
  | raise e => rfl
  | step c k ih => exact ih _

theorem run_bind_pure (p : Program C R ε α) (f : α → β) :
    (p >>= fun a => pure (f a)).run exec s = ((p.run exec s).1.map f, (p.run exec s).2) := by
  rw [bind_eq, run_handle]
  rcases p.run exec s with ⟨outcome, s'⟩
  cases outcome with
  | ok a => rfl
  | error e => rfl

/-- What holds of the outcome and the final state. -/
def After (exec : (c : C) → σ → R c × σ) (p : Program C R ε α) (s : σ) (post : Except ε α → σ → Prop) : Prop :=
  post (p.run exec s).1 (p.run exec s).2

theorem after_iff {p : Program C R ε α} {post : Except ε α → σ → Prop} :
    p.After exec s post ↔ ∀ outcome s', p.run exec s = (outcome, s') → post outcome s' :=
  ⟨fun h outcome s' hrun => (by rw [After, hrun] at h; exact h), fun h => h _ _ rfl⟩

theorem After.mono {p : Program C R ε α} {post post' : Except ε α → σ → Prop} (h : p.After exec s post)
    (hpost : ∀ outcome s', post outcome s' → post' outcome s') : p.After exec s post' :=
  hpost _ _ h

@[simp] theorem after_ret (a : α) {post : Except ε α → σ → Prop} :
    (ret a : Program C R ε α).After exec s post ↔ post (.ok a) s := Iff.rfl

@[simp] theorem after_raise (e : ε) {post : Except ε α → σ → Prop} :
    (raise e : Program C R ε α).After exec s post ↔ post (.error e) s := Iff.rfl

@[simp] theorem after_step (c : C) (k : R c → Program C R ε α) {post : Except ε α → σ → Prop} :
    (step c k).After exec s post ↔ (k (exec c s).1).After exec (exec c s).2 post := Iff.rfl

theorem after_handle {p : Program C R ε α} {f : α → Program C R ε' β} {g : ε → Program C R ε' β}
    {post : Except ε' β → σ → Prop} :
    (p.handle f g).After exec s post ↔
      p.After exec s fun outcome s' =>
        match outcome with
        | .ok a => (f a).After exec s' post
        | .error e => (g e).After exec s' post := by
  unfold After
  rw [run_handle]
  rcases p.run exec s with ⟨outcome, s'⟩
  cases outcome <;> rfl

end Program

end Interleave
