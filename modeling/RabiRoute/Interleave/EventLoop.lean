import RabiRoute.Interleave.Program
import RabiRoute.Transitions.System

/-!
# Callers on one thread

Callers that share a thread take turns.  Within a turn its commands follow each other; the turn ends where
the caller awaits an answer from outside.  The process may die between any two commands, with all its
callers, and be started again.
-/

namespace Interleave

structure Thread (σ C : Type) (R : C → Type) (Tid Ch : Type) where
  awaits : C → Bool
  exec : Tid → (c : C) → σ → R c × σ
  /-- An answer that the caller awaits; `none` where it cannot be given. -/
  answer : Tid → (c : C) → Ch → σ → Option (R c × σ)
  /-- What a new process finds. -/
  restart : σ → σ

/-- A caller, from before its first turn to its outcome or the death of its process. -/
inductive Call (C : Type) (R : C → Type) (ε α : Type) where
  | idle
  | live (p : Program C R ε α)
  | dead

structure Process (σ C : Type) (R : C → Type) (Tid ε α : Type) where
  shared : σ
  calls : Tid → Call C R ε α

inductive Turn (Tid Ch : Type) where
  | start (t : Tid)
  | answer (t : Tid) (ch : Ch)

def Turn.caller {Tid Ch : Type} : Turn Tid Ch → Tid
  | .start t => t
  | .answer t _ => t

/-- A turn runs to its end, or the process dies after some of its commands or between two turns. -/
inductive Round (Tid Ch : Type) where
  | run (turn : Turn Tid Ch)
  | die (turn : Option (Turn Tid Ch × Nat))

namespace Thread

variable {σ C : Type} {R : C → Type} {Tid Ch ε α : Type}

/-- Run to the next command that awaits an answer, or to the outcome. -/
def advance (M : Thread σ C R Tid Ch) (t : Tid) : Program C R ε α → σ → Program C R ε α × σ
  | .ret a, s => (.ret a, s)
  | .raise e, s => (.raise e, s)
  | .step c k, s => if M.awaits c then (.step c k, s) else M.advance t (k (M.exec t c s).1) (M.exec t c s).2

/-- What so many commands of the turn leave. -/
def advanceFor (M : Thread σ C R Tid Ch) (t : Tid) : Nat → Program C R ε α → σ → σ
  | 0, _, s => s
  | n + 1, .step c k, s => if M.awaits c then s else M.advanceFor t n (k (M.exec t c s).1) (M.exec t c s).2
  | _ + 1, _, s => s

/-- What is to be run in a turn. -/
def opening (M : Thread σ C R Tid Ch) (main : Tid → Program C R ε α) (cfg : Process σ C R Tid ε α) :
    Turn Tid Ch → Option (Program C R ε α × σ)
  | .start t =>
    match cfg.calls t with
    | .idle => some (main t, cfg.shared)
    | _ => none
  | .answer t ch =>
    match cfg.calls t with
    | .live (.step c k) =>
      if M.awaits c then (M.answer t c ch cfg.shared).map fun r ↦ (k r.1, r.2) else none
    | _ => none

/-- An outcome that was reached stays. -/
def bury : Call C R ε α → Call C R ε α
  | .live (.step _ _) => .dead
  | call => call

variable [DecidableEq Tid]

def next (M : Thread σ C R Tid Ch) (main : Tid → Program C R ε α) (cfg : Process σ C R Tid ε α) :
    Round Tid Ch → Option (Process σ C R Tid ε α)
  | .run turn => (M.opening main cfg turn).map fun o ↦
    ⟨(M.advance turn.caller o.1 o.2).2,
     fun u ↦ if u = turn.caller then .live (M.advance turn.caller o.1 o.2).1 else cfg.calls u⟩
  | .die none => some ⟨M.restart cfg.shared, fun u ↦ bury (cfg.calls u)⟩
  | .die (some (turn, n)) => (M.opening main cfg turn).map fun o ↦
    ⟨M.restart (M.advanceFor turn.caller n o.1 o.2),
     fun u ↦ if u = turn.caller then .dead else bury (cfg.calls u)⟩

/-- The runs of a process and of those that follow it. -/
def system (M : Thread σ C R Tid Ch) (main : Tid → Program C R ε α) :
    Transitions.System (Process σ C R Tid ε α) (Round Tid Ch) Unit where
  step l cfg := (M.next main cfg l).map fun cfg ↦ ((), cfg)

omit [DecidableEq Tid]

/-! ## Turns -/

/-- `P` holds before and after each command of the turn, and `Q` of what it ends in. -/
def Runs (M : Thread σ C R Tid Ch) (t : Tid) (P : σ → Prop) (Q : Program C R ε α → σ → Prop) :
    Program C R ε α → σ → Prop
  | .ret a, s => P s ∧ Q (.ret a) s
  | .raise e, s => P s ∧ Q (.raise e) s
  | .step c k, s => P s ∧
      if M.awaits c then Q (.step c k) s else M.Runs t P Q (k (M.exec t c s).1) (M.exec t c s).2

variable {M : Thread σ C R Tid Ch} {t : Tid} {P : σ → Prop} {Q : Program C R ε α → σ → Prop} {s : σ}
  {p : Program C R ε α}

@[simp] theorem runs_ret (a : α) : M.Runs t P Q (.ret a : Program C R ε α) s ↔ P s ∧ Q (.ret a) s := Iff.rfl

@[simp] theorem runs_raise (e : ε) : M.Runs t P Q (.raise e : Program C R ε α) s ↔ P s ∧ Q (.raise e) s := Iff.rfl

theorem runs_await {c : C} {k : R c → Program C R ε α} (hc : M.awaits c = true) :
    M.Runs t P Q (.step c k) s ↔ P s ∧ Q (.step c k) s := by
  rw [Runs, if_pos hc]

theorem runs_step {c : C} {k : R c → Program C R ε α} (hc : M.awaits c = false) :
    M.Runs t P Q (.step c k) s ↔ P s ∧ M.Runs t P Q (k (M.exec t c s).1) (M.exec t c s).2 := by
  rw [Runs, if_neg (by rw [hc]; exact Bool.false_ne_true)]

theorem Runs.here (h : M.Runs t P Q p s) : P s := by
  cases p with
  | ret a => exact h.1
  | raise e => exact h.1
  | step c k => exact h.1

theorem Runs.advance (h : M.Runs t P Q p s) : P (M.advance t p s).2 ∧ Q (M.advance t p s).1 (M.advance t p s).2 := by
  induction p generalizing s with
  | ret a => exact h
  | raise e => exact h
  | step c k ih =>
    obtain ⟨hs, hrest⟩ := h
    unfold Thread.advance
    by_cases hc : M.awaits c
    · rw [if_pos hc] at hrest ⊢
      exact ⟨hs, hrest⟩
    · rw [if_neg hc] at hrest ⊢
      exact ih _ hrest

theorem Runs.advanceFor (h : M.Runs t P Q p s) (n : Nat) : P (M.advanceFor t n p s) := by
  induction n generalizing p s with
  | zero => exact h.here
  | succ n ih =>
    cases p with
    | ret a => exact h.1
    | raise e => exact h.1
    | step c k =>
      obtain ⟨hs, hrest⟩ := h
      unfold Thread.advanceFor
      by_cases hc : M.awaits c
      · rw [if_pos hc]
        exact hs
      · rw [if_neg hc] at hrest ⊢
        exact ih hrest

/-- A program whose turn never ends in an answer that it awaits, and what follows it. -/
theorem Runs.bind {β : Type} {q : Program C R ε β} {f : β → Program C R ε α} {Qβ : β → σ → Prop}
    (h : M.Runs t P (fun q s => (∃ b, q = .ret b ∧ Qβ b s) ∨ ∃ e, q = .raise e ∧ Q (.raise e) s) q s)
    (hf : ∀ b s, P s → Qβ b s → M.Runs t P Q (f b) s) : M.Runs t P Q (q >>= f) s := by
  induction q generalizing s with
  | ret b =>
    obtain ⟨hs, ⟨b', hb, hQ⟩ | ⟨e, he, -⟩⟩ := h
    · cases hb
      exact hf b s hs hQ
    · cases he
  | raise e =>
    obtain ⟨hs, ⟨b, hb, -⟩ | ⟨e', he, hQ⟩⟩ := h
    · cases hb
    · cases he
      exact ⟨hs, hQ⟩
  | step c k ih =>
    obtain ⟨hs, hrest⟩ := h
    show M.Runs t P Q (.step c fun r => (k r).handle f .raise) s
    refine ⟨hs, ?_⟩
    by_cases hc : M.awaits c
    · rw [if_pos hc] at hrest
      obtain ⟨b, hb, -⟩ | ⟨e, he, -⟩ := hrest
      · cases hb
      · cases he
    · rw [if_neg hc] at hrest ⊢
      exact ih _ hrest

/-! ## Turns that end in a value -/

theorem advance_await {c : C} {k : R c → Program C R ε α} (hc : M.awaits c = true) :
    M.advance t (.step c k) s = (.step c k, s) := by
  rw [advance, if_pos hc]

theorem advance_step {c : C} {k : R c → Program C R ε α} (hc : M.awaits c = false) :
    M.advance t (.step c k) s = M.advance t (k (M.exec t c s).1) (M.exec t c s).2 := by
  rw [advance, if_neg (by rw [hc]; exact Bool.false_ne_true)]

theorem advance_handle {ε' β : Type} (q : Program C R ε' β) (f : β → Program C R ε α) (g : ε' → Program C R ε α)
    (s : σ) : M.advance t (q.handle f g) s =
      match M.advance t q s with
      | (.ret b, s') => M.advance t (f b) s'
      | (.raise e, s') => M.advance t (g e) s'
      | (.step c k, s') => (.step c fun r => (k r).handle f g, s') := by
  induction q generalizing s with
  | ret b => rfl
  | raise e => rfl
  | step c k ih =>
    show M.advance t (.step c fun r => (k r).handle f g) s = _
    cases hc : M.awaits c with
    | true => rw [advance_await hc, advance_await hc]
    | false =>
      rw [advance_step hc, advance_step hc]
      exact ih _ _

/-- The turn ends in a value, with `Q`. -/
def Ends (M : Thread σ C R Tid Ch) (t : Tid) (p : Program C R ε α) (s : σ) (Q : α → σ → Prop) : Prop :=
  ∃ a s', M.advance t p s = (.ret a, s') ∧ Q a s'

section Ends

variable {Q : α → σ → Prop}

@[simp] theorem ends_ret (a : α) : M.Ends t (.ret a : Program C R ε α) s Q ↔ Q a s := by
  constructor
  · rintro ⟨a', s', h, hQ⟩
    cases h
    exact hQ
  · intro hQ
    exact ⟨a, s, rfl, hQ⟩

@[simp] theorem ends_raise (e : ε) : M.Ends t (.raise e : Program C R ε α) s Q ↔ False := by
  constructor
  · rintro ⟨a, s', h, -⟩
    cases h
  · exact False.elim

theorem ends_step {c : C} {k : R c → Program C R ε α} (hc : M.awaits c = false) :
    M.Ends t (.step c k) s Q ↔ M.Ends t (k (M.exec t c s).1) (M.exec t c s).2 Q := by
  unfold Ends
  rw [advance_step hc]

theorem ends_bind {β : Type} {q : Program C R ε β} {f : β → Program C R ε α} :
    M.Ends t (q >>= f) s Q ↔ M.Ends t q s fun b s' => M.Ends t (f b) s' Q := by
  unfold Ends
  rw [Program.bind_eq, advance_handle]
  rcases M.advance t q s with ⟨outcome, s'⟩
  constructor
  · rintro ⟨a, s'', h, hQ⟩
    cases outcome with
    | ret b => exact ⟨b, s', rfl, a, s'', h, hQ⟩
    | raise e => cases h
    | step c k => cases h
  · rintro ⟨b, s'', h, a, s₃, h', hQ⟩
    cases h
    exact ⟨a, s₃, h', hQ⟩

end Ends

/-! ## Steps -/

variable {main : Tid → Program C R ε α} {cfg cfg' : Process σ C R Tid ε α}

/-- The turns that can be taken: a caller starts, or it gets the answer that it awaits. -/
theorem opening_cases {turn : Turn Tid Ch} (h : M.opening main cfg turn = some (p, s)) :
    (∃ t, turn = .start t ∧ cfg.calls t = .idle ∧ p = main t ∧ s = cfg.shared) ∨
    ∃ t ch c k r, turn = .answer t ch ∧ cfg.calls t = .live (.step c k) ∧ M.awaits c = true ∧
      M.answer t c ch cfg.shared = some (r, s) ∧ p = k r := by
  cases turn with
  | start t =>
    simp only [opening] at h
    split at h
    · next hidle =>
        cases h
        exact .inl ⟨t, rfl, hidle, rfl, rfl⟩
    · cases h
  | answer t ch =>
    simp only [opening] at h
    split at h
    · next c k hlive =>
        split at h
        · next hc =>
            obtain ⟨⟨r, s'⟩, hanswer, heq⟩ := Option.map_eq_some_iff.mp h
            cases heq
            exact .inr ⟨t, ch, c, k, r, rfl, hlive, hc, hanswer, rfl⟩
        · cases h
    · cases h

variable [DecidableEq Tid]

/-- What a step of the process leaves, by the turn that it took. -/
theorem next_cases {l : Round Tid Ch} (h : M.next main cfg l = some cfg') :
    (∃ turn p s, l = .run turn ∧ M.opening main cfg turn = some (p, s) ∧
      cfg' = ⟨(M.advance turn.caller p s).2,
        fun u => if u = turn.caller then .live (M.advance turn.caller p s).1 else cfg.calls u⟩) ∨
    (l = .die none ∧ cfg' = ⟨M.restart cfg.shared, fun u => bury (cfg.calls u)⟩) ∨
    (∃ turn n p s, l = .die (some (turn, n)) ∧ M.opening main cfg turn = some (p, s) ∧
      cfg' = ⟨M.restart (M.advanceFor turn.caller n p s),
        fun u => if u = turn.caller then .dead else bury (cfg.calls u)⟩) := by
  cases l with
  | run turn =>
    obtain ⟨⟨p, s⟩, hopen, rfl⟩ := Option.map_eq_some_iff.mp h
    exact .inl ⟨turn, p, s, rfl, hopen, rfl⟩
  | die turn =>
    cases turn with
    | none => exact .inr (.inl ⟨rfl, (Option.some.inj h).symm⟩)
    | some turn =>
      obtain ⟨turn, n⟩ := turn
      obtain ⟨⟨p, s⟩, hopen, rfl⟩ := Option.map_eq_some_iff.mp h
      exact .inr (.inr ⟨turn, n, p, s, rfl, hopen, rfl⟩)

theorem next_of_step {l : Round Tid Ch} {a : Unit} (h : (M.system main).step l cfg = some (a, cfg')) :
    M.next main cfg l = some cfg' := by
  obtain ⟨cfg'', hnext, heq⟩ := Option.map_eq_some_iff.mp h
  cases heq
  exact hnext

theorem step_start {t : Tid} (h : cfg.calls t = .idle) : (M.system main).step (.run (.start t)) cfg =
    some ((), ⟨(M.advance t (main t) cfg.shared).2,
      fun u => if u = t then .live (M.advance t (main t) cfg.shared).1 else cfg.calls u⟩) := by
  show (M.next main cfg (.run (.start t))).map _ = _
  unfold next opening
  dsimp only
  rw [h]
  rfl

end Thread

end Interleave
