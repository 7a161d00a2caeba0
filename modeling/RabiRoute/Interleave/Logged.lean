import RabiRoute.Interleave.RelyGuarantee

/-!
# Runs with a log

A logged machine does what the machine does, and writes down each step under its caller.  A program that is verified
on the machine is verified on the logged machine as well, and a log invariant is kept by callers whose steps meet it.
-/

namespace Interleave

open Program

/-- A step of a caller: its command, the answer, and the shared state before and after. -/
structure Entry (σ C : Type) (R : C → Type) where
  command : C
  answer : R command
  before : σ
  after : σ

/-- The shared state, and the steps of each caller. -/
abbrev Logged (σ C : Type) (R : C → Type) (Tid : Type) : Type := σ × (Tid → List (Entry σ C R))

variable {σ C : Type} {R : C → Type} {Tid Ch Ev ε ε' α β : Type} [DecidableEq Tid]

def record (log : Tid → List (Entry σ C R)) (t : Tid) (e : Entry σ C R) : Tid → List (Entry σ C R) :=
  fun u ↦ if u = t then log t ++ [e] else log u

def Machine.logged (M : Machine σ C R Tid Ch Ev) : Machine (Logged σ C R Tid) C R Tid Ch Ev where
  exec t c ch s := (M.exec t c ch s.1).map fun rs ↦ (rs.1, rs.2, record s.2 t ⟨c, rs.1, s.1, rs.2⟩)
  event e s := (M.event e s.1).map fun s' ↦ (s', s.2)

/-- The configuration with an empty log. -/
def Config.logged (cfg : Config σ C R Tid ε α) : Config (Logged σ C R Tid) C R Tid ε α :=
  ⟨(cfg.shared, fun _ ↦ []), cfg.prog⟩

section

variable {M : Machine σ C R Tid Ch Ev}

theorem exec_logged {t : Tid} {c : C} {ch : Ch} {s s' : Logged σ C R Tid} {r : R c} :
    M.logged.exec t c ch s = some (r, s') ↔
      M.exec t c ch s.1 = some (r, s'.1) ∧ s'.2 = record s.2 t ⟨c, r, s.1, s'.1⟩ := by
  unfold Machine.logged
  constructor
  · intro h
    obtain ⟨⟨r', next⟩, hexec, heq⟩ := Option.map_eq_some_iff.mp h
    obtain ⟨rfl, rfl⟩ := Prod.mk.inj heq
    exact ⟨hexec, rfl⟩
  · rintro ⟨hexec, hlog⟩
    refine Option.map_eq_some_iff.mpr ⟨(r, s'.1), hexec, ?_⟩
    exact Prod.ext rfl (Prod.ext rfl hlog.symm)

theorem record_self {log : Tid → List (Entry σ C R)} {t : Tid} {e : Entry σ C R} : record log t e t = log t ++ [e] :=
  if_pos rfl

theorem record_of_ne {log : Tid → List (Entry σ C R)} {t u : Tid} {e : Entry σ C R} (h : u ≠ t) :
    record log t e u = log u :=
  if_neg h

/-! ## Runs -/

end

/-! ## Paths of a program -/

/-- The program performs these steps and returns `a`. -/
inductive Program.Returns : Program C R ε α → List (Entry σ C R) → α → Prop
  | ret {a : α} : Returns (.ret a) [] a
  | step {c : C} {k : R c → Program C R ε α} {r : R c} {s s' : σ} {rest : List (Entry σ C R)} {a : α} :
      Returns (k r) rest a → Returns (.step c k) (⟨c, r, s, s'⟩ :: rest) a

section

variable {log : List (Entry σ C R)}

theorem returns_ret {a b : α} (h : (ret a : Program C R ε α).Returns log b) : log = [] ∧ b = a := by
  cases h
  exact ⟨rfl, rfl⟩

theorem returns_bind {p : Program C R ε α} {f : α → Program C R ε β} {b : β} (h : (p >>= f).Returns log b) :
    ∃ first rest a, log = first ++ rest ∧ p.Returns first a ∧ (f a).Returns rest b := by
  induction p generalizing log with
  | ret a => exact ⟨[], log, a, rfl, .ret, h⟩
  | raise e => cases h
  | step c k ih =>
    cases h with
    | @step _ _ r s s' rest _ h =>
      obtain ⟨first, rest, a, rfl, hfirst, hrest⟩ := ih r h
      exact ⟨_ :: first, rest, a, rfl, .step hfirst, hrest⟩

theorem returns_performOrThrow {V : C → Type} {log : List (Entry σ C (Fallible ε V))} {c : C} {v : V c} (h :
    (performOrThrow c : Program C (Fallible ε V) ε (V c)).Returns log v) : ∃ s s', log = [⟨c, .ok v, s, s'⟩] := by
  cases h with
  | @step _ _ r s s' rest _ h =>
    cases r with
    | error e => cases h
    | ok v =>
      obtain ⟨rfl, rfl⟩ := returns_ret h
      exact ⟨s, s', rfl⟩

end

/-! ## Verified programs -/

/-- The discipline of the machine, and that each step in the log meets `A`, given the caller's steps before it. -/
def Discipline.logged (D : Discipline σ Tid) (A : Tid → List (Entry σ C R) → Entry σ C R → Prop) :
    Discipline (Logged σ C R Tid) Tid where
  inv s := D.inv s.1 ∧ ∀ t earlier e later, s.2 t = earlier ++ e :: later → A t earlier e
  rely t s s' := D.rely t s.1 s'.1 ∧ s'.2 t = s.2 t
  rely_refl t s := ⟨D.rely_refl t s.1, rfl⟩
  rely_trans t _ _ _ h h' := ⟨D.rely_trans t _ _ _ h.1 h'.1, h'.2.trans h.2⟩

section

variable {M : Machine σ C R Tid Ch Ev} {D : Discipline σ Tid} {A : Tid → List (Entry σ C R) → Entry σ C R → Prop}
  {t : Tid} {s s' : Logged σ C R Tid} {c : C} {r : R c}

/-- A step that meets `A` keeps the guarantee. -/
theorem guarantee_logged (hinv : (D.logged A).inv s) (h : D.Guarantee t s.1 s'.1) (hlog : s'.2 = record s.2 t ⟨c, r,
    s.1, s'.1⟩) (hA : A t (s.2 t) ⟨c, r, s.1, s'.1⟩) : (D.logged A).Guarantee t s s' := by
  refine ⟨⟨h.inv, fun u earlier e later hsplit => ?_⟩, fun u hu => ⟨h.others u hu, ?_⟩⟩
  · rw [hlog] at hsplit
    by_cases hu : u = t
    · subst hu
      rw [record_self] at hsplit
      rcases List.append_eq_append_iff.mp hsplit with ⟨more, hearlier, hrest⟩ | ⟨more, hearlier, hrest⟩
      · cases more with
        | nil =>
          rw [List.append_nil] at hearlier
          obtain ⟨rfl, -⟩ := List.cons.inj hrest
          exact hearlier ▸ hA
        | cons x more =>
          have hlength := congrArg List.length hrest
          rw [List.length_singleton, List.length_append, List.length_cons, List.length_cons] at hlength
          omega
      · cases more with
        | nil =>
          rw [List.append_nil] at hearlier
          obtain ⟨rfl, -⟩ := List.cons.inj hrest
          exact hearlier ▸ hA
        | cons x more =>
          obtain ⟨rfl, -⟩ := List.cons.inj hrest
          exact hinv.2 u earlier e more hearlier
    · rw [record_of_ne hu] at hsplit
      exact hinv.2 u earlier e later hsplit
  · rw [hlog, record_of_ne hu]

/-- Events write nothing down. -/
theorem event_logged (hevent : ∀ e s s', D.inv s → M.event e s = some s' → D.inv s' ∧ ∀ t, D.rely t s s') (e : Ev)
    (s s' : Logged σ C R Tid) (hinv : (D.logged A).inv s) (h : M.logged.event e s = some s') :
    (D.logged A).inv s' ∧ ∀ t, (D.logged A).rely t s s' := by
  obtain ⟨next, hnext, rfl⟩ := Option.map_eq_some_iff.mp h
  obtain ⟨hinv', hrely⟩ := hevent e s.1 next hinv.1 hnext
  exact ⟨⟨hinv', hinv.2⟩, fun t => ⟨hrely t, rfl⟩⟩

/-- A program of commands whose steps meet `A` is verified with a log as it is without. -/
theorem wp_logged {P : C → Prop} {p : Program C R ε α} {Q : α → σ → Prop} {E : ε → σ → Prop}
    (hp : p.Uses P)
    (hA : ∀ c, P c → ∀ ch r s s' earlier, M.exec t c ch s = some (r, s') → A t earlier ⟨c, r, s, s'⟩)
    (hinv : (D.logged A).inv s) (h : wp M (fun _ _ _ _ => True) D t p Q E s.1) :
    wp M.logged (fun _ _ _ _ => True) (D.logged A) t p
      (fun a s' => (D.logged A).inv s' ∧ Q a s'.1 ∧ ∃ own, s'.2 t = s.2 t ++ own ∧ p.Returns own a)
      (fun e s' => (D.logged A).inv s' ∧ E e s'.1) s := by
  induction p generalizing s with
  | ret a => exact ⟨hinv, h, [], (List.append_nil _).symm, .ret⟩
  | raise e => exact ⟨hinv, h⟩
  | step c k ih =>
    intro ch r s₁ _ hexec
    obtain ⟨hexec, hlog⟩ := exec_logged.mp hexec
    obtain ⟨hguarantee, hrest⟩ := h ch r s₁.1 trivial hexec
    have hg := guarantee_logged hinv hguarantee hlog (hA c hp.1 ch r s.1 s₁.1 (s.2 t) hexec)
    refine ⟨hg, fun s₂ hl => ?_⟩
    have hown : s₂.2 t = s.2 t ++ [⟨c, r, s.1, s₁.1⟩] := by
      rw [hl.rely.2, hlog, record_self]
    refine wp_mono (ih r (hp.2 r) hl.inv (hrest s₂.1 ⟨hl.inv.1, hl.rely.1⟩)) ?_ fun _ _ he => he
    rintro a s₃ ⟨hinv₃, hQ, own, hsteps, hreturns⟩
    refine ⟨hinv₃, hQ, ⟨c, r, s.1, s₁.1⟩ :: own, ?_, .step hreturns⟩
    rw [hsteps, hown, List.append_assoc, List.singleton_append]

end

end Interleave
