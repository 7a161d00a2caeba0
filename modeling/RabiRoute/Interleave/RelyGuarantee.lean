import RabiRoute.Interleave.Machine

/-!
# Rely-guarantee reasoning for interleaved programs

Each caller is verified alone.  Between any two of its commands the shared state may change by a
`rely` step, and each of its own commands must keep the invariant and be a rely step for every
other caller.  `sound` turns these separate proofs into an invariant of every run.
-/

namespace Interleave

/-- What holds of the shared state always, and what a caller may assume of the others. -/
structure Discipline (σ Tid : Type) where
  inv : σ → Prop
  rely : Tid → σ → σ → Prop
  rely_refl : ∀ t s, rely t s s
  rely_trans : ∀ t s s' s'', rely t s s' → rely t s' s'' → rely t s s''

variable {σ C : Type} {R : C → Type} {Tid Ch Ev ε ε' α β : Type}

/-- A step of caller `t` that the others tolerate. -/
structure Discipline.Guarantee (D : Discipline σ Tid) (t : Tid) (s s' : σ) : Prop where
  inv : D.inv s'
  others : ∀ u, u ≠ t → D.rely u s s'

/-- A state that the others may leave to caller `t` when `t` last saw `s`. -/
structure Discipline.Later (D : Discipline σ Tid) (t : Tid) (s s' : σ) : Prop where
  inv : D.inv s'
  rely : D.rely t s s'

theorem Discipline.Later.trans {D : Discipline σ Tid} {t : Tid} {s s' s'' : σ}
    (h : D.Later t s s') (h' : D.Later t s' s'') : D.Later t s s'' :=
  ⟨h'.inv, D.rely_trans t s s' s'' h.rely h'.rely⟩

theorem Discipline.Later.self {D : Discipline σ Tid} {t : Tid} {s : σ} (h : D.inv s) : D.Later t s s :=
  ⟨h, D.rely_refl t s⟩

theorem Discipline.Guarantee.trans {D : Discipline σ Tid} {t : Tid} {s s' s'' : σ}
    (h : D.Guarantee t s s') (h' : D.Guarantee t s' s'') : D.Guarantee t s s'' :=
  ⟨h'.inv, fun u hu => D.rely_trans u s s' s'' (h.others u hu) (h'.others u hu)⟩

/-- Caller `t` may run the program from a state: every command that `ok` admits keeps its
guarantee, and the outcome satisfies `Q` (a value) or `E` (an error). -/
def wp (M : Machine σ C R Tid Ch Ev) (ok : Tid → C → Ch → σ → Prop) (D : Discipline σ Tid)
    (t : Tid) : Program C R ε α → (α → σ → Prop) → (ε → σ → Prop) → σ → Prop
  | .ret a, Q, _, s => Q a s
  | .raise e, _, E, s => E e s
  | .step c k, Q, E, s =>
    ∀ ch r s', ok t c ch s → M.exec t c ch s = some (r, s') →
      D.Guarantee t s s' ∧ ∀ s'', D.Later t s' s'' → wp M ok D t (k r) Q E s''

section Rules

variable {M : Machine σ C R Tid Ch Ev} {ok : Tid → C → Ch → σ → Prop} {D : Discipline σ Tid}
  {t : Tid}

theorem wp_mono {p : Program C R ε α} {Q Q' : α → σ → Prop} {E E' : ε → σ → Prop} {s : σ} (h : wp M ok D t p Q E s) (hQ
    : ∀ a s, Q a s → Q' a s) (hE : ∀ e s, E e s → E' e s) : wp M ok D t p Q' E' s := by
  induction p generalizing s with
  | ret a => exact hQ a s h
  | raise e => exact hE e s h
  | step c k ih =>
    intro ch r s' hok hexec
    obtain ⟨hg, hk⟩ := h ch r s' hok hexec
    exact ⟨hg, fun s'' hl => ih r (hk s'' hl)⟩

theorem wp_handle {p : Program C R ε α} {f : α → Program C R ε' β} {g : ε → Program C R ε' β} {Q : β → σ → Prop} {E : ε'
    → σ → Prop} {s : σ} (h : wp M ok D t p (fun a s => wp M ok D t (f a) Q E s) (fun e s => wp M ok D t (g e) Q E s) s)
    : wp M ok D t (p.handle f g) Q E s := by
  induction p generalizing s with
  | ret a => exact h
  | raise e => exact h
  | step c k ih =>
    intro ch r s' hok hexec
    obtain ⟨hg, hk⟩ := h ch r s' hok hexec
    exact ⟨hg, fun s'' hl => ih r (hk s'' hl)⟩

theorem wp_bind {p : Program C R ε α} {f : α → Program C R ε β} {Q : β → σ → Prop} {E : ε → σ → Prop} {s : σ} (h : wp M
    ok D t p (fun a s => wp M ok D t (f a) Q E s) E s) : wp M ok D t (p >>= f) Q E s :=
  wp_handle h

theorem wp_attempt {p : Program C R ε α} {g : ε → Program C R ε α} {Q : α → σ → Prop} {E : ε → σ → Prop} {s : σ} (h : wp
    M ok D t p Q (fun e s => wp M ok D t (g e) Q E s) s) : wp M ok D t (p.attempt g) Q E s :=
  wp_handle h

theorem wp_ensure {p : Program C R ε α} {f : Program C R ε Unit}
    {Q : α → σ → Prop} {E : ε → σ → Prop} {s : σ}
    (h : wp M ok D t p (fun a s => wp M ok D t f (fun _ s => Q a s) E s)
      (fun e s => wp M ok D t f (fun _ s => E e s) E s) s) :
    wp M ok D t (p.ensure f) Q E s :=
  wp_handle (wp_mono h (fun _ _ ha => wp_handle ha) (fun _ _ he => wp_handle he))

theorem wp_perform {c : C} {Q : R c → σ → Prop} {E : ε → σ → Prop} {s : σ}
    (h : ∀ ch r s', ok t c ch s → M.exec t c ch s = some (r, s') →
      D.Guarantee t s s' ∧ ∀ s'', D.Later t s' s'' → Q r s'') :
    wp M ok D t (Program.perform c) Q E s :=
  h

theorem wp_performOrThrow {V : C → Type} {M : Machine σ C (Program.Fallible ε V) Tid Ch Ev} {c : C}
    {Q : V c → σ → Prop} {E : ε → σ → Prop} {s : σ}
    (h : ∀ ch r s', ok t c ch s → M.exec t c ch s = some (r, s') →
      D.Guarantee t s s' ∧ ∀ s'', D.Later t s' s'' →
        (∀ v, r = .ok v → Q v s'') ∧ (∀ e, r = .error e → E e s'')) :
    wp M ok D t (Program.performOrThrow c) Q E s := by
  refine wp_handle (wp_perform fun ch r s' hok hexec => ?_)
  obtain ⟨hg, hlater⟩ := h ch r s' hok hexec
  refine ⟨hg, fun s'' hl => ?_⟩
  cases r with
  | ok v => exact (hlater s'' hl).1 v rfl
  | error e => exact (hlater s'' hl).2 e rfl

/-- A program of commands that all keep the guarantee and a stable fact `F` keeps `F`. -/
theorem wp_uses {P : C → Prop} {F : σ → Prop} {p : Program C R ε α} {s : σ} (hp : p.Uses P)
    (hstep : ∀ c, P c → ∀ s ch r s', D.inv s → F s → ok t c ch s → M.exec t c ch s = some (r, s') →
      D.Guarantee t s s' ∧ F s')
    (hstable : ∀ s s', F s → D.Later t s s' → F s') (hinv : D.inv s) (hF : F s) :
    wp M ok D t p (fun _ => F) (fun _ => F) s := by
  induction p generalizing s with
  | ret a => exact hF
  | raise e => exact hF
  | step c k ih =>
    intro ch r s' hok hexec
    obtain ⟨hg, hF'⟩ := hstep c hp.1 s ch r s' hinv hF hok hexec
    exact ⟨hg, fun s'' hl => ih r (hp.2 r) hl.inv (hstable s' s'' hF' hl)⟩

end Rules

/-- Every caller has a proof of its program that the others cannot break. -/
def Verified (M : Machine σ C R Tid Ch Ev) (ok : Tid → C → Ch → σ → Prop) (D : Discipline σ Tid)
    (Q : Tid → α → σ → Prop) (E : Tid → ε → σ → Prop) (cfg : Config σ C R Tid ε α) : Prop :=
  D.inv cfg.shared ∧
    ∀ t s, D.Later t cfg.shared s → wp M ok D t (cfg.prog t) (Q t) (E t) s

variable [DecidableEq Tid]

theorem Verified.next {M : Machine σ C R Tid Ch Ev} {ok : Tid → C → Ch → σ → Prop} {D : Discipline σ Tid} {Q : Tid → α →
    σ → Prop} {E : Tid → ε → σ → Prop} {cfg cfg' : Config σ C R Tid ε α} {l : Label Tid Ch Ev} (hevent : ∀ e s s', D.inv
    s → M.event e s = some s' → D.inv s' ∧ ∀ t, D.rely t s s') (h : Verified M ok D Q E cfg) (hok : Machine.Allowed ok
    cfg l) (hnext : M.next cfg l = some cfg') : Verified M ok D Q E cfg' := by
  obtain ⟨hinv, hprog⟩ := h
  cases l with
  | event e =>
    simp only [Machine.next, Option.map_eq_some_iff] at hnext
    obtain ⟨s', he, rfl⟩ := hnext
    obtain ⟨hinv', hrely⟩ := hevent e _ _ hinv he
    exact ⟨hinv', fun t s hl => hprog t s (.trans ⟨hinv', hrely t⟩ hl)⟩
  | run t ch =>
    cases hp : cfg.prog t with
    | ret a => simp [Machine.next, hp] at hnext
    | raise e => simp [Machine.next, hp] at hnext
    | step c k =>
      simp only [Machine.next, hp, Option.map_eq_some_iff] at hnext
      obtain ⟨⟨r, s'⟩, hexec, rfl⟩ := hnext
      simp only [Machine.Allowed, hp] at hok
      have hwp := hprog t cfg.shared (.self hinv)
      rw [hp] at hwp
      obtain ⟨hg, hk⟩ := hwp ch r s' hok hexec
      refine ⟨hg.inv, fun u s hl => ?_⟩
      by_cases hu : u = t
      · subst hu
        simpa using hk s hl
      · simpa [hu] using hprog u s (.trans ⟨hg.inv, hg.others u hu⟩ hl)

/-- A step keeps what every other caller relies on. -/
theorem Verified.rely_next {M : Machine σ C R Tid Ch Ev} {ok : Tid → C → Ch → σ → Prop} {D : Discipline σ Tid} {Q : Tid
    → α → σ → Prop} {E : Tid → ε → σ → Prop} {cfg cfg' : Config σ C R Tid ε α} {l : Label Tid Ch Ev} {u : Tid} (hevent :
    ∀ e s s', D.inv s → M.event e s = some s' → D.inv s' ∧ ∀ t, D.rely t s s') (h : Verified M ok D Q E cfg) (hok :
    Machine.Allowed ok cfg l) (hnext : M.next cfg l = some cfg') (hother : ∀ ch, l ≠ .run u ch) : D.rely u cfg.shared
    cfg'.shared := by
  cases l with
  | event e =>
    simp only [Machine.next, Option.map_eq_some_iff] at hnext
    obtain ⟨s', he, rfl⟩ := hnext
    exact (hevent e _ _ h.1 he).2 u
  | run t ch =>
    cases hp : cfg.prog t with
    | ret a => simp [Machine.next, hp] at hnext
    | raise e => simp [Machine.next, hp] at hnext
    | step c k =>
      simp only [Machine.next, hp, Option.map_eq_some_iff] at hnext
      obtain ⟨⟨r, s'⟩, hexec, rfl⟩ := hnext
      simp only [Machine.Allowed, hp] at hok
      have hwp := h.2 t cfg.shared (.self h.1)
      rw [hp] at hwp
      refine (hwp ch r s' hok hexec).1.others u ?_
      rintro rfl
      exact hother ch rfl

/-- Callers that are verified at the start stay verified in every run that meets `ok`. -/
theorem Verified.reach {M : Machine σ C R Tid Ch Ev} {ok : Tid → C → Ch → σ → Prop} {D : Discipline σ Tid} {Q : Tid → α
    → σ → Prop} {E : Tid → ε → σ → Prop} {init cfg : Config σ C R Tid ε α} (hevent : ∀ e s s', D.inv s → M.event e s =
    some s' → D.inv s' ∧ ∀ t, D.rely t s s') (h : Verified M ok D Q E init) (hreach : M.ReachUnder ok init cfg) :
    Verified M ok D Q E cfg := by
  induction hreach with
  | refl => exact h
  | next l _ hok hnext ih => exact ih.next hevent hok hnext

end Interleave
