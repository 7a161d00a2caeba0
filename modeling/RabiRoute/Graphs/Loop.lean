import Mathlib.Order.Basic

/-!
# Loops

`whileSome` repeats a step until it answers `none`; its measure is part of the definition, so such a
loop always ends.  `loopWithin` is the loop without a measure: it answers `none` when the rounds run
out, and one measure argument says that some number of rounds is enough.
-/

namespace Graphs

variable {σ : Type}

/-- `while`, for a step that brings the measure down. -/
def whileSome (step : σ → Option σ) (μ : σ → Nat)
    (shrinks : ∀ s s', step s = some s' → μ s' < μ s) (s : σ) : σ :=
  match _h : step s with
  | none => s
  | some s' => whileSome step μ shrinks s'
termination_by μ s
decreasing_by exact shrinks _ _ _h

/-- `while`, for at most so many rounds. -/
def loopWithin (step : σ → Option σ) : Nat → σ → Option σ
  | 0, _ => none
  | n + 1, s =>
    match step s with
    | none => some s
    | some s' => loopWithin step n s'

section

variable {step : σ → Option σ} {μ : σ → Nat}
  {shrinks : ∀ s s', step s = some s' → μ s' < μ s} {P : σ → Prop} {s r : σ}

theorem whileSome_of_none (h : step s = none) : whileSome step μ shrinks s = s := by
  rw [whileSome]
  split
  case h_1 => rfl
  case h_2 s' hsome => cases h.symm.trans hsome

theorem whileSome_of_some {s' : σ} (h : step s = some s') :
    whileSome step μ shrinks s = whileSome step μ shrinks s' := by
  rw [whileSome]
  split
  case h_1 hnone => cases h.symm.trans hnone
  case h_2 s'' hsome =>
    obtain rfl := Option.some.inj (h.symm.trans hsome)
    rfl

/-- What each round keeps holds after the loop, and there the loop has ended. -/
theorem whileSome_spec (shrinks : ∀ s s', step s = some s' → μ s' < μ s) (hkeep : ∀ s s', P s → step s = some s' → P s')
    (hs : P s) : P (whileSome step μ shrinks s) ∧ step (whileSome step μ shrinks s) = none := by
  induction h : μ s using Nat.strongRecOn generalizing s with
  | ind n ih =>
    unfold whileSome
    split
    case h_1 hnone => exact ⟨hs, hnone⟩
    case h_2 s' hsome =>
      exact ih (μ s') (h ▸ shrinks s s' hsome) (hkeep s s' hs hsome) rfl

theorem whileSome_done : step (whileSome step μ shrinks s) = none :=
  (whileSome_spec (P := fun _ => True) shrinks (fun _ _ _ _ => trivial) trivial).2

/-- Two loops that go side by side end side by side. -/
theorem whileSome_related {τ : Type} {step' : τ → Option τ} {μ' : τ → Nat}
    {shrinks' : ∀ t t', step' t = some t' → μ' t' < μ' t} {R : σ → τ → Prop}
    (hstep : ∀ s t, R s t → (step s = none ∧ step' t = none) ∨
      ∃ s' t', step s = some s' ∧ step' t = some t' ∧ R s' t') {t : τ} (h : R s t) :
    R (whileSome step μ shrinks s) (whileSome step' μ' shrinks' t) := by
  induction hμ : μ s using Nat.strongRecOn generalizing s t with
  | ind n ih =>
    rcases hstep s t h with ⟨hs, ht⟩ | ⟨s', t', hs, ht, hnext⟩
    · rw [whileSome_of_none hs, whileSome_of_none ht]
      exact h
    · rw [whileSome_of_some hs, whileSome_of_some ht]
      exact ih (μ s') (hμ ▸ shrinks s s' hs) hnext rfl

/-- Where the measure comes down as long as the invariant holds, enough rounds end the loop, and
more rounds change nothing. -/
theorem loopWithin_ends (μ : σ → Nat) (hkeep : ∀ s s', P s → step s = some s' → P s') (hshrinks : ∀ s s', P s → step s =
    some s' → μ s' < μ s) (hs : P s) : ∃ r, P r ∧ step r = none ∧ ∀ n, μ s < n → loopWithin step n s = some r := by
  induction h : μ s using Nat.strongRecOn generalizing s with
  | ind k ih =>
    cases hstep : step s with
    | none =>
      refine ⟨s, hs, hstep, fun n hn => ?_⟩
      obtain ⟨m, rfl⟩ := Nat.exists_eq_succ_of_ne_zero (Nat.ne_of_gt (Nat.zero_lt_of_lt hn))
      simp only [loopWithin, hstep]
    | some s' =>
      have hless := hshrinks s s' hs hstep
      obtain ⟨r, hr, hdone, hrun⟩ := ih (μ s') (h ▸ hless) (hkeep s s' hs hstep) rfl
      refine ⟨r, hr, hdone, fun n hn => ?_⟩
      obtain ⟨m, rfl⟩ := Nat.exists_eq_succ_of_ne_zero (Nat.ne_of_gt (Nat.zero_lt_of_lt hn))
      simp only [loopWithin, hstep]
      exact hrun m (by omega)

/-- A loop that returned has kept what each round keeps, and has ended. -/
theorem loopWithin_spec {n : Nat} (hkeep : ∀ s s', P s → step s = some s' → P s') (hs : P s)
    (hrun : loopWithin step n s = some r) : P r ∧ step r = none := by
  induction n generalizing s with
  | zero => cases hrun
  | succ n ih =>
    unfold loopWithin at hrun
    split at hrun
    case h_1 hnone =>
      obtain rfl := Option.some.inj hrun
      exact ⟨hs, hnone⟩
    case h_2 s' hsome => exact ih (hkeep s s' hs hsome) hrun

end

end Graphs
