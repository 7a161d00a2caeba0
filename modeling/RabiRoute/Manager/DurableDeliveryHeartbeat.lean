import RabiRoute.Manager.DurableDeliverySteps

/-!
# The heartbeat worker of an execution

A worker changes the receipt in one step only, the renewal of its time.  It takes that step while
it has the mutation lock and after it has read, through the descriptor, a receipt of its execution.
-/

open Interleave Interleave.Program

namespace RabiRoute.DurableDelivery

variable {R : Type} {calls : Calls R} {t : CallId} {s : DeliveryState R}

/-! ## Steps that leave the receipt alone -/

/-- A command that any worker may perform, with or without the lock. -/
def Harmless (c : Cmd R) : Prop := Quiet c ∨ c = .unlock

theorem wp_harmless {α ε : Type} {p : Program (Cmd R) Cmd.Response ε α} (hp : p.Uses Harmless) (hinv : Inv calls s) :
    triple calls (.heartbeat t) p (fun _ => Inv calls) (fun _ => Inv calls) s := by
  refine wp_uses hp ?_ (fun _ _ _ hl => hl.inv) hinv hinv
  intro c hc s₁ ch r s₂ hinv₁ _ _ hexec
  have hlive := (exec_some hexec).2
  rcases hc with hquiet | rfl
  · have hg : (discipline calls).Guarantee (.heartbeat t) s₁ s₂ :=
      (execLive_quiet hquiet hlive).guarantee hinv₁
    exact ⟨hg, hg.inv⟩
  · have hcases : s₂ = s₁ ∨
        s₂ = if s₁.lock = some (.heartbeat t) then { s₁ with lock := none } else s₁ := by
      cases ch <;> simp only [execLive, Option.some.injEq, Prod.mk.injEq] at hlive <;>
        obtain ⟨-, rfl⟩ := hlive <;> simp
    rcases hcases with rfl | rfl
    · exact ⟨guarantee_self hinv₁, hinv₁⟩
    · have hg : (discipline calls).Guarantee (.heartbeat t) s₁
          (if s₁.lock = some (.heartbeat t) then { s₁ with lock := none } else s₁) :=
        guarantee_release hinv₁
      exact ⟨hg, hg.inv⟩

theorem uses_harmless {c : Cmd R} (hc : Quiet c) : (sys c).Uses Harmless :=
  uses_sys (.inl hc)

theorem uses_finishRenewal (renewal : Renewal) (failure : Option HeartbeatFailure) :
    (finishRenewal (R := R) renewal failure).Uses Harmless := by
  have hclose : ∀ fd, (sys (Cmd.close (R := R) fd)).Uses Harmless := fun _ => uses_harmless trivial
  have hunlock : (sys (Cmd.unlock (R := R))).Uses Harmless := uses_sys (.inr rfl)
  refine .bind ?_ fun closed => ?_
  · split
    · trivial
    · exact .attempt (.bind (hclose _) fun _ => trivial) fun _ => trivial
  · split
    · exact .attempt (.bind hunlock fun _ => trivial) fun _ => trivial
    · trivial

theorem uses_failHeartbeat (failure : HeartbeatFailure) : (failHeartbeat (R := R) failure).Uses Harmless := by
  have hstore : (sys (Cmd.storeFailure (R := R) failure)).Uses Harmless := uses_harmless trivial
  have hpublish : (sys (Cmd.publish (R := R) .failed)).Uses Harmless := uses_harmless trivial
  refine .bind (uses_harmless trivial) fun status => ?_
  split
  · trivial
  · exact .bind hstore fun _ => hpublish

/-! ## A renewal under the lock -/

/-- The worker has opened the receipt file under the lock. -/
structure Opened (calls : Calls R) (t : CallId) (fd : Nat) (s : DeliveryState R) : Prop where
  locked : Locked calls (.heartbeat t) s
  path : runs calls s (.heartbeat t) = true → s.path = some fd

/-- The file that the worker has opened holds a receipt of its execution. -/
structure Owned (calls : Calls R) (t : CallId) (fd : Nat) (s : DeliveryState R) : Prop where
  locked : Locked calls (.heartbeat t) s
  held : runs calls s (.heartbeat t) = true → ∃ r, Holds s fd r ∧
    r.requestDigest = calls.digest t ∧ r.state = .sending ∧ r.executionId = some t

theorem Opened.later {fd : Nat} {s s' : DeliveryState R} (h : Opened calls t fd s)
    (hl : (discipline calls).Later (.heartbeat t) s s') : Opened calls t fd s' := by
  refine ⟨h.locked.later hl, fun hr => ?_⟩
  have hr' := hl.rely.base.runs hr
  exact hl.rely.path hr (h.locked.lock hr') fd (h.path hr')

theorem Owned.later {fd : Nat} {s s' : DeliveryState R} (h : Owned calls t fd s)
    (hl : (discipline calls).Later (.heartbeat t) s s') : Owned calls t fd s' := by
  refine ⟨h.locked.later hl, fun hr => ?_⟩
  have hr' := hl.rely.base.runs hr
  obtain ⟨r, hholds, howned⟩ := h.held hr'
  exact ⟨r, hl.rely.held hr (h.locked.lock hr') fd r hholds, howned⟩

theorem wp_during {α : Type} {locals : Renewal} {p : Prog R α} {Q : α → DeliveryState R → Prop}
    (h : triple calls (.heartbeat t) p Q (fun _ => Inv calls) s) :
    triple calls (.heartbeat t) (during locals p) Q (fun _ => Inv calls) s :=
  wp_handle (wp_mono h (fun _ _ hq => hq) fun _ _ hinv => hinv)

theorem wp_duringQuiet {locals : Renewal} {c : Cmd R} {Q : c.Val → DeliveryState R → Prop} (hc : Quiet c) (hinv : Inv
    calls s) (hQ : ∀ v s', (discipline calls).Later (.heartbeat t) s s' → Q v s') : triple calls (.heartbeat t) (during
    locals (sys c)) Q (fun _ => Inv calls) s :=
  wp_during (wp_mono (wp_quiet (uses_sys hc) hinv) hQ fun _ _ hl => hl.inv)

theorem wp_openReceipt {locals : Renewal} (h : Locked calls (.heartbeat t) s) :
    triple calls (.heartbeat t) (during locals (sys .openReceipt)) (Opened calls t)
      (fun _ => Inv calls) s := by
  refine wp_during (wp_quietStep trivial h.inv fun ch r s₁ s' hruns hexec hl₁ hl =>
    ⟨fun fd hfd => ?_, fun _ _ => hl.inv⟩)
  subst hfd
  have hpath : s.path = some fd := by
    cases hpath : s.path <;> cases ch <;> simp only [execLive, hpath, Option.some.injEq,
      Prod.mk.injEq, Except.ok.injEq, reduceCtorEq, false_and] at hexec <;> rw [hexec.1]
  exact (Opened.later ⟨h, fun _ => hpath⟩ hl)

theorem wp_readDescriptor {locals : Renewal} {fd : Nat} (h : Opened calls t fd s) :
    triple calls (.heartbeat t) (during locals (sys (.readDescriptor fd)))
      (fun raw s' => Opened calls t fd s' ∧ ((ownedRecord calls t raw).isSome → Owned calls t fd s'))
      (fun _ => Inv calls) s := by
  refine wp_during (wp_quietStep trivial h.locked.inv fun ch r s₁ s' hruns hexec hl₁ hl =>
    ⟨fun raw hraw => ⟨h.later hl, fun howned => ?_⟩, fun _ _ => hl.inv⟩)
  subst hraw
  have hcontent : raw = (s.file fd).content := by
    cases ch <;> simp only [execLive, Option.some.injEq, Prod.mk.injEq, Except.ok.injEq,
      reduceCtorEq, false_and] at hexec <;> rw [hexec.1]
  obtain ⟨record, hrecord⟩ := Option.isSome_iff_exists.mp howned
  obtain ⟨hparse, hfields⟩ := Option.filter_eq_some_iff.mp hrecord
  simp only [decide_eq_true_eq] at hfields
  have hholds : Holds s fd record := ⟨h.path hruns, hcontent ▸ parse_eq_some hparse⟩
  refine Owned.later ⟨h.locked, fun _ => ⟨record, hholds, ?_⟩⟩ hl
  exact ⟨hfields.1, hfields.2.1, hfields.2.2.1⟩

theorem wp_futimes {locals : Renewal} {fd mtimeMs : Nat} (h : Owned calls t fd s) :
    triple calls (.heartbeat t) (during locals (sys (.futimes fd mtimeMs)))
      (fun _ => Inv calls) (fun _ => Inv calls) s := by
  refine wp_during (wp_step fun ch r s₁ hruns hexec => ?_)
  obtain ⟨record, hholds, howned⟩ := h.held hruns
  have hcases : s₁ = s ∨ s₁ = s.touch calls t fd mtimeMs := by
    cases ch <;> simp only [execLive, Option.some.injEq, Prod.mk.injEq] at hexec <;>
      obtain ⟨-, rfl⟩ := hexec <;> simp [Thread.id]
  have hg : (discipline calls).Guarantee (.heartbeat t) s s₁ := by
    rcases hcases with rfl | rfl
    · exact guarantee_self h.locked.inv
    · exact guarantee_touch h.locked.inv (h.locked.lock hruns) hholds howned
  exact ⟨hg, fun s' hl => ⟨fun _ _ => hl.inv, fun _ _ => hl.inv⟩⟩

theorem wp_renewLocked (h : Locked calls (.heartbeat t) s) :
    triple calls (.heartbeat t) (renewLocked calls t) (fun _ => Inv calls) (fun _ => Inv calls) s := by
  refine wp_bind (wp_mono (wp_openReceipt h) (fun fd s₁ hopened => ?_) fun _ _ hinv => hinv)
  refine wp_bind (wp_duringQuiet trivial hopened.locked.inv fun before s₂ hl₂ => ?_)
  refine wp_bind (wp_mono (wp_readDescriptor (hopened.later hl₂)) (fun raw s₃ hread => ?_)
    fun _ _ hinv => hinv)
  obtain ⟨hopened₃, howned⟩ := hread
  refine wp_bind (wp_duringQuiet trivial hopened₃.locked.inv fun after s₄ hl₄ => ?_)
  split
  · exact hl₄.inv
  · split
    · exact hl₄.inv
    case isFalse hsome =>
      have howned₄ : Owned calls t fd s₄ := (howned (by simpa [Option.isSome_iff_ne_none] using hsome)).later hl₄
      refine wp_bind (wp_duringQuiet trivial hl₄.inv fun now s₅ hl₅ => ?_)
      split
      · exact hl₅.inv
      · refine wp_bind (wp_duringQuiet trivial hl₅.inv fun currentBefore s₆ hl₆ => ?_)
        split
        · exact hl₆.inv
        · refine wp_bind (wp_duringQuiet trivial hl₆.inv fun currentRaw s₇ hl₇ => ?_)
          split
          · exact hl₇.inv
          · refine wp_bind (wp_duringQuiet trivial hl₇.inv fun now' s₈ hl₈ => ?_)
            have howned₈ := (((howned₄.later hl₅).later hl₆).later hl₇).later hl₈
            refine wp_bind (wp_mono (wp_futimes howned₈) (fun _ s₉ hinv₉ => ?_) fun _ _ hinv => hinv)
            -- from here on the worker only reads
            refine wp_bind (wp_duringQuiet trivial hinv₉ fun renewed _ hl => ?_)
            split
            · exact hl.inv
            · refine wp_bind (wp_duringQuiet trivial hl.inv fun now'' _ hl => ?_)
              split
              · exact hl.inv
              · refine wp_bind (wp_duringQuiet trivial hl.inv fun currentAfter _ hl => ?_)
                split
                · exact hl.inv
                · refine wp_bind (wp_duringQuiet trivial hl.inv fun finalRaw _ hl => ?_)
                  split
                  · exact hl.inv
                  · exact wp_bind (wp_duringQuiet trivial hl.inv fun _ _ hl => hl.inv)

/-! ## The worker -/

theorem wp_tryLock (hinv : Inv calls s) :
    triple calls (.heartbeat t) (sys .tryLock)
      (fun locked s' => Inv calls s' ∧ (locked = true → Locked calls (.heartbeat t) s'))
      (fun _ => Inv calls) s := by
  refine wp_step fun ch r s₁ _ hexec => ?_
  have hcases : (s₁ = s ∧ r ≠ .ok true) ∨
      s.lock = none ∧ s₁ = { s with lock := some (.heartbeat t) } := by
    cases hlock : s.lock <;> cases ch <;> simp only [execLive, hlock, Option.some.injEq,
      Prod.mk.injEq] at hexec <;> obtain ⟨rfl, rfl⟩ := hexec <;> simp
  rcases hcases with ⟨rfl, hr⟩ | ⟨hfree, rfl⟩
  · refine ⟨guarantee_self hinv, fun s' hl => ⟨fun v hv => ⟨hl.inv, fun htrue => ?_⟩, fun _ _ => hl.inv⟩⟩
    rw [hv, htrue] at hr
    exact absurd rfl hr
  · have hg : (discipline calls).Guarantee (.heartbeat t) s
        { s with lock := some (.heartbeat t) } :=
      guarantee_lock hinv fun u _ _ hl => by simp [hfree] at hl
    have hlocked : Locked calls (.heartbeat t) { s with lock := some (.heartbeat t) } := ⟨hg.inv, fun _ => rfl⟩
    exact ⟨hg, fun s' hl => ⟨fun _ _ => ⟨hl.inv, fun _ => hlocked.later hl⟩, fun _ _ => hl.inv⟩⟩

theorem wp_takeRenewalLock {renewedThrough : Nat} (hinv : Inv calls s) :
    triple calls (.heartbeat t) (takeRenewalLock renewedThrough)
      (fun answer s' => Inv calls s' ∧ (answer = .ok true → Locked calls (.heartbeat t) s'))
      (fun _ => Inv calls) s := by
  have hfailed : ∀ (e : DeliveryError) s', Inv calls s' → Inv calls s' ∧
      (Except.error (renewalFailure e) = Except.ok true → Locked calls (.heartbeat t) s') :=
    fun _ _ hinv => ⟨hinv, fun h => by cases h⟩
  refine wp_attempt (wp_bind (wp_mono (wp_tryLock hinv) (fun locked s₁ hlocked => ?_)
    fun e s₁ hinv₁ => hfailed e s₁ hinv₁))
  split
  · refine ⟨hlocked.1, fun h => hlocked.2 ?_⟩
    exact Except.ok.inj h
  · refine wp_bind (wp_mono (wp_quiet (uses_sys trivial) hlocked.1) (fun now s₂ hl₂ => ?_)
      fun e s₂ hl₂ => hfailed e s₂ hl₂.inv)
    split
    · exact hfailed _ s₂ hl₂.inv
    · exact ⟨hl₂.inv, fun h => by cases h⟩

theorem wp_renew {renewedThrough : Nat} (hinv : Inv calls s) :
    triple calls (.heartbeat t) (renew calls t renewedThrough) (fun _ => Inv calls)
      (fun _ => Inv calls) s := by
  refine wp_bind (wp_mono (wp_takeRenewalLock hinv) (fun answer s₁ hanswer => ?_) fun _ _ hinv => hinv)
  have hfail : ∀ failure s', Inv calls s' → triple calls (.heartbeat t)
      (failHeartbeat failure) (fun _ => Inv calls) (fun _ => Inv calls) s' :=
    fun failure s' => wp_harmless (uses_failHeartbeat failure)
  split
  · exact wp_bind (wp_mono (hfail _ s₁ hanswer.1) (fun _ _ hinv => hinv) fun _ _ hinv => hinv)
  · exact hanswer.1
  · have hfinish : ∀ renewal failure s', Inv calls s' → triple calls (.heartbeat t)
        (finishRenewal renewal failure) (fun _ => Inv calls) (fun _ => Inv calls) s' :=
      fun renewal failure s' => wp_harmless (uses_finishRenewal renewal failure)
    refine wp_bind (wp_handle (wp_mono (wp_renewLocked (hanswer.2 rfl))
      (fun done s₂ hinv₂ => ?_) fun failed s₂ hinv₂ => ?_))
    all_goals
      refine wp_bind (wp_mono (hfinish _ _ s₂ hinv₂) (fun failure s₃ hinv₃ => ?_) fun _ _ hinv => hinv)
      cases failure with
      | none => exact hinv₃
      | some failure =>
        exact wp_bind (wp_mono (hfail failure s₃ hinv₃) (fun _ _ hinv => hinv) fun _ _ hinv => hinv)

theorem wp_startupRenewal {turns : Nat} (hinv : Inv calls s) :
    triple calls (.heartbeat t) (startupRenewal calls t turns) (fun _ => Inv calls)
      (fun _ => Inv calls) s := by
  induction turns generalizing s with
  | zero => exact hinv
  | succ turns ih =>
    refine wp_bind (wp_mono (wp_renew hinv) (fun answer s₁ hinv₁ => ?_) fun _ _ hinv => hinv)
    dsimp only
    split
    · refine wp_bind (wp_mono (wp_quiet (uses_sys trivial) hinv₁) (fun _ s₂ hl₂ => ?_)
        fun _ _ hl₂ => hl₂.inv)
      refine wp_bind (wp_mono (wp_quiet (uses_sys trivial) hl₂.inv) (fun stop s₃ hl₃ => ?_)
        fun _ _ hl₃ => hl₃.inv)
      split
      · exact hl₃.inv
      · exact ih hl₃.inv
    · exact hinv₁

theorem wp_heartbeatLoop {renewedThrough turns : Nat} (hinv : Inv calls s) :
    triple calls (.heartbeat t) (heartbeatLoop calls t renewedThrough turns) (fun _ => Inv calls)
      (fun _ => Inv calls) s := by
  induction turns generalizing renewedThrough s with
  | zero => exact hinv
  | succ turns ih =>
    refine wp_bind (wp_mono (wp_quiet (uses_sys trivial) hinv) (fun stop s₁ hl₁ => ?_)
      fun _ _ hl₁ => hl₁.inv)
    split
    · exact hl₁.inv
    · refine wp_bind (wp_mono (wp_quiet (uses_sys trivial) hl₁.inv) (fun _ s₂ hl₂ => ?_)
        fun _ _ hl₂ => hl₂.inv)
      refine wp_bind (wp_mono (wp_quiet (uses_sys trivial) hl₂.inv) (fun stop s₃ hl₃ => ?_)
        fun _ _ hl₃ => hl₃.inv)
      split
      · exact hl₃.inv
      · refine wp_bind (wp_mono (wp_renew hl₃.inv) (fun answer s₄ hinv₄ => ?_) fun _ _ hinv => hinv)
        dsimp only
        split
        · exact hinv₄
        · exact ih hinv₄

theorem wp_heartbeatWorker (hinv : Inv calls s) :
    triple calls (.heartbeat t) (heartbeatWorker calls t) (fun _ => Inv calls) (fun _ => Inv calls)
      s := by
  refine wp_bind (wp_mono (wp_quiet (uses_sys trivial) hinv) (fun _ s₁ hl₁ => ?_)
    fun _ _ hl₁ => hl₁.inv)
  refine wp_bind (wp_mono (wp_startupRenewal hl₁.inv) (fun answer s₂ hinv₂ => ?_) fun _ _ hinv => hinv)
  have hpublish : ∀ status s', Inv calls s' → triple calls (.heartbeat t) (sys (.publish status))
      (fun _ => Inv calls) (fun _ => Inv calls) s' :=
    fun status s' => wp_harmless (uses_harmless trivial)
  obtain ⟨answer, through⟩ := answer
  cases answer with
  | renewed =>
    refine wp_bind (wp_mono (hpublish .active s₂ hinv₂) (fun _ s₃ hinv₃ => ?_) fun _ _ hinv => hinv)
    refine wp_bind (wp_mono (wp_heartbeatLoop hinv₃) (fun _ s₄ hinv₄ => ?_) fun _ _ hinv => hinv)
    refine wp_bind (wp_mono (wp_quiet (uses_sys trivial) hinv₄) (fun status s₅ hl₅ => ?_)
      fun _ _ hl₅ => hl₅.inv)
    split
    · exact hpublish .stopped s₅ hl₅.inv
    · exact hl₅.inv
  | busy => exact hpublish .stopped s₂ hinv₂
  | failed => exact hinv₂

end RabiRoute.DurableDelivery
