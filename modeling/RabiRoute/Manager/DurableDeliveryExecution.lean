import RabiRoute.Manager.DurableDeliverySteps

/-!
# One execution of a durable delivery

From its reservation or its claim to its outcome, an execution acts on the receipt only while the
receipt names it, and it sends only for a reservation or a verdict to retry that it has not used.
-/

open Interleave Interleave.Program

namespace RabiRoute.DurableDelivery

variable {R : Type} {calls : Calls R} {t : CallId} {s : DeliveryState R}

/-! ## Changing the receipt under the lock -/

/-- The checks that every writer makes of the receipt it has read under the lock. -/
structure Checked (calls : Calls R) (t : CallId) (r' : Receipt R) (s : DeliveryState R) : Prop where
  locked : Locked calls (.call t) s
  held : runs calls s (.call t) = true → ∃ i r, Holds s i r ∧ Reads r r'
  digest : r'.requestDigest = calls.digest t
  pending : r'.state ≠ .completed
  owner : s.executing t = true → r'.executionId = some t

theorem Checked.later {r' : Receipt R} {s s' : DeliveryState R} (h : Checked calls t r' s)
    (hl : Later calls t s s') : Checked calls t r' s' := by
  refine ⟨h.locked.later hl, fun hr => ?_, h.digest, h.pending, fun hx => h.owner ?_⟩
  · have hr' := hl.rely.base.runs hr
    obtain ⟨i, r, hi, hreads⟩ := h.held hr'
    exact ⟨i, r, hl.rely.held hr (h.locked.lock hr') i r hi, hreads⟩
  · rw [← (hl.rely.marks t rfl).executing]
    exact hx

theorem Checked.licensed {r' : Receipt R} (h : Checked calls t r' s)
    (hr : runs calls s (.call t) = true) : ∃ i r, Licensed calls t i r s := by
  obtain ⟨i, r, hi, hreads⟩ := h.held hr
  exact ⟨i, r, h.locked.lock hr, hi, hreads.digest.symm.trans h.digest,
    hreads.state ▸ h.pending, fun hx => hreads.executionId.symm.trans (h.owner hx)⟩

/-- What call `t` has done since `s`, its lock and its part in the receipt aside. -/
theorem marks_replace {next : Receipt R} (hexecuting : s.executing t = true) : Marks t s (s.replace calls t next) := by
  refine ⟨rfl, ?_, rfl, rfl, rfl, rfl, rfl, rfl⟩
  show (if t = t then _ else s.executing t) = s.executing t
  simp [hexecuting]

theorem holds_replace (next : Receipt R) : Holds (s.replace calls t next) s.nextInode next := by
  refine ⟨rfl, ?_⟩
  show (if s.nextInode = s.nextInode then _ else s.file s.nextInode).content = _
  rw [if_pos rfl]

/-- A replaced receipt was not completed, so nothing that stays has changed. -/
theorem Licensed.base {i : Nat} {r : Receipt R} {s' : DeliveryState R} (h : Licensed calls t i r s) (hdead : s'.dead =
    s.dead) (hcontrol : s'.control = s.control) (hobserved : s'.observed = s.observed) : Base s s' := by
  refine ⟨fun _ _ hd => by rwa [hdead], fun _ ht => by rwa [hcontrol],
    fun _ ht => by rwa [hobserved], fun j r' hj hr' => ?_⟩
  have hsame : r' = r := Option.some.inj (hj.stored.symm.trans h.holds.stored)
  exact absurd (hsame ▸ hr') h.pending

theorem wp_replace {r' next : Receipt R} {Q : Unit → DeliveryState R → Prop}
    {E : DeliveryError → DeliveryState R → Prop} (h : Checked calls t r' s)
    (hdone : ∀ i r s', Licensed calls t i r s → Later calls t (s.replace calls t next) s' →
      Q () s' ∧ ∀ e, E e s')
    (hfail : ∀ e s', Later calls t s s' → E e s') :
    triple calls (.call t) (sys (.replace next)) Q E s := by
  refine wp_step fun ch r s₁ hruns hexec => ?_
  obtain ⟨i, old, hlicensed⟩ := h.licensed hruns
  have hcases : (s₁ = s ∧ ∃ e, r = .error e) ∨ s₁ = s.replace calls t next := by
    cases ch <;> simp only [execLive, Option.some.injEq, Prod.mk.injEq] at hexec <;>
      obtain ⟨rfl, rfl⟩ := hexec <;> simp [Thread.id]
  rcases hcases with ⟨rfl, e, rfl⟩ | rfl
  · exact ⟨guarantee_self h.locked.inv, fun s' hl => ⟨(fun _ hv => by cases hv), fun e _ => hfail e s' hl⟩⟩
  · exact ⟨guarantee_replace h.locked.inv hlicensed, fun s' hl =>
      ⟨fun _ _ => (hdone i old s' hlicensed hl).1, fun e _ => (hdone i old s' hlicensed hl).2 e⟩⟩

theorem wp_unlink {r' : Receipt R} {Q : Unit → DeliveryState R → Prop}
    {E : DeliveryError → DeliveryState R → Prop} (h : Checked calls t r' s) (ht : t < calls.count)
    (hrejected : s.removals t < s.rejections t)
    (hdone : ∀ i r s', Licensed calls t i r s → Later calls t (s.remove calls t) s' →
      Q () s' ∧ ∀ e, E e s')
    (hfail : ∀ e s', Later calls t s s' → E e s') :
    triple calls (.call t) (sys .unlink) Q E s := by
  refine wp_step fun ch r s₁ hruns hexec => ?_
  obtain ⟨i, old, hlicensed⟩ := h.licensed hruns
  have hpath : s.path = some i := hlicensed.holds.1
  have hcases : (s₁ = s ∧ ∃ e, r = .error e) ∨ s₁ = s.remove calls t := by
    cases ch <;> simp only [execLive, hpath, Option.some.injEq, Prod.mk.injEq] at hexec <;>
      obtain ⟨rfl, rfl⟩ := hexec <;> simp [Thread.id]
  rcases hcases with ⟨rfl, e, rfl⟩ | rfl
  · exact ⟨guarantee_self h.locked.inv, fun s' hl => ⟨(fun _ hv => by cases hv), fun e _ => hfail e s' hl⟩⟩
  · exact ⟨guarantee_remove h.locked.inv ht hlicensed hrejected, fun s' hl =>
      ⟨fun _ _ => (hdone i old s' hlicensed hl).1, fun e _ => (hdone i old s' hlicensed hl).2 e⟩⟩

/-! ## The mutations of an owned receipt -/

/-- The next receipt of a mutation that is to leave the result `final`, if any; only a rejected
result lets it leave no receipt. -/
def Follows (calls : Calls R) (t : CallId) (s : DeliveryState R) (final : Option R) :
    Option (Receipt R) → Prop
  | none => final = none ∧ s.removals t < s.rejections t
  | some next => ∀ result, final = some result →
      next.state = .completed ∧ next.result = some result ∧ next.requestDigest = calls.digest t

/-- What a mutation that started in `s` has left, when `settled` is its answer. -/
structure Settled (calls : Calls R) (t : CallId) (final : Option R) (s : DeliveryState R)
    (settled : Option (Receipt R)) (s' : DeliveryState R) : Prop where
  executing : Executing calls t s'
  rejection : s'.rejection t = s.rejection t
  completed : settled.isSome → ∀ result, final = some result → Completed calls t result s'

theorem Settled.steady {final : Option R} {settled : Option (Receipt R)} {s s' s'' : DeliveryState R} (h : Settled calls
    t final s settled s') (hs : Steady calls t s' s'') : Settled calls t final s settled s'' :=
  ⟨h.executing.steady hs, hs.marks.rejection.trans h.rejection,
    fun hsome result hfinal => (h.completed hsome result hfinal).base hs.base⟩

theorem Settled.of_steady {final : Option R} {s s' : DeliveryState R} (h : Executing calls t s)
    (hs : Steady calls t s s') : Settled calls t final s none s' :=
  ⟨h.steady hs, hs.marks.rejection, fun hsome => by cases hsome⟩

theorem steady_replace {i : Nat} {r next : Receipt R} {s' : DeliveryState R} (h : Licensed calls t i r s) (hexecuting :
    s.executing t = true) (hl : Later calls t (s.replace calls t next) s') : Steady calls t s s' := by
  have hbase : Base s (s.replace calls t next) := h.base rfl rfl rfl
  exact ⟨hl.inv, hbase.trans hl.rely.base, (marks_replace hexecuting).trans (hl.rely.marks t rfl)⟩

theorem wp_finishMutation {r' : Receipt R} {final : Option R} {s₀ : DeliveryState R}
    (next : Option (Receipt R)) (ht : t < calls.count) (h : Executing calls t s₀)
    (hs : Steady calls t s₀ s) (hchecked : Checked calls t r' s)
    (hnext : Follows calls t s₀ final next) :
    triple calls (.call t)
      (match next with
        | none => do
            sys .unlink
            pure (some r')
        | some next => do
            let written ← writeReceipt next
            pure (some written))
      (Settled calls t final s₀) (fun _ => Executing calls t) s := by
  have hexecuting : s.executing t = true := (h.steady hs).executing
  have hkept : ∀ s', Later calls t s s' → Executing calls t s' := fun s' hl => h.steady (hs.later hl)
  cases next with
  | none =>
    obtain ⟨hfinal, hrejected⟩ := hnext
    rw [← hs.marks.removals, ← hs.marks.rejections] at hrejected
    refine wp_bind (wp_unlink hchecked ht hrejected (fun i r s' hlicensed hl => ?_)
      fun _ => hkept)
    have hmarks := hl.rely.marks t rfl
    have hdone : Executing calls t s' := ⟨hl.inv, hmarks.executing.trans hexecuting⟩
    refine ⟨⟨hdone, hmarks.rejection.trans hs.marks.rejection, fun _ result hresult => ?_⟩,
      fun _ => hdone⟩
    rw [hfinal] at hresult
    cases hresult
  | some next =>
    refine wp_bind (wp_bind (wp_replace hchecked (fun i r s' hlicensed hl => ?_) fun _ => hkept))
    have hsteady := hs.trans (steady_replace hlicensed hexecuting hl)
    refine ⟨⟨h.steady hsteady, hsteady.marks.rejection, fun _ result hresult => ?_⟩,
      fun _ => h.steady hsteady⟩
    obtain ⟨hstate, hres, hdigest⟩ := hnext result hresult
    exact Completed.base ⟨_, next, holds_replace next, hstate, hres, hdigest⟩ hl.rely.base

theorem wp_mutateOwnedReceipt {mutate : Receipt R → Prog R (Option (Receipt R))}
    (final : Option R) (ht : t < calls.count) (h : Executing calls t s)
    (hmutate : ∀ r' s₁, r'.requestDigest = calls.digest t → Inv calls s₁ →
      triple calls (.call t) (mutate r')
        (fun next s₂ => Later calls t s₁ s₂ ∧ Follows calls t s final next)
        (fun _ => Later calls t s₁) s₁) :
    triple calls (.call t) (mutateOwnedReceipt calls t mutate) (Settled calls t final s)
      (fun _ => Executing calls t) s := by
  have hkept : ∀ s', Steady calls t s s' → Executing calls t s' := fun s' => h.steady
  refine wp_bind (wp_requestAuthority h.inv (fun s₁ hl₁ => ?_) fun _ s₁ hl₁ => hkept s₁ (.of_later hl₁))
  have hs₁ : Steady calls t s s₁ := .of_later hl₁
  refine wp_withReceiptMutationLock hl₁.inv
    (fun a s' hsettled => ⟨hsettled.executing.inv, hsettled.executing, fun _ => hsettled.steady⟩)
    (fun s' hx => ⟨hx.inv, fun _ => hx.steady⟩) (fun s' hs => hkept s' (hs₁.trans hs))
    fun s₂ hs₂ hlocked => ?_
  have hs₂ := hs₁.trans hs₂
  refine wp_bind (wp_readDurableDeliveryReceipt hs₂.inv fun current s₃ hl₃ hread => ?_)
  refine wp_bind (wp_requestAuthority hl₃.inv (fun s₄ hl₄ => ?_)
    fun _ s₄ hl₄ => hkept s₄ ((hs₂.later hl₃).later hl₄))
  have hs₄ := (hs₂.later hl₃).later hl₄
  split
  case h_1 => exact .of_steady h hs₄
  case h_2 current =>
    split
    case isTrue => exact .of_steady h hs₄
    case isFalse hown =>
      simp only [not_or, not_not] at hown
      obtain ⟨hdigest, howner, hstate⟩ := hown
      have hsighted := (hread current rfl).later hl₄
      have hchecked : Checked calls t current s₄ :=
        ⟨(hlocked.later hl₃).later hl₄, hsighted.held hlocked, hdigest, by simp [hstate],
          fun _ => howner⟩
      refine wp_bind (wp_mono (hmutate current s₄ hdigest hs₄.inv) (fun next s₅ hnext => ?_)
        fun _ s₅ hl₅ => hkept s₅ (hs₄.later hl₅))
      obtain ⟨hl₅, hfollows⟩ := hnext
      have hs₅ := hs₄.later hl₅
      refine wp_bind (wp_requestAuthority hs₅.inv (fun s₆ hl₆ => ?_)
        fun _ s₆ hl₆ => hkept s₆ (hs₅.later hl₆))
      exact wp_finishMutation next ht h (hs₅.later hl₆) ((hchecked.later hl₅).later hl₆) hfollows

/-! ## Settling a result -/

/-- A call that answers `completed` answers the result of the receipt, for its own payload, or one
that its own `retryableRejection` has accepted. -/
def Agreed (calls : Calls R) (t : CallId) (outcome : Outcome R) (s : DeliveryState R) : Prop :=
  ∀ id duplicate result settlement, outcome = .completed id duplicate result settlement →
    Completed calls t result s ∨ s.rejection t = some result

theorem agreed_pending {state : PendingState} {reason : String} {duplicate : Bool} :
    Agreed calls t (pendingOutcome calls state reason duplicate) s :=
  fun _ _ _ _ h => by cases h

theorem Agreed.steady {outcome : Outcome R} {s s' : DeliveryState R} (h : Agreed calls t outcome s)
    (hs : Steady calls t s s') : Agreed calls t outcome s' := by
  intro id duplicate result settlement hout
  rcases h id duplicate result settlement hout with hcompleted | hrejected
  · exact .inl (hcompleted.base hs.base)
  · exact .inr (hs.marks.rejection.trans hrejected)

/-- What an execution leaves when it ends with an outcome. -/
structure Ended (calls : Calls R) (t : CallId) (outcome : Outcome R) (s : DeliveryState R) :
    Prop where
  executing : Executing calls t s
  agreed : Agreed calls t outcome s

theorem Ended.steady {outcome : Outcome R} {s s' : DeliveryState R} (h : Ended calls t outcome s)
    (hs : Steady calls t s s') : Ended calls t outcome s' :=
  ⟨h.executing.steady hs, h.agreed.steady hs⟩

theorem Executing.ended {state : PendingState} {reason : String} {duplicate : Bool}
    (h : Executing calls t s) : Ended calls t (pendingOutcome calls state reason duplicate) s :=
  ⟨h, agreed_pending⟩

theorem frame_counts {s' : DeliveryState R}
    (h : s' = { s with retries := s'.retries, rejections := s'.rejections, rejection := s'.rejection }) :
    Frame s s' := by
  rw [h]
  exact ⟨fun _ _ h => h, fun _ h => h, fun _ h => h, rfl, fun _ => rfl, rfl, rfl, rfl, rfl, rfl, rfl⟩

/-- What a verdict of `retryableRejection` leaves. -/
structure Judged (calls : Calls R) (t : CallId) (result : R) (retryable : Bool)
    (s : DeliveryState R) : Prop where
  executing : Executing calls t s
  rejected : retryable = true →
    s.rejection t = some result ∧ s.removals t < s.rejections t

theorem execLive_retryableRejection {thread : Thread} {result : R} {s' : DeliveryState R}
    {ch : Choice R} {a : (Cmd.retryableRejection result).Response}
    (h : execLive calls thread s (.retryableRejection result) ch = some (a, s')) :
    s' = s ∧ a ≠ .ok true ∨
      s' = (s.countRejection thread.id).setRejection thread.id (some result) := by
  cases ch with
  | rejects b =>
    cases b <;> simp only [execLive, Option.some.injEq, Prod.mk.injEq] at h <;>
      obtain ⟨rfl, rfl⟩ := h <;> simp
  | throws message =>
    simp only [execLive, Option.some.injEq, Prod.mk.injEq] at h
    obtain ⟨rfl, rfl⟩ := h
    simp
  | _ => simp [execLive] at h

theorem wp_retryableRejection {result : R} (h : Executing calls t s)
    (hcallback : calls.hasRetryableRejection t = true) :
    triple calls (.call t) (sys (.retryableRejection result)) (Judged calls t result)
      (fun _ => Executing calls t) s := by
  refine wp_step fun ch r s₁ _ hexec => ?_
  rcases execLive_retryableRejection hexec with ⟨rfl, hr⟩ | rfl
  · refine ⟨guarantee_self h.inv, fun s' hl => ⟨fun v hv => ⟨h.steady (.of_later hl), fun htrue => ?_⟩,
      fun _ _ => h.steady (.of_later hl)⟩⟩
    rw [hv, htrue] at hr
    exact absurd rfl hr
  · have hcounts : ∀ u, (Thread.call t) = .call u →
        Counts calls u ((s.countRejection t).setRejection t (some result)) := by
      rintro u ⟨⟩
      obtain ⟨hsends, hremoves, hrecovers, -⟩ := h.inv.counts t
      refine ⟨hsends, ?_, hrecovers, fun hnone => ?_⟩
      · show s.removals t ≤ if t = t then s.rejections t + 1 else s.rejections t
        rw [if_pos rfl]
        omega
      · rw [hcallback] at hnone
        cases hnone
    have hmarks : ∀ u, (Thread.call t) ≠ .call u →
        Marks u s ((s.countRejection t).setRejection t (some result)) := by
      intro u hu
      have hut : u ≠ t := fun h => hu (by rw [h])
      refine ⟨rfl, rfl, ?_, rfl, rfl, rfl, ?_, rfl⟩
      · show (if u = t then some result else s.rejection u) = s.rejection u
        rw [if_neg hut]
      · show (if u = t then s.rejections u + 1 else s.rejections u) = s.rejections u
        rw [if_neg hut]
    have hg : (discipline calls).Guarantee (.call t) s
        ((s.countRejection t).setRejection t (some result)) :=
      guarantee_frame h.inv (frame_counts rfl) rfl rfl hcounts hmarks
    refine ⟨hg, fun s' hl => ?_⟩
    have hlmarks := hl.rely.marks t rfl
    have hx : Executing calls t s' := ⟨hl.inv, hlmarks.executing.trans h.executing⟩
    refine ⟨fun _ _ => ⟨hx, fun _ => ⟨?_, ?_⟩⟩, fun _ _ => hx⟩
    · rw [hlmarks.rejection]
      show (if t = t then some result else s.rejection t) = some result
      rw [if_pos rfl]
    · rw [hlmarks.removals, hlmarks.rejections]
      show s.removals t < if t = t then s.rejections t + 1 else s.rejections t
      have := (h.inv.counts t).removes
      rw [if_pos rfl]
      omega

theorem wp_settleOwnedResult {result : R} {duplicate : Bool} (ht : t < calls.count)
    (h : Executing calls t s) :
    triple calls (.call t) (settleOwnedResult calls t result duplicate) (Ended calls t)
      (fun _ => Executing calls t) s := by
  have hjudge : triple calls (.call t)
      (if calls.hasRetryableRejection t then sys (.retryableRejection result)
        else pure false : Prog R Bool) (Judged calls t result) (fun _ => Executing calls t) s := by
    split
    · exact wp_retryableRejection h (by assumption)
    · exact ⟨h, fun hfalse => by cases hfalse⟩
  refine wp_bind (wp_mono hjudge (fun retryable s₁ hjudged => ?_) fun _ _ hx => hx)
  have h₁ := hjudged.executing
  refine wp_bind (wp_mono (wp_mutateOwnedReceipt (if retryable then none else some result)
    ht h₁ fun current s₂ hdigest hinv₂ => ?_) (fun settled s₂ hsettled => ?_) fun _ _ hx => hx)
  · split
    case isTrue hretry =>
      exact ⟨.self hinv₂, by simp, (hjudged.rejected hretry).2⟩
    case isFalse =>
      refine wp_bind (wp_dateNow hinv₂ (fun now s₃ hl₃ => ⟨hl₃, fun result' hresult => ?_⟩)
        fun _ _ hl₃ => hl₃)
      exact ⟨rfl, hresult, hdigest⟩
  · split
    case isTrue => exact hsettled.executing.ended
    case isFalse hsome =>
      have hx := hsettled.executing
      refine wp_bind (wp_requestAuthority hx.inv (fun s₃ hl₃ => ?_)
        fun _ s₃ hl₃ => hx.steady (.of_later hl₃))
      refine Ended.steady ⟨hx, fun id dup result' settlement hout => ?_⟩ (.of_later hl₃)
      obtain ⟨-, -, rfl, -⟩ := Outcome.completed.inj hout
      by_cases hretry : retryable = true
      · exact .inr (hsettled.rejection.trans (hjudged.rejected hretry).1)
      · refine .inl (hsettled.completed ?_ result (if_neg hretry))
        simpa [Option.isSome_iff_ne_none] using hsome

theorem wp_markOwnedUncertain {reason : String} (ht : t < calls.count) (h : Executing calls t s) :
    triple calls (.call t) (markOwnedUncertain calls t reason) (fun _ => Executing calls t)
      (fun _ => Executing calls t) s :=
  wp_bind (wp_mono (wp_mutateOwnedReceipt none ht h fun _ _ _ hinv =>
    wp_bind (wp_dateNow hinv (fun _ _ hl => ⟨hl, fun _ hfinal => by cases hfinal⟩) fun _ _ hl => hl))
      (fun _ _ hsettled => hsettled.executing) fun _ _ hx => hx)

theorem wp_releaseOwnedSending (ht : t < calls.count) (h : Executing calls t s) :
    triple calls (.call t) (releaseOwnedSending calls t) (fun _ => Executing calls t)
      (fun _ => Executing calls t) s :=
  wp_bind (wp_mono (wp_mutateOwnedReceipt none ht h fun _ _ _ hinv =>
    wp_bind (wp_dateNow hinv (fun _ _ hl => ⟨hl, fun _ hfinal => by cases hfinal⟩) fun _ _ hl => hl))
      (fun _ _ hsettled => hsettled.executing) fun _ _ hx => hx)

/-! ## The heartbeat of an execution -/

/-- A worker that its call has ended cannot take the lock again. -/
theorem wp_releaseWorkerLock {Q : Unit → DeliveryState R → Prop} {E : DeliveryError → DeliveryState R → Prop} (hinv :
    Inv calls s) (hterminated : (s.control t).terminated = true) (hQ : ∀ s', Steady calls t s s' → Q () s') (hE : ∀ e
    s', Steady calls t s s' → E e s') : triple calls (.call t) (sys .releaseWorkerLock) Q E s := by
  refine wp_step fun ch r s₁ _ hexec => ?_
  have hcases : s₁ = s ∨ s.lock = some (.heartbeat t) ∧ s₁ = { s with lock := none } := by
    by_cases hlock : s.lock = some (.heartbeat t) <;> cases ch <;>
      simp only [execLive, Thread.id, hlock, Option.some.injEq, Prod.mk.injEq, if_true, if_false] at hexec <;>
      obtain ⟨-, rfl⟩ := hexec <;> simp [hlock]
  rcases hcases with rfl | ⟨hlock, rfl⟩
  · exact ⟨guarantee_self hinv, fun s' hl =>
      ⟨fun _ _ => hQ s' (.of_later hl), fun e _ => hE e s' (.of_later hl)⟩⟩
  · have hg : (discipline calls).Guarantee (.call t) s { s with lock := none } := by
      refine guarantee_lock hinv fun u _ hr hl => ?_
      obtain rfl : u = .heartbeat t := Option.some.inj (hl.symm.trans hlock)
      simp [runs, hterminated] at hr
    have hs : Steady calls t s { s with lock := none } := steady_lock hg.inv
    exact ⟨hg, fun s' hl => ⟨fun _ _ => hQ s' (hs.later hl), fun e _ => hE e s' (hs.later hl)⟩⟩

theorem wp_terminate {Q : Unit → DeliveryState R → Prop} {E : DeliveryError → DeliveryState R → Prop} (hinv : Inv calls
    s) (hQ : ∀ s', Steady calls t s s' → (s'.control t).terminated = true → Q () s') (hE : ∀ e s', Steady calls t s s' →
    E e s') : triple calls (.call t) (sys .terminate) Q E s := by
  refine wp_quietStep trivial hinv fun ch r s₁ s' _ hexec hl₁ hl =>
    ⟨fun _ _ => hQ s' (.of_later hl) ?_, fun e _ => hE e s' (.of_later hl)⟩
  refine hl₁.rely.base.terminated t ?_
  simp only [execLive, Thread.id, Option.some.injEq, Prod.mk.injEq] at hexec
  obtain ⟨-, rfl⟩ := hexec
  show (if t = t then _ else s.control t).terminated = true
  rw [if_pos rfl]

theorem wp_stopHeartbeat {Q : Unit → DeliveryState R → Prop} {E : DeliveryError → DeliveryState R → Prop} (hinv : Inv
    calls s) (hQ : ∀ s', Steady calls t s s' → Q () s') (hE : ∀ e s', Steady calls t s s' → E e s') : triple calls
    (.call t) stopHeartbeat Q E s := by
  refine wp_bind (wp_mono (wp_quiet (uses_sys trivial) hinv) (fun _ s₁ hl₁ => ?_)
    fun e s₁ hl₁ => hE e s₁ (.of_later hl₁))
  refine wp_bind (wp_mono (wp_quiet (uses_sys trivial) hl₁.inv) (fun _ s₂ hl₂ => ?_)
    fun e s₂ hl₂ => hE e s₂ (.of_later (hl₁.trans hl₂)))
  have hs₂ : Steady calls t s s₂ := .of_later (hl₁.trans hl₂)
  refine wp_bind (wp_terminate hl₂.inv (fun s₃ hs₃ hterminated => ?_)
    fun e s₃ hs₃ => hE e s₃ (hs₂.trans hs₃))
  have hs₃ := hs₂.trans hs₃
  exact wp_releaseWorkerLock hs₃.inv hterminated (fun s₄ hs₄ => hQ s₄ (hs₃.trans hs₄))
    fun e s₄ hs₄ => hE e s₄ (hs₃.trans hs₄)

theorem wp_startReceiptHeartbeat {Q : Unit → DeliveryState R → Prop} {E : DeliveryError → DeliveryState R → Prop} (hinv
    : Inv calls s) (hQ : ∀ s', Steady calls t s s' → Q () s') (hE : ∀ e s', Steady calls t s s' → E e s') : triple calls
    (.call t) startReceiptHeartbeat Q E s := by
  refine wp_bind (wp_mono (wp_quiet (uses_sys trivial) hinv) (fun _ s₁ hl₁ => ?_)
    fun e s₁ hl₁ => hE e s₁ (.of_later hl₁))
  refine wp_bind (wp_mono (wp_quiet (uses_sys trivial) hl₁.inv) (fun status s₂ hl₂ => ?_)
    fun e s₂ hl₂ => hE e s₂ (.of_later (hl₁.trans hl₂)))
  have hs₂ : Steady calls t s s₂ := .of_later (hl₁.trans hl₂)
  split
  · refine wp_bind (wp_mono (wp_quiet (uses_sys trivial) hl₂.inv) (fun _ s₃ hl₃ => ?_)
      fun e s₃ hl₃ => hE e s₃ (hs₂.later hl₃))
    have hs₃ := hs₂.later hl₃
    refine wp_bind (wp_terminate hl₃.inv (fun s₄ hs₄ hterminated => ?_)
      fun e s₄ hs₄ => hE e s₄ (hs₃.trans hs₄))
    have hs₄ := hs₃.trans hs₄
    refine wp_bind (wp_releaseWorkerLock hs₄.inv hterminated (fun s₅ hs₅ => ?_)
      fun e s₅ hs₅ => hE e s₅ (hs₄.trans hs₅))
    have hs₅ := hs₄.trans hs₅
    exact wp_bind (wp_mono (wp_quiet (uses_sys trivial) hs₅.inv)
      (fun _ s₆ hl₆ => hE _ s₆ (hs₅.later hl₆)) fun e s₆ hl₆ => hE e s₆ (hs₅.later hl₆))
  · exact hQ s₂ hs₂

/-! ## Sending and recovering -/

theorem wp_deliver {Q : Unit → DeliveryState R → Prop} {E : DeliveryError → DeliveryState R → Prop}
    (h : Ready calls t s) (hQ : ∀ s', Executing calls t s' → Q () s')
    (hE : ∀ e s', Executing calls t s' → E e s') : triple calls (.call t) (sys .deliver) Q E s := by
  refine wp_step fun ch r s₁ _ hexec => ?_
  simp only [execLive, Thread.id, Option.some.injEq, Prod.mk.injEq] at hexec
  obtain ⟨-, rfl⟩ := hexec
  have hframe : Frame s ((s.countDeliver t).note (s.executing t)) := by
    refine ⟨fun _ _ h => h, fun _ h => h, fun _ h => h, rfl, fun _ => rfl, rfl, rfl, rfl, rfl, rfl, ?_⟩
    show (s.trespass || !(s.executing t)) = s.trespass
    simp [h.executing]
  have hcounts : ∀ u, (Thread.call t) = .call u →
      Counts calls u ((s.countDeliver t).note (s.executing t)) := by
    rintro u ⟨⟩
    obtain ⟨-, hremoves, hrecovers, hrejects⟩ := h.inv.counts t
    refine ⟨?_, hremoves, hrecovers, hrejects⟩
    show (if t = t then s.delivers t + 1 else s.delivers t) ≤ s.creates t + s.retries t
    rw [if_pos rfl]
    exact h.credit
  have hmarks : ∀ u, (Thread.call t) ≠ .call u →
      Marks u s ((s.countDeliver t).note (s.executing t)) := by
    intro u hu
    have hut : u ≠ t := fun h => hu (by rw [h])
    refine ⟨rfl, rfl, rfl, rfl, ?_, rfl, rfl, rfl⟩
    show (if u = t then s.delivers u + 1 else s.delivers u) = s.delivers u
    rw [if_neg hut]
  have hg : (discipline calls).Guarantee (.call t) s ((s.countDeliver t).note (s.executing t)) :=
    guarantee_frame h.inv hframe rfl rfl hcounts hmarks
  refine ⟨hg, fun s' hl => ?_⟩
  have hx : Executing calls t s' := ⟨hl.inv, (hl.rely.marks t rfl).executing.trans h.executing⟩
  exact ⟨fun _ _ => hQ s' hx, fun e _ => hE e s' hx⟩

/-- What `recover` leaves: its verdict to retry is one more send that the execution may make. -/
def Advised (calls : Calls R) (t : CallId) : Recovery R → DeliveryState R → Prop
  | .retry, s => Ready calls t s
  | _, s => Executing calls t s

theorem execLive_awaitRecovery {thread : Thread} {s' : DeliveryState R} {ch : Choice R}
    {a : (Cmd.awaitRecovery (R := R)).Response}
    (h : execLive calls thread s .awaitRecovery ch = some (a, s')) :
    s' = s ∧ a ≠ .ok .retry ∨ s' = s.countRetry thread.id ∧ a = .ok .retry := by
  cases ch with
  | recovered recovery =>
    cases recovery <;> simp only [execLive, Option.some.injEq, Prod.mk.injEq] at h <;>
      obtain ⟨rfl, rfl⟩ := h <;> simp
  | throws message =>
    simp only [execLive, Option.some.injEq, Prod.mk.injEq] at h
    obtain ⟨rfl, rfl⟩ := h
    simp
  | _ => simp [execLive] at h

theorem wp_awaitRecovery (h : Executing calls t s) (hcallback : calls.hasRecover t = true) :
    triple calls (.call t) (sys .awaitRecovery) (Advised calls t) (fun _ => Executing calls t) s := by
  refine wp_step fun ch r s₁ _ hexec => ?_
  rcases execLive_awaitRecovery hexec with ⟨rfl, hr⟩ | ⟨rfl, rfl⟩
  · refine ⟨guarantee_self h.inv, fun s' hl => ⟨fun v hv => ?_, fun _ _ => h.steady (.of_later hl)⟩⟩
    cases v with
    | retry => exact absurd hv hr
    | completed result => exact h.steady (.of_later hl)
    | inProgress reason => exact h.steady (.of_later hl)
    | uncertain reason => exact h.steady (.of_later hl)
  · obtain ⟨hsends, hremoves, -, hrejects⟩ := h.inv.counts t
    have hcounts : ∀ u, (Thread.call t) = .call u → Counts calls u (s.countRetry t) := by
      rintro u ⟨⟩
      refine ⟨?_, hremoves, fun hnone => ?_, hrejects⟩
      · show s.delivers t ≤ s.creates t + if t = t then s.retries t + 1 else s.retries t
        rw [if_pos rfl]
        omega
      · rw [hcallback] at hnone
        cases hnone
    have hmarks : ∀ u, (Thread.call t) ≠ .call u → Marks u s (s.countRetry t) := by
      intro u hu
      have hut : u ≠ t := fun h => hu (by rw [h])
      refine ⟨rfl, rfl, rfl, rfl, rfl, ?_, rfl, rfl⟩
      show (if u = t then s.retries u + 1 else s.retries u) = s.retries u
      rw [if_neg hut]
    have hg : (discipline calls).Guarantee (.call t) s (s.countRetry t) :=
      guarantee_frame h.inv (frame_counts rfl) rfl rfl hcounts hmarks
    refine ⟨hg, fun s' hl => ?_⟩
    have hlmarks := hl.rely.marks t rfl
    have hx : Executing calls t s' := ⟨hl.inv, hlmarks.executing.trans h.executing⟩
    refine ⟨fun v hv => ?_, fun _ _ => hx⟩
    obtain rfl := Except.ok.inj hv
    refine ⟨hx, ?_⟩
    rw [hlmarks.delivers, hlmarks.creates, hlmarks.retries]
    show s.delivers t < s.creates t + if t = t then s.retries t + 1 else s.retries t
    rw [if_pos rfl]
    omega

/-- A step whose failure leaves the execution what it was. -/
theorem Executing.wp_quiet {α : Type} {p : Prog R α} (h : Executing calls t s) (hp : p.Uses Quiet) : triple calls (.call
    t) p (fun _ => Executing calls t) (fun _ => Executing calls t) s :=
  wp_mono (DurableDelivery.wp_quiet hp h.inv) (fun _ _ hl => h.steady (.of_later hl))
    fun _ _ hl => h.steady (.of_later hl)

theorem Executing.wp_authority {α : Type} {p : Prog R α} {Q : α → DeliveryState R → Prop}
    (h : Executing calls t s)
    (hp : ∀ s', Executing calls t s' → triple calls (.call t) p Q (fun _ => Executing calls t) s') :
    triple calls (.call t) (do
      sys .requestAuthority
      p) Q (fun _ => Executing calls t) s :=
  wp_bind (wp_mono (h.wp_quiet (uses_sys trivial)) (fun _ => hp) fun _ _ hx => hx)

theorem wp_uncertain {reason : String} {duplicate : Bool} (ht : t < calls.count)
    (h : Executing calls t s) :
    triple calls (.call t) (uncertain calls t reason duplicate) (Ended calls t)
      (fun _ => Executing calls t) s :=
  wp_bind (wp_mono (wp_markOwnedUncertain ht h) (fun _ _ hx => hx.ended) fun _ _ hx => hx)

theorem wp_inProgress {reason : String} {duplicate : Bool} (ht : t < calls.count)
    (h : Executing calls t s) :
    triple calls (.call t) (inProgress calls t reason duplicate) (Ended calls t)
      (fun _ => Executing calls t) s :=
  wp_bind (wp_mono (wp_releaseOwnedSending ht h) (fun _ _ hx => hx.ended) fun _ _ hx => hx)

theorem wp_deliverAndSettle {duplicate : Bool} (ht : t < calls.count) (h : Ready calls t s) :
    triple calls (.call t) (deliverAndSettle calls t duplicate) (Ended calls t)
      (fun _ => Executing calls t) s := by
  refine wp_bind (wp_requestAuthority h.inv (fun s₁ hl₁ => ?_)
    fun _ _ hl₁ => h.toExecuting.steady (.of_later hl₁))
  refine wp_bind (wp_deliver (h.steady (.of_later hl₁)) (fun s₂ h₂ => ?_) fun _ _ hx => hx)
  refine wp_bind (wp_mono (h₂.wp_quiet (uses_sys trivial)) (fun result s₃ h₃ => ?_) fun _ _ hx => hx)
  exact h₃.wp_authority fun s₄ h₄ => wp_settleOwnedResult ht h₄

theorem wp_deliverOnce {duplicate : Bool} (ht : t < calls.count) (h : Ready calls t s) :
    triple calls (.call t) (deliverOnce calls t duplicate) (Ended calls t)
      (fun _ => Executing calls t) s :=
  wp_attempt (wp_mono (wp_deliverAndSettle ht h) (fun _ _ hended => hended) fun _ _ hx =>
    hx.wp_authority fun _ hx => wp_uncertain ht hx)

theorem wp_recover {error : String} (h : Executing calls t s) :
    triple calls (.call t) (sys (.recover error)) (fun _ => Executing calls t)
      (fun _ => Executing calls t) s := by
  refine wp_step fun ch r s₁ _ hexec => ?_
  have hsame : s.note (s.executing t) = s := by
    unfold DeliveryState.note
    simp [h.executing]
  simp only [execLive, Thread.id, hsame, Option.some.injEq, Prod.mk.injEq] at hexec
  obtain ⟨-, rfl⟩ := hexec
  exact ⟨guarantee_self h.inv, fun s' hl =>
    ⟨fun _ _ => h.steady (.of_later hl), fun _ _ => h.steady (.of_later hl)⟩⟩

theorem Advised.steady {recovery : Recovery R} {s s' : DeliveryState R}
    (h : Advised calls t recovery s) (hs : Steady calls t s s') : Advised calls t recovery s' := by
  cases recovery with
  | retry => exact Ready.steady h hs
  | completed result => exact Executing.steady h hs
  | inProgress reason => exact Executing.steady h hs
  | uncertain reason => exact Executing.steady h hs

theorem Advised.executing {recovery : Recovery R} (h : Advised calls t recovery s) : Executing calls t s := by
  cases recovery with
  | retry => exact Ready.toExecuting h
  | completed result => exact h
  | inProgress reason => exact h
  | uncertain reason => exact h

theorem wp_askRecovery {error failed : String} {duplicate : Bool} (ht : t < calls.count)
    (h : Executing calls t s) (hcallback : calls.hasRecover t = true) :
    triple calls (.call t) (askRecovery calls t error failed duplicate)
      (fun answer s' => match answer with
        | .inl recovery => Advised calls t recovery s'
        | .inr outcome => Ended calls t outcome s')
      (fun _ => Executing calls t) s := by
  refine wp_attempt (wp_mono (Q := fun answer s' => match answer with
    | .inl recovery => Advised calls t recovery s'
    | .inr outcome => Ended calls t outcome s') (E := fun _ => Executing calls t) ?_
    (fun _ _ hx => hx) fun e s₁ hx => ?_)
  · refine h.wp_authority fun s₁ h₁ => ?_
    refine wp_bind (wp_mono (wp_recover h₁) (fun _ s₂ h₂ => ?_) fun _ _ hx => hx)
    refine wp_bind (wp_mono (wp_awaitRecovery h₂ hcallback) (fun recovery s₃ h₃ => ?_)
      fun _ _ hx => hx)
    exact wp_bind (wp_requestAuthority h₃.executing.inv (fun s₄ hl₄ => h₃.steady (.of_later hl₄))
      fun _ _ hl₄ => h₃.executing.steady (.of_later hl₄))
  · refine hx.wp_authority fun s₂ h₂ => ?_
    exact wp_bind (wp_mono (wp_uncertain ht h₂) (fun _ _ hended => hended) fun _ _ hx => hx)

theorem wp_actOnRecovery {recovery : Recovery R} {duplicate : Bool} (ht : t < calls.count)
    (h : Advised calls t recovery s) :
    triple calls (.call t) (actOnRecovery calls t duplicate recovery) (Ended calls t)
      (fun _ => Executing calls t) s := by
  cases recovery with
  | completed result => exact wp_settleOwnedResult ht h
  | retry => exact wp_deliverOnce ht h
  | inProgress reason => exact wp_inProgress ht h
  | uncertain reason => exact wp_uncertain ht h

/-- Asking for a recovery and acting on the answer. -/
theorem wp_askAndAct {error failed : String} {duplicate : Bool} (ht : t < calls.count)
    (h : Executing calls t s) (hcallback : calls.hasRecover t = true) :
    triple calls (.call t) (do
      let answer ← askRecovery calls t error failed duplicate
      match answer with
      | .inr outcome => pure outcome
      | .inl recovery => actOnRecovery calls t duplicate recovery) (Ended calls t)
      (fun _ => Executing calls t) s := by
  refine wp_bind (wp_mono (wp_askRecovery ht h hcallback) (fun answer s₁ hanswer => ?_)
    fun _ _ hx => hx)
  cases answer with
  | inl recovery => exact wp_actOnRecovery ht hanswer
  | inr outcome => exact hanswer

theorem wp_recoverFirst {recoveryError : String} (ht : t < calls.count) (h : Executing calls t s) :
    triple calls (.call t) (recoverFirst calls t recoveryError) (Ended calls t)
      (fun _ => Executing calls t) s := by
  unfold recoverFirst
  split
  case isTrue => exact wp_inProgress ht h
  case isFalse hcallback => exact wp_askAndAct ht h (by simpa using hcallback)

theorem wp_deliverFirst (ht : t < calls.count) (h : Ready calls t s) :
    triple calls (.call t) (deliverFirst calls t) (Ended calls t) (fun _ => Executing calls t) s := by
  refine wp_attempt (wp_mono (wp_deliverAndSettle ht h) (fun _ _ hended => hended) fun e s₁ hx => ?_)
  refine hx.wp_authority fun s₂ h₂ => ?_
  split
  case isTrue => exact wp_uncertain ht h₂
  case isFalse hcallback => exact wp_askAndAct ht h₂ (by simpa using hcallback)

/-! ## The whole execution -/

theorem wp_beginExecution {receipt : Receipt R} {duplicate : Bool} (ht : t < calls.count)
    (h : Executing calls t s) :
    triple calls (.call t) (beginExecution calls t receipt duplicate)
      (fun failed s' => match failed with
        | none => Steady calls t s s'
        | some outcome => Ended calls t outcome s')
      (fun _ => Executing calls t) s := by
  have hfailed : ∀ (error : DeliveryError) s₁, Steady calls t s s₁ → triple calls (.call t) (do
      sys .requestAuthority
      let retained ← markOwnedUncertain calls t error.message
      pure (some (pendingOutcome (R := R) calls .uncertain
        (if retained then error.message
          else "The delivery execution lost ownership before its heartbeat started.") duplicate)))
      (fun failed s' => match failed with
        | none => Steady calls t s s'
        | some outcome => Ended calls t outcome s')
      (fun _ => Executing calls t) s₁ := by
    intro error s₁ hs₁
    refine (h.steady hs₁).wp_authority fun s₂ h₂ => ?_
    exact wp_bind (wp_mono (wp_markOwnedUncertain ht h₂) (fun _ _ hx => hx.ended) fun _ _ hx => hx)
  unfold beginExecution
  refine wp_attempt ?_
  split
  · exact hfailed _ s (.self h.inv)
  · exact wp_bind (wp_startReceiptHeartbeat h.inv (fun _ hs => hs) fun e s₁ hs₁ => hfailed e s₁ hs₁)

theorem wp_executeClaimedDelivery {receipt : Receipt R} {recovery : Option String}
    (ht : t < calls.count) (h : Executing calls t s)
    (hready : recovery = none → Ready calls t s) :
    triple calls (.call t) (executeClaimedDelivery calls t receipt recovery) (Ended calls t)
      (fun _ => Executing calls t) s := by
  refine wp_bind (wp_requestAuthority h.inv (fun s₁ hl₁ => ?_) fun _ _ hl₁ => h.steady (.of_later hl₁))
  have hs₁ : Steady calls t s s₁ := .of_later hl₁
  refine wp_bind (wp_mono (wp_beginExecution ht (h.steady hs₁)) (fun failed s₂ hbegun => ?_)
    fun _ _ hx => hx)
  cases failed with
  | some outcome => exact hbegun
  | none =>
    have hs₂ : Steady calls t s s₂ := hs₁.trans hbegun
    refine wp_ensure (wp_mono (Q := Ended calls t) (E := fun _ => Executing calls t) ?_
      (fun outcome s₃ hended => ?_) fun e s₃ hx => ?_)
    · refine wp_attempt (wp_mono (Q := Ended calls t) (E := fun _ => Executing calls t) ?_
        (fun _ _ hended => hended) fun e s₃ hx => ?_)
      · cases recovery with
        | none => exact wp_deliverFirst ht ((hready rfl).steady hs₂)
        | some recoveryError => exact wp_recoverFirst ht (h.steady hs₂)
      · exact hx.wp_authority fun _ h₄ => wp_uncertain ht h₄
    · exact wp_stopHeartbeat hended.executing.inv (fun _ hs => hended.steady hs)
        fun _ _ hs => hended.executing.steady hs
    · exact wp_stopHeartbeat hx.inv (fun _ hs => hx.steady hs) fun _ _ hs => hx.steady hs

end RabiRoute.DurableDelivery
