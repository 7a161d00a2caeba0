import RabiRoute.Manager.DurableDeliveryExecution

/-!
# Whole calls and their heartbeat workers

A call executes the delivery after a reservation or a claim of its own, and answers `completed`
without one only from a completed receipt of its payload.  A worker renews only what its call owns.
-/

open Interleave Interleave.Program

namespace RabiRoute.DurableDelivery

variable {R : Type} {calls : Calls R} {t : CallId} {s : DeliveryState R}

/-! ## What a call has read -/

/-- Call `t` has read the receipt `r'`, and what it says for its payload is still so. -/
structure Known (calls : Calls R) (t : CallId) (r' : Receipt R) (s : DeliveryState R) : Prop where
  completed : r'.requestDigest = calls.digest t → r'.state = .completed →
    ∀ result, r'.result = some result → Completed calls t result s
  observed : r'.requestDigest = calls.digest t → s.observed t = true

theorem Sighted.known {r' : Receipt R} {s₀ : DeliveryState R} (h : Sighted calls t r' s₀ s) : Known calls t r' s :=
  ⟨fun hdigest hstate _ hresult => h.completed hdigest hstate hresult, h.observed⟩

theorem Known.base {r' : Receipt R} {s s' : DeliveryState R} (h : Known calls t r' s)
    (hb : Base s s') : Known calls t r' s' :=
  ⟨fun hdigest hstate result hresult => (h.completed hdigest hstate result hresult).base hb,
    fun hdigest => hb.observed t (h.observed hdigest)⟩

/-- A call that has not executed the delivery, and the receipt that it has read, if any. -/
structure Outside (calls : Calls R) (t : CallId) (receipt : Option (Receipt R))
    (s : DeliveryState R) : Prop where
  fresh : Fresh calls t s
  known : ∀ r, receipt = some r → Known calls t r s

theorem Outside.steady {receipt : Option (Receipt R)} {s s' : DeliveryState R}
    (h : Outside calls t receipt s) (hs : Steady calls t s s') : Outside calls t receipt s' :=
  ⟨h.fresh.steady hs, fun r hr => (h.known r hr).base hs.base⟩

theorem Outside.later {receipt : Option (Receipt R)} {s s' : DeliveryState R}
    (h : Outside calls t receipt s) (hl : Later calls t s s') : Outside calls t receipt s' :=
  h.steady (.of_later hl)

/-- What holds when a call ends. -/
structure Closed (calls : Calls R) (t : CallId) (outcome : Outcome R) (s : DeliveryState R) :
    Prop where
  inv : Inv calls s
  agreed : Agreed calls t outcome s

theorem Ended.closed {outcome : Outcome R} (h : Ended calls t outcome s) : Closed calls t outcome s :=
  ⟨h.executing.inv, h.agreed⟩

theorem closed_pending {state : PendingState} {reason : String} {duplicate : Bool}
    (hinv : Inv calls s) : Closed calls t (pendingOutcome calls state reason duplicate) s :=
  ⟨hinv, agreed_pending⟩

/-- A read of the receipt between two authority checks. -/
theorem wp_readFresh {Q : Option (Receipt R) → DeliveryState R → Prop} {E : DeliveryError → DeliveryState R → Prop} (h :
    Fresh calls t s) (hQ : ∀ receipt s', Outside calls t receipt s' → Steady calls t s s' → Q receipt s') : triple calls
    (.call t) (readDurableDeliveryReceipt calls) Q E s :=
  wp_readDurableDeliveryReceipt h.inv fun receipt s' hl hread =>
    hQ receipt s' ⟨h.steady (.of_later hl), fun r hr => (hread r hr).known⟩ (.of_later hl)

/-! ## Reserving -/

theorem wp_openExclusive (ht : t < calls.count) (h : Fresh calls t s) :
    triple calls (.call t) (sys .openExclusive)
      (fun fd s' => Ready calls t s' ∧ s'.initialising t = some fd) (fun _ => Fresh calls t) s := by
  refine wp_step fun ch r s₁ _ hexec => ?_
  have hcases : (s₁ = s ∧ ∃ e, r = .error e) ∨
      s.path = none ∧ r = .ok s.nextInode ∧ s₁ = s.create t := by
    cases hpath : s.path <;> cases ch <;> simp only [execLive, hpath, Option.some.injEq,
      Prod.mk.injEq] at hexec <;> obtain ⟨rfl, rfl⟩ := hexec <;> simp [Thread.id]
  rcases hcases with ⟨rfl, e, rfl⟩ | ⟨hfree, rfl, rfl⟩
  · exact ⟨guarantee_self h.inv, fun s' hl =>
      ⟨(fun _ hv => by cases hv), fun _ _ => h.steady (.of_later hl)⟩⟩
  · refine ⟨guarantee_create h.inv ht hfree h.fresh, fun s' hl => ⟨fun fd hfd => ?_, fun _ he => by cases he⟩⟩
    obtain rfl := Except.ok.inj hfd
    have hmarks := hl.rely.marks t rfl
    have hsends := (h.inv.counts t).sends
    refine ⟨⟨⟨hl.inv, hmarks.executing.trans ?_⟩, ?_⟩, hmarks.initialising.trans ?_⟩
    · simp [DeliveryState.create, DeliveryState.setExecuting]
    · rw [hmarks.delivers, hmarks.creates, hmarks.retries]
      show s.delivers t < (if t = t then s.creates t + 1 else s.creates t) + s.retries t
      rw [if_pos rfl]
      omega
    · simp [DeliveryState.create, DeliveryState.setExecuting, DeliveryState.note,
        DeliveryState.countCreate, DeliveryState.setInitialising]

theorem wp_writeNew {fd : Nat} {r : Receipt R} (h : Ready calls t s)
    (hfd : s.initialising t = some fd) :
    triple calls (.call t) (sys (.writeNew fd r)) (fun _ => Ready calls t)
      (fun e s' => Inv calls s' ∧ e ≠ .eexist) s := by
  refine wp_step fun ch answer s₁ _ hexec => ?_
  have hcases : (s₁ = s.setInitialising t none ∨ ∃ content, s₁ = s.write t fd content) ∧
      ∀ e, answer = .error e → e ≠ .eexist := by
    cases ch <;> simp only [execLive, Option.some.injEq, Prod.mk.injEq] at hexec <;>
      obtain ⟨rfl, rfl⟩ := hexec <;> simp [Thread.id]
  obtain ⟨hstate, herror⟩ := hcases
  have hg : (discipline calls).Guarantee (.call t) s s₁ := by
    rcases hstate with rfl | ⟨content, rfl⟩
    · exact guarantee_abandon h.inv
    · exact guarantee_write h.inv hfd
  have hready : Ready calls t s₁ := by
    rcases hstate with rfl | ⟨content, rfl⟩
    · exact ⟨⟨hg.inv, h.executing⟩, h.credit⟩
    · exact ⟨⟨hg.inv, h.executing⟩, h.credit⟩
  exact ⟨hg, fun s' hl => ⟨fun _ _ => hready.steady (.of_later hl), fun e he => ⟨hl.inv, herror e he⟩⟩⟩

theorem wp_close {fd : Nat} {Q : Unit → DeliveryState R → Prop} {E : DeliveryError → DeliveryState R → Prop} (hinv : Inv
    calls s) (hQ : ∀ s', Later calls t s s' → Q () s') (hE : ∀ e s', Later calls t s s' → e ≠ .eexist → E e s') : triple
    calls (.call t) (sys (.close fd)) Q E s := by
  refine wp_quietStep trivial hinv fun ch r s₁ s' _ hexec _ hl =>
    ⟨fun _ _ => hQ s' hl, fun e he => hE e s' hl ?_⟩
  subst he
  cases ch <;> simp only [execLive, Option.some.injEq, Prod.mk.injEq, reduceCtorEq, false_and,
    Except.error.injEq] at hexec
  simp [← hexec.1]

/-- What a reservation leaves. -/
def Reserved (calls : Calls R) (t : CallId) (reservation : Reservation R) (s : DeliveryState R) :
    Prop :=
  if reservation.created then Ready calls t s else Outside calls t reservation.receipt s

theorem wp_reserveReceipt (ht : t < calls.count) (h : Fresh calls t s) :
    triple calls (.call t) (reserveReceipt calls t) (Reserved calls t) (fun _ => Inv calls) s := by
  refine wp_bind (wp_requestAuthority h.inv (fun s₁ hl₁ => ?_) fun _ _ hl₁ => hl₁.inv)
  refine wp_bind (wp_dateNow hl₁.inv (fun now s₂ hl₂ => ?_) fun _ _ hl₂ => hl₂.inv)
  refine wp_bind (wp_dateNow hl₂.inv (fun later s₃ hl₃ => ?_) fun _ _ hl₃ => hl₃.inv)
  have h₃ : Fresh calls t s₃ := h.steady (.of_later ((hl₁.trans hl₂).trans hl₃))
  refine wp_attempt (wp_mono (Q := Reserved calls t)
    (E := fun e s' => Inv calls s' ∧ (e = .eexist → Fresh calls t s')) ?_ (fun _ _ hr => hr)
    fun e s₄ he => ?_)
  · refine wp_bind (wp_requestAuthority h₃.inv (fun s₄ hl₄ => ?_)
      fun _ _ hl₄ => ⟨hl₄.inv, fun _ => h₃.steady (.of_later hl₄)⟩)
    refine wp_bind (wp_mono (wp_openExclusive ht (h₃.steady (.of_later hl₄))) (fun fd s₅ hopened => ?_)
      fun _ _ hfresh => ⟨hfresh.inv, fun _ => hfresh⟩)
    obtain ⟨hready, hfd⟩ := hopened
    refine wp_ensure (wp_bind (wp_mono (wp_writeNew hready hfd) (fun _ s₆ h₆ => ?_) fun e s₆ he => ?_))
    · exact wp_close h₆.inv (fun _ hl => h₆.steady (.of_later hl))
        fun e _ hl hne => ⟨hl.inv, fun heq => absurd heq hne⟩
    · exact wp_close he.1 (fun _ hl => ⟨hl.inv, fun heq => absurd heq he.2⟩)
        fun e _ hl hne => ⟨hl.inv, fun heq => absurd heq hne⟩
  · split
    · exact he.1
    case isFalse heexist =>
      have h₄ := he.2 (by simpa using heexist)
      exact wp_bind (wp_readFresh h₄ fun receipt s₅ houtside _ => houtside)

/-! ## Claiming -/

/-- What a claim leaves. -/
def Claimed (calls : Calls R) (t : CallId) (claim : Claim R) (s : DeliveryState R) : Prop :=
  if claim.claimed then Executing calls t s else Outside calls t claim.receipt s

theorem Claimed.steady {claim : Claim R} {s s' : DeliveryState R} (h : Claimed calls t claim s)
    (hs : Steady calls t s s') : Claimed calls t claim s' := by
  unfold Claimed at *
  cases hclaimed : claim.claimed with
  | true =>
    rw [if_pos hclaimed] at h
    exact h.steady hs
  | false =>
    rw [if_neg (by simp [hclaimed])] at h
    exact h.steady hs

theorem Claimed.inv {claim : Claim R} (h : Claimed calls t claim s) : Inv calls s := by
  unfold Claimed at h
  split at h
  · exact h.inv
  · exact h.fresh.inv

theorem wp_claimReceipt {allowUncertain : Bool} (h : Fresh calls t s) :
    triple calls (.call t) (claimReceipt calls t allowUncertain) (Claimed calls t)
      (fun _ => Inv calls) s := by
  refine wp_bind (wp_requestAuthority h.inv (fun s₁ hl₁ => ?_) fun _ _ hl₁ => hl₁.inv)
  have h₁ : Fresh calls t s₁ := h.steady (.of_later hl₁)
  refine wp_withReceiptMutationLock hl₁.inv (fun _ _ hclaimed => ⟨hclaimed.inv, hclaimed.inv, fun _ => hclaimed.steady⟩)
    (fun s' hinv => ⟨hinv, fun _ hs => hs.inv⟩) (fun s' hs => hs.inv) fun s₂ hs₂ hlocked => ?_
  have h₂ := h₁.steady hs₂
  refine wp_bind (wp_readDurableDeliveryReceipt h₂.inv fun current s₃ hl₃ hread => ?_)
  refine wp_bind (wp_requestAuthority hl₃.inv (fun s₄ hl₄ => ?_) fun _ _ hl₄ => hl₄.inv)
  have h₄ : Fresh calls t s₄ := h₂.steady (.of_later (hl₃.trans hl₄))
  have houtside : Outside calls t current s₄ := ⟨h₄, fun r hr => ((hread r hr).later hl₄).known⟩
  split
  case h_1 => exact ⟨h₄, fun _ hr => by cases hr⟩
  case h_2 current =>
    split
    · exact houtside
    case isFalse hdigest =>
      split
      · exact houtside
      case isFalse hstate =>
        split
        · exact houtside
        · refine wp_bind (wp_receiptExecutionActive h₄.inv (fun active s₅ hl₅ => ?_) fun _ _ hl₅ => hl₅.inv)
          split
          · exact houtside.later hl₅
          · refine wp_bind (wp_dateNow hl₅.inv (fun now s₆ hl₆ => ?_) fun _ _ hl₆ => hl₆.inv)
            refine wp_bind (wp_dateNow hl₆.inv (fun later s₇ hl₇ => ?_) fun _ _ hl₇ => hl₇.inv)
            have hl := (hl₅.trans hl₆).trans hl₇
            have hfresh : Fresh calls t s₇ := h₄.steady (.of_later hl)
            have hsighted := ((hread current rfl).later hl₄).later hl
            have hchecked : Checked calls t current s₇ :=
              ⟨(hlocked.later hl₃).later (hl₄.trans hl), hsighted.held hlocked, by simpa using hdigest,
                hstate, fun hx => by simp [hfresh.fresh] at hx⟩
            refine wp_bind (wp_bind (wp_replace hchecked (fun i r s' hlicensed hl' => ?_)
              fun _ _ hl' => hl'.inv))
            refine ⟨⟨hl'.inv, (hl'.rely.marks t rfl).executing.trans ?_⟩, fun _ => hl'.inv⟩
            simp [DeliveryState.replace, DeliveryState.setExecuting, Receipt.claimedBy]

/-! ## Executing a delivery -/

theorem wp_waitForTerminal {deadline turns : Nat} (h : Fresh calls t s) :
    triple calls (.call t) (waitForTerminal calls deadline turns)
      (fun receipt s' => Outside calls t receipt s' ∧ Steady calls t s s') (fun _ => Inv calls) s := by
  induction turns generalizing s with
  | zero => exact h.inv
  | succ turns ih =>
    -- both branches read the receipt between two authority checks
    have hread : ∀ s₁, Steady calls t s s₁ → ∀ k : Option (Receipt R) → Prog R (Option (Receipt R)),
        (∀ receipt s₂, Outside calls t receipt s₂ → Steady calls t s s₂ →
          triple calls (.call t) (k receipt)
            (fun receipt s' => Outside calls t receipt s' ∧ Steady calls t s s')
            (fun _ => Inv calls) s₂) →
        triple calls (.call t) (do
          sys .requestAuthority
          let receipt ← readDurableDeliveryReceipt calls
          sys .requestAuthority
          k receipt)
          (fun receipt s' => Outside calls t receipt s' ∧ Steady calls t s s')
          (fun _ => Inv calls) s₁ := by
      intro s₁ hs₁ k hk
      refine wp_bind (wp_requestAuthority hs₁.inv (fun s₂ hl₂ => ?_) fun _ _ hl₂ => hl₂.inv)
      have hs₂ := hs₁.later hl₂
      refine wp_bind (wp_readFresh (h.steady hs₂) fun receipt s₃ houtside hs₃ => ?_)
      refine wp_bind (wp_requestAuthority hs₃.inv (fun s₄ hl₄ => ?_) fun _ _ hl₄ => hl₄.inv)
      exact hk receipt s₄ (houtside.later hl₄) ((hs₂.trans hs₃).later hl₄)
    refine wp_bind (wp_dateNow h.inv (fun now s₁ hl₁ => ?_) fun _ _ hl₁ => hl₁.inv)
    have hs₁ : Steady calls t s s₁ := .of_later hl₁
    split
    · exact hread s₁ hs₁ pure fun receipt s₂ houtside hs₂ => ⟨houtside, hs₂⟩
    · refine hread s₁ hs₁ _ fun receipt s₂ houtside hs₂ => ?_
      split
      · exact ⟨houtside, hs₂⟩
      · refine wp_bind (wp_mono (wp_quiet (uses_sys trivial) hs₂.inv) (fun _ s₃ hl₃ => ?_)
          fun _ _ hl₃ => hl₃.inv)
        have hs₃ := hs₂.later hl₃
        exact wp_mono (ih (h.steady hs₃)) (fun _ _ hdone => ⟨hdone.1, hs₃.trans hdone.2⟩)
          fun _ _ hinv => hinv

theorem closed_settledOutcome {receipt : Receipt R} {outcome : Outcome R} (h : Outside calls t (some receipt) s) (hout :
    settledOutcome calls t receipt = some outcome) : Closed calls t outcome s := by
  unfold settledOutcome at hout
  split at hout
  · obtain rfl := Option.some.inj hout
    exact closed_pending h.fresh.inv
  case isFalse hdigest =>
    split at hout
    case isFalse => cases hout
    case isTrue hstate =>
      obtain ⟨result, hresult, rfl⟩ := Option.map_eq_some_iff.mp hout
      refine ⟨h.fresh.inv, fun id duplicate result' settlement heq => .inl ?_⟩
      obtain ⟨-, -, rfl, -⟩ := Outcome.completed.inj heq
      exact (h.known receipt rfl).completed (by simpa using hdigest) hstate result hresult

theorem wp_claimAndExecute {existing : Receipt R} (ht : t < calls.count) (h : Fresh calls t s) :
    triple calls (.call t) (claimAndExecute calls t existing) (Closed calls t) (fun _ => Inv calls)
      s := by
  unfold claimAndExecute
  split
  · exact closed_pending h.inv
  · split
    · exact closed_pending h.inv
    · refine wp_bind (wp_mono (wp_claimReceipt h) (fun claim s₁ hclaimed => ?_) fun _ _ hinv => hinv)
      refine wp_bind (wp_requestAuthority hclaimed.inv (fun s₂ hl₂ => ?_) fun _ _ hl₂ => hl₂.inv)
      have h₂ := hclaimed.steady (.of_later hl₂)
      split
      case h_1 => exact closed_pending hl₂.inv
      case h_2 current hcurrent =>
        unfold Claimed at h₂
        split
        case isTrue hmine =>
          rw [if_pos hmine] at h₂
          exact wp_mono (wp_executeClaimedDelivery ht h₂ fun hnone => by cases hnone)
            (fun _ _ hended => hended.closed) fun _ _ hx => hx.inv
        case isFalse hother =>
          rw [if_neg hother, hcurrent] at h₂
          split
          case h_1 outcome hout => exact closed_settledOutcome h₂ hout
          case h_2 =>
            split
            · exact closed_pending hl₂.inv
            · exact closed_pending hl₂.inv

theorem wp_joinDelivery {existing : Receipt R} (ht : t < calls.count) (h : Outside calls t (some existing) s) : triple
    calls (.call t) (joinDelivery calls t existing) (Closed calls t) (fun _ => Inv calls) s := by
  unfold joinDelivery
  split
  case h_1 outcome hout => exact closed_settledOutcome h hout
  case h_2 =>
    split
    case isFalse => exact wp_claimAndExecute ht h.fresh
    case isTrue =>
      refine wp_bind (wp_dateNow h.fresh.inv (fun start s₁ hl₁ => ?_) fun _ _ hl₁ => hl₁.inv)
      have h₁ := h.later hl₁
      refine wp_bind (wp_mono (wp_waitForTerminal h₁.fresh) (fun terminal s₂ hwaited => ?_)
        fun _ _ hinv => hinv)
      obtain ⟨hterminal, hs₂⟩ := hwaited
      have h₂ : Outside calls t (some (terminal.getD existing)) s₂ := by
        cases terminal with
        | none => exact h₁.steady hs₂
        | some receipt => exact hterminal
      refine wp_bind (wp_requestAuthority h₂.fresh.inv (fun s₃ hl₃ => ?_) fun _ _ hl₃ => hl₃.inv)
      have h₃ := h₂.later hl₃
      split
      case h_1 outcome hout => exact closed_settledOutcome h₃ hout
      case h_2 => exact wp_claimAndExecute ht h₃.fresh

theorem wp_executeDurableDelivery (ht : t < calls.count) (h : Fresh calls t s) :
    triple calls (.call t) (executeDurableDelivery calls t) (Closed calls t) (fun _ => Inv calls) s := by
  refine wp_bind (wp_requestAuthority h.inv (fun s₁ hl₁ => ?_) fun _ _ hl₁ => hl₁.inv)
  refine wp_bind (wp_mono (wp_reserveReceipt ht (h.steady (.of_later hl₁)))
    (fun reservation s₂ hreserved => ?_) fun _ _ hinv => hinv)
  unfold Reserved at hreserved
  cases hcreated : reservation.created with
  | true =>
    rw [if_pos hcreated] at hreserved
    refine wp_bind (wp_requestAuthority hreserved.inv (fun s₃ hl₃ => ?_) fun _ _ hl₃ => hl₃.inv)
    have h₃ := hreserved.steady (.of_later hl₃)
    cases reservation.receipt with
    | none => exact closed_pending hl₃.inv
    | some receipt =>
      exact wp_mono (wp_executeClaimedDelivery ht h₃.toExecuting fun _ => h₃)
        (fun _ _ hended => hended.closed) fun _ _ hx => hx.inv
  | false =>
    rw [if_neg (by simp [hcreated])] at hreserved
    refine wp_bind (wp_requestAuthority hreserved.fresh.inv (fun s₃ hl₃ => ?_) fun _ _ hl₃ => hl₃.inv)
    have h₃ := hreserved.later hl₃
    cases hreceipt : reservation.receipt with
    | none => exact closed_pending hl₃.inv
    | some existing =>
      rw [hreceipt] at h₃
      exact wp_joinDelivery ht h₃

/-! ## Reconciling a delivery -/

theorem wp_reconciledOutcome {activeReason conflictReason : String} {receipt : Receipt R}
    (h : Outside calls t (some receipt) s) :
    triple calls (.call t) (reconciledOutcome calls t activeReason conflictReason receipt)
      (fun answer s' => Later calls t s s' ∧ match answer with
        | some outcome => Closed calls t outcome s'
        | none => receipt.requestDigest = calls.digest t ∧ receipt.state ≠ .completed)
      (fun _ => Inv calls) s := by
  have hself : Later calls t s s := .self h.fresh.inv
  unfold reconciledOutcome
  split
  · exact ⟨hself, closed_pending h.fresh.inv⟩
  case isFalse hdigest =>
    have hdigest : receipt.requestDigest = calls.digest t := by simpa using hdigest
    split
    case isTrue hstate =>
      refine ⟨hself, ?_⟩
      cases hresult : receipt.result with
      | none => exact closed_pending h.fresh.inv
      | some result =>
        refine ⟨h.fresh.inv, fun id duplicate result' settlement heq => .inl ?_⟩
        obtain ⟨-, -, rfl, -⟩ := Outcome.completed.inj heq
        exact (h.known receipt rfl).completed hdigest hstate result hresult
    case isFalse hstate =>
      refine wp_bind (wp_receiptExecutionActive h.fresh.inv (fun active s₁ hl₁ => ⟨hl₁, ?_⟩)
        fun _ _ hl₁ => hl₁.inv)
      cases active with
      | true => exact closed_pending hl₁.inv
      | false => exact ⟨hdigest, hstate⟩

theorem wp_verify {receipt : Receipt R} {Q : Unit → DeliveryState R → Prop} {E : DeliveryError → DeliveryState R → Prop}
    (hinv : Inv calls s) (hobserved : s.observed t = true) (hQ : ∀ s', Later calls t s s' → Q () s') (hE : ∀ e s', Later
    calls t s s' → E e s') : triple calls (.call t) (sys (.verify receipt)) Q E s := by
  refine wp_step fun ch r s₁ _ hexec => ?_
  have hsame : s.note (s.observed t) = s := by
    unfold DeliveryState.note
    simp [hobserved]
  simp only [execLive, Thread.id, hsame, Option.some.injEq, Prod.mk.injEq] at hexec
  obtain ⟨-, rfl⟩ := hexec
  exact ⟨guarantee_self hinv, fun s' hl => ⟨fun _ _ => hQ s' hl, fun e _ => hE e s' hl⟩⟩

variable [DecidableEq R]

/-- A reader of the snapshot that has not executed the delivery. -/
theorem wp_readSnapshotFresh {Q : Option (Snapshot R) → DeliveryState R → Prop} {E : DeliveryError → DeliveryState R →
    Prop} (h : Fresh calls t s) (hQ : ∀ snapshot s', Outside calls t (snapshot.map Snapshot.receipt) s' → Q snapshot s')
    : triple calls (.call t) (readDurableDeliveryReceiptSnapshot calls) Q E s := by
  refine wp_readDurableDeliveryReceiptSnapshot h.inv fun snapshot s' hl hread =>
    hQ snapshot s' ⟨h.steady (.of_later hl), fun r hr => ?_⟩
  obtain ⟨v, hv, rfl⟩ := Option.map_eq_some_iff.mp hr
  exact (hread v hv).sighted.known

/-- The receipt that was written is read back and answered. -/
theorem closed_readbackOutcome {committed : Receipt R} {readback : Option (Snapshot R)} (hdigest :
    committed.requestDigest = calls.digest t) (hstate : committed.state = .completed) (h : Outside calls t (readback.map
    Snapshot.receipt) s) : Closed calls t (readbackOutcome calls committed readback) s := by
  have hunverified : Closed calls t (unverifiedOutcome calls) s := closed_pending h.fresh.inv
  unfold readbackOutcome
  cases readback with
  | none => exact hunverified
  | some readback =>
    cases hresult : readback.receipt.result with
    | none =>
      simp only [hresult]
      exact hunverified
    | some result =>
      simp only [hresult]
      split
      case isTrue => exact hunverified
      case isFalse hsame =>
        have hsame : readback.receipt = committed := by simpa using hsame
        refine ⟨h.fresh.inv, fun id duplicate result' settlement heq => .inl ?_⟩
        obtain ⟨-, -, rfl, -⟩ := Outcome.completed.inj heq
        exact (h.known _ rfl).completed (by rw [hsame]; exact hdigest)
          (by rw [hsame]; exact hstate) result hresult

/-- The call reconciles: it never executes the delivery, and a receipt of its payload that is not
completed may become completed. -/
theorem wp_commitVerified {snapshot : Snapshot R} {result : R} (h : Fresh calls t s) :
    triple calls (.call t) (commitVerified calls t snapshot result) (Closed calls t)
      (fun _ => Inv calls) s := by
  refine wp_withReceiptMutationLock h.inv
    (fun _ _ hclosed => ⟨hclosed.inv, hclosed.inv, fun _ hs => ⟨hs.inv, hclosed.agreed.steady hs⟩⟩)
    (fun _ hinv => ⟨hinv, fun _ hs => hs.inv⟩) (fun _ hs => hs.inv) fun s₁ hs₁ hlocked => ?_
  have h₁ := h.steady hs₁
  refine wp_bind (wp_requestAuthority h₁.inv (fun s₂ hl₂ => ?_) fun _ _ hl₂ => hl₂.inv)
  refine wp_bind (wp_readDurableDeliveryReceiptSnapshot hl₂.inv fun latest s₃ hl₃ hread => ?_)
  refine wp_bind (wp_requestAuthority hl₃.inv (fun s₄ hl₄ => ?_) fun _ _ hl₄ => hl₄.inv)
  have h₄ : Fresh calls t s₄ := h₁.steady (.of_later ((hl₂.trans hl₃).trans hl₄))
  cases latest with
  | none => exact closed_pending hl₄.inv
  | some latest =>
    have hsighted := ((hread latest rfl).sighted.later hl₄).after hl₂
    have houtside : Outside calls t (some latest.receipt) s₄ := ⟨h₄, fun _ hr => Option.some.inj hr ▸ hsighted.known⟩
    refine wp_bind (wp_mono (wp_reconciledOutcome houtside) (fun settled s₅ hsettled => ?_)
      fun _ _ hinv => hinv)
    obtain ⟨hl₅, hsettled⟩ := hsettled
    cases settled with
    | some outcome => exact hsettled
    | none =>
      obtain ⟨hdigest, hstate⟩ := hsettled
      dsimp only
      split
      case isTrue => exact closed_pending hl₅.inv
      case isFalse =>
        refine wp_bind (wp_requestAuthority hl₅.inv (fun s₆ hl₆ => ?_) fun _ _ hl₆ => hl₆.inv)
        refine wp_bind (wp_dateNow hl₆.inv (fun now s₇ hl₇ => ?_) fun _ _ hl₇ => hl₇.inv)
        have hl := (hl₅.trans hl₆).trans hl₇
        have hfresh : Fresh calls t s₇ := h₄.steady (.of_later hl)
        have hchecked : Checked calls t latest.receipt s₇ :=
          ⟨hlocked.later (((hl₂.trans hl₃).trans hl₄).trans hl), (hsighted.later hl).held hlocked,
            hdigest, hstate, fun hx => by simp [hfresh.fresh] at hx⟩
        refine wp_bind (wp_bind (wp_replace hchecked (fun i r s₈ hlicensed hl₈ => ⟨?_, fun _ => hl₈.inv⟩)
          fun _ _ hl₈ => hl₈.inv))
        have h₈ : Fresh calls t s₈ := by
          refine ⟨hl₈.inv, (hl₈.rely.marks t rfl).executing.trans ?_⟩
          simp [DeliveryState.replace, DeliveryState.setExecuting, Receipt.disowned, hfresh.fresh]
        refine wp_bind (wp_requestAuthority h₈.inv (fun s₉ hl₉ => ?_) fun _ _ hl₉ => hl₉.inv)
        refine wp_bind (wp_readSnapshotFresh (h₈.steady (.of_later hl₉)) fun readback s' hreadback => ?_)
        exact wp_bind (wp_requestAuthority hreadback.fresh.inv
          (fun s'' hl' => closed_readbackOutcome hdigest rfl (hreadback.later hl'))
          fun _ _ hl' => hl'.inv)

theorem wp_reconcileDurableDelivery (h : Fresh calls t s) :
    triple calls (.call t) (reconcileDurableDelivery calls t) (Closed calls t) (fun _ => Inv calls)
      s := by
  have hfailed : ∀ s', Inv calls s' → Closed calls t (pendingOutcome calls .uncertain
      "Receipt reconciliation failed; preserve the original deliveryId and do not resend." true) s' :=
    fun _ => closed_pending
  refine wp_attempt (wp_mono (Q := Closed calls t) (E := fun _ => Inv calls) ?_
    (fun _ _ hclosed => hclosed) fun _ s' hinv => hfailed s' hinv)
  refine wp_bind (wp_requestAuthority h.inv (fun s₁ hl₁ => ?_) fun _ _ hl₁ => hl₁.inv)
  refine wp_bind (wp_readSnapshotFresh (h.steady (.of_later hl₁)) fun snapshot s₂ houtside => ?_)
  cases snapshot with
  | none => exact closed_pending houtside.fresh.inv
  | some snapshot =>
    refine wp_bind (wp_requestAuthority houtside.fresh.inv (fun s₃ hl₃ => ?_) fun _ _ hl₃ => hl₃.inv)
    refine wp_bind (wp_mono (wp_reconciledOutcome (houtside.later hl₃)) (fun settled s₄ hsettled => ?_)
      fun _ _ hinv => hinv)
    obtain ⟨hl₄, hsettled⟩ := hsettled
    have h₄ := (houtside.later hl₃).later hl₄
    cases settled with
    | some outcome => exact hsettled
    | none =>
      refine wp_bind (wp_verify hl₄.inv ((h₄.known _ rfl).observed hsettled.1) (fun s₅ hl₅ => ?_)
        fun _ _ hl₅ => hl₅.inv)
      refine wp_bind (wp_mono (wp_quiet (uses_sys trivial) hl₅.inv) (fun verification s₆ hl₆ => ?_)
        fun _ _ hl₆ => hl₆.inv)
      refine wp_bind (wp_requestAuthority hl₆.inv (fun s₇ hl₇ => ?_) fun _ _ hl₇ => hl₇.inv)
      split
      · exact wp_commitVerified (h₄.fresh.steady (.of_later ((hl₅.trans hl₆).trans hl₇)))
      · exact closed_pending hl₇.inv
      · exact closed_pending hl₇.inv

end RabiRoute.DurableDelivery
