import RabiRoute.Interleave.Logged
import RabiRoute.Manager.DurableDeliverySafety

/-!
# What a reconciliation commits

`reconcileDurableDelivery` verifies a snapshot of the receipt without the lock, for as long as the callback takes.
Every step of the call is in its log, so what it has verified can be compared with the receipt that it replaces.
-/

open Interleave Interleave.Program

namespace RabiRoute.DurableDelivery

variable {R : Type} {calls : Calls R} {t : CallId}

abbrev Step (R : Type) : Type := Entry (DeliveryState R) (Cmd R) Cmd.Response

abbrev LoggedState (R : Type) : Type := Logged (DeliveryState R) (Cmd R) Cmd.Response Thread

/-! ## What a reconciliation owes -/

/-- The execution that the receipt names is over: there is none, its lease has run out, or its process is gone. -/
def ExecutionOver (calls : Calls R) (t : CallId) (receipt : Receipt R) (log : List (Step R)) : Prop :=
  receipt.state ≠ .sending ∨ receipt.executionId = none ∨ receipt.leaseExpiresAt = none ∨
    (∃ leaseExpiresAt now s s', receipt.leaseExpiresAt = some leaseExpiresAt ∧ leaseExpiresAt ≤ now ∧
      ⟨.dateNow, .ok now, s, s'⟩ ∈ log) ∨
    ∃ host pid s s', receipt.ownerHost = some host ∧ receipt.ownerPid = some pid ∧
      HostName.lower host = HostName.lower (calls.host t) ∧ ⟨.kill pid, .ok false, s, s'⟩ ∈ log

section

variable [DecidableEq R]

/-- The call has read the snapshot and passed it to `verify`, which has answered `completed` with this result. -/
def Proved (calls : Calls R) (log : List (Step R)) (snapshot : Snapshot R) (result : R) : Prop :=
  ∃ earlier reading between verify answer later, log = earlier ++ reading ++ between ++ verify :: answer :: later ∧
    (readDurableDeliveryReceiptSnapshot calls).Returns reading (some snapshot) ∧
    verify.command = .verify snapshot.receipt ∧
    ∃ s s', answer = ⟨.awaitVerification, .ok (.completed (some result)), s, s'⟩

/-- The receipt that a reconciliation writes. -/
def Receipt.reconciled (receipt : Receipt R) (now : Nat) (result : R) : Receipt R :=
  { receipt.disowned now with state := .completed, result := some result, error := none }

/-- The step `e` replaces the receipt, under the lock, by the completed one, and the receipt is still the verified
snapshot of the call's payload: the same bytes in the same file with the same times. -/
structure CommitsVerified (calls : Calls R) (t : CallId) (earlier : List (Step R)) (e : Step R)
    (snapshot : Snapshot R) (result : R) : Prop where
  proved : ∃ outside lock under, earlier = outside ++ lock :: under ∧ Proved calls outside snapshot result ∧
    lock.command = .lock ∧ ExecutionOver calls t snapshot.receipt under
  locked : e.before.lock = some (.call t)
  revision : ∃ i r, Holds e.before i r ∧ snapshot.raw = .record r ∧ snapshot.stat = calls.stat e.before i ∧
    snapshot.receipt = r.atMtime snapshot.stat.mtimeMs
  digest : snapshot.receipt.requestDigest = calls.digest t
  pending : snapshot.receipt.state ≠ .completed
  replaced : ∃ now, e.command = .replace (snapshot.receipt.reconciled now result) ∧
    e.after = e.before.replace calls t (snapshot.receipt.reconciled now result)

/-- Each step of a reconciliation leaves the receipt as it is, or commits what was verified. -/
def Honest (calls : Calls R) (thread : Thread) (earlier : List (Step R)) (e : Step R) : Prop :=
  ∀ t, thread = .call t → calls.kind t = .reconcile →
    Untouched e.before e.after ∨ ∃ snapshot result, CommitsVerified calls t earlier e snapshot result

abbrev loggedDiscipline (calls : Calls R) : Discipline (LoggedState R) Thread :=
  (discipline calls).logged (Honest calls)

abbrev loggedTriple (calls : Calls R) (thread : Thread) {ε α : Type} (p : Program (Cmd R) Cmd.Response ε α)
    (Q : α → LoggedState R → Prop) (E : ε → LoggedState R → Prop) (s : LoggedState R) : Prop :=
  wp (machine calls).logged (fun _ _ _ _ ↦ True) (loggedDiscipline calls) thread p Q E s

end

/-! ## Steps that leave the receipt as it is -/

/-- The commands of a reconciliation other than its `replace`. -/
def Mild (c : Cmd R) : Prop := Quiet c ∨ c = .lock ∨ c = .unlock ∨ ∃ receipt, c = .verify receipt

theorem Silent.untouched {s s' : DeliveryState R} (h : Silent s s') : Untouched s s' :=
  ⟨h.frame.path, fun i _ => congrFun h.file i⟩

theorem Mild.untouched {thread : Thread} {s s' : DeliveryState R} {c : Cmd R} {ch : Choice R} {a : c.Response}
    (hc : Mild c) (h : execLive calls thread s c ch = some (a, s')) : Untouched s s' := by
  rcases hc with hquiet | rfl | rfl | ⟨receipt, rfl⟩
  · exact (execLive_quiet hquiet h).untouched
  · cases ch <;> simp only [execLive] at h <;> (try split at h) <;>
      simp only [Option.some.injEq, Prod.mk.injEq, reduceCtorEq] at h <;> obtain ⟨-, rfl⟩ := h <;>
      exact ⟨rfl, fun _ _ => rfl⟩
  · cases ch <;> simp only [execLive, Option.some.injEq, Prod.mk.injEq] at h <;> obtain ⟨-, rfl⟩ := h
    case fail => exact .refl s
    all_goals
      split
      · exact ⟨rfl, fun _ _ => rfl⟩
      · exact .refl s
  · simp only [execLive, Option.some.injEq, Prod.mk.injEq] at h
    obtain ⟨-, rfl⟩ := h
    exact ⟨rfl, fun _ _ => rfl⟩

theorem uses_mild {ε α : Type} {p : Program (Cmd R) Cmd.Response ε α} (hp : p.Uses Quiet) : p.Uses Mild := by
  induction p with
  | ret a => trivial
  | raise e => trivial
  | step c k ih => exact ⟨.inl hp.1, fun r => ih r (hp.2 r)⟩

theorem uses_reconciledOutcome {activeReason conflictReason : String} {receipt : Receipt R} :
    (reconciledOutcome calls t activeReason conflictReason receipt).Uses Quiet := by
  unfold reconciledOutcome
  split
  · trivial
  · split
    · trivial
    · exact .bind (uses_receiptExecutionActive receipt) fun _ => trivial

/-! ## The execution that a receipt names -/

theorem ExecutionOver.mono {receipt : Receipt R} {log log' : List (Step R)} (h : ExecutionOver calls t receipt log)
    (hsub : ∀ e ∈ log, e ∈ log') : ExecutionOver calls t receipt log' := by
  rcases h with h | h | h | ⟨lease, now, s, s', hlease, hle, hin⟩ | ⟨host, pid, s, s', hhost, hpid, hsame, hin⟩
  · exact .inl h
  · exact .inr (.inl h)
  · exact .inr (.inr (.inl h))
  · exact .inr (.inr (.inr (.inl ⟨lease, now, s, s', hlease, hle, hsub _ hin⟩)))
  · exact .inr (.inr (.inr (.inr ⟨host, pid, s, s', hhost, hpid, hsame, hsub _ hin⟩)))

theorem returns_sameHostOwnerGone {receipt : Receipt R} {log : List (Step R)}
    (h : (sameHostOwnerGone calls t receipt).Returns log true) :
    ∃ host pid s s', receipt.ownerHost = some host ∧ receipt.ownerPid = some pid ∧
      HostName.lower host = HostName.lower (calls.host t) ∧ ⟨.kill pid, .ok false, s, s'⟩ ∈ log := by
  unfold sameHostOwnerGone at h
  split at h
  case h_2 => exact absurd (returns_ret h).2 (by decide)
  case h_1 host pid hhost hpid =>
    split at h
    case isTrue => exact absurd (returns_ret h).2 (by decide)
    case isFalse hknown =>
      obtain ⟨first, rest, alive, rfl, hfirst, hrest⟩ := returns_bind h
      have halive : alive = false := by simpa using (returns_ret hrest).2
      unfold sameHostOwnerAlive at hfirst
      rw [hhost, hpid] at hfirst
      dsimp only at hfirst
      rw [if_neg hknown, halive] at hfirst
      obtain ⟨s, s', rfl⟩ := returns_performOrThrow hfirst
      simp only [not_or, not_not] at hknown
      exact ⟨host, pid, s, s', hhost, hpid, hknown.2.1, by simp⟩

/-- An execution that is not active is over. -/
theorem returns_receiptExecutionActive {receipt : Receipt R} {log : List (Step R)}
    (h : (receiptExecutionActive calls t receipt).Returns log false) : ExecutionOver calls t receipt log := by
  unfold receiptExecutionActive at h
  split at h
  case isTrue hidle =>
    rcases hidle with hstate | hnone
    · exact .inl hstate
    · exact .inr (.inl (Option.isNone_iff_eq_none.mp hnone))
  case isFalse =>
    obtain ⟨first, rest, alive, rfl, hfirst, hrest⟩ := returns_bind h
    split at hrest
    case isTrue => exact absurd (returns_ret hrest).2 (by decide)
    case isFalse =>
      obtain ⟨second, rest', gone, rfl, hsecond, hrest'⟩ := returns_bind hrest
      split at hrest'
      case isTrue hgone =>
        rw [hgone] at hsecond
        obtain ⟨host, pid, s, s', hhost, hpid, hsame, hin⟩ := returns_sameHostOwnerGone hsecond
        exact .inr (.inr (.inr (.inr ⟨host, pid, s, s', hhost, hpid, hsame, by simp [hin]⟩)))
      case isFalse =>
        split at hrest'
        case h_1 hnone => exact .inr (.inr (.inl hnone))
        case h_2 leaseExpiresAt hlease =>
          obtain ⟨third, rest'', now, rfl, hthird, hrest''⟩ := returns_bind hrest'
          obtain ⟨s, s', rfl⟩ := returns_performOrThrow hthird
          have hover : leaseExpiresAt ≤ now := by simpa using (returns_ret hrest'').2
          exact .inr (.inr (.inr (.inl ⟨leaseExpiresAt, now, s, s', hlease, hover, by simp⟩)))

theorem returns_reconciledOutcome {activeReason conflictReason : String} {receipt : Receipt R}
    {log : List (Step R)} (h : (reconciledOutcome calls t activeReason conflictReason receipt).Returns log none) :
    receipt.requestDigest = calls.digest t ∧ receipt.state ≠ .completed ∧ ExecutionOver calls t receipt log := by
  unfold reconciledOutcome at h
  split at h
  case isTrue => cases (returns_ret h).2
  case isFalse hdigest =>
    split at h
    case isTrue => cases (returns_ret h).2
    case isFalse hstate =>
      obtain ⟨first, rest, active, rfl, hfirst, hrest⟩ := returns_bind h
      cases active with
      | true => cases (returns_ret hrest).2
      | false =>
        exact ⟨not_ne_iff.mp hdigest, hstate,
          (returns_receiptExecutionActive hfirst).mono fun e he => List.mem_append_left _ he⟩

/-! ## The receipt under the lock -/

theorem Snapped.later {v : Snapshot R} {s s' s'' : DeliveryState R} (h : Snapped calls t v s s')
    (hl : Later calls t s' s'') : Snapped calls t v s s'' := by
  obtain ⟨r, s₁, i, s₂, j, hraw, hreceipt, hl₁, hi, hl₂, hj, hstat, hl₃⟩ := h.at_read
  exact ⟨h.sighted.later hl, r, s₁, i, s₂, j, hraw, hreceipt, hl₁, hi, hl₂, hj, hstat, hl₃.trans hl⟩

/-- What was read under the lock is still there. -/
theorem Snapped.held {v : Snapshot R} {s s' : DeliveryState R} (h : Snapped calls t v s s')
    (hlocked : Locked calls (.call t) s) (hr : runs calls s' (.call t) = true) :
    ∃ i r, Holds s' i r ∧ v.raw = .record r ∧ v.stat = calls.stat s' i ∧ v.receipt = r.atMtime v.stat.mtimeMs := by
  obtain ⟨r, s₁, i, s₂, j, hraw, hreceipt, hl₁, hi, hl₂, hj, hstat, hl₃⟩ := h.at_read
  have hlocked₁ := hlocked.later hl₁
  have hruns₂ := hl₃.rely.base.runs hr
  have hholds₂ := hl₂.rely.held hruns₂ (hlocked₁.lock (hl₂.rely.base.runs hruns₂)) i r hi
  have hlock₂ := (hlocked₁.later hl₂).lock hruns₂
  obtain rfl : i = j := Option.some.inj (hholds₂.1.symm.trans hj)
  refine ⟨i, r, hl₃.rely.held hr hlock₂ i r hholds₂, hraw, ?_, hreceipt⟩
  rw [hstat]
  unfold Calls.stat
  rw [hl₃.rely.file hr hlock₂ i r hholds₂]

/-- The receipt of a snapshot is what its bytes say at its time. -/
def WellRead (snapshot : Snapshot R) : Prop :=
  ∃ r, snapshot.raw = .record r ∧ snapshot.receipt = r.atMtime snapshot.stat.mtimeMs

theorem WellRead.receipt_congr {v v' : Snapshot R} (h : WellRead v) (h' : WellRead v') (hraw : v.raw = v'.raw)
    (hstat : v.stat = v'.stat) : v.receipt = v'.receipt := by
  obtain ⟨r, hr, hreceipt⟩ := h
  obtain ⟨r', hr', hreceipt'⟩ := h'
  obtain rfl : r = r' := Content.record.inj (hr.symm.trans (hraw.trans hr'))
  rw [hreceipt, hreceipt', hstat]

theorem Snapped.wellRead {v : Snapshot R} {s s' : DeliveryState R} (h : Snapped calls t v s s') : WellRead v := by
  obtain ⟨r, -, -, -, -, hraw, hreceipt, -⟩ := h.at_read
  exact ⟨r, hraw, hreceipt⟩

section Programs

variable [DecidableEq R]

theorem uses_readDurableDeliveryReceiptSnapshot : (readDurableDeliveryReceiptSnapshot calls).Uses Quiet := by
  refine .attempt (.bind (uses_sys trivial) fun before => .bind (uses_sys trivial) fun raw =>
    .bind (uses_sys trivial) fun after => ?_) fun _ => trivial
  split
  · trivial
  · split
    · trivial
    · refine .bind (uses_sys trivial) fun again => ?_
      split <;> trivial

/-! ## Runs with a log -/

variable {s : LoggedState R} {thread : Thread}

abbrev Logs (calls : Calls R) (s : LoggedState R) : Prop := (loggedDiscipline calls).inv s

/-- The program keeps the invariant of the log. -/
abbrev Keeps (calls : Calls R) (t : CallId) {α : Type} (p : Prog R α) (s : LoggedState R) : Prop :=
  loggedTriple calls (.call t) p (fun _ ↦ Logs calls) (fun _ ↦ Logs calls) s

theorem wp_mild {ε α : Type} {p : Program (Cmd R) Cmd.Response ε α} {Q : α → DeliveryState R → Prop}
    {E : ε → DeliveryState R → Prop} (hp : p.Uses Mild) (hinv : Logs calls s)
    (h : triple calls thread p Q E s.1) :
    loggedTriple calls thread p
      (fun a s' => Logs calls s' ∧ Q a s'.1 ∧ ∃ own, s'.2 thread = s.2 thread ++ own ∧ p.Returns own a)
      (fun _ => Logs calls) s := by
  refine wp_mono (wp_logged hp ?_ hinv h) (fun _ _ ha => ha) fun _ _ he => he.1
  intro c hc ch r s₁ s₂ earlier hexec _ _ _
  exact .inl (hc.untouched (exec_some hexec).2)

theorem keeps_mild {α : Type} {p : Prog R α} (hp : p.Uses Mild) (hinv : Logs calls s)
    (h : triple calls (.call t) p (fun _ _ => True) (fun _ _ => True) s.1) : Keeps calls t p s :=
  wp_mono (wp_mild hp hinv h) (fun _ _ ha => ha.1) fun _ _ he => he

theorem keeps_quiet {α : Type} {p : Prog R α} (hp : p.Uses Quiet) (hinv : Logs calls s) : Keeps calls t p s :=
  keeps_mild (uses_mild hp) hinv (wp_mono (wp_quiet hp hinv.1) (fun _ _ _ => trivial) fun _ _ _ => trivial)

theorem keeps_bind {α β : Type} {p : Prog R α} {f : α → Prog R β} {Q : α → DeliveryState R → Prop}
    {E : DeliveryError → DeliveryState R → Prop} (hp : p.Uses Mild) (hinv : Logs calls s)
    (h : triple calls (.call t) p Q E s.1)
    (hf : ∀ a s' own, Logs calls s' → Q a s'.1 → s'.2 (.call t) = s.2 (.call t) ++ own → p.Returns own a →
      Keeps calls t (f a) s') : Keeps calls t (p >>= f) s := by
  refine wp_bind (wp_mono (wp_mild hp hinv h) (fun a s' ha => ?_) fun _ _ he => he)
  obtain ⟨hinv', hQ, own, hlog, hreturns⟩ := ha
  exact hf a s' own hinv' hQ hlog hreturns

/-- A step that only reads, and what follows it. -/
theorem keeps_bindQuiet {α β : Type} {p : Prog R α} {f : α → Prog R β} (hp : p.Uses Quiet) (hinv : Logs calls s)
    (hf : ∀ a s' own, Logs calls s' → Later calls t s.1 s'.1 → s'.2 (.call t) = s.2 (.call t) ++ own →
      p.Returns own a → Keeps calls t (f a) s') : Keeps calls t (p >>= f) s :=
  keeps_bind (uses_mild hp) hinv (wp_quiet hp hinv.1) hf

theorem keeps_bindSnapshot {β : Type} {f : Option (Snapshot R) → Prog R β} (hinv : Logs calls s)
    (hf : ∀ snapshot s' own, Logs calls s' → Later calls t s.1 s'.1 →
      (∀ v, snapshot = some v → Snapped calls t v s.1 s'.1) → s'.2 (.call t) = s.2 (.call t) ++ own →
      (readDurableDeliveryReceiptSnapshot calls).Returns own snapshot → Keeps calls t (f snapshot) s') :
    Keeps calls t (readDurableDeliveryReceiptSnapshot calls >>= f) s := by
  refine keeps_bind (E := fun _ _ => True)
    (Q := fun snapshot s' => Later calls t s.1 s' ∧ ∀ v, snapshot = some v → Snapped calls t v s.1 s')
    (uses_mild uses_readDurableDeliveryReceiptSnapshot) hinv
    (wp_readDurableDeliveryReceiptSnapshot hinv.1 fun _ _ hl hread => ⟨hl, hread⟩) ?_
  intro snapshot s' own hinv' hread hlog hown
  exact hf snapshot s' own hinv' hread.1 hread.2 hlog hown

/-- The step that writes the receipt, given that it commits what was verified. -/
theorem keeps_replace {r' next : Receipt R} (h : Checked calls t r' s.1) (hinv : Logs calls s)
    (hcommits : runs calls s.1 (.call t) = true → ∀ e : Step R, e.before = s.1 → e.command = .replace next →
      e.after = s.1.replace calls t next →
      ∃ snapshot result, CommitsVerified calls t (s.2 (.call t)) e snapshot result) :
    loggedTriple calls (.call t) (sys (.replace next)) (fun _ => Logs calls) (fun _ => Logs calls) s := by
  refine wp_performOrThrow fun ch r s' _ hexec => ?_
  obtain ⟨hexec, hlog⟩ := exec_logged.mp hexec
  obtain ⟨hruns, hlive⟩ := exec_some hexec
  have hstep : triple calls (.call t) (sys (.replace next)) (fun _ _ => True) (fun _ _ => True) s.1 :=
    wp_replace h (fun _ _ _ _ _ => ⟨trivial, fun _ => trivial⟩) fun _ _ _ => trivial
  refine ⟨guarantee_logged hinv (hstep ch r s'.1 trivial hexec).1 hlog ?_, fun s'' hl =>
    ⟨fun _ _ => hl.inv, fun _ _ => hl.inv⟩⟩
  rintro u ⟨⟩ -
  have hcases : s'.1 = s.1 ∨ s'.1 = s.1.replace calls t next := by
    cases ch <;> simp only [execLive, Option.some.injEq, Prod.mk.injEq] at hlive <;>
      obtain ⟨-, hs'⟩ := hlive <;> simp [← hs', Thread.id]
  rcases hcases with hsame | hreplaced
  · refine .inl ?_
    show Untouched s.1 s'.1
    rw [hsame]
    exact .refl _
  · exact .inr (hcommits hruns _ rfl rfl hreplaced)

/-! ## The commit -/

theorem keeps_commitVerified {snapshot : Snapshot R} {result : R} (hinv : Logs calls s) (h : Fresh calls t s.1)
    (hread : WellRead snapshot) (hproved : Proved calls (s.2 (.call t)) snapshot result) :
    Keeps calls t (commitVerified calls t snapshot result) s := by
  unfold commitVerified withReceiptMutationLock
  refine keeps_bind (Q := fun _ s' => Steady calls t s.1 s' ∧ Locked calls (.call t) s') (E := fun _ _ => True)
    (uses_sys (.inr (.inl rfl))) hinv (wp_lock h.inv (fun _ hs hlocked => ⟨hs, hlocked⟩) fun _ _ _ => trivial)
    fun _ s₁ own₁ hinv₁ hs₁ hlog₁ hown₁ => ?_
  obtain ⟨hs₁, hlocked⟩ := hs₁
  obtain ⟨lockedAt, lockedThen, rfl⟩ := returns_performOrThrow hown₁
  have hrelease : ∀ s', Logs calls s' → Keeps calls t (sys .unlock) s' := fun s' hinv' =>
    keeps_mild (uses_sys (.inr (.inr (.inl rfl)))) hinv'
      (wp_unlock hinv'.1 (fun _ _ => trivial) fun _ _ _ => trivial)
  refine wp_ensure (wp_mono (Q := fun _ => Logs calls) (E := fun _ => Logs calls) ?_
    (fun _ s' hinv' => hrelease s' hinv') fun _ s' hinv' => hrelease s' hinv')
  refine keeps_bindQuiet (uses_sys trivial) hinv₁ fun _ s₂ own₂ hinv₂ hl₂ hlog₂ _ => ?_
  refine keeps_bindSnapshot hinv₂ fun latest s₃ own₃ hinv₃ hl₃ hlatest hlog₃ _ => ?_
  refine keeps_bindQuiet (uses_sys trivial) hinv₃ fun _ s₄ own₄ hinv₄ hl₄ hlog₄ _ => ?_
  cases latest with
  | none => exact hinv₄
  | some latest =>
    have hsnapped := (hlatest latest rfl).later hl₄
    refine keeps_bindQuiet uses_reconciledOutcome hinv₄ fun settled s₅ own₅ hinv₅ hl₅ hlog₅ hown₅ => ?_
    cases settled with
    | some outcome => exact hinv₅
    | none =>
      obtain ⟨hdigest, hstate, hover⟩ := returns_reconciledOutcome hown₅
      dsimp only
      split
      case isTrue => exact hinv₅
      case isFalse hsame =>
        simp only [ne_eq, not_or, not_not] at hsame
        have hreceipt : latest.receipt = snapshot.receipt := hsnapped.wellRead.receipt_congr hread hsame.1 hsame.2
        rw [hreceipt] at hdigest hstate hover
        refine keeps_bindQuiet (uses_sys trivial) hinv₅ fun _ s₆ own₆ hinv₆ hl₆ hlog₆ _ => ?_
        refine keeps_bindQuiet (uses_sys trivial) hinv₆ fun now s₇ own₇ hinv₇ hl₇ hlog₇ _ => ?_
        have hl : Later calls t s₂.1 s₇.1 := ((((hl₃.trans hl₄).trans hl₅).trans hl₆).trans hl₇)
        have hsnapped₇ := hsnapped.later ((hl₅.trans hl₆).trans hl₇)
        have hlocked₂ := hlocked.later hl₂
        have hfresh : Fresh calls t s₇.1 := (h.steady hs₁).steady (.of_later (hl₂.trans hl))
        have hchecked : Checked calls t snapshot.receipt s₇.1 :=
          ⟨hlocked₂.later hl, hreceipt ▸ hsnapped₇.sighted.held hlocked₂, hdigest, hstate,
            fun hx => by simp [hfresh.fresh] at hx⟩
        rw [hreceipt]
        refine wp_bind (wp_bind (wp_mono (keeps_replace hchecked hinv₇ fun hruns e hbefore hcommand hafter => ?_)
          (fun _ s' hinv' => ?_) fun _ _ hinv' => hinv'))
        · obtain ⟨i, r, hholds, hraw, hstat, hatMtime⟩ := hsnapped₇.held hlocked₂ hruns
          rw [hsame.1] at hraw
          rw [hsame.2] at hstat
          rw [hsame.2, hreceipt] at hatMtime
          refine ⟨snapshot, result, ⟨s.2 (.call t), ⟨.lock, .ok (), lockedAt, lockedThen⟩,
            own₂ ++ own₃ ++ own₄ ++ own₅ ++ own₆ ++ own₇, ?_, hproved, rfl, hover.mono fun x hx => ?_⟩, ?_,
            ⟨i, r, ?_, hraw, ?_, hatMtime⟩, hdigest, hstate, now, hcommand, ?_⟩
          · rw [hlog₇, hlog₆, hlog₅, hlog₄, hlog₃, hlog₂, hlog₁]
            simp only [List.append_assoc, List.cons_append, List.nil_append]
          · simp [hx]
          · rw [hbefore]
            exact (hlocked₂.later hl).lock hruns
          · rw [hbefore]
            exact hholds
          · rw [hbefore]
            exact hstat
          · rw [hbefore]
            exact hafter
        · exact keeps_quiet (.bind (uses_sys trivial) fun _ =>
            .bind uses_readDurableDeliveryReceiptSnapshot fun _ => .bind (uses_sys trivial) fun _ => trivial) hinv'

theorem Proved.append {log own : List (Step R)} {snapshot : Snapshot R} {result : R}
    (h : Proved calls log snapshot result) : Proved calls (log ++ own) snapshot result := by
  obtain ⟨earlier, reading, between, verify, answer, later, rfl, hread, hverify, hanswer⟩ := h
  refine ⟨earlier, reading, between, verify, answer, later ++ own, ?_, hread, hverify, hanswer⟩
  simp only [List.append_assoc, List.cons_append]

theorem keeps_reconcileDurableDelivery (hinv : Logs calls s) (h : Fresh calls t s.1) :
    Keeps calls t (reconcileDurableDelivery calls t) s := by
  refine wp_attempt (wp_mono (Q := fun _ => Logs calls) (E := fun _ => Logs calls) ?_ (fun _ _ hinv' => hinv')
    fun _ _ hinv' => hinv')
  refine keeps_bindQuiet (uses_sys trivial) hinv fun _ s₁ own₁ hinv₁ hl₁ hlog₁ _ => ?_
  refine keeps_bindSnapshot hinv₁ fun snapshot s₂ reading hinv₂ hl₂ hsnapshot hlog₂ hreading => ?_
  cases snapshot with
  | none => exact hinv₂
  | some snapshot =>
    have hsnapped := hsnapshot snapshot rfl
    refine keeps_bindQuiet (uses_sys trivial) hinv₂ fun _ s₃ own₃ hinv₃ hl₃ hlog₃ _ => ?_
    refine keeps_bindQuiet uses_reconciledOutcome hinv₃ fun settled s₄ own₄ hinv₄ hl₄ hlog₄ hown₄ => ?_
    cases settled with
    | some outcome => exact hinv₄
    | none =>
      have hobserved : s₄.1.observed t = true :=
        (hsnapped.sighted.later (hl₃.trans hl₄)).observed (returns_reconciledOutcome hown₄).1
      refine keeps_bind (Q := fun _ => Later calls t s₄.1) (E := fun _ _ => True)
        (uses_sys (.inr (.inr (.inr ⟨_, rfl⟩)))) hinv₄
        (wp_verify hinv₄.1 hobserved (fun _ hl => hl) fun _ _ _ => trivial)
        fun _ s₅ own₅ hinv₅ hl₅ hlog₅ hown₅ => ?_
      obtain ⟨asked, askedThen, rfl⟩ := returns_performOrThrow hown₅
      refine keeps_bindQuiet (uses_sys trivial) hinv₅ fun verification s₆ own₆ hinv₆ hl₆ hlog₆ hown₆ => ?_
      obtain ⟨answered, answeredThen, rfl⟩ := returns_performOrThrow hown₆
      refine keeps_bindQuiet (uses_sys trivial) hinv₆ fun _ s₇ own₇ hinv₇ hl₇ hlog₇ _ => ?_
      split
      · rename_i result
        have hl := (((((hl₁.trans hl₂).trans hl₃).trans hl₄).trans hl₅).trans hl₆).trans hl₇
        have hproved : Proved calls (s₆.2 (.call t)) snapshot result := by
          refine ⟨s.2 (.call t) ++ own₁, reading, own₃ ++ own₄, ⟨.verify snapshot.receipt, .ok (), asked, askedThen⟩,
            ⟨.awaitVerification, .ok (.completed (some result)), answered, answeredThen⟩, [], ?_, hreading,
            rfl, answered, answeredThen, rfl⟩
          rw [hlog₆, hlog₅, hlog₄, hlog₃, hlog₂, hlog₁]
          simp only [List.append_assoc, List.cons_append, List.nil_append]
        refine keeps_commitVerified hinv₇ (h.steady (.of_later hl)) hsnapped.wellRead ?_
        rw [hlog₇]
        exact hproved.append
      · exact hinv₇
      · exact hinv₇

/-! ## All calls -/

/-- A thread that does not reconcile may do anything. -/
theorem honest_of_ne {earlier : List (Step R)} {e : Step R}
    (h : ∀ t, thread = .call t → calls.kind t ≠ .reconcile) : Honest calls thread earlier e :=
  fun t ht hkind => absurd hkind (h t ht)

theorem wp_loggedProgram (hinv : Logs calls s) (hfresh : ∀ t, thread = .call t → s.1.executing t = false) :
    loggedTriple calls thread (program calls thread) (fun _ _ => True) (fun _ _ => True) s := by
  by_cases hother : ∀ t, thread = .call t → calls.kind t ≠ .reconcile
  · exact wp_mono (wp_logged (uses_true _) (fun _ _ _ _ _ _ _ _ => honest_of_ne hother) hinv
      (wp_program hinv.1 hfresh)) (fun _ _ _ => trivial) fun _ _ _ => trivial
  · push Not at hother
    obtain ⟨t, rfl, hkind⟩ := hother
    simp only [program]
    split
    case isFalse => trivial
    case isTrue =>
      simp only [hkind]
      exact wp_bind (wp_mono (keeps_reconcileDurableDelivery hinv ⟨hinv.1, hfresh t rfl⟩) (fun _ _ _ => trivial)
        fun _ _ _ => trivial)

abbrev LoggedConfig (R : Type) : Type :=
  Config (LoggedState R) (Cmd R) Cmd.Response Thread DeliveryError (Option (Outcome R))

theorem logs_reach {now : Nat} {cfg : LoggedConfig R}
    (h : (machine calls).logged.Reach (initial calls now).logged cfg) : Logs calls cfg.shared := by
  have hinitial : Logs calls (initial calls now).logged.shared := by
    refine ⟨inv_initial calls now, fun thread earlier e later hlog => ?_⟩
    have hlength : 0 = (earlier ++ e :: later).length := congrArg List.length hlog
    rw [List.length_append, List.length_cons] at hlength
    omega
  have hverified : Verified (machine calls).logged (fun _ _ _ _ => True) (loggedDiscipline calls)
      (fun _ _ _ => True) (fun _ _ _ => True) (initial calls now).logged :=
    ⟨hinitial, fun thread s hl => wp_loggedProgram hl.inv fun t ht => (hl.rely.1.marks t ht).executing⟩
  exact (hverified.reach (event_logged fun _ _ _ => event_keeps) h).1

/-- Whatever the other calls do, each step of a reconciliation leaves the receipt as it is, or replaces the snapshot
that it has verified by the completed receipt. -/
theorem reconcile_commits_verified {now : Nat} {cfg : LoggedConfig R}
    (h : (machine calls).logged.Reach (initial calls now).logged cfg) {t : CallId} (hkind : calls.kind t = .reconcile)
    {earlier later : List (Step R)} {e : Step R} (hlog : cfg.shared.2 (.call t) = earlier ++ e :: later) :
    Untouched e.before e.after ∨ ∃ snapshot result, CommitsVerified calls t earlier e snapshot result :=
  (logs_reach h).2 (.call t) earlier e later hlog t rfl hkind

end Programs

/-! ## A reconciliation after the death of the owner -/

/-- The receipt names an execution whose lease has not run out. -/
def unexpired (s : DeliveryState R) : Bool :=
  s.path.any fun i ↦ s.stored.any fun r ↦ decide (r.state = .sending) && r.executionId.isSome &&
    (r.atMtime (s.file i).mtimeMs).leaseExpiresAt.any fun leaseExpiresAt ↦ decide (s.now < leaseExpiresAt)

/-- Call 0 executes the delivery and call 1 reconciles it, in two processes of one host. -/
def ownerAndReconciler : Calls Nat where
  count := 2
  deliveryId := 0
  kind t := if t = 0 then .execute else .reconcile
  digest _ := 0
  host _ := ['a']
  pid t := t + 1
  executionLeaseMs _ := some 100
  hasRecover _ := false
  recoverExistingUncertain _ := false
  hasRetryableRejection _ := false
  waitForCompletionMs _ := 0
  turns _ := 0
  renewals _ := 0
  textLength _ := 300

/-- Call 0 reserves and its process dies; call 1 finds the process gone, verifies and commits. -/
def ownerDies : List (Label Thread (Choice Nat) Event) :=
  callSteps 9 0 ++ [.event (.die ['a'] 1)] ++ callSteps 9 1 ++ [.run (.call 1) (.verified (.completed (some 7)))] ++
    callSteps 13 1

theorem ownerDies_commits : ∃ cfg earlier e,
    (machine ownerAndReconciler).logged.Reach (initial ownerAndReconciler 0).logged cfg ∧
      cfg.shared.2 (.call 1) = earlier ++ [e] ∧ ¬ Untouched e.before e.after ∧ unexpired e.before = true := by
  have hrun : ((machine ownerAndReconciler).logged.run (initial ownerAndReconciler 0).logged ownerDies).any
      (fun cfg => (cfg.shared.2 (.call 1)).getLast?.any fun e =>
        unexpired e.before && decide (e.after.path ≠ e.before.path)) = true := by
    decide +kernel
  obtain ⟨cfg, hcfg, hend⟩ := (Option.any_eq_true _ _).mp hrun
  obtain ⟨e, hlast, hend⟩ := (Option.any_eq_true _ _).mp hend
  obtain ⟨earlier, hlog⟩ := List.getLast?_eq_some_iff.mp hlast
  simp only [Bool.and_eq_true, decide_eq_true_eq] at hend
  exact ⟨cfg, earlier, e, Machine.run_reach hcfg, hlog, fun hsame => hend.2 hsame.1, hend.1⟩

theorem reconcile_commits_verified_ownerDies : ∃ cfg earlier e,
    (machine ownerAndReconciler).logged.Reach (initial ownerAndReconciler 0).logged cfg ∧
      cfg.shared.2 (.call 1) = earlier ++ [e] ∧
      ∃ snapshot result, CommitsVerified ownerAndReconciler 1 earlier e snapshot result := by
  obtain ⟨cfg, earlier, e, hreach, hlog, hchanged, -⟩ := ownerDies_commits
  exact ⟨cfg, earlier, e, hreach, hlog, (reconcile_commits_verified hreach rfl hlog).resolve_left hchanged⟩

/-- The lease of the receipt that is replaced has not run out. -/
theorem reconcile_replaces_unexpired : ¬ ∀ cfg,
    (machine ownerAndReconciler).logged.Reach (initial ownerAndReconciler 0).logged cfg →
      ∀ t earlier e later, ownerAndReconciler.kind t = .reconcile →
        cfg.shared.2 (.call t) = earlier ++ e :: later → ¬ Untouched e.before e.after → unexpired e.before = false := by
  intro hall
  obtain ⟨cfg, earlier, e, hreach, hlog, hchanged, hunexpired⟩ := ownerDies_commits
  rw [hall cfg hreach 1 earlier e [] rfl hlog hchanged] at hunexpired
  cases hunexpired

end RabiRoute.DurableDelivery
