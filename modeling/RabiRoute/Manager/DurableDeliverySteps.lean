import RabiRoute.Manager.DurableDeliveryDiscipline

/-!
# The steps of one delivery call

What a call knows after a read of the receipt, what it keeps while it has the mutation lock, and
what a mutation of the receipt that it owns leaves behind.
-/

open Interleave Interleave.Program

namespace RabiRoute.DurableDelivery

variable {R : Type} {calls : Calls R}

abbrev triple (calls : Calls R) (thread : Thread) {ε α : Type}
    (p : Program (Cmd R) Cmd.Response ε α) (Q : α → DeliveryState R → Prop)
    (E : ε → DeliveryState R → Prop) (s : DeliveryState R) : Prop :=
  wp (machine calls) (fun _ _ _ _ ↦ True) (discipline calls) thread p Q E s

abbrev Later (calls : Calls R) (t : CallId) (s s' : DeliveryState R) : Prop :=
  (discipline calls).Later (.call t) s s'

/-! ## Steps that change nothing that others rely on -/

section Steps

variable {thread : Thread} {t : CallId} {s s' : DeliveryState R}

theorem exec_some {c : Cmd R} {ch : Choice R} {r : c.Response} (h : (machine calls).exec thread c ch s = some (r, s')) :
    runs calls s thread = true ∧ execLive calls thread s c ch = some (r, s') := by
  have hruns : runs calls s thread = true := by
    by_contra hnot
    simp [machine, exec, hnot] at h
  exact ⟨hruns, by simpa [machine, exec, hruns] using h⟩

theorem wp_step {c : Cmd R} {Q : c.Val → DeliveryState R → Prop}
    {E : DeliveryError → DeliveryState R → Prop}
    (h : ∀ ch r s', runs calls s thread = true → execLive calls thread s c ch = some (r, s') →
      (discipline calls).Guarantee thread s s' ∧
        ∀ s'', (discipline calls).Later thread s' s'' →
          (∀ v, r = .ok v → Q v s'') ∧ (∀ e, r = .error e → E e s'')) :
    triple calls thread (sys c) Q E s :=
  wp_performOrThrow fun ch r s' _ hexec => h ch r s' (exec_some hexec).1 (exec_some hexec).2

/-- The commands that only read, wait, or change the words shared with the worker. -/
def Quiet : Cmd R → Prop
  | .requestAuthority | .dateNow | .close _ | .stat | .readFile | .kill _ | .wait | .awaitDelivery
  | .awaitVerification | .startWorker | .awaitStatus _ | .loadFailure | .requestStop | .terminate
  | .awaitStart | .openReceipt | .fstat _ | .readDescriptor _ | .loadStop | .loadStatus
  | .publish _ | .storeFailure _ | .addCount => True
  | _ => False

structure Silent (s s' : DeliveryState R) : Prop where
  frame : Frame s s'
  lock : s'.lock = s.lock
  file : s'.file = s.file
  marks : ∀ t, Marks t s s'

theorem Silent.refl (s : DeliveryState R) : Silent s s :=
  ⟨.refl s, rfl, rfl, fun t => .refl t s⟩

theorem silent_setControl {u : CallId} {control : HeartbeatControl} (h : (s.control u).terminated = true →
    control.terminated = true) : Silent s (s.setControl u control) := by
  refine ⟨⟨fun _ _ h => h, fun w hw => ?_, fun _ h => h, rfl, fun _ => rfl, rfl, rfl, rfl, rfl, rfl, rfl⟩,
    rfl, rfl, fun w => ⟨rfl, rfl, rfl, rfl, rfl, rfl, rfl, rfl⟩⟩
  show (if w = u then control else s.control w).terminated = true
  split
  case isTrue hwu => exact h (hwu ▸ hw)
  case isFalse => exact hw

theorem silent_observe {u : CallId} {content : Content R} : Silent s (s.observe calls u content) := by
  refine ⟨⟨fun _ _ h => h, fun _ h => h, fun w hw => ?_, rfl, fun _ => rfl, rfl, rfl, rfl, rfl, rfl, rfl⟩,
    rfl, rfl, fun w => ⟨rfl, rfl, rfl, rfl, rfl, rfl, rfl, rfl⟩⟩
  show (if w = u then _ else s.observed w) = true
  split
  case isTrue hwu => simp [hwu ▸ hw]
  case isFalse => exact hw

/-- Such a command leaves the state, marks what it has read, or writes a shared word. -/
theorem execLive_quiet_cases {c : Cmd R} {ch : Choice R} {r : c.Response} (hc : Quiet c)
    (h : execLive calls thread s c ch = some (r, s')) :
    s' = s ∨ (∃ content, s' = s.observe calls thread.id content) ∨
      ∃ control, s' = s.setControl thread.id control ∧
        ((s.control thread.id).terminated = true → control.terminated = true) := by
  revert hc r
  apply execLive.fun_cases_unfolding calls thread s fun c _ out => ∀ {r}, Quiet c → out = some (r, s') →
    s' = s ∨ (∃ content, s' = s.observe calls thread.id content) ∨
      ∃ control, s' = s.setControl thread.id control ∧
        ((s.control thread.id).terminated = true → control.terminated = true)
  all_goals
    intros
    first
      | exact absurd ‹Quiet _› id
      | cases ‹_ = some _› <;>
        first
          | exact .inl rfl
          | exact .inr (.inl ⟨_, rfl⟩)
          | exact .inr (.inr ⟨_, rfl, fun h => h⟩)
          | exact .inr (.inr ⟨_, rfl, fun _ => rfl⟩)

theorem execLive_quiet {c : Cmd R} {ch : Choice R} {r : c.Response} (hc : Quiet c)
    (h : execLive calls thread s c ch = some (r, s')) : Silent s s' := by
  rcases execLive_quiet_cases hc h with rfl | ⟨content, rfl⟩ | ⟨control, rfl, hterminated⟩
  · exact .refl _
  · exact silent_observe
  · exact silent_setControl hterminated

theorem Silent.guarantee (h : Silent s s') (hinv : Inv calls s) : (discipline calls).Guarantee thread s s' :=
  guarantee_frame hinv h.frame h.lock h.file (fun t _ => (h.marks t).counts (hinv.counts t))
    fun t _ => h.marks t

theorem Silent.later (h : Silent s s') (hinv : Inv calls s) : (discipline calls).Later thread s s' :=
  have hguarantee : (discipline calls).Guarantee thread s s' := h.guarantee hinv
  ⟨hguarantee.inv, h.frame.rely (fun _ hl => h.lock.trans hl) (fun _ => h.file) fun t _ => h.marks t⟩

theorem wp_quietStep {c : Cmd R} {Q : c.Val → DeliveryState R → Prop}
    {E : DeliveryError → DeliveryState R → Prop} (hc : Quiet c) (hinv : Inv calls s)
    (h : ∀ ch r s₁ s', runs calls s thread = true → execLive calls thread s c ch = some (r, s₁) →
      (discipline calls).Later thread s₁ s' → (discipline calls).Later thread s s' →
        (∀ v, r = .ok v → Q v s') ∧ (∀ e, r = .error e → E e s')) :
    triple calls thread (sys c) Q E s := by
  refine wp_step fun ch r s₁ hruns hexec => ?_
  have hsilent := execLive_quiet hc hexec
  exact ⟨hsilent.guarantee hinv, fun s' hl => h ch r s₁ s' hruns hexec hl ((hsilent.later hinv).trans hl)⟩

/-- A program of such commands leaves the state to the others. -/
theorem wp_quiet {α ε : Type} {p : Program (Cmd R) Cmd.Response ε α} (hp : p.Uses Quiet)
    (hinv : Inv calls s) :
    triple calls thread p (fun _ => (discipline calls).Later thread s)
      (fun _ => (discipline calls).Later thread s) s := by
  refine wp_uses hp ?_ (fun _ _ h h' => h.trans h') hinv (.self hinv)
  intro c hc s₁ ch r s₂ hinv₁ hl _ hexec
  have hsilent := execLive_quiet hc (exec_some hexec).2
  exact ⟨hsilent.guarantee hinv₁, hl.trans (hsilent.later hinv₁)⟩

theorem uses_sys {P : Cmd R → Prop} {c : Cmd R} (hc : P c) : (sys c).Uses P :=
  Uses.performOrThrow hc

end Steps

/-! ## What a call keeps -/

/-- A state that call `t` and the others may leave while `t` neither reserves, claims nor sends. -/
structure Steady (calls : Calls R) (t : CallId) (s s' : DeliveryState R) : Prop where
  inv : Inv calls s'
  base : Base s s'
  marks : Marks t s s'

theorem Steady.of_later {t : CallId} {s s' : DeliveryState R} (h : Later calls t s s') : Steady calls t s s' :=
  ⟨h.inv, h.rely.base, h.rely.marks t rfl⟩

theorem Steady.self {t : CallId} {s : DeliveryState R} (hinv : Inv calls s) : Steady calls t s s :=
  .of_later (.self hinv)

theorem Steady.trans {t : CallId} {s s' s'' : DeliveryState R} (h : Steady calls t s s')
    (h' : Steady calls t s' s'') : Steady calls t s s'' :=
  ⟨h'.inv, h.base.trans h'.base, h.marks.trans h'.marks⟩

theorem Steady.later {t : CallId} {s s' s'' : DeliveryState R} (h : Steady calls t s s')
    (h' : Later calls t s' s'') : Steady calls t s s'' :=
  h.trans (.of_later h')

/-- Call `t` has not reserved or claimed the receipt. -/
structure Fresh (calls : Calls R) (t : CallId) (s : DeliveryState R) : Prop where
  inv : Inv calls s
  fresh : s.executing t = false

/-- Call `t` has reserved or claimed the receipt. -/
structure Executing (calls : Calls R) (t : CallId) (s : DeliveryState R) : Prop where
  inv : Inv calls s
  executing : s.executing t = true

/-- Call `t` has a reservation or a verdict to retry that it has not used for a send. -/
structure Ready (calls : Calls R) (t : CallId) (s : DeliveryState R) : Prop
    extends Executing calls t s where
  credit : s.delivers t < s.creates t + s.retries t

/-- The receipt is completed with this result, for the payload of call `t`. -/
def Completed (calls : Calls R) (t : CallId) (result : R) (s : DeliveryState R) : Prop :=
  ∃ i r, Holds s i r ∧ r.state = .completed ∧ r.result = some result ∧
    r.requestDigest = calls.digest t

theorem Fresh.steady {t : CallId} {s s' : DeliveryState R} (h : Fresh calls t s)
    (hs : Steady calls t s s') : Fresh calls t s' :=
  ⟨hs.inv, hs.marks.executing.trans h.fresh⟩

theorem Executing.steady {t : CallId} {s s' : DeliveryState R} (h : Executing calls t s)
    (hs : Steady calls t s s') : Executing calls t s' :=
  ⟨hs.inv, hs.marks.executing.trans h.executing⟩

theorem Ready.steady {t : CallId} {s s' : DeliveryState R} (h : Ready calls t s)
    (hs : Steady calls t s s') : Ready calls t s' := by
  refine ⟨h.toExecuting.steady hs, ?_⟩
  rw [hs.marks.delivers, hs.marks.creates, hs.marks.retries]
  exact h.credit

theorem Completed.base {t : CallId} {result : R} {s s' : DeliveryState R}
    (h : Completed calls t result s) (hb : Base s s') : Completed calls t result s' := by
  obtain ⟨i, r, hi, hstate, hresult, hdigest⟩ := h
  exact ⟨i, r, hb.final i r hi hstate, hstate, hresult, hdigest⟩

/-! ## Reading the receipt -/

/-- What parses as `r'` is the receipt `r`, up to the expiry that is read off the file's time. -/
structure Reads (r r' : Receipt R) : Prop where
  digest : r'.requestDigest = r.requestDigest
  state : r'.state = r.state
  executionId : r'.executionId = r.executionId
  result : r'.result = r.result

theorem Reads.refl (r : Receipt R) : Reads r r :=
  ⟨rfl, rfl, rfl, rfl⟩

theorem reads_atMtime (r : Receipt R) (mtimeMs : Nat) : Reads r (r.atMtime mtimeMs) := by
  unfold Receipt.atMtime
  split
  · exact ⟨rfl, rfl, rfl, rfl⟩
  · exact .refl r

theorem Reads.trans {r r' r'' : Receipt R} (h : Reads r r') (h' : Reads r' r'') : Reads r r'' :=
  ⟨h'.1.trans h.1, h'.2.trans h.2, h'.3.trans h.3, h'.4.trans h.4⟩

/-- Between `s` and `s'` call `t` has read the receipt `r'`. -/
structure Sighted (calls : Calls R) (t : CallId) (r' : Receipt R) (s s' : DeliveryState R) :
    Prop where
  at_read : ∃ s₁ i r, Later calls t s s₁ ∧ Holds s₁ i r ∧ Reads r r' ∧ Later calls t s₁ s'
  observed : r'.requestDigest = calls.digest t → s'.observed t = true

theorem Sighted.later {t : CallId} {r' : Receipt R} {s s' s'' : DeliveryState R}
    (h : Sighted calls t r' s s') (hl : Later calls t s' s'') : Sighted calls t r' s s'' := by
  obtain ⟨s₁, i, r, hl₁, hi, hreads, hl'⟩ := h.at_read
  exact ⟨⟨s₁, i, r, hl₁, hi, hreads, hl'.trans hl⟩, fun hd =>
    hl.rely.base.observed t (h.observed hd)⟩

theorem Sighted.atMtime {t : CallId} {r' : Receipt R} {s s' : DeliveryState R}
    (h : Sighted calls t r' s s') (mtimeMs : Nat) : Sighted calls t (r'.atMtime mtimeMs) s s' := by
  obtain ⟨s₁, i, r, hl₁, hi, hreads, hl'⟩ := h.at_read
  have hmtime := reads_atMtime r' mtimeMs
  exact ⟨⟨s₁, i, r, hl₁, hi, hreads.trans hmtime, hl'⟩, fun hd =>
    h.observed (hmtime.digest.symm.trans hd)⟩

theorem Sighted.after {t : CallId} {r' : Receipt R} {s₀ s s' : DeliveryState R}
    (hl : Later calls t s₀ s) (h : Sighted calls t r' s s') : Sighted calls t r' s₀ s' := by
  obtain ⟨s₁, i, r, hl₁, hi, hreads, hl'⟩ := h.at_read
  exact ⟨⟨s₁, i, r, hl.trans hl₁, hi, hreads, hl'⟩, h.observed⟩

/-- A completed receipt that has been read is there to stay. -/
theorem Sighted.completed {t : CallId} {r' : Receipt R} {result : R} {s s' : DeliveryState R} (h : Sighted calls t r' s
    s') (hdigest : r'.requestDigest = calls.digest t) (hstate : r'.state = .completed) (hresult : r'.result = some
    result) : Completed calls t result s' := by
  obtain ⟨s₁, i, r, -, hi, hreads, hl'⟩ := h.at_read
  have hr : r.state = .completed := hreads.state.symm.trans hstate
  exact ⟨i, r, hl'.rely.base.final i r hi hr, hr, hreads.result.symm.trans hresult, hreads.digest.symm.trans hdigest⟩

section Reading

variable {t : CallId} {s : DeliveryState R}

theorem parse_eq_some {content : Content R} {r : Receipt R} (h : calls.parse content = some r) :
    content = .record r := by
  unfold Calls.parse at h
  split at h
  · split at h
    · rw [Option.some.inj h]
    · cases h
  · cases h

/-- Between `s` and `s'` call `t` has read these bytes of the receipt, which are a receipt. -/
def ReadBytes (calls : Calls R) (t : CallId) (raw : Content R) (s s' : DeliveryState R) : Prop :=
  ∀ r, calls.parse raw = some r → Sighted calls t r s s' ∧
    ∃ s₁ i, Later calls t s s₁ ∧ Holds s₁ i r ∧ Later calls t s₁ s'

theorem wp_readFile {Q : Content R → DeliveryState R → Prop} {E : DeliveryError → DeliveryState R → Prop} (hinv : Inv
    calls s) (hQ : ∀ raw s', Later calls t s s' → ReadBytes calls t raw s s' → Q raw s') (hE : ∀ e s', Later calls t s
    s' → E e s') : triple calls (.call t) (sys .readFile) Q E s := by
  refine wp_quietStep trivial hinv fun ch r s₁ s' _ hexec hl₁ hl => ⟨fun raw hr => ?_, fun e _ => hE e s' hl⟩
  subst hr
  obtain ⟨i, hi, hraw, rfl⟩ : ∃ i, s.path = some i ∧ raw = (s.file i).content ∧
      s₁ = s.observe calls t raw := by
    cases hpath : s.path <;> cases ch <;> simp only [execLive, hpath, Option.some.injEq,
      Prod.mk.injEq, Except.ok.injEq, reduceCtorEq, false_and] at hexec <;>
      exact ⟨_, rfl, hexec.1.symm, by rw [← hexec.2, ← hexec.1]; rfl⟩
  refine hQ raw s' hl fun r hr => ?_
  have hholds : Holds s i r := ⟨hi, by rw [← hraw]; exact parse_eq_some hr⟩
  refine ⟨⟨⟨s, i, r, .self hinv, hholds, .refl r, hl⟩, fun hd => ?_⟩, s, i, .self hinv, hholds, hl⟩
  · refine hl₁.rely.base.observed t ?_
    simp [DeliveryState.observe, DeliveryState.setObserved, hr, hd]

theorem wp_readDurableDeliveryReceipt {Q : Option (Receipt R) → DeliveryState R → Prop}
    {E : DeliveryError → DeliveryState R → Prop} (hinv : Inv calls s)
    (hQ : ∀ receipt s', Later calls t s s' →
      (∀ r', receipt = some r' → Sighted calls t r' s s') → Q receipt s') :
    triple calls (.call t) (readDurableDeliveryReceipt calls) Q E s := by
  have hnone : ∀ s', Later calls t s s' → Q none s' := fun s' hl => hQ none s' hl fun _ h => by cases h
  have hsome : ∀ r s', Later calls t s s' → Sighted calls t r s s' → Q (some r) s' :=
    fun r s' hl h => hQ (some r) s' hl fun _ hr => Option.some.inj hr ▸ h
  refine wp_attempt (wp_bind (wp_readFile hinv (fun raw s₁ hl₁ hraw => ?_) fun e s₁ hl₁ => hnone s₁ hl₁))
  split
  · exact hnone s₁ hl₁
  · rename_i receipt hparse
    have hsighted := (hraw receipt hparse).1
    split
    · refine wp_bind (wp_quietStep (c := .stat) trivial hl₁.inv fun _ _ _ s₂ _ _ _ hl₂ =>
        ⟨fun stat _ => ?_, fun _ _ => hnone s₂ (hl₁.trans hl₂)⟩)
      exact hsome _ s₂ (hl₁.trans hl₂) ((hsighted.later hl₂).atMtime stat.mtimeMs)
    · exact hsome _ s₁ hl₁ hsighted

/-- Between `s` and `s'` call `t` has read this snapshot of the receipt. -/
structure Snapped (calls : Calls R) (t : CallId) (v : Snapshot R) (s s' : DeliveryState R) : Prop where
  sighted : Sighted calls t v.receipt s s'
  /-- The bytes were there first, and then the file had this `stat`. -/
  at_read : ∃ r s₁ i s₂ j, v.raw = .record r ∧ v.receipt = r.atMtime v.stat.mtimeMs ∧ Later calls t s s₁ ∧
    Holds s₁ i r ∧ Later calls t s₁ s₂ ∧ s₂.path = some j ∧ v.stat = calls.stat s₂ j ∧ Later calls t s₂ s'

theorem wp_stat {Q : Stat → DeliveryState R → Prop} {E : DeliveryError → DeliveryState R → Prop} (hinv : Inv calls s)
    (hQ : ∀ i s', s.path = some i → Later calls t s s' → Q (calls.stat s i) s') (hE : ∀ e s', Later calls t s s' → E e
    s') : triple calls (.call t) (sys .stat) Q E s := by
  refine wp_quietStep trivial hinv fun ch r s₁ s' _ hexec _ hl => ⟨fun stat hr => ?_, fun e _ => hE e s' hl⟩
  subst hr
  obtain ⟨i, hi, rfl⟩ : ∃ i, s.path = some i ∧ stat = calls.stat s i := by
    cases hpath : s.path <;> cases ch <;> simp only [execLive, hpath, Option.some.injEq,
      Prod.mk.injEq, Except.ok.injEq, reduceCtorEq, false_and] at hexec <;>
      exact ⟨_, rfl, hexec.1.symm⟩
  exact hQ i s' hi hl

variable [DecidableEq R]

theorem wp_readDurableDeliveryReceiptSnapshot {Q : Option (Snapshot R) → DeliveryState R → Prop}
    {E : DeliveryError → DeliveryState R → Prop} (hinv : Inv calls s)
    (hQ : ∀ snapshot s', Later calls t s s' →
      (∀ v, snapshot = some v → Snapped calls t v s s') → Q snapshot s') :
    triple calls (.call t) (readDurableDeliveryReceiptSnapshot calls) Q E s := by
  have hnone : ∀ s', Later calls t s s' → Q none s' := fun s' hl => hQ none s' hl fun _ h => by cases h
  refine wp_attempt (wp_bind (wp_quietStep (c := .stat) trivial hinv fun _ _ _ s₁ _ _ _ hl₁ =>
    ⟨fun before _ => ?_, fun _ _ => hnone s₁ hl₁⟩))
  refine wp_bind (wp_readFile hl₁.inv (fun raw s₂ hl₂ hraw => ?_) fun e s₂ hl₂ =>
    hnone s₂ (hl₁.trans hl₂))
  have hl := hl₁.trans hl₂
  refine wp_bind (wp_stat hl₂.inv (fun j s₃ hj hl₃ => ?_) fun _ s₃ hl₃ => hnone s₃ (hl.trans hl₃))
  split
  · exact hnone s₃ (hl.trans hl₃)
  · rename_i receipt hparse
    obtain ⟨hsighted, s₀, i, hl₀, hi, hl₀₂⟩ := hraw receipt hparse
    replace hsighted := (hsighted.later hl₃).after hl₁
    split
    · exact hnone s₃ (hl.trans hl₃)
    · rename_i hsame
      refine wp_bind (wp_quietStep (c := .readFile) trivial hl₃.inv fun _ _ _ s₄ _ _ _ hl₄ =>
        ⟨fun again _ => ?_, fun _ _ => hnone s₄ ((hl.trans hl₃).trans hl₄)⟩)
      split
      · exact hnone s₄ ((hl.trans hl₃).trans hl₄)
      · refine hQ _ s₄ ((hl.trans hl₃).trans hl₄) fun v hv => ?_
        obtain rfl := Option.some.inj hv
        refine ⟨(hsighted.later hl₄).atMtime before.mtimeMs, receipt, s₀, i, s₂, j, parse_eq_some hparse, ?_,
          hl₁.trans hl₀, hi, hl₀₂, hj, rfl, hl₃.trans hl₄⟩
        show receipt.atMtime before.mtimeMs = receipt.atMtime (calls.stat s₂ j).mtimeMs
        rw [not_ne_iff.mp hsame]

end Reading

/-! ## Who executes the delivery -/

section Owner

variable {t : CallId} {s : DeliveryState R}

theorem uses_sameHostOwnerAlive (receipt : Receipt R) : (sameHostOwnerAlive calls t receipt).Uses Quiet := by
  unfold sameHostOwnerAlive
  split
  · split
    · trivial
    · exact uses_sys trivial
  · trivial

theorem uses_receiptExecutionActive (receipt : Receipt R) : (receiptExecutionActive calls t receipt).Uses Quiet := by
  unfold receiptExecutionActive
  split
  · trivial
  · refine .bind (uses_sameHostOwnerAlive receipt) fun alive => ?_
    split
    · trivial
    · refine .bind ?_ fun gone => ?_
      · unfold sameHostOwnerGone
        split
        · split
          · trivial
          · exact .bind (uses_sameHostOwnerAlive receipt) fun _ => trivial
        · trivial
      · split
        · trivial
        · split
          · trivial
          · exact .bind (uses_sys trivial) fun _ => trivial

theorem wp_receiptExecutionActive {receipt : Receipt R} {Q : Bool → DeliveryState R → Prop} {E : DeliveryError →
    DeliveryState R → Prop} (hinv : Inv calls s) (hQ : ∀ active s', Later calls t s s' → Q active s') (hE : ∀ e s',
    Later calls t s s' → E e s') : triple calls (.call t) (receiptExecutionActive calls t receipt) Q E s :=
  wp_mono (wp_quiet (uses_receiptExecutionActive receipt) hinv) hQ hE

theorem wp_requestAuthority {Q : Unit → DeliveryState R → Prop} {E : DeliveryError → DeliveryState R → Prop} (hinv : Inv
    calls s) (hQ : ∀ s', Later calls t s s' → Q () s') (hE : ∀ e s', Later calls t s s' → E e s') : triple calls (.call
    t) (sys .requestAuthority) Q E s :=
  wp_mono (wp_quiet (uses_sys trivial) hinv) (fun _ => hQ) hE

theorem wp_dateNow {Q : Nat → DeliveryState R → Prop} {E : DeliveryError → DeliveryState R → Prop} (hinv : Inv calls s)
    (hQ : ∀ now s', Later calls t s s' → Q now s') (hE : ∀ e s', Later calls t s s' → E e s') : triple calls (.call t)
    (sys .dateNow) Q E s :=
  wp_mono (wp_quiet (uses_sys trivial) hinv) hQ hE

end Owner

/-! ## The mutation lock -/

/-- The thread, while it runs, has the mutation lock. -/
structure Locked (calls : Calls R) (thread : Thread) (s : DeliveryState R) : Prop where
  inv : Inv calls s
  lock : runs calls s thread = true → s.lock = some thread

theorem Locked.later {thread : Thread} {s s' : DeliveryState R} (h : Locked calls thread s)
    (hl : (discipline calls).Later thread s s') : Locked calls thread s' :=
  ⟨hl.inv, fun hr => hl.rely.lock hr (h.lock (hl.rely.base.runs hr))⟩

/-- Under the lock a receipt that has been read is still there. -/
theorem Sighted.held {t : CallId} {r' : Receipt R} {s s' : DeliveryState R} (h : Sighted calls t r' s s') (hlocked :
    Locked calls (.call t) s) (hr : runs calls s' (.call t) = true) : ∃ i r, Holds s' i r ∧ Reads r r' := by
  obtain ⟨s₁, i, r, hl₁, hi, hreads, hl'⟩ := h.at_read
  have hlock := (hlocked.later hl₁).lock (hl'.rely.base.runs hr)
  exact ⟨i, r, hl'.rely.held hr hlock i r hi, hreads⟩

section Lock

variable {thread : Thread} {t : CallId} {s : DeliveryState R}

theorem steady_lock {holder : Option Thread} (hinv : Inv calls { s with lock := holder }) :
    Steady calls t s { s with lock := holder } :=
  ⟨hinv, ⟨fun _ _ h => h, fun _ h => h, fun _ h => h, fun _ _ h _ => h⟩, ⟨rfl, rfl, rfl, rfl, rfl, rfl, rfl, rfl⟩⟩

theorem guarantee_take (hinv : Inv calls s) (hfree : lockFree calls s = true) :
    (discipline calls).Guarantee thread s { s with lock := some thread } := by
  refine guarantee_lock hinv fun u _ hr hl => ?_
  -- the lock of a thread that runs is not free
  have halive : calls.alive s u.id = true := by
    cases u with
    | call w => exact hr
    | heartbeat w => exact ((Bool.and_eq_true _ _).mp hr).1
  simp [lockFree, hl, halive] at hfree

theorem guarantee_release (hinv : Inv calls s) :
    (discipline calls).Guarantee thread s
      (if s.lock = some thread then { s with lock := none } else s) := by
  split
  · rename_i hlock
    exact guarantee_lock hinv fun u hu _ hl => absurd (Option.some.inj (hl.symm.trans hlock)) hu
  · exact guarantee_self hinv

theorem wp_lock {Q : Unit → DeliveryState R → Prop} {E : DeliveryError → DeliveryState R → Prop} (hinv : Inv calls s)
    (hQ : ∀ s', Steady calls t s s' → Locked calls (.call t) s' → Q () s') (hE : ∀ e s', Steady calls t s s' → E e s') :
    triple calls (.call t) (sys .lock) Q E s := by
  refine wp_step fun ch r s' _ hexec => ?_
  have hcases : (s' = s ∧ ∃ e, r = .error e) ∨
      lockFree calls s = true ∧ s' = { s with lock := some (.call t) } := by
    cases ch <;> simp only [execLive] at hexec <;> (try split at hexec) <;>
      simp only [Option.some.injEq, Prod.mk.injEq, reduceCtorEq] at hexec <;>
      obtain ⟨rfl, rfl⟩ := hexec <;> simp [*]
  rcases hcases with ⟨rfl, e, rfl⟩ | ⟨hfree, rfl⟩
  · exact ⟨guarantee_self hinv, fun s'' hl =>
      ⟨(fun _ hv => by cases hv), fun e _ => hE e s'' (.of_later hl)⟩⟩
  · have hg : (discipline calls).Guarantee (.call t) s { s with lock := some (.call t) } :=
      guarantee_take hinv hfree
    have hlocked : Locked calls (.call t) { s with lock := some (.call t) } := ⟨hg.inv, fun _ => rfl⟩
    exact ⟨hg, fun s'' hl => ⟨fun _ _ => hQ s'' ((steady_lock hg.inv).later hl) (hlocked.later hl),
      fun e _ => hE e s'' ((steady_lock hg.inv).later hl)⟩⟩

theorem wp_unlock {Q : Unit → DeliveryState R → Prop} {E : DeliveryError → DeliveryState R → Prop}
    (hinv : Inv calls s) (hQ : ∀ s', Steady calls t s s' → Q () s')
    (hE : ∀ e s', Steady calls t s s' → E e s') : triple calls (.call t) (sys .unlock) Q E s := by
  refine wp_step fun ch r s' _ hexec => ?_
  have hcases : s' = s ∨ s' = if s.lock = some (.call t) then { s with lock := none } else s := by
    cases ch <;> simp only [execLive, Option.some.injEq, Prod.mk.injEq] at hexec <;>
      obtain ⟨-, rfl⟩ := hexec <;> simp
  have hg : (discipline calls).Guarantee (.call t) s s' := by
    rcases hcases with rfl | rfl
    · exact guarantee_self hinv
    · exact guarantee_release hinv
  have hs : Steady calls t s s' := by
    rcases hcases with rfl | rfl
    · exact .self hinv
    · by_cases hlock : s.lock = some (.call t)
      · rw [if_pos hlock] at hg ⊢
        exact steady_lock hg.inv
      · rw [if_neg hlock]
        exact .self hinv
  exact ⟨hg, fun s'' hl => ⟨fun _ _ => hQ s'' (hs.later hl), fun e _ => hE e s'' (hs.later hl)⟩⟩

/-- The lock around an action: `Q` and `F` survive its release, and a failing release leaves `F`. -/
theorem wp_withReceiptMutationLock {α : Type} {action : Prog R α}
    {Q : α → DeliveryState R → Prop} {F : DeliveryState R → Prop} (hinv : Inv calls s)
    (hQ : ∀ a s₁, Q a s₁ → Inv calls s₁ ∧ F s₁ ∧ ∀ s₂, Steady calls t s₁ s₂ → Q a s₂)
    (hF : ∀ s₁, F s₁ → Inv calls s₁ ∧ ∀ s₂, Steady calls t s₁ s₂ → F s₂)
    (hstart : ∀ s₁, Steady calls t s s₁ → F s₁)
    (haction : ∀ s₁, Steady calls t s s₁ → Locked calls (.call t) s₁ →
      triple calls (.call t) action Q (fun _ => F) s₁) :
    triple calls (.call t) (withReceiptMutationLock action) Q (fun _ => F) s := by
  refine wp_bind (wp_lock hinv (fun s₁ hs₁ hlocked => ?_) fun _ s₁ hs₁ => hstart s₁ hs₁)
  refine wp_ensure (wp_mono (haction s₁ hs₁ hlocked) (fun a s₂ ha => ?_) fun _ s₂ hf => ?_)
  · obtain ⟨hinv₂, hf, hkeep⟩ := hQ a s₂ ha
    exact wp_unlock hinv₂ (fun s₃ hs₃ => hkeep s₃ hs₃) fun _ s₃ hs₃ => (hF s₂ hf).2 s₃ hs₃
  · obtain ⟨hinv₂, hkeep⟩ := hF s₂ hf
    exact wp_unlock hinv₂ (fun s₃ hs₃ => hkeep s₃ hs₃) fun _ s₃ hs₃ => hkeep s₃ hs₃

end Lock

end RabiRoute.DurableDelivery
